import KnowledgeAlakazam.Wiki.CompileCourse
import KnowledgeAlakazam.Wiki.Endpoints

/-!
# The route that compiles a page

`POST /wiki/compile` asks the registry for the runtime of the tenant, starts a compile for a topic
or a source, and turns what comes out into a response. Five classes of exceptions have a clause of
their own, and a clause also catches the subclasses of its class, so how classes derive from each
other is a parameter (`bases`), as are the two things that come from outside: whether the registry
had a runtime, and how the query ended.

Compiles and the other routes work on the same tables. `compiles_served` follows runs of both: in
whatever state earlier requests have left the wiki, a compile none of whose statements is
interrupted gets the response that its body, the runtime and the query lead to
(`WikiCompileRequest.outcome`), whichever pages there are, and the articles have exactly what the
response says.
-/

namespace KnowledgeAlakazam

open Program

/-! ## The request -/

/-- `WikiCompileRequest`. -/
structure WikiCompileRequest where
  tenantId : String
  sourceId : Option String := none
  topic : Option String := none
  targetSlug : Option String := none

/-- What a compile meets with: the runtime of the registry, the answer to the query, the times of
the transactions of the page and of the claims, and how the statements end. -/
structure CompileConditions where
  runtime : Except PyException Unit
  answer : Except PyException RAGQueryResult
  pageTime : ℤ
  claimTime : ℕ → ℤ
  outcomes : List (Option PyException)

/-- `_compile_topic_query`. -/
def compileTopicQuery (unicode : UnicodeData) (topic : String) (sourceId : Option String) :
    String :=
  if sourceId.getD "" ≠ "" then
    "Return source-backed evidence about " ++ PyValue.reprText unicode topic ++ " from document "
      ++ PyValue.reprText unicode (sourceId.getD "")
      ++ ". Focus on facts, key concepts, relationships, and open questions."
  else
    "Return source-backed evidence about " ++ PyValue.reprText unicode topic
      ++ ". Focus on facts, key concepts, relationships, and open questions."

namespace WikiCompileRequest

/-- The `min_length` checks of the schema. -/
def checked (payload : WikiCompileRequest) : Except (List FieldError) Unit :=
  checkedFields "body" [("tenant_id", some payload.tenantId), ("source_id", payload.sourceId),
    ("topic", payload.topic), ("target_slug", payload.targetSlug)] ()

/-- There is a source or a topic. -/
def Named (payload : WikiCompileRequest) : Prop :=
  payload.sourceId.getD "" ≠ "" ∨ payload.topic.getD "" ≠ ""

instance (payload : WikiCompileRequest) : Decidable payload.Named :=
  inferInstanceAs (Decidable (_ ∨ _))

def call (unicode : UnicodeData) (payload : WikiCompileRequest) : Except PyException CompileCall :=
  if payload.topic.getD "" ≠ "" then
    .ok (.topicPage payload.tenantId (payload.topic.getD "")
      (compileTopicQuery unicode (payload.topic.getD "") payload.sourceId) payload.sourceId
      payload.targetSlug)
  else
    match payload.sourceId with
    | none => .error (valueError "source_id is required when topic is omitted")
    | some sourceId => .ok (.sourceToPages payload.tenantId sourceId payload.targetSlug)

/-- The `except` clauses of the route, in their order. -/
def excepts : List (String × ℕ) :=
  [("RAGRuntimeDisabledError", 503), ("RAGRuntimeConfigurationError", 503),
    ("RAGRuntimeUnavailableError", 503), ("ValueError", 400), ("RAGRuntimeError", 500)]

/-- The status and the text for an exception: those of the first clause that names its class or one
of those that it derives from (`bases` lists them all). -/
def failure (bases : String → List String) (e : PyException) : ℕ × ErrorDetail :=
  match excepts.find? fun clause ↦ clause.1 ∈ bases e.className with
  | some clause => (clause.2, .text e.text)
  | none => (500, .text "Internal Server Error")

end WikiCompileRequest

/-! ## The response -/

/-- `WikiCompiledPageResponse`. -/
structure WikiCompiledPageResponse where
  pageId : ℕ
  slug : String
  title : String
  revisionId : ℕ
  revisionNo : ℕ
  claimCount : ℕ

/-- `WikiCompileResponse`. -/
structure WikiCompileResponse where
  jobId : ℕ
  tenantId : String
  sourceId : String
  targetSlug : Option String
  status : String
  error : Option String
  pages : List WikiCompiledPageResponse

/-- What the route responds with: the status, and a body or the detail of the error. -/
structure CompileResponse where
  status : ℕ
  body : Except ErrorDetail WikiCompileResponse

/-- `_compiled_page_response`. -/
def compiledPageResponse (page : WikiCompiledPage) : WikiCompiledPageResponse where
  pageId := page.pageId
  slug := page.slug
  title := page.title
  revisionId := page.revisionId
  revisionNo := page.revisionNo
  claimCount := page.claimCount

/-- `_compile_job_status`. -/
def compileJobStatus (status : String) : Except PyException String :=
  if status ∈ ["pending", "processing", "succeeded", "failed"] then .ok status
  else .error (valueError ("Unknown wiki compile job status: " ++ status))

/-- `_compile_response`. -/
def compileResponse (result : WikiCompileResult) : Except PyException WikiCompileResponse := do
  let status ← compileJobStatus result.job.status
  return {
    jobId := result.job.id
    tenantId := result.job.tenantId
    sourceId := result.job.sourceId
    targetSlug := result.job.targetSlug
    status := status
    error := result.job.error
    pages := result.pages.map compiledPageResponse }

/-- The database after a compile: its page is written in one transaction, every claim in one of
its own. -/
def WikiDatabase.stampCompile (db : WikiDatabase) (pageTime : ℤ) (claimTime : ℕ → ℤ)
    (wiki : WikiStore) : WikiDatabase where
  wiki := wiki
  updatedAt i := if wiki.pages.find i = db.wiki.pages.find i then db.updatedAt i else pageTime
  claimedAt i := if wiki.claims.find i = db.wiki.claims.find i then db.claimedAt i else claimTime i
  validationResults := db.validationResults

section Definitions

variable (unicode : UnicodeData) (bases : String → List String)

def CompileResponse.failed (r : ℕ × ErrorDetail) : CompileResponse := ⟨r.1, .error r.2⟩

namespace WikiCompileRequest

/-- The response when the compile has ended; `_compile_response` stands outside the `try` block. -/
def respond : Except PyException WikiCompileResult → CompileResponse
  | .error e => .failed (failure bases e)
  | .ok result =>
    match compileResponse result with
    | .ok body => ⟨200, .ok body⟩
    | .error _ => .failed (500, .text "Internal Server Error")

/-- The compile of a call, in a session of its own. -/
def compile (call : CompileCall) (conditions : CompileConditions) (s : DatabaseState) :
    Except PyException WikiCompileResult × DatabaseState :=
  let r := call.program unicode conditions.answer
    (Session.start s.db.wiki s.nextId conditions.outcomes)
  (r.1, ⟨s.db.stampCompile conditions.pageTime conditions.claimTime r.2.committed, r.2.nextId⟩)

/-- `compile_wiki`. -/
def handle (payload : WikiCompileRequest) (conditions : CompileConditions) (s : DatabaseState) :
    CompileResponse × DatabaseState :=
  match payload.checked with
  | .error errors => (.failed (422, .fields errors), s)
  | .ok _ =>
    if payload.Named then
      match (do conditions.runtime; payload.call unicode : Except PyException CompileCall) with
      | .error e => (.failed (failure bases e), s)
      | .ok call =>
        let r := compile unicode call conditions s
        (respond bases r.1, r.2)
    else (.failed (400, .text "Either source_id or topic is required"), s)

/-- What a request should come to: the input of its compile, or the error it gets. -/
def outcome (payload : WikiCompileRequest) (conditions : CompileConditions) :
    Except (ℕ × ErrorDetail) CompileInput :=
  match payload.checked with
  | .error errors => .error (422, .fields errors)
  | .ok _ =>
    if payload.Named then
      (do conditions.runtime
          let call ← payload.call unicode
          call.input unicode conditions.answer : Except PyException CompileInput).mapError
        (failure bases)
    else .error (400, .text "Either source_id or topic is required")

end WikiCompileRequest

/-- A call of the wiki: a compile, or one of the other routes and operations. -/
inductive ServerCall where
  | compile (payload : WikiCompileRequest) (conditions : CompileConditions)
  | route (call : RouteCall)

namespace ServerCall

variable (postgres : PostgresData)

def step (s : DatabaseState) : ServerCall → Option DatabaseState
  | compile payload conditions => some (payload.handle unicode bases conditions s).2
  | route call => call.step unicode postgres s

def response (s : DatabaseState) : ServerCall → CompileResponse ⊕ Option WikiResponse
  | compile payload conditions => .inl (payload.handle unicode bases conditions s).1
  | route call => .inr (call.response unicode postgres s)

end ServerCall

end Definitions

/-! ## What the responses should be -/

section Served

variable {unicode : UnicodeData} {bases : String → List String} {N N' : Notebook}

/-- The body says that the page was compiled: its slug and title, the number of its new version,
and how many claims the version has. -/
structure SaysCompiled (unicode : UnicodeData) (N : Notebook) (input : CompileInput)
    (title : String) (body : WikiCompileResponse) : Prop where
  status : body.status = "succeeded"
  page : ∃ page, body.pages = [page] ∧ page.slug = input.slug ∧ page.title = title ∧
    page.revisionNo = (N.compiledArticle unicode input title).history.all.length ∧
    page.claimCount = (input.claims unicode).length

namespace Notebook

/-- **What a compile does.** If a statement was interrupted, the page may have been read as one
that is not there, and an error may have left the page behind, with some of its claims. -/
inductive ServesCompile (unicode : UnicodeData) (bases : String → List String) (N : Notebook)
    (payload : WikiCompileRequest) (conditions : CompileConditions) :
    CompileResponse → Notebook → Prop
  | refused {r : ℕ × ErrorDetail} (h : payload.outcome unicode bases conditions = .error r) :
    ServesCompile unicode bases N payload conditions (.failed r) N
  | compiled {input : CompileInput} {title : String} {body : WikiCompileResponse}
    (h : payload.outcome unicode bases conditions = .ok input)
    (htitle : title = N.compileTitle unicode input ∨
      conditions.outcomes ≠ [] ∧ title = input.newTitle unicode)
    (hbody : SaysCompiled unicode N input title body) :
    ServesCompile unicode bases N payload conditions ⟨200, .ok body⟩
      (N.compiled unicode input title (input.claims unicode))
  | interrupted {r : ℕ × ErrorDetail} (houtcomes : conditions.outcomes ≠ []) :
    ServesCompile unicode bases N payload conditions (.failed r) N
  | leftBehind {input : CompileInput} {title : String} {done : List (List Char)}
    {r : ℕ × ErrorDetail}
    (houtcomes : conditions.outcomes ≠ [])
    (h : payload.outcome unicode bases conditions = .ok input)
    (htitle : title = N.compileTitle unicode input ∨ title = input.newTitle unicode)
    (hdone : done <+: input.claims unicode) :
    ServesCompile unicode bases N payload conditions (.failed r)
      (N.compiled unicode input title done)

/-- Calls, one after the other, with what is responded. -/
inductive ServesCalls (unicode : UnicodeData) (bases : String → List String)
    (postgres : PostgresData) :
    Notebook → List (ServerCall × (CompileResponse ⊕ Option WikiResponse)) → Notebook → Prop
  | nil {N : Notebook} : ServesCalls unicode bases postgres N [] N
  | compile {N N₁ N' : Notebook} {payload : WikiCompileRequest} {conditions : CompileConditions}
    {response : CompileResponse}
    {rest : List (ServerCall × (CompileResponse ⊕ Option WikiResponse))}
    (h : N.ServesCompile unicode bases payload conditions response N₁)
    (hrest : ServesCalls unicode bases postgres N₁ rest N') :
    ServesCalls unicode bases postgres N ((.compile payload conditions, .inl response) :: rest) N'
  | route {N N₁ N' : Notebook} {call : RouteCall} {response : Option WikiResponse}
    {rest : List (ServerCall × (CompileResponse ⊕ Option WikiResponse))}
    (h : N.Serves unicode postgres call response N₁)
    (hrest : ServesCalls unicode bases postgres N₁ rest N') :
    ServesCalls unicode bases postgres N ((.route call, .inr response) :: rest) N'

theorem Written.compiled (hN : N.Written) {input : CompileInput} {title : String}
    (claims : List (List Char)) : (N.compiled unicode input title claims).Written := by
  refine hN.put ?_
  rw [current_compiledArticle]
  rfl

end Notebook

/-! ## One compile -/

section Call

variable {call : CompileCall} {request : CompileRequest}
  {answer : Except PyException RAGQueryResult} {W₀ W : WikiStore}
  {s : Session WikiStore PyException} {input : CompileInput}

theorem CompileCall.input_of_request (h : call.request unicode = .ok request) :
    call.input unicode answer = request.input unicode answer := by
  rw [CompileCall.input, h]
  rfl

theorem CompileCall.program_error {e : PyException} (h : call.request unicode = .error e) :
    call.program unicode answer s = (.error e, s) := by
  rw [CompileCall.program_eq, h]
  rfl

theorem CompileCall.program_ok (h : call.request unicode = .ok request) :
    call.program unicode answer s = WikiCompiler.compile unicode request answer s := by
  rw [CompileCall.program_eq, h]
  rfl

/-- What any call does. -/
theorem Recorded.outTx_call (h : Recorded W₀ N W) (call : CompileCall)
    (answer : Except PyException RAGQueryResult) :
    OutTx (call.program unicode answer) W
      (fun result W' ↦ ∃ input title, call.input unicode answer = .ok input ∧
        (title = N.compileTitle unicode input ∨ title = input.newTitle unicode) ∧
        AllCompiled unicode W₀ N input title result W')
      fun _ W' ↦ Recorded W₀ N W' ∨ ∃ input title done,
        call.input unicode answer = .ok input ∧
        (title = N.compileTitle unicode input ∨ title = input.newTitle unicode) ∧
        done <+: input.claims unicode ∧
        Recorded W₀ (N.compiled unicode input title done) W' := by
  rw [CompileCall.program_eq]
  refine (OutTx.ofExcept (Q := fun request W' ↦ call.request unicode = .ok request ∧ W = W')
    (fun _ h ↦ ⟨h, rfl⟩) fun _ _ ↦ .inl h).bind ?_
  rintro request _ ⟨hrequest, rfl⟩
  rw [CompileCall.input_of_request hrequest]
  exact h.outTx_compile request answer

theorem Undisturbed.program_ok (hs : Undisturbed W₀ N W s)
    (hinput : call.input unicode answer = .ok input) :
    ∃ result s', call.program unicode answer s = (.ok result, s') ∧
      AllCompiled unicode W₀ N input (N.compileTitle unicode input) result s'.committed := by
  obtain ⟨request, hrequest, hrest⟩ := exists_of_bind_eq_ok hinput
  obtain ⟨result, s', hrun, hdone⟩ := hs.compile hrest
  exact ⟨result, s', (CompileCall.program_ok hrequest).trans hrun, hdone⟩

theorem Undisturbed.program_error {e : PyException} (hs : Undisturbed W₀ N W s)
    (hinput : call.input unicode answer = .error e) :
    ∃ s', call.program unicode answer s = (.error e, s') ∧ Recorded W₀ N s'.committed := by
  rcases error_of_bind_eq_error hinput with hrequest | ⟨request, hrequest, hrest⟩
  · exact ⟨s, CompileCall.program_error hrequest, hs.idle.committed.symm ▸ hs.sound⟩
  · obtain ⟨s', hrun, hsound⟩ := hs.compile_error hrest
    exact ⟨s', (CompileCall.program_ok hrequest).trans hrun, hsound⟩

theorem preserves_call (call : CompileCall) (answer : Except PyException RAGQueryResult) :
    Preserves WikiStore.Numbered (call.program unicode answer) := by
  rw [CompileCall.program_eq]
  exact (Preserves.ofExcept _).bind fun request ↦ preserves_compile unicode request answer

end Call

/-! ## One request -/

section Requests

variable {payload : WikiCompileRequest} {conditions : CompileConditions} {s : DatabaseState}
  {call : CompileCall}

theorem WikiCompileRequest.outcome_of_named (hchecked : payload.checked = .ok ())
    (hnamed : payload.Named) : payload.outcome unicode bases conditions =
      (do conditions.runtime
          let call ← payload.call unicode
          call.input unicode conditions.answer : Except PyException CompileInput).mapError
        (failure bases) := by
  rw [outcome, hchecked]
  dsimp only
  rw [if_pos hnamed]

theorem WikiCompileRequest.outcome_of_call (hchecked : payload.checked = .ok ())
    (hnamed : payload.Named) (hruntime : conditions.runtime = .ok ())
    (hcall : payload.call unicode = .ok call) :
    payload.outcome unicode bases conditions =
      (call.input unicode conditions.answer).mapError (failure bases) := by
  rw [outcome_of_named hchecked hnamed, hruntime]
  change (payload.call unicode >>= _).mapError _ = _
  rw [hcall]
  rfl

theorem WikiCompileRequest.outcome_of_error (hchecked : payload.checked = .ok ())
    (hnamed : payload.Named) {e : PyException}
    (hcall : (do conditions.runtime; payload.call unicode : Except PyException CompileCall) =
      .error e) :
    payload.outcome unicode bases conditions = .error (failure bases e) := by
  rw [outcome_of_named hchecked hnamed]
  rcases error_of_bind_eq_error hcall with hruntime | ⟨_, hruntime, hcall⟩
  · rw [hruntime]
    rfl
  · rw [hruntime]
    change (payload.call unicode >>= _).mapError _ = _
    rw [hcall]
    rfl

theorem SaysCompiled.of_all {W₀ W' : WikiStore} {input : CompileInput} {title : String}
    {result : WikiCompileResult} (h : AllCompiled unicode W₀ N input title result W') :
    ∃ body, WikiCompileRequest.respond bases (.ok result) = ⟨200, .ok body⟩ ∧
      SaysCompiled unicode N input title body := by
  obtain ⟨page, hpages, hpage⟩ := h.page
  have hstatus := h.status
  have hallowed : compileJobStatus result.job.status = .ok "succeeded" := by
    rw [hstatus]
    decide
  have hbody : compileResponse result = .ok
      { jobId := result.job.id
        tenantId := result.job.tenantId
        sourceId := result.job.sourceId
        targetSlug := result.job.targetSlug
        status := "succeeded"
        error := result.job.error
        pages := result.pages.map compiledPageResponse } := by
    rw [compileResponse, hallowed]
    rfl
  refine ⟨_, by rw [WikiCompileRequest.respond, hbody], rfl, compiledPageResponse page, ?_,
    hpage.slug, hpage.title, hpage.revisionNo, hpage.claimCount⟩
  rw [hpages]
  rfl

/-- The rows of a compile have their times, and the findings what they are about. -/
theorem Recorded.stampCompile {W' : WikiStore} {pageTime : ℤ} {claimTime : ℕ → ℤ}
    (hdb : s.db.Intact) (h : Recorded s.db.wiki N W') :
    (s.db.stampCompile pageTime claimTime W').Intact :=
  ⟨h.intact, fun result hresult ↦ ⟨h.keeps.pages _ _ (hdb.results result hresult).1,
    h.keeps.revisions _ _ (hdb.results result hresult).2⟩⟩

/-- A database that is the notebook, and whose articles are written. -/
structure Serving (N : Notebook) (s : DatabaseState) : Prop where
  intact : s.db.Intact
  numbered : s.db.Numbered s.nextId
  depicts : Depicts s.db.wiki N
  written : N.Written

theorem Serving.compile {result : Except PyException WikiCompileResult}
    {s' : Session WikiStore PyException} (hs : Serving N s)
    (hrun : call.program unicode conditions.answer
      (Session.start s.db.wiki s.nextId conditions.outcomes) = (result, s'))
    (hrecorded : Recorded s.db.wiki N' s'.committed) (hwritten : N'.Written) :
    (WikiCompileRequest.compile unicode call conditions s).1 = result ∧
      Serving N' (WikiCompileRequest.compile unicode call conditions s).2 := by
  obtain ⟨hle, hcommitted, -⟩ := preserves_call call conditions.answer
    (Session.start s.db.wiki s.nextId conditions.outcomes) hs.numbered.wiki hs.numbered.wiki
  rw [hrun] at hle hcommitted
  rw [WikiCompileRequest.compile, hrun]
  exact ⟨rfl, hrecorded.stampCompile hs.intact,
    ⟨hcommitted, hs.numbered.validationResults.mono hle⟩, hrecorded.depicts, hwritten⟩

/-- A call of which no statement is interrupted. -/
theorem Serving.serves_call (hs : Serving N s) (houtcomes : conditions.outcomes = [])
    (houtcome : payload.outcome unicode bases conditions =
      (call.input unicode conditions.answer).mapError (WikiCompileRequest.failure bases)) :
    ∃ N', N.ServesCompile unicode bases payload conditions (WikiCompileRequest.respond bases
        (WikiCompileRequest.compile unicode call conditions s).1) N' ∧
      Serving N' (WikiCompileRequest.compile unicode call conditions s).2 := by
  have hundisturbed : Undisturbed s.db.wiki N s.db.wiki
      (Session.start s.db.wiki s.nextId conditions.outcomes) :=
    ⟨⟨hs.intact.wiki, hs.depicts, .refl⟩, Session.idle_start _ _ _, houtcomes, hs.numbered.wiki⟩
  -- The input alone decides how the call ends; the tables have no say.
  cases hinput : call.input unicode conditions.answer with
  | error e =>
    obtain ⟨s', hrun, hsound⟩ := hundisturbed.program_error hinput
    obtain ⟨hresult, hkept⟩ := hs.compile hrun hsound hs.written
    rw [hinput] at houtcome
    refine ⟨N, ?_, hkept⟩
    rw [hresult]
    exact .refused houtcome
  | ok input =>
    obtain ⟨result, s', hrun, hdone⟩ := hundisturbed.program_ok hinput
    obtain ⟨hresult, hkept⟩ := hs.compile hrun hdone.sound (hs.written.compiled _)
    rw [hinput] at houtcome
    obtain ⟨body, hbody, hsays⟩ := @SaysCompiled.of_all _ bases _ _ _ _ _ _ hdone
    refine ⟨_, ?_, hkept⟩
    rw [hresult, hbody]
    exact .compiled houtcome (.inl rfl) hsays

theorem Serving.serves_interrupted (hs : Serving N s) (houtcomes : conditions.outcomes ≠ [])
    (houtcome : payload.outcome unicode bases conditions =
      (call.input unicode conditions.answer).mapError (WikiCompileRequest.failure bases)) :
    ∃ N', N.ServesCompile unicode bases payload conditions (WikiCompileRequest.respond bases
        (WikiCompileRequest.compile unicode call conditions s).1) N' ∧
      Serving N' (WikiCompileRequest.compile unicode call conditions s).2 := by
  have hrecorded : Recorded s.db.wiki N s.db.wiki := ⟨hs.intact.wiki, hs.depicts, .refl⟩
  have hout := @Recorded.outTx_call unicode _ _ _ hrecorded call conditions.answer
  have hidle := Session.idle_start (ε := PyException) s.db.wiki s.nextId conditions.outcomes
  rcases hrun : call.program unicode conditions.answer
    (Session.start s.db.wiki s.nextId conditions.outcomes) with ⟨e | result, s'⟩
  -- An error does not tell what was committed before it.
  · obtain hsame | ⟨input, title, done, hinput, htitle, hdone, hleft⟩ :=
      hout.committed_error hidle hrun
    · obtain ⟨hresult, hkept⟩ := hs.compile hrun hsame hs.written
      refine ⟨N, ?_, hkept⟩
      rw [hresult]
      exact .interrupted houtcomes
    · obtain ⟨hresult, hkept⟩ := hs.compile hrun hleft (hs.written.compiled _)
      rw [hinput] at houtcome
      refine ⟨_, ?_, hkept⟩
      rw [hresult]
      exact .leftBehind houtcomes houtcome htitle hdone
  · obtain ⟨input, title, hinput, htitle, hdone⟩ := hout.committed_ok hidle hrun
    obtain ⟨hresult, hkept⟩ := hs.compile hrun hdone.sound (hs.written.compiled _)
    rw [hinput] at houtcome
    obtain ⟨body, hbody, hsays⟩ := @SaysCompiled.of_all _ bases _ _ _ _ _ _ hdone
    refine ⟨_, ?_, hkept⟩
    rw [hresult, hbody]
    exact .compiled houtcome (htitle.imp_right fun h ↦ ⟨houtcomes, h⟩) hsays

/-- **One compile request.** -/
theorem Serving.serves_compile (hs : Serving N s) (payload : WikiCompileRequest)
    (conditions : CompileConditions) :
    ∃ N', N.ServesCompile unicode bases payload conditions
        (payload.handle unicode bases conditions s).1 N' ∧
      Serving N' (payload.handle unicode bases conditions s).2 := by
  cases hchecked : payload.checked with
  | error errors =>
    -- refused by the schema, before the route is entered
    have houtcome : payload.outcome unicode bases conditions = .error (422, .fields errors) := by
      rw [WikiCompileRequest.outcome, hchecked]
    rw [WikiCompileRequest.handle, hchecked]
    exact ⟨N, .refused houtcome, hs⟩
  | ok _ =>
    rw [WikiCompileRequest.handle, hchecked]
    dsimp only
    by_cases hnamed : payload.Named
    · rw [if_pos hnamed]
      cases hcall : (do conditions.runtime; payload.call unicode : Except PyException CompileCall)
        with
      | error e =>
        have houtcome := @WikiCompileRequest.outcome_of_error unicode bases _ _ hchecked hnamed e
          hcall
        exact ⟨N, .refused houtcome, hs⟩
      | ok call =>
        obtain ⟨_, hruntime, hcall⟩ := exists_of_bind_eq_ok hcall
        have houtcome := @WikiCompileRequest.outcome_of_call unicode bases _ _ _ hchecked
          hnamed hruntime hcall
        by_cases houtcomes : conditions.outcomes = []
        · exact hs.serves_call houtcomes houtcome
        · exact hs.serves_interrupted houtcomes houtcome
    · have houtcome : payload.outcome unicode bases conditions =
          .error (400, .text "Either source_id or topic is required") := by
        rw [WikiCompileRequest.outcome, hchecked]
        dsimp only
        rw [if_neg hnamed]
      rw [if_neg hnamed]
      exact ⟨N, .refused houtcome, hs⟩

end Requests

/-! ## Runs -/

section Runs

variable {postgres : PostgresData} {s : DatabaseState}

theorem serving_initial : Serving .empty .initial where
  intact := WikiDatabase.Intact.empty
  numbered := WikiDatabase.Numbered.empty 0
  depicts := depicts_empty
  written _ _ _ h := absurd h (Option.some_ne_none _).symm

theorem servesCalls_run (hs : Serving N s) (calls : List ServerCall) :
    ∃ N', Notebook.ServesCalls unicode bases postgres N
        ((trace (ServerCall.step unicode bases postgres) s calls).map
          fun t ↦ (t.label, t.label.response unicode bases postgres t.pre)) N' ∧
      Depicts (run (ServerCall.step unicode bases postgres) s calls).db.wiki N' := by
  induction calls generalizing s N with
  | nil => exact ⟨N, .nil, hs.depicts⟩
  | cons call calls ih =>
    cases call with
    | compile payload conditions =>
      have hone : ∃ N₁, N.ServesCompile unicode bases payload conditions
          (payload.handle unicode bases conditions s).1 N₁ ∧
          Serving N₁ (payload.handle unicode bases conditions s).2 :=
        hs.serves_compile payload conditions
      obtain ⟨N₁, hserves, hkept⟩ := hone
      have hstep : ServerCall.step unicode bases postgres s (.compile payload conditions) =
        some (payload.handle unicode bases conditions s).2 := rfl
      obtain ⟨N', hrest, hend⟩ := ih hkept
      rw [trace_cons_of_some hstep, run_cons_of_some hstep, List.map_cons]
      exact ⟨N', .compile hserves hrest, hend⟩
    | route call =>
      obtain ⟨s', N₁, hstep, ⟨hintact, hnumbered⟩, hserves, hdepicts, hwritten⟩ :=
        @RouteCall.serves unicode postgres N s call hs.intact hs.numbered hs.depicts hs.written
      have hstep' : ServerCall.step unicode bases postgres s (.route call) = some s' := hstep
      obtain ⟨N', hrest, hend⟩ := @ih N₁ s' ⟨hintact, hnumbered, hdepicts, hwritten⟩
      rw [trace_cons_of_some hstep', run_cons_of_some hstep', List.map_cons]
      exact ⟨N', .route hserves hrest, hend⟩

end Runs

end Served

/-- **Compiles are served.** Whatever was called before, by compiles, by requests or by other code,
and whichever statements were interrupted: a compile of which no statement is interrupted gets what
its body, the runtime and the query lead to, and a body with the status 200 is given only when the
article has its new version, with all claims. -/
theorem compiles_served (unicode : UnicodeData) (bases : String → List String)
    (postgres : PostgresData) (calls : List ServerCall) :
    ∃ N, Notebook.ServesCalls unicode bases postgres .empty
        ((trace (ServerCall.step unicode bases postgres) .initial calls).map
          fun t ↦ (t.label, t.label.response unicode bases postgres t.pre)) N ∧
      Depicts (run (ServerCall.step unicode bases postgres) .initial calls).db.wiki N :=
  servesCalls_run serving_initial calls

end KnowledgeAlakazam
