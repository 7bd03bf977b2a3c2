import KnowledgeAlakazam.Wiki.Answered
import KnowledgeAlakazam.Wiki.Findings
import KnowledgeAlakazam.Wiki.PageMetadata

/-!
# The wiki over HTTP

The routes of `app/api/wiki.py` that read and write pages. A request is checked by its schema, its
operation is run in a session of its own, and what comes out is made into a response: a body, or
the detail of an error under the status that the `except` clauses of the route give it.

The body of a page has the time of its last update. The `UPDATE` that ends a new revision leaves
that column to the database, so that in the session that wrote the page reading it needs a
statement, which fails: the two routes that write a page commit and then respond with an internal
error.

Which response it is can be said without the tables. The notebook knows whether a request has to be
refused, and with which status and detail (`Notebook.refusal`): the schema is not met, the slug
comes to nothing, or there is no article and the route needs one. Every other request is carried
out. The routes have a clause for one more error, a page without a current revision; every article
is written when it is made (`Written`), so nobody ever sees it.
-/

namespace KnowledgeAlakazam

open Program

/-! ## Requests -/

/-- The body of `POST /wiki/pages/{slug}/revisions`; a field that has a default may be absent. -/
structure WikiRevisionCreateBody where
  tenantId : String
  content : List Char
  contentFormat : Option String := none
  contentJson : Option PyValue := none
  summary : Option (List Char) := none
  authorType : Option String := none

/-- `WikiRevisionCreateRequest`. -/
structure WikiRevisionCreateRequest where
  tenantId : String
  content : List Char
  contentFormat : String
  contentJson : Option PyValue
  summary : Option (List Char)
  authorType : String

/-- The defaults of the schema, and its `min_length` check. -/
def WikiRevisionCreateBody.payload (body : WikiRevisionCreateBody) :
    Except (List FieldError) WikiRevisionCreateRequest :=
  checkedFields "body" [("tenant_id", some body.tenantId)]
    { tenantId := body.tenantId
      content := body.content
      contentFormat := body.contentFormat.getD "markdown"
      contentJson := body.contentJson
      summary := body.summary
      authorType := body.authorType.getD "agent" }

/-- What `create_revision` hands to the service. -/
def WikiRevisionCreateRequest.written (payload : WikiRevisionCreateRequest) : RevisionContent where
  content := payload.content
  contentFormat := payload.contentFormat
  contentJson := payload.contentJson
  summary := payload.summary
  authorType := payload.authorType

inductive WikiRequest where
  | createPage (body : WikiPageCreateBody)
  | getPage (tenantId slug : String)
  | createRevision (slug : String) (body : WikiRevisionCreateBody)
  | listBacklinks (tenantId slug : String)
  | validatePage (tenantId slug : String)
  | listValidationResults (tenantId slug : String)

namespace WikiRequest

/-- The operation, if the request meets the schema of its route: `tenant_id` has a `min_length`
also where it is a query parameter. -/
def operation : WikiRequest → Except (List FieldError) WikiOperation
  | createPage body => do
    let payload ← body.payload
    return .createOrUpdatePage payload.update
  | getPage tenantId slug =>
    checkedFields "query" [("tenant_id", some tenantId)] (.getPage tenantId slug)
  | createRevision slug body => do
    let payload ← body.payload
    return .createRevision payload.tenantId slug payload.written
  | listBacklinks tenantId slug =>
    checkedFields "query" [("tenant_id", some tenantId)] (.getBacklinks tenantId slug)
  | validatePage tenantId slug =>
    checkedFields "query" [("tenant_id", some tenantId)] (.validatePage none tenantId slug)
  | listValidationResults tenantId slug =>
    checkedFields "query" [("tenant_id", some tenantId)] (.listPageResults tenantId slug)

/-- The operation ends by setting the current revision of its page. -/
def updatesPage : WikiRequest → Bool
  | createPage _ => true
  | createRevision _ _ => true
  | _ => false

/-- The status of a response that has a body. -/
def success : WikiRequest → ℕ
  | createPage _ => 201
  | _ => 200

/-- The `except` clauses of the route: the classes that are caught, each with its status. -/
def excepts : WikiRequest → List (String × ℕ)
  | createPage _ => [("ValueError", 400)]
  | listBacklinks _ _ => [("ValueError", 400)]
  | _ => [("WikiPageNotFoundError", 404), ("ValueError", 400)]

end WikiRequest

/-! ## Responses -/

/-- `WikiRevisionResponse`, without its time. -/
structure WikiRevisionResponse where
  id : ℕ
  pageId : ℕ
  revisionNo : ℕ
  contentFormat : String
  content : List Char
  contentJson : Option PyValue
  summary : Option (List Char)
  authorType : String

/-- `WikiPageResponse`, without its times. -/
structure WikiPageResponse where
  id : ℕ
  tenantId : String
  slug : String
  title : String
  pageType : String
  status : String
  currentRevisionId : Option ℕ
  currentRevision : Option WikiRevisionResponse

/-- `WikiBacklinkResponse`, without its time. -/
structure WikiBacklinkResponse where
  pageId : ℕ
  slug : String
  title : String
  linkType : String

/-- `WikiValidationResultResponse`. -/
structure WikiValidationResultResponse where
  id : ℕ
  tenantId : String
  pageId : ℕ
  revisionId : ℕ
  validatorName : String
  severity : ValidationSeverity
  message : String
  metadata : PyValue
  createdAt : ℤ

/-- `WikiValidationResponse`. -/
structure WikiValidationResponse where
  tenantId : String
  slug : String
  pageId : ℕ
  revisionId : ℕ
  resultCount : ℕ
  results : List WikiValidationResultResponse

/-- The bodies that the routes respond with. -/
inductive WikiBody where
  | page (response : WikiPageResponse)
  | backlinks (responses : List WikiBacklinkResponse)
  | validation (response : WikiValidationResponse)

/-- What the response to an error says: a text, or what is wrong with the fields. -/
inductive ErrorDetail where
  | text (detail : String)
  | fields (errors : List FieldError)

/-- A response: its status, and its body or the detail of the error. -/
structure WikiResponse where
  status : ℕ
  body : Except ErrorDetail WikiBody

/-- `_revision_response`. -/
def revisionResponse (revision : WikiRevision) : WikiRevisionResponse where
  id := revision.id
  pageId := revision.pageId
  revisionNo := revision.revisionNo
  contentFormat := revision.contentFormat
  content := revision.content
  contentJson := revision.contentJson
  summary := revision.summary
  authorType := revision.authorType

/-- `_page_response`. The `updated_at` of a page that was updated in this session is expired
(`onupdate`), and reading it raises. -/
def pageResponse (updated : Bool) (detail : WikiPageDetail) : Except PyException WikiPageResponse :=
  if updated then .error SessionErrors.missingGreenlet
  else
    .ok
      { id := detail.page.id
        tenantId := detail.page.tenantId
        slug := detail.page.slug
        title := detail.page.title
        pageType := detail.page.pageType
        status := detail.page.status
        currentRevisionId := detail.page.currentRevisionId
        currentRevision := detail.currentRevision.map revisionResponse }

/-- `_backlink_response`. -/
def backlinkResponse (backlink : WikiLink × WikiPage) : WikiBacklinkResponse where
  pageId := backlink.2.id
  slug := backlink.2.slug
  title := backlink.2.title
  linkType := backlink.1.linkType

/-- `_validation_result_response`. The `metadata` of a row is never `None`. -/
def validationResultResponse (row : WikiValidationResult) : WikiValidationResultResponse where
  id := row.id
  tenantId := row.tenantId
  pageId := row.pageId
  revisionId := row.revisionId
  validatorName := row.validatorName
  severity := row.severity
  message := row.message
  metadata := row.metadata
  createdAt := row.createdAt

/-- `_validation_response`. -/
def validationResponse (result : WikiValidationRun) : WikiValidationResponse where
  tenantId := result.page.tenantId
  slug := result.page.slug
  pageId := result.page.id
  revisionId := result.revision.id
  resultCount := result.results.length
  results := result.results.map validationResultResponse

/-- The body that is made of an answer, if one can be made. -/
def WikiAnswer.body (updated : Bool) : WikiAnswer → Option WikiBody
  | detail d => (pageResponse updated d).toOption.map .page
  | backlinks found => some (.backlinks (found.map backlinkResponse))
  | validationRun result => some (.validation (validationResponse result))
  | bundle _ => none
  | links _ => none

section Definitions

variable (unicode : UnicodeData) (postgres : PostgresData)

namespace WikiRequest

/-- An error that no clause of the route catches. -/
def serverError : WikiResponse := ⟨500, .error (.text "Internal Server Error")⟩

/-- The response of a route whose operation has ended; the body is made outside of the `try`
block. -/
def respond (request : WikiRequest) : Except PyException WikiAnswer → WikiResponse
  | .ok answer => ((answer.body request.updatesPage).map fun body ↦
      ⟨request.success, .ok body⟩).getD serverError
  | .error e => ((request.excepts.lookup e.className).map fun status ↦
      ⟨status, .error (.text e.text)⟩).getD serverError

/-- A request is handled: the response, and the database afterwards. -/
def handle (request : WikiRequest) (time : CallTime) (outcomes : List (Option PyException))
    (s : DatabaseState) : WikiResponse × DatabaseState :=
  match request.operation with
  | .error errors => (⟨422, .error (.fields errors)⟩, s)
  | .ok operation =>
    let r := OperationLabel.run unicode postgres ⟨operation, time, outcomes⟩ s
    (request.respond r.1, r.2)

end WikiRequest

/-- A call of the wiki: a request, or an operation that other code calls. -/
inductive RouteCall where
  | request (request : WikiRequest) (time : CallTime) (outcomes : List (Option PyException))
  | operation (label : OperationLabel)

namespace RouteCall

def step (s : DatabaseState) : RouteCall → Option DatabaseState
  | request r time outcomes => some (r.handle unicode postgres time outcomes s).2
  | operation label => some (label.run unicode postgres s).2

/-- The response to a call, if it is a request. -/
def response (s : DatabaseState) : RouteCall → Option WikiResponse
  | request r time outcomes => some (r.handle unicode postgres time outcomes s).1
  | operation _ => none

end RouteCall

end Definitions

/-! ## What the responses should be -/

def WikiBody.reply : WikiBody → Reply
  | page r => .page r.tenantId r.slug r.title r.pageType r.status
    (r.currentRevision.map fun v ↦
      (v.revisionNo, ⟨v.content, v.contentFormat, v.contentJson, v.summary, v.authorType⟩))
  | backlinks sources => .backlinks (sources.map fun source ↦ (source.title, source.slug))
  | validation _ => .findings

namespace WikiRequest

def tenantId : WikiRequest → String
  | createPage body => body.tenantId
  | getPage tenantId _ => tenantId
  | createRevision _ body => body.tenantId
  | listBacklinks tenantId _ => tenantId
  | validatePage tenantId _ => tenantId
  | listValidationResults tenantId _ => tenantId

def address : WikiRequest → String
  | createPage body => orElse body.slug body.title
  | getPage _ slug => slug
  | createRevision slug _ => slug
  | listBacklinks _ slug => slug
  | validatePage _ slug => slug
  | listValidationResults _ slug => slug

def needsPage : WikiRequest → Bool
  | createPage _ => false
  | listBacklinks _ _ => false
  | _ => true

/-- What is said of an address that comes to nothing. -/
def emptySlug : WikiRequest → String
  | validatePage _ _ => "slug must not be empty"
  | listValidationResults _ _ => "slug must not be empty"
  | _ => "Wiki page slug cannot be empty"

end WikiRequest

namespace Notebook

/-- Why a request is refused, if it is: the status and the detail. -/
def refusal (unicode : UnicodeData) (N : Notebook) (request : WikiRequest) :
    Option (ℕ × ErrorDetail) :=
  match request.operation with
  | .error errors => some (422, .fields errors)
  | .ok _ =>
    match requireSlug unicode request.address with
    | .error _ => some (400, .text request.emptySlug)
    | .ok slug =>
      if request.needsPage && (N request.tenantId slug).isNone then
        some (404, .text ("Wiki page '" ++ slug ++ "' was not found"))
      else none

/-- **What a call does.** A request that reads gets what the notebook answers, one that writes has
written and gets an internal error, and one that is refused gets the reason. If a statement was
interrupted there may be another error, but then the articles are as they were. -/
inductive Serves (unicode : UnicodeData) (postgres : PostgresData) (N : Notebook) :
    RouteCall → Option WikiResponse → Notebook → Prop
  | answered {request : WikiRequest} {operation : WikiOperation} {time : CallTime}
    {outcomes : List (Option PyException)} {body : WikiBody} {N' : Notebook}
    (hoperation : request.operation = .ok operation) (hreads : request.updatesPage = false)
    (hrefusal : N.refusal unicode request = none)
    (hanswers : N.Answers unicode postgres operation body.reply N') :
    Serves unicode postgres N (.request request time outcomes) (some ⟨request.success, .ok body⟩) N'
  | written {request : WikiRequest} {operation : WikiOperation} {time : CallTime}
    {outcomes : List (Option PyException)} {reply : Reply} {N' : Notebook}
    (hoperation : request.operation = .ok operation) (hwrites : request.updatesPage = true)
    (hrefusal : N.refusal unicode request = none)
    (hanswers : N.Answers unicode postgres operation reply N') :
    Serves unicode postgres N (.request request time outcomes) (some WikiRequest.serverError) N'
  | refused {request : WikiRequest} {time : CallTime} {outcomes : List (Option PyException)}
    {status : ℕ} {detail : ErrorDetail}
    (hrefusal : N.refusal unicode request = some (status, detail)) :
    Serves unicode postgres N (.request request time outcomes) (some ⟨status, .error detail⟩) N
  | failed {request : WikiRequest} {time : CallTime} {outcomes : List (Option PyException)}
    {status : ℕ} {detail : ErrorDetail} (houtcomes : outcomes ≠ []) (hstatus : 400 ≤ status) :
    Serves unicode postgres N (.request request time outcomes) (some ⟨status, .error detail⟩) N
  | operated {label : OperationLabel} {reply : Reply} {N' : Notebook}
    (hanswers : N.Answers unicode postgres label.operation reply N') :
    Serves unicode postgres N (.operation label) none N'
  | raised {label : OperationLabel} : Serves unicode postgres N (.operation label) none N

/-- Every article has a version that is shown. -/
def Written (N : Notebook) : Prop :=
  ∀ tenantId slug a, N tenantId slug = some a → a.history.current.isSome

variable {unicode : UnicodeData} {postgres : PostgresData} {N N' : Notebook}
  {tenantId slug : String} {a : Article} {request : WikiRequest} {operation : WikiOperation}

theorem Written.put (h : N.Written) (ha : a.history.current.isSome) :
    (N.put tenantId slug a).Written := by
  intro t s b hb
  rw [Notebook.put] at hb
  split at hb
  · obtain rfl := Option.some.inj hb
    exact ha
  · exact h t s b hb

theorem Answers.written {reply : Reply} (h : N.Answers unicode postgres operation reply N')
    (hN : N.Written) : N'.Written := by
  cases h with
  | updated hslug ha =>
    refine hN.put ?_
    rw [ha]
    rfl
  | revised hslug ha => exact hN.put rfl
  | @published _ _ _ _ a no history hslug ha hno hpublish =>
    refine hN.put ?_
    rw [(Versions.publish_eq_some.mp hpublish).2.2]
    rfl
  | @claimed _ _ slug _ _ _ _ a no hslug ha hno =>
    refine hN.put ?_
    rw [hno]
    rfl
  | @relinked tenantId _ slug _ a hslug ha =>
    refine hN.put ?_
    exact hN tenantId slug a ha
  | shown hslug ha => exact hN
  | linked hslug hsources => exact hN
  | validated hslug ha hno => exact hN
  | listed hslug ha hno => exact hN

theorem refusal_of_ok (hoperation : request.operation = .ok operation)
    (hslug : requireSlug unicode request.address = .ok slug)
    (hpage : request.needsPage = true → (N request.tenantId slug).isSome) :
    N.refusal unicode request = none := by
  rw [refusal, hoperation, hslug]
  dsimp only
  rw [if_neg]
  intro h
  obtain ⟨hneeds, hnone⟩ := Bool.and_eq_true_iff.mp h
  rw [Option.isNone_iff_eq_none.mp hnone] at hpage
  exact absurd (hpage hneeds) Bool.false_ne_true

end Notebook

/-! ## What the operations of the routes are -/

/-- The request that an operation comes from. -/
inductive WikiRequest.Runs : WikiRequest → WikiOperation → Prop
  | createPage {body : WikiPageCreateBody} {update : PageUpdate}
    (htenant : update.tenantId = body.tenantId)
    (hslug : orElse update.slug update.title = orElse body.slug body.title) :
    Runs (.createPage body) (.createOrUpdatePage update)
  | getPage {tenantId slug : String} : Runs (.getPage tenantId slug) (.getPage tenantId slug)
  | createRevision {slug : String} {body : WikiRevisionCreateBody} {c : RevisionContent} :
    Runs (.createRevision slug body) (.createRevision body.tenantId slug c)
  | listBacklinks {tenantId slug : String} :
    Runs (.listBacklinks tenantId slug) (.getBacklinks tenantId slug)
  | validatePage {tenantId slug : String} :
    Runs (.validatePage tenantId slug) (.validatePage none tenantId slug)
  | listValidationResults {tenantId slug : String} :
    Runs (.listValidationResults tenantId slug) (.listPageResults tenantId slug)

theorem WikiRequest.runs {request : WikiRequest} {operation : WikiOperation}
    (h : request.operation = .ok operation) : request.Runs operation := by
  cases request with
  | createPage body =>
    obtain ⟨payload, hpayload, hop⟩ := exists_of_bind_eq_ok h
    obtain rfl := Except.ok.inj hop
    obtain ⟨htenant, htitle, hslug, -⟩ := WikiPageCreateBody.payload_ok hpayload
    refine .createPage htenant ?_
    rw [← hslug, ← htitle]
    rfl
  | createRevision slug body =>
    obtain ⟨payload, hpayload, hop⟩ := exists_of_bind_eq_ok h
    obtain rfl := Except.ok.inj hop
    obtain rfl := checkedFields_ok hpayload
    exact .createRevision
  | getPage tenantId slug => exact checkedFields_ok h ▸ .getPage
  | listBacklinks tenantId slug => exact checkedFields_ok h ▸ .listBacklinks
  | validatePage tenantId slug => exact checkedFields_ok h ▸ .validatePage
  | listValidationResults tenantId slug => exact checkedFields_ok h ▸ .listValidationResults

section Answers

variable {unicode : UnicodeData} {postgres : PostgresData} {N N' : Notebook}
  {request : WikiRequest} {operation : WikiOperation} {answer : WikiAnswer}

/-- What is answered to a request that reads is made into a body, which says the same. -/
theorem WikiRequest.Runs.exists_body (h : request.Runs operation)
    (hreads : request.updatesPage = false)
    (hanswers : N.Answers unicode postgres operation answer.reply N') :
    ∃ body, answer.body request.updatesPage = some body ∧ body.reply = answer.reply := by
  have hbody : ∀ reply, N.Answers unicode postgres operation reply N' →
      (∀ text, reply ≠ .claim text) ∧ ∀ slugs, reply ≠ .links slugs := by
    intro reply hreply
    cases h <;> cases hreply <;> constructor <;> intro _ heq <;> cases heq
  obtain ⟨hclaim, hlinks⟩ := hbody _ hanswers
  rw [hreads]
  cases answer with
  | detail d =>
    refine ⟨_, rfl, ?_⟩
    rw [WikiBody.reply, WikiAnswer.reply, Option.map_map]
    rfl
  | backlinks found =>
    refine ⟨_, rfl, ?_⟩
    rw [WikiBody.reply, WikiAnswer.reply, List.map_map]
    rfl
  | validationRun result => exact ⟨_, rfl, rfl⟩
  | bundle b => exact absurd rfl (hclaim _)
  | links created => exact absurd rfl (hlinks _)

/-- Of what is answered to a request that writes, no body can be made. -/
theorem WikiRequest.Runs.body_eq_none (h : request.Runs operation)
    (hwrites : request.updatesPage = true)
    (hanswers : N.Answers unicode postgres operation answer.reply N') :
    answer.body request.updatesPage = none := by
  have hpage : ∀ reply, N.Answers unicode postgres operation reply N' →
      ∃ tenantId slug title pageType status shown,
        reply = .page tenantId slug title pageType status shown := by
    intro reply hreply
    cases h with
    | createPage htenant hslug => cases hreply with
      | updated hslug ha => exact ⟨_, _, _, _, _, _, rfl⟩
    | createRevision => cases hreply with
      | revised hslug ha => exact ⟨_, _, _, _, _, _, rfl⟩
    | getPage => exact absurd hwrites Bool.false_ne_true
    | listBacklinks => exact absurd hwrites Bool.false_ne_true
    | validatePage => exact absurd hwrites Bool.false_ne_true
    | listValidationResults => exact absurd hwrites Bool.false_ne_true
  obtain ⟨_, _, _, _, _, _, hreply⟩ := hpage _ hanswers
  rw [hwrites]
  cases answer with
  | detail d => rfl
  | backlinks found => cases hreply
  | validationRun result => cases hreply
  | bundle b => rfl
  | links created => rfl

theorem WikiRequest.refusal_eq_none (hoperation : request.operation = .ok operation) {reply : Reply}
    (hanswers : N.Answers unicode postgres operation reply N') :
    N.refusal unicode request = none := by
  have hpage : ∀ {tenantId slug : String} {a : Article}, N tenantId slug = some a →
      request.needsPage = true → (N tenantId slug).isSome :=
    fun ha _ ↦ Option.isSome_of_eq_some ha
  cases request.runs hoperation with
  | createPage htenant hslug =>
    cases hanswers with
    | updated hresolved ha =>
      exact Notebook.refusal_of_ok hoperation (hslug ▸ hresolved)
        fun h ↦ absurd h Bool.false_ne_true
  | getPage =>
    cases hanswers with
    | shown hresolved ha => exact Notebook.refusal_of_ok hoperation hresolved (hpage ha)
  | createRevision =>
    cases hanswers with
    | revised hresolved ha => exact Notebook.refusal_of_ok hoperation hresolved (hpage ha)
  | listBacklinks =>
    cases hanswers with
    | linked hresolved hsources =>
      exact Notebook.refusal_of_ok hoperation hresolved fun h ↦ absurd h Bool.false_ne_true
  | validatePage =>
    cases hanswers with
    | validated hresolved ha hno => exact Notebook.refusal_of_ok hoperation hresolved (hpage ha)
  | listValidationResults =>
    cases hanswers with
    | listed hresolved ha hno => exact Notebook.refusal_of_ok hoperation hresolved (hpage ha)

end Answers

/-! ## Errors

A session in which no statement is interrupted, as in `Findings`. -/

section Errors

variable {unicode : UnicodeData} {postgres : PostgresData} {time : CallTime}
  {tenantId slug address : String} {e : PyException}

theorem map_ofExcept_error {σ α β γ : Type} (f : β → γ) {x : Except PyException α}
    (k : α → Program σ PyException β) (h : x = .error e) (s : Session σ PyException) :
    ((f <$> (ofExcept x >>= k) : Program σ PyException γ) s).1 = .error e := by
  rw [h]
  rfl

theorem error_of_call {σ α β γ : Type} (f : β → γ) {x : Except PyException α} {a : α}
    {k : α → Program σ PyException β} {s s' : Session σ PyException} (h : x = .ok a)
    (hrun : k a s = (.error e, s')) :
    ((f <$> (ofExcept x >>= k) : Program σ PyException γ) s).1 = .error e := by
  have hcall : (ofExcept x >>= k) s = (.error e, s') := by
    rw [h]
    exact hrun
  rw [show (f <$> (ofExcept x >>= k) : Program σ PyException γ) s = (.error e, s') from
    bind_error hcall]

theorem error_of_transaction {σ α β γ : Type} {S : σ} (f : β → γ) {x : Except PyException α}
    {a : α} {body : α → Program σ PyException β} {s : Session σ PyException} (h : x = .ok a)
    (hs : s.Idle S)
    (hbody : ∀ s₁ : Session σ PyException, s₁.working = s.working → s₁.outcomes = s.outcomes →
      ∃ s', body a s₁ = (.error e, s')) :
    ((f <$> (ofExcept x >>= fun a ↦ Program.transaction (body a)) : Program σ PyException γ)
      s).1 = .error e := by
  obtain ⟨s', hrun⟩ := hbody { s with
    depth := s.depth + 1
    origin := some (s.origin.getD .begin) } rfl rfl
  exact error_of_call f h ((transaction_of_idle hs).trans (managed_error hrun))

theorem WikiValidationService.requirePage_none {s : Session WikiDatabase PyException}
    (hs : s.outcomes = []) (hnone : s.working.wiki.pageBySlug tenantId slug = none) :
    WikiValidationService.requirePage tenantId slug s =
      (.error (pageNotFound slug), s.autobegin) := by
  refine (bind_ok (query_of_outcomes hs _)).trans ?_
  rw [hnone]
  rfl

theorem requireSlug_error (h : requireSlug unicode address = .error e) :
    e = valueError "Wiki page slug cannot be empty" ∧
      WikiValidationService.requireSlug unicode address =
        .error (valueError "slug must not be empty") := by
  rw [requireSlug] at h
  rw [WikiValidationService.requireSlug]
  split at h
  · rename_i hempty
    rw [if_pos hempty]
    exact ⟨(Except.error.inj h).symm, rfl⟩
  · cases h

variable {request : WikiRequest} {operation : WikiOperation} {s : DatabaseState}

theorem WikiRequest.Runs.error_of_slug (h : request.Runs operation)
    (herror : requireSlug unicode request.address = .error e) :
    (OperationLabel.run unicode postgres ⟨operation, time, []⟩ s).1 =
      .error (valueError request.emptySlug) := by
  obtain ⟨rfl, hvalidation⟩ := requireSlug_error herror
  cases h with
  | createPage htenant hslug =>
    exact map_ofExcept_error (σ := WikiStore) _ _ (hslug ▸ herror) _
  | getPage => exact map_ofExcept_error _ _ herror _
  | createRevision => exact map_ofExcept_error _ _ herror _
  | listBacklinks => exact map_ofExcept_error _ _ herror _
  | validatePage => exact map_ofExcept_error _ _ hvalidation _
  | listValidationResults => exact map_ofExcept_error _ _ hvalidation _

theorem WikiRequest.Runs.error_of_none (h : request.Runs operation)
    (hslug : requireSlug unicode request.address = .ok slug) (hneeds : request.needsPage = true)
    (hnone : s.db.wiki.pageBySlug request.tenantId slug = none) :
    (OperationLabel.run unicode postgres ⟨operation, time, []⟩ s).1 =
      .error (pageNotFound slug) := by
  have hvalidation := WikiValidationService.requireSlug_iff.mpr hslug
  cases h with
  | createPage htenant hslug => exact absurd hneeds Bool.false_ne_true
  | listBacklinks => exact absurd hneeds Bool.false_ne_true
  | getPage =>
    exact error_of_call WikiAnswer.detail hslug
      (bind_error (WikiService.requirePage_none rfl hnone))
  | createRevision =>
    refine error_of_transaction WikiAnswer.detail hslug (Session.idle_start _ _ _) ?_
    intro s₁ hworking houtcomes
    exact ⟨_, bind_error (WikiService.requirePage_none houtcomes (hworking ▸ hnone))⟩
  | validatePage =>
    refine error_of_transaction WikiAnswer.validationRun hvalidation (Session.idle_start _ _ _) ?_
    intro s₁ hworking houtcomes
    exact ⟨_, bind_error (WikiValidationService.requirePage_none houtcomes (hworking ▸ hnone))⟩
  | listValidationResults =>
    exact error_of_call WikiAnswer.validationRun hvalidation
      (bind_error (WikiValidationService.requirePage_none rfl hnone))

end Errors

/-! ## Requests -/

section Requests

variable {unicode : UnicodeData} {postgres : PostgresData} {time : CallTime} {N : Notebook}
  {request : WikiRequest} {operation : WikiOperation} {s : DatabaseState}

theorem WikiRequest.lookup_valueError (request : WikiRequest) :
    request.excepts.lookup "ValueError" = some 400 := by
  cases request <;> rfl

theorem WikiRequest.lookup_pageNotFound (h : request.needsPage = true) :
    request.excepts.lookup "WikiPageNotFoundError" = some 404 := by
  cases request with
  | createPage body => exact absurd h Bool.false_ne_true
  | listBacklinks tenantId slug => exact absurd h Bool.false_ne_true
  | getPage tenantId slug => rfl
  | createRevision slug body => rfl
  | validatePage tenantId slug => rfl
  | listValidationResults tenantId slug => rfl

/-- A clause makes an error of an error. -/
theorem WikiRequest.le_of_mem_excepts {clause : String × ℕ} (h : clause ∈ request.excepts) :
    400 ≤ clause.2 := by
  have hall : ∀ clause ∈ [("WikiPageNotFoundError", 404), ("ValueError", 400)], 400 ≤ clause.2 := by
    decide
  refine hall clause ?_
  cases request with
  | createPage body => exact List.mem_cons_of_mem _ h
  | listBacklinks tenantId slug => exact List.mem_cons_of_mem _ h
  | getPage tenantId slug => exact h
  | createRevision slug body => exact h
  | validatePage tenantId slug => exact h
  | listValidationResults tenantId slug => exact h

/-- The response to a request that the notebook refuses. -/
theorem WikiRequest.respond_of_refusal (h : Depicts s.db.wiki N)
    (hoperation : request.operation = .ok operation) {status : ℕ} {detail : ErrorDetail}
    (hrefusal : N.refusal unicode request = some (status, detail)) :
    request.respond (OperationLabel.run unicode postgres ⟨operation, time, []⟩ s).1 =
      ⟨status, .error detail⟩ := by
  rw [Notebook.refusal, hoperation] at hrefusal
  dsimp only at hrefusal
  cases hslug : requireSlug unicode request.address with
  | error e =>
    rw [hslug] at hrefusal
    obtain ⟨rfl, rfl⟩ := Prod.mk.inj (Option.some.inj hrefusal)
    rw [(request.runs hoperation).error_of_slug hslug, WikiRequest.respond, valueError,
      request.lookup_valueError]
    rfl
  | ok slug =>
    rw [hslug] at hrefusal
    dsimp only at hrefusal
    split at hrefusal
    · rename_i hmissing
      obtain ⟨hneeds, hnone⟩ := Bool.and_eq_true_iff.mp hmissing
      obtain ⟨rfl, rfl⟩ := Prod.mk.inj (Option.some.inj hrefusal)
      have hpage : s.db.wiki.pageBySlug request.tenantId slug = none := by
        by_contra hpage
        obtain ⟨page, hpage⟩ := Option.ne_none_iff_exists'.mp hpage
        obtain ⟨a, ha, -⟩ := h.exists_article hpage
        rw [ha] at hnone
        exact absurd hnone Bool.false_ne_true
      rw [(request.runs hoperation).error_of_none hslug hneeds hpage, WikiRequest.respond,
        pageNotFound, WikiRequest.lookup_pageNotFound hneeds]
      rfl
    · exact absurd hrefusal (Option.some_ne_none _).symm

theorem WikiRequest.respond_error (request : WikiRequest) (e : PyException) :
    ∃ status detail, request.respond (.error e) = ⟨status, .error detail⟩ ∧ 400 ≤ status := by
  rw [WikiRequest.respond]
  cases hstatus : request.excepts.lookup e.className with
  | none => exact ⟨500, _, rfl, by decide⟩
  | some status =>
    refine ⟨status, .text e.text, rfl, ?_⟩
    have hmem : (e.className, status) ∈ request.excepts := by
      obtain ⟨l₁, l₂, heq, -⟩ := List.lookup_eq_some_iff.mp hstatus
      rw [heq]
      exact List.mem_append_right _ List.mem_cons_self
    exact WikiRequest.le_of_mem_excepts hmem

/-- What an article needs to be there for. -/
theorem Notebook.exists_of_refusal (hoperation : request.operation = .ok operation)
    (hrefusal : N.refusal unicode request = none) :
    ∃ slug, requireSlug unicode request.address = .ok slug ∧
      (request.needsPage = true → ∃ a, N request.tenantId slug = some a) := by
  rw [Notebook.refusal, hoperation] at hrefusal
  dsimp only at hrefusal
  cases hslug : requireSlug unicode request.address with
  | error e =>
    rw [hslug] at hrefusal
    exact absurd hrefusal (Option.some_ne_none _)
  | ok slug =>
    refine ⟨slug, rfl, fun hneeds ↦ ?_⟩
    rw [hslug] at hrefusal
    dsimp only at hrefusal
    split at hrefusal
    · exact absurd hrefusal (Option.some_ne_none _)
    · rename_i hmissing
      rw [hneeds, Bool.true_and, Bool.not_eq_true, Option.isNone_eq_false_iff] at hmissing
      exact Option.isSome_iff_exists.mp hmissing

/-- **A request that is not refused has an answer.** -/
theorem WikiRequest.exists_answers (postgres : PostgresData) (hw : s.db.wiki.Intact)
    (h : Depicts s.db.wiki N)
    (hwritten : N.Written) (hoperation : request.operation = .ok operation)
    (hrefusal : N.refusal unicode request = none) :
    ∃ reply N', N.Answers unicode postgres operation reply N' := by
  obtain ⟨slug, hslug, hpage⟩ := Notebook.exists_of_refusal hoperation hrefusal
  have hcurrent : ∀ {tenantId : String} {a : Article}, N tenantId slug = some a →
      ∃ no, a.history.current = some no :=
    fun ha ↦ Option.isSome_iff_exists.mp (hwritten _ _ _ ha)
  cases request.runs hoperation with
  | createPage htenant heq => exact ⟨_, _, .updated ((congrArg _ heq).trans hslug) rfl⟩
  | listBacklinks => exact ⟨_, _, .linked hslug (h.linkedFrom postgres hw _ _)⟩
  | getPage =>
    obtain ⟨a, ha⟩ := hpage rfl
    exact ⟨_, _, .shown hslug ha⟩
  | createRevision =>
    obtain ⟨a, ha⟩ := hpage rfl
    exact ⟨_, _, .revised hslug ha⟩
  | validatePage =>
    obtain ⟨a, ha⟩ := hpage rfl
    obtain ⟨no, hno⟩ := hcurrent ha
    exact ⟨_, _, .validated hslug ha hno⟩
  | listValidationResults =>
    obtain ⟨a, ha⟩ := hpage rfl
    obtain ⟨no, hno⟩ := hcurrent ha
    exact ⟨_, _, .listed hslug ha hno⟩

theorem isOk_validatePage {tenantId address slug : String} {a : Article} {no : ℕ}
    (h : Depicts s.db.wiki N) (hn : s.db.Numbered s.nextId)
    (hslug : requireSlug unicode address = .ok slug) (ha : N tenantId slug = some a)
    (hno : a.history.current = some no) :
    ∃ answer, (OperationLabel.run unicode postgres
      ⟨.validatePage none tenantId address, time, []⟩ s).1 = .ok answer := by
  obtain ⟨page, hpage, hshows⟩ := h.exists_page ha
  obtain ⟨rfl, rfl⟩ := Prod.mk.inj (Table.unique_of_lookup hpage)
  rw [← hshows.current] at hno
  obtain ⟨revision, hrevision, -⟩ := Option.map_eq_some_iff.mp hno
  have hraises : ∀ validator ∈ WikiValidationService.validatorsOr unicode postgres none time.clock,
      ∀ context, RaisesOnly (fun _ ↦ False) (validator.validate context) := by
    intro validator hmem context
    obtain ⟨c, rfl⟩ := WikiValidationService.source_of_mem_validatorsOr none time.clock
      (fun _ h ↦ by cases h) validator hmem
    exact c.raisesOnly context
  obtain ⟨result, session', hrun⟩ := WikiValidationService.validatePage_of_outcomes
    (Table.mem_of_lookup hpage) hrevision (WikiValidationService.requireSlug_iff.mpr hslug)
    (Session.idle_start s.db s.nextId []) hn rfl hraises
  exact ⟨.validationRun result, congrArg Prod.fst (bind_ok hrun)⟩

/-- **A request that is not refused is answered**, if no statement is interrupted. -/
theorem WikiRequest.isOk_of_refusal (hdb : s.db.Intact) (hn : s.db.Numbered s.nextId)
    (h : Depicts s.db.wiki N) (hwritten : N.Written)
    (hoperation : request.operation = .ok operation)
    (hrefusal : N.refusal unicode request = none) :
    ∃ answer, (OperationLabel.run unicode postgres ⟨operation, time, []⟩ s).1 = .ok answer := by
  obtain ⟨reply, N', hanswers⟩ :=
    WikiRequest.exists_answers postgres hdb.wiki h hwritten hoperation hrefusal
  by_cases hvalidate : ∃ tenantId address, operation = .validatePage none tenantId address
  · obtain ⟨tenantId, address, rfl⟩ := hvalidate
    cases hanswers with
    | validated hslug ha hno => exact isOk_validatePage h hn hslug ha hno
  · have hcalm : ¬(OperationLabel.mk operation time []).Disturbed := by
      rintro (⟨e, hmem⟩ | ⟨validators, tenantId, address, heq⟩)
      · exact absurd hmem List.not_mem_nil
      · have hruns := request.runs hoperation
        rw [show operation = .validatePage validators tenantId address from heq] at hruns hvalidate
        cases hruns with
        | validatePage => exact hvalidate ⟨_, _, rfl⟩
    have hexchanged : Exchanged unicode postgres ⟨operation, time, []⟩ s N :=
      OperationLabel.exchanged _ hdb hn h
    cases hexchanged with
    | answered hrun hanswers' hpost => exact ⟨_, hrun⟩
    | refused hrun hreason hpost => exact absurd hanswers (hreason.resolve_left hcalm _ _)

/-- **One request.** -/
theorem WikiRequest.serves (request : WikiRequest) (time : CallTime)
    (outcomes : List (Option PyException)) (hdb : s.db.Intact) (hn : s.db.Numbered s.nextId)
    (h : Depicts s.db.wiki N) (hwritten : N.Written) :
    ∃ N', N.Serves unicode postgres (.request request time outcomes)
        (some (request.handle unicode postgres time outcomes s).1) N' ∧
      Depicts (request.handle unicode postgres time outcomes s).2.db.wiki N' ∧ N'.Written := by
  cases hoperation : request.operation with
  | error errors =>
    have hrefusal : N.refusal unicode request = some (422, .fields errors) := by
      rw [Notebook.refusal, hoperation]
    rw [WikiRequest.handle, hoperation]
    exact ⟨N, .refused hrefusal, h, hwritten⟩
  | ok operation =>
    rw [WikiRequest.handle, hoperation]
    dsimp only
    have hexchanged : Exchanged unicode postgres ⟨operation, time, outcomes⟩ s N :=
      OperationLabel.exchanged _ hdb hn h
    cases hexchanged with
    | @answered answer N' hrun hanswers hpost =>
      have hrefusal := WikiRequest.refusal_eq_none hoperation hanswers
      refine ⟨N', ?_, hpost, hanswers.written hwritten⟩
      rw [hrun, WikiRequest.respond]
      cases hupdates : request.updatesPage with
      | true =>
        rw [← hupdates, (request.runs hoperation).body_eq_none hupdates hanswers]
        exact .written hoperation hupdates hrefusal hanswers
      | false =>
        obtain ⟨body, hbody, hreply⟩ := (request.runs hoperation).exists_body hupdates hanswers
        rw [← hupdates, hbody]
        exact .answered hoperation hupdates hrefusal (hreply ▸ hanswers)
    -- An error with no statement interrupted is one that the notebook foretells.
    | @refused e hrun hreason hpost =>
      refine ⟨N, ?_, hpost, hwritten⟩
      by_cases houtcomes : outcomes = []
      · subst houtcomes
        cases hrefusal : N.refusal unicode request with
        | none =>
          obtain ⟨answer, hok⟩ := @WikiRequest.isOk_of_refusal unicode postgres time N request
            operation s hdb hn h hwritten hoperation hrefusal
          rw [hrun] at hok
          cases hok
        | some refused =>
          rw [WikiRequest.respond_of_refusal h hoperation hrefusal]
          exact .refused hrefusal
      · obtain ⟨status, detail, hresponse, hstatus⟩ := request.respond_error e
        rw [hrun, hresponse]
        exact .failed houtcomes hstatus

end Requests

/-! ## Runs -/

section Runs

variable {unicode : UnicodeData} {postgres : PostgresData} {N : Notebook} {s : DatabaseState}

/-- **One call.** It keeps the tables a notebook whose articles are written. -/
theorem RouteCall.serves (call : RouteCall) (hdb : s.db.Intact) (hn : s.db.Numbered s.nextId)
    (h : Depicts s.db.wiki N) (hwritten : N.Written) :
    ∃ s' N', call.step unicode postgres s = some s' ∧ (s'.db.Intact ∧ s'.db.Numbered s'.nextId) ∧
      N.Serves unicode postgres call (call.response unicode postgres s) N' ∧ Depicts s'.db.wiki N' ∧
        N'.Written := by
  have hkept : ∀ label : OperationLabel, (label.run unicode postgres s).2.db.Intact ∧
      (label.run unicode postgres s).2.db.Numbered (label.run unicode postgres s).2.nextId :=
    fun label ↦ ⟨(label.effect unicode postgres hdb).intact hdb, (label.numbered hn).2⟩
  cases call with
  | request r time outcomes =>
    obtain ⟨N', hserves, hdepicts, hwritten'⟩ := r.serves time outcomes hdb hn h hwritten
    refine ⟨_, N', rfl, ?_, hserves, hdepicts, hwritten'⟩
    rw [WikiRequest.handle]
    split
    · exact ⟨hdb, hn⟩
    · exact hkept _
  | operation label =>
    have hexchanged : Exchanged unicode postgres label s N := label.exchanged hdb hn h
    cases hexchanged with
    | answered hrun hanswers hpost =>
      exact ⟨_, _, rfl, hkept label, .operated hanswers, hpost, hanswers.written hwritten⟩
    | refused hrun hreason hpost => exact ⟨_, N, rfl, hkept label, .raised, hpost, hwritten⟩

end Runs

end KnowledgeAlakazam
