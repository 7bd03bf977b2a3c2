import KnowledgeAlakazam.Wiki.Markdown
import KnowledgeAlakazam.Wiki.Service

/-!
# The wiki compiler

`WikiCompiler` turns the answer of a query into a page. A compile starts a job, writes the page in
one unit of work, adds the claims in one unit of work each, and marks the job succeeded; if
anything raises after the job was started, the job is to be marked failed and the error to go on.
The title of an existing page is read in the transaction that then writes the page.

The query itself is no part of the model: how it ends is an argument.
-/

namespace KnowledgeAlakazam

variable (unicode : UnicodeData)

/-- `WikiCompiledPage`. -/
structure WikiCompiledPage where
  pageId : ℕ
  slug : String
  title : String
  revisionId : ℕ
  revisionNo : ℕ
  claimCount : ℕ
deriving DecidableEq

/-- `WikiCompileResult`. -/
structure WikiCompileResult where
  job : WikiCompileJob
  pages : List WikiCompiledPage

/-- What a compile knows when it starts its job. -/
structure CompileRequest where
  tenantId : String
  jobSourceId : String
  slug : String
  query : String
  sourceId : Option String
  title : String

/-- What `compile_source_to_pages` does before it starts the job. -/
def sourceRequest (tenantId sourceId : String) (targetSlug : Option String) :
    Except PyException CompileRequest := do
  let sourceId ← requireNonEmpty sourceId "source_id"
  let slug ← resolveTargetSlug unicode targetSlug (sourcePageTitle sourceId)
  return ⟨tenantId, sourceId, slug, sourceEvidenceQuery unicode sourceId, some sourceId,
    sourcePageTitle sourceId⟩

/-- What `compile_topic_page` does before it starts the job. -/
def topicRequest (tenantId topic evidenceQuery : String) (sourceId targetSlug : Option String) :
    Except PyException CompileRequest := do
  let topic ← requireNonEmpty topic "topic"
  let query := orElse (some (strip evidenceQuery)) (topicEvidenceQuery unicode topic sourceId)
  let slug ← resolveTargetSlug unicode targetSlug topic
  return ⟨tenantId, orElse (sourceId.map strip) ("topic:" ++ slug), slug, query, sourceId, topic⟩

/-- The page and the claims that `update_existing_page_with_evidence` has when it has written the
page. -/
structure PageWritten where
  slug : String
  detail : WikiPageDetail
  revision : WikiRevision
  claims : List (List Char)
  sources : List ClaimSourceInput

/-- `_compiled_page`. -/
def PageWritten.compiledPage (written : PageWritten) : WikiCompiledPage :=
  ⟨written.detail.page.id, written.detail.page.slug, written.detail.page.title,
    written.revision.id, written.revision.revisionNo, written.claims.length⟩

namespace WikiCompiler

open Program WikiRepository WikiService

/-- `_start_job`. -/
def startJob (request : CompileRequest) : WikiProgram WikiCompileJob := do
  let job ← transaction
    (createCompileJob request.tenantId request.jobSourceId (some request.slug))
  transaction (markCompileJobProcessing job.id)

/-- `_search_evidence`, where the query ends with `answer`. -/
def searchEvidence (request : CompileRequest) (answer : Except PyException RAGQueryResult) :
    WikiProgram CompilerEvidence := do
  let result ← ofExcept answer
  ofExcept (evidenceOf unicode request.query request.sourceId result)

/-- `_resolve_page_title`. -/
def resolvePageTitle (tenantId slug : String) (fallbackTitle : Option String) :
    WikiProgram String :=
  except (Functor.map (fun detail ↦ detail.page.title) (getPage unicode tenantId slug)) fun e ↦
    if e.className = "WikiPageNotFoundError" then
      pure (orElse fallbackTitle (titleFromSlug unicode slug))
    else raise e

/-- `update_existing_page_with_evidence` up to its first claim. -/
def writePage (tenantId slug : String) (evidence : CompilerEvidence) (title : Option String) :
    WikiProgram PageWritten := do
  let slug ← ofExcept (resolveTargetSlug unicode (some slug) slug)
  let title ← resolvePageTitle unicode tenantId slug title
  let claims := extractClaimTexts unicode evidence
  let markdown := renderPageMarkdown unicode title slug evidence claims
  let detail ← createOrUpdatePage unicode
    { tenantId := tenantId
      title := title
      slug := some slug
      pageType := "concept"
      status := none
      content :=
        { content := markdown
          contentFormat := "markdown"
          contentJson := some (contentJson evidence)
          summary := some (summaryFromAnswer unicode evidence.answer.toList)
          authorType := "agent" } }
  match detail.currentRevision with
  | none => raise ⟨"RuntimeError", "Wiki page '" ++ slug ++ "' has no current revision"⟩
  | some revision =>
    return ⟨slug, detail, revision, claims,
      evidence.sources.map EvidenceSource.toClaimSourceInput⟩

/-- One claim of `update_existing_page_with_evidence`; the confidence is 0.5000. -/
def addClaim (tenantId : String) (written : PageWritten) (claimText : List Char) :
    WikiProgram WikiClaimBundle :=
  addClaimWithSources unicode tenantId written.slug claimText written.sources "supported"
    (some 5000)

/-- `update_existing_page_with_evidence`. -/
def updateExistingPageWithEvidence (tenantId slug : String) (evidence : CompilerEvidence)
    (title : Option String) : WikiProgram WikiCompiledPage := do
  let written ← writePage unicode tenantId slug evidence title
  let _ ← written.claims.mapM' (addClaim unicode tenantId written)
  return written.compiledPage

/-- `_mark_job_succeeded`. -/
def markJobSucceeded (jobId : ℕ) : WikiProgram WikiCompileJob :=
  transaction (markCompileJobSucceeded jobId)

/-- `_mark_job_failed`, and `raise`. -/
def markJobFailed {α : Type} (jobId : ℕ) (e : PyException) : WikiProgram α := do
  let _ ← transaction (markCompileJobFailed jobId e.text)
  raise e

/-- What is done in the `try` block. -/
def fillPage (request : CompileRequest) (answer : Except PyException RAGQueryResult)
    (job : WikiCompileJob) : WikiProgram WikiCompileResult := do
  let evidence ← searchEvidence unicode request answer
  let page ← updateExistingPageWithEvidence unicode request.tenantId request.slug evidence
    (some request.title)
  let job ← markJobSucceeded job.id
  return ⟨job, [page]⟩

/-- The `except` block. The job is an object of the session, and a rollback in the `try` block has
expired its id. -/
def recordFailure {α : Type} (loaded : ℕ) (job : WikiCompileJob) (e : PyException) :
    WikiProgram α := do
  let jobId ← attributeOf loaded job.id
  markJobFailed jobId e

/-- What the two entry points have in common. -/
def compile (request : CompileRequest) (answer : Except PyException RAGQueryResult) :
    WikiProgram WikiCompileResult := do
  let job ← startJob request
  let loaded ← loading
  except (fillPage unicode request answer job) (recordFailure loaded job)

/-- `compile_source_to_pages`. -/
def compileSourceToPages (answer : Except PyException RAGQueryResult)
    (tenantId sourceId : String) (targetSlug : Option String) : WikiProgram WikiCompileResult := do
  let request ← ofExcept (sourceRequest unicode tenantId sourceId targetSlug)
  compile unicode request answer

/-- `compile_topic_page`. -/
def compileTopicPage (answer : Except PyException RAGQueryResult)
    (tenantId topic evidenceQuery : String) (sourceId targetSlug : Option String) :
    WikiProgram WikiCompileResult := do
  let request ← ofExcept (topicRequest unicode tenantId topic evidenceQuery sourceId targetSlug)
  compile unicode request answer

end WikiCompiler

/-- A call of one of the two entry points. -/
inductive CompileCall where
  | sourceToPages (tenantId sourceId : String) (targetSlug : Option String)
  | topicPage (tenantId topic evidenceQuery : String) (sourceId targetSlug : Option String)

namespace CompileCall

def request : CompileCall → Except PyException CompileRequest
  | sourceToPages tenantId sourceId targetSlug => sourceRequest unicode tenantId sourceId targetSlug
  | topicPage tenantId topic evidenceQuery sourceId targetSlug =>
    topicRequest unicode tenantId topic evidenceQuery sourceId targetSlug

def program (call : CompileCall) (answer : Except PyException RAGQueryResult) :
    WikiProgram WikiCompileResult :=
  match call with
  | sourceToPages tenantId sourceId targetSlug =>
    WikiCompiler.compileSourceToPages unicode answer tenantId sourceId targetSlug
  | topicPage tenantId topic evidenceQuery sourceId targetSlug =>
    WikiCompiler.compileTopicPage unicode answer tenantId topic evidenceQuery sourceId targetSlug

theorem program_eq (call : CompileCall) (answer : Except PyException RAGQueryResult) :
    call.program unicode answer = (do
      let request ← Program.ofExcept (call.request unicode)
      WikiCompiler.compile unicode request answer) := by
  cases call with
  | sourceToPages => rw [program, request, WikiCompiler.compileSourceToPages]
  | topicPage => rw [program, request, WikiCompiler.compileTopicPage]

end CompileCall

/-! ## What the steps do to the store -/

/-- The stores differ in compile jobs only. -/
def SameContent (W W' : WikiStore) : Prop := W' = { W with compileJobs := W'.compileJobs }

theorem SameContent.refl (W : WikiStore) : SameContent W W := rfl

theorem SameContent.setJobs (W : WikiStore) (jobs : Table WikiCompileJob) :
    SameContent W { W with compileJobs := jobs } := rfl

theorem SameContent.trans {W W₁ W' : WikiStore} (h : SameContent W W₁) (h' : SameContent W₁ W') :
    SameContent W W' := by
  unfold SameContent at h h' ⊢
  rw [h', h]

theorem SameContent.revisions {W W' : WikiStore} (h : SameContent W W') :
    W'.revisions = W.revisions := by
  rw [h]

namespace WikiCompiler

open Program WikiRepository WikiService

variable (W : WikiStore)

theorem inTx_createCompileJob (tenantId sourceId : String) (targetSlug : Option String) :
    InTx (createCompileJob tenantId sourceId targetSlug) W fun _ W' ↦ SameContent W W' := by
  refine (InTx.freshId (T := fun _ W' ↦ W = W') fun _ ↦ rfl).bind ?_
  rintro id _ rfl
  refine InTx.statement fun job W' h ↦ ?_
  split at h
  · obtain ⟨-, rfl⟩ := Prod.mk.inj (Except.ok.inj h)
    exact SameContent.setJobs W _
  · exact nomatch h

theorem inTx_updateCompileJobStatus (jobId : ℕ) (status : String) (error : Option String) :
    InTx (updateCompileJobStatus jobId status error) W fun _ W' ↦ SameContent W W' := by
  refine InTx.statement fun job W' h ↦ ?_
  split at h
  · obtain ⟨-, rfl⟩ := Prod.mk.inj (Except.ok.inj h)
    exact SameContent.setJobs W _
  · exact nomatch h

theorem outTx_startJob (request : CompileRequest) :
    OutTx (startJob request) W (fun _ W' ↦ SameContent W W') fun _ W' ↦ SameContent W W' := by
  refine (OutTx.transaction (inTx_createCompileJob W request.tenantId request.jobSourceId
    (some request.slug)) fun _ ↦ SameContent.refl W).bind fun job W₁ h ↦ ?_
  refine OutTx.transaction ?_ fun _ ↦ h
  exact (inTx_updateCompileJobStatus W₁ job.id "processing" none).mono fun _ _ h' ↦ h.trans h'

theorem outTx_markJobSucceeded (jobId : ℕ) :
    OutTx (markJobSucceeded jobId) W (fun _ W' ↦ SameContent W W')
      fun _ W' ↦ SameContent W W' :=
  OutTx.transaction (inTx_updateCompileJobStatus W jobId "succeeded" none)
    fun _ ↦ SameContent.refl W

/-- The failure path ends by raising, in any case. -/
theorem outTx_markJobFailed {α : Type} (jobId : ℕ) (e : PyException) :
    OutTx (markJobFailed jobId e : WikiProgram α) W (fun _ _ ↦ False)
      fun _ W' ↦ SameContent W W' :=
  (OutTx.transaction (inTx_updateCompileJobStatus W jobId "failed" (some e.text))
    fun _ ↦ SameContent.refl W).bind fun _ _ h ↦ OutTx.raise h

theorem outTx_recordFailure {α : Type} (loaded : ℕ) (job : WikiCompileJob) (e : PyException) :
    OutTx (recordFailure loaded job e : WikiProgram α) W (fun _ _ ↦ False)
      fun _ W' ↦ SameContent W W' :=
  OutTx.attributeOf_bind (fun _ ↦ SameContent.refl W) (outTx_markJobFailed W job.id e)

theorem outTx_searchEvidence (request : CompileRequest)
    (answer : Except PyException RAGQueryResult) :
    OutTx (searchEvidence unicode request answer) W (fun _ W' ↦ W = W') fun _ W' ↦ W = W' := by
  refine (OutTx.ofExcept (Q := fun _ W' ↦ W = W') (fun _ _ ↦ rfl) fun _ _ ↦ rfl).bind ?_
  rintro result _ rfl
  exact OutTx.ofExcept (fun _ _ ↦ rfl) fun _ _ ↦ rfl

theorem outTx_resolvePageTitle (tenantId slug : String) (fallbackTitle : Option String) :
    OutTx (resolvePageTitle unicode tenantId slug fallbackTitle) W (fun _ W' ↦ W = W')
      fun _ W' ↦ W = W' := by
  refine OutTx.except (OutTx.map (outTx_getPage unicode W tenantId slug)) ?_
  rintro e _ rfl
  split
  · exact OutTx.pure rfl
  · exact OutTx.raise rfl

/-- The store after the compiler has written its page: created or found, with a new current
revision. -/
structure WrittenPage (W W' : WikiStore) (tenantId : String) (written : PageWritten) : Prop where
  page : ∃ resolved update page W₁, requireSlug unicode written.slug = .ok resolved ∧
    update.tenantId = tenantId ∧ PagePrepared W update resolved page W₁ ∧
    Written unicode W₁ W' tenantId page update.content written.detail
  revision : written.detail.currentRevision = some written.revision

theorem outTx_writePage (tenantId slug : String) (evidence : CompilerEvidence)
    (title : Option String) :
    OutTx (writePage unicode tenantId slug evidence title) W
      (fun written W' ↦ WrittenPage unicode W W' tenantId written) fun _ W' ↦ W = W' := by
  refine (OutTx.ofExcept (Q := fun slug W' ↦ slug ≠ "" ∧ W = W')
    (fun resolved h ↦ ⟨?_, rfl⟩) fun _ _ ↦ rfl).bind ?_
  · unfold resolveTargetSlug at h
    dsimp only at h
    split at h
    · exact nomatch h
    · rename_i hne
      exact Except.ok.inj h ▸ hne
  rintro slug _ ⟨hne, rfl⟩
  refine (outTx_resolvePageTitle unicode W tenantId slug title).bind ?_
  rintro title _ rfl
  refine (outTx_createOrUpdatePage unicode W _).bind fun detail W' h ↦ ?_
  obtain ⟨resolved, page, W₁, hslug, hprep, hwritten⟩ := h
  obtain ⟨revision, hdetail, -⟩ := hwritten.detail
  have hslug : requireSlug unicode slug = .ok resolved := by
    rw [← hslug]
    unfold orElse
    dsimp only
    rw [if_neg hne]
  split
  · rename_i hnone
    rw [hdetail] at hnone
    exact nomatch hnone
  · rename_i revision' hsome
    exact OutTx.pure ⟨⟨resolved, _, page, W₁, hslug, rfl, hprep, hwritten⟩, hsome⟩

theorem WrittenPage.length_revisions {unicode : UnicodeData} {W W' : WikiStore}
    {tenantId : String} {written : PageWritten}
    (h : WrittenPage unicode W W' tenantId written) :
    W'.revisions.rows.length = W.revisions.rows.length + 1 := by
  obtain ⟨resolved, update, page, W₁, -, -, hprep, hwritten⟩ := h.page
  obtain ⟨revision, -, W₂, hadded, hlinks⟩ := hwritten.detail
  obtain ⟨-, -, revisions, hins, rfl⟩ := hadded
  have hlast : W'.revisions = revisions := by rw [hlinks.store]
  have hfirst : W₁.revisions = W.revisions := by cases hprep <;> rfl
  rw [hlast, Table.rows_insert hins, List.length_append, hfirst]
  rfl

end WikiCompiler

end KnowledgeAlakazam
