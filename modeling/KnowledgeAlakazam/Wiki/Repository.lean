import KnowledgeAlakazam.Core.Session
import KnowledgeAlakazam.Wiki.Store

/-!
# The wiki's repository

The statements of `WikiRepository` as programs in a database session. An insert fails when a row
with one of the keys exists; an object that is changed is written back by the next flush. The
column defaults of the tables are those of the method signatures.
-/

namespace KnowledgeAlakazam

abbrev WikiProgram (α : Type) := Program WikiStore PyException α

/-- What the driver raises when a row violates a unique constraint. -/
def integrityError (constraint : String) : PyException := ⟨"IntegrityError", constraint⟩

/-- A `ValueError`. -/
def valueError (text : String) : PyException := ⟨"ValueError", text⟩

/-- What the session raises by itself, without the link to the documentation that is appended to
the second text. -/
instance : SessionErrors PyException where
  prepared := ⟨"InvalidRequestError",
    "This session is in 'prepared' state; no further SQL can be emitted within this transaction."⟩
  missingGreenlet := ⟨"MissingGreenlet", "greenlet_spawn has not been called; can't call "
    ++ "await_only() here. Was IO attempted in an unexpected place?"⟩

/-! ## Updates of objects -/

/-- `page.title = title; page.page_type = page_type`, and `page.status = status` if there is one. -/
def retitlePatch (title pageType : String) (status : Option String) : Patch WikiPage where
  app page := { page with title := title, pageType := pageType, status := status.getD page.status }
  primary_app _ := rfl
  unique_app _ := rfl

/-- `page.current_revision_id = revision_id`. -/
def setCurrentPatch (revisionId : ℕ) : Patch WikiPage where
  app page := { page with currentRevisionId := some revisionId }
  primary_app _ := rfl
  unique_app _ := rfl

/-- `page.current_revision_id = revision_id; page.status = "published"`. -/
def publishPatch (revisionId : ℕ) : Patch WikiPage where
  app page := { page with currentRevisionId := some revisionId, status := "published" }
  primary_app _ := rfl
  unique_app _ := rfl

structure RevisionContent where
  content : List Char
  contentFormat : String
  contentJson : Option PyValue
  summary : Option (List Char)
  authorType : String

def RevisionContent.newRevision (c : RevisionContent) (id pageId revisionNo : ℕ) :
    WikiRevision where
  id := id
  pageId := pageId
  revisionNo := revisionNo
  contentFormat := c.contentFormat
  content := c.content
  contentJson := c.contentJson
  summary := c.summary
  authorType := c.authorType

/-- The overwrite of a revision that exists. -/
def RevisionContent.patch (c : RevisionContent) : Patch WikiRevision where
  app revision := { revision with
    contentFormat := c.contentFormat
    content := c.content
    contentJson := c.contentJson
    summary := c.summary
    authorType := c.authorType }
  primary_app _ := rfl
  unique_app _ := rfl

/-- The row of a source, as `attach_claim_source` receives it. -/
structure ClaimSourceInput where
  sourceId : String
  documentUri : Option String
  chunkId : Option String
  entityId : Option String
  relationId : Option String
  assetUrl : Option String
  pageNo : Option ℤ
  bbox : Option PyValue
  quote : Option String
  locator : Option PyValue

/-- `job.status = status; job.error = error`. -/
def compileJobPatch (status : String) (error : Option String) : Patch WikiCompileJob where
  app job := { job with status := status, error := error }
  primary_app _ := rfl
  unique_app _ := rfl

namespace WikiRepository

open Program

/-- `get_page_by_slug`. -/
def getPageBySlug (tenantId slug : String) : WikiProgram (Option WikiPage) :=
  query fun w ↦ w.pageBySlug tenantId slug

/-- `get_current_revision`. -/
def getCurrentRevision (tenantId slug : String) : WikiProgram (Option WikiRevision) :=
  query fun w ↦ w.currentRevision tenantId slug

/-- `list_page_revisions`. -/
def listPageRevisions (pageId : ℕ) : WikiProgram (List WikiRevision) :=
  query fun w ↦ w.pageRevisions pageId

/-- `list_backlinks`. -/
def listBacklinks (postgres : PostgresData) (tenantId slug : String) :
    WikiProgram (List (WikiLink × WikiPage)) :=
  query fun w ↦ w.backlinks postgres tenantId slug

/-- `create_page`. -/
def createPage (tenantId slug title pageType status : String) : WikiProgram WikiPage := do
  let id ← freshId
  let page : WikiPage := ⟨id, tenantId, slug, title, pageType, status, none⟩
  statement fun w ↦ match w.pages.insert page with
    | some pages => .ok (page, { w with pages := pages })
    | none => .error (integrityError "uq_wiki_page_tenant_slug")

/-- The flush of `upsert_page_revision` when the number is free. -/
def insertRevision (revision : WikiRevision) : WikiProgram WikiRevision :=
  statement fun w ↦ match w.revisions.insert revision with
    | some revisions => .ok (revision, { w with revisions := revisions })
    | none => .error (integrityError "uq_wiki_revision_page_revision_no")

/-- The flush of `upsert_page_revision` when the number is taken. -/
def overwriteRevision (revision : WikiRevision) (c : RevisionContent) : WikiProgram WikiRevision :=
  statement fun w ↦ .ok (c.patch.app revision,
    { w with revisions := w.revisions.modify revision.id c.patch })

/-- The page is pointed to the revision. -/
def setCurrentRevision (pageId revisionId : ℕ) : WikiProgram Unit :=
  statement fun w ↦ match w.pages.find pageId with
    | some _ => .ok ((), { w with pages := w.pages.modify pageId (setCurrentPatch revisionId) })
    | none => .error (valueError ("Wiki page " ++ toString pageId ++ " does not exist"))

/-- The flush of `upsert_page_revision`, with what `_get_revision_by_no` found. -/
def flushRevision (pageId revisionNo : ℕ) (c : RevisionContent) :
    Option WikiRevision → WikiProgram WikiRevision
  | none => do
    let id ← freshId
    insertRevision (c.newRevision id pageId revisionNo)
  | some revision => overwriteRevision revision c

/-- `upsert_page_revision`, with the revision number and `set_current` that the service uses. -/
def upsertPageRevision (pageId : ℕ) (c : RevisionContent) : WikiProgram WikiRevision := do
  let revisionNo ← query fun w ↦ w.nextRevisionNo pageId
  let found ← query fun w ↦ w.revisionByNo pageId revisionNo
  let revision ← flushRevision pageId revisionNo c found
  setCurrentRevision pageId revision.id
  return revision

/-- One link of `_create_links_for_page`. -/
def createLink (tenantId : String) (pageId : ℕ) (toSlug : String) : WikiProgram WikiLink := do
  let id ← freshId
  let link : WikiLink := ⟨id, tenantId, pageId, toSlug, "wikilink"⟩
  statement fun w ↦ match w.links.insert link with
    | some links => .ok (link, { w with links := links })
    | none => .error (integrityError "wiki_link_pkey")

/-- `replace_links_for_page`. -/
def replaceLinksForPage (tenantId : String) (pageId : ℕ) (toSlugs : List String) :
    WikiProgram (List WikiLink) := do
  statement fun w ↦ .ok ((), w.dropLinks tenantId pageId)
  (dedupeSlugs toSlugs).mapM' (createLink tenantId pageId)

/-- `create_claim`. -/
def createClaim (tenantId : String) (pageId revisionId : ℕ) (claimText : List Char)
    (supportStatus : String) (confidence : Option ℤ) : WikiProgram WikiClaim := do
  let id ← freshId
  let claim : WikiClaim := ⟨id, tenantId, pageId, revisionId, claimText, supportStatus, confidence⟩
  statement fun w ↦ match w.claims.insert claim with
    | some claims => .ok (claim, { w with claims := claims })
    | none => .error (integrityError "wiki_claim_pkey")

/-- `attach_claim_source`. -/
def attachClaimSource (claimId : ℕ) (input : ClaimSourceInput) : WikiProgram WikiClaimSource := do
  let id ← freshId
  let source : WikiClaimSource :=
    { id := id
      claimId := claimId
      sourceId := input.sourceId
      documentUri := input.documentUri
      chunkId := input.chunkId
      entityId := input.entityId
      relationId := input.relationId
      assetUrl := input.assetUrl
      pageNo := input.pageNo
      bbox := input.bbox
      quote := input.quote
      locator := input.locator.getD (.dict []) }
  statement fun w ↦ match w.claimSources.insert source with
    | some sources => .ok (source, { w with claimSources := sources })
    | none => .error (integrityError "wiki_claim_source_pkey")

/-- `create_compile_job`. -/
def createCompileJob (tenantId sourceId : String) (targetSlug : Option String) :
    WikiProgram WikiCompileJob := do
  let id ← freshId
  let job : WikiCompileJob := ⟨id, tenantId, sourceId, targetSlug, "pending", none⟩
  statement fun w ↦ match w.compileJobs.insert job with
    | some jobs => .ok (job, { w with compileJobs := jobs })
    | none => .error (integrityError "wiki_compile_job_pkey")

/-- `_update_compile_job_status`. -/
def updateCompileJobStatus (jobId : ℕ) (status : String) (error : Option String) :
    WikiProgram WikiCompileJob :=
  statement fun w ↦ match w.compileJobs.find jobId with
    | some job => .ok ((compileJobPatch status error).app job,
      { w with compileJobs := w.compileJobs.modify jobId (compileJobPatch status error) })
    | none => .error (valueError ("Wiki compile job " ++ toString jobId ++ " does not exist"))

/-- `mark_compile_job_processing`. -/
def markCompileJobProcessing (jobId : ℕ) : WikiProgram WikiCompileJob :=
  updateCompileJobStatus jobId "processing" none

/-- `mark_compile_job_succeeded`. -/
def markCompileJobSucceeded (jobId : ℕ) : WikiProgram WikiCompileJob :=
  updateCompileJobStatus jobId "succeeded" none

/-- `mark_compile_job_failed`. -/
def markCompileJobFailed (jobId : ℕ) (error : String) : WikiProgram WikiCompileJob :=
  updateCompileJobStatus jobId "failed" (some error)

end WikiRepository

end KnowledgeAlakazam
