import KnowledgeAlakazam.Core.Transition
import KnowledgeAlakazam.Wiki.Service
import Mathlib.Data.Fintype.Basic
import Mathlib.Logic.Function.Basic

/-!
# Concurrent writers

The transactions of `create_or_update_page` and `create_revision`, statement by statement. The
database is PostgreSQL at `READ COMMITTED`: a `SELECT` sees what was committed before it and what
its own transaction wrote. What a transaction wrote is a list of writes that becomes visible to
the others at its commit, and is dropped when it raises.

A write locks the rows and the keys it is about until the transaction ends; a statement that needs
a lock of another transaction waits, that is, the writer has no step. An `INSERT` whose key is
taken by a row that is already visible raises. The object-relational mapper writes a changed
object back before the next statement (*autoflush*), and only the columns that differ from what it
loaded; when none does there is no statement.

Any statement may raise for other reasons (a lost connection, a victim of a deadlock): the label
`abort`.
-/

namespace KnowledgeAlakazam

/-! ## Writes and locks -/

inductive WikiWrite where
  | insertPage (page : WikiPage)
  | updatePage (pageId : ℕ) (patch : Patch WikiPage)
  | insertRevision (revision : WikiRevision)
  | updateRevision (revisionId : ℕ) (patch : Patch WikiRevision)
  | deleteLinks (ids : List ℕ)
  | insertLink (link : WikiLink)

/-- The row or the key that a write keeps from others. -/
inductive RowLock where
  | page (id : ℕ)
  | pageKey (tenantId slug : String)
  | revision (id : ℕ)
  | revisionKey (pageId revisionNo : ℕ)
  | link (id : ℕ)
deriving DecidableEq

namespace WikiWrite

def apply : WikiWrite → WikiStore → WikiStore
  | insertPage page, w => { w with pages := w.pages.add page }
  | updatePage pageId patch, w => { w with pages := w.pages.modify pageId patch }
  | insertRevision revision, w => { w with revisions := w.revisions.add revision }
  | updateRevision revisionId patch, w =>
    { w with revisions := w.revisions.modify revisionId patch }
  | deleteLinks ids, w => { w with links := w.links.keep fun link ↦ !ids.contains link.id }
  | insertLink link, w => { w with links := w.links.add link }

def locks : WikiWrite → List RowLock
  | insertPage page => [.page page.id, .pageKey page.tenantId page.slug]
  | updatePage pageId _ => [.page pageId]
  | insertRevision revision =>
    [.revision revision.id, .revisionKey revision.pageId revision.revisionNo]
  | updateRevision revisionId _ => [.revision revisionId]
  | deleteLinks ids => ids.map .link
  | insertLink link => [.link link.id]

def Fits (w : WikiStore) : WikiWrite → Prop
  | insertPage page => w.pages.Free page
  | insertRevision revision => w.revisions.Free revision
  | insertLink link => w.links.Free link
  | updatePage _ _ => True
  | updateRevision _ _ => True
  | deleteLinks _ => True

instance (w : WikiStore) : (write : WikiWrite) → Decidable (write.Fits w)
  | insertPage page => inferInstanceAs (Decidable (w.pages.Free page))
  | insertRevision revision => inferInstanceAs (Decidable (w.revisions.Free revision))
  | insertLink link => inferInstanceAs (Decidable (w.links.Free link))
  | updatePage _ _ => instDecidableTrue
  | updateRevision _ _ => instDecidableTrue
  | deleteLinks _ => instDecidableTrue

/-- It is about the table of revisions. -/
def ofRevisions : WikiWrite → Bool
  | insertRevision _ => true
  | updateRevision _ _ => true
  | _ => false

end WikiWrite

/-- The store as a transaction sees it. -/
def WikiStore.overlay (w : WikiStore) (writes : List WikiWrite) : WikiStore :=
  writes.foldl (fun w write ↦ write.apply w) w

/-! ## What the mapper writes back -/

/-- The columns of a page that differ from what was loaded. -/
def pageDiff (loaded page : WikiPage) : Patch WikiPage where
  app row := { row with
    title := if page.title = loaded.title then row.title else page.title
    pageType := if page.pageType = loaded.pageType then row.pageType else page.pageType
    status := if page.status = loaded.status then row.status else page.status
    currentRevisionId := if page.currentRevisionId = loaded.currentRevisionId then
      row.currentRevisionId else page.currentRevisionId }
  primary_app _ := rfl
  unique_app _ := rfl

def flushPage (loaded page : WikiPage) : List WikiWrite :=
  if page = loaded then [] else [.updatePage loaded.id (pageDiff loaded page)]

section Revisions

-- how the mapper compares two values of the column content_json
variable (sameJson : Option PyValue → Option PyValue → Bool)

/-- The columns of a revision that differ from what was loaded. -/
def revisionDiff (loaded : WikiRevision) (c : RevisionContent) : Patch WikiRevision where
  app row := { row with
    contentFormat :=
      if c.contentFormat = loaded.contentFormat then row.contentFormat else c.contentFormat
    content := if c.content = loaded.content then row.content else c.content
    contentJson :=
      if sameJson c.contentJson loaded.contentJson then row.contentJson else c.contentJson
    summary := if c.summary = loaded.summary then row.summary else c.summary
    authorType := if c.authorType = loaded.authorType then row.authorType else c.authorType }
  primary_app _ := rfl
  unique_app _ := rfl

/-- The flush of a revision that was found. -/
def flushFound (loaded : WikiRevision) (c : RevisionContent) : List WikiWrite :=
  if c.contentFormat = loaded.contentFormat ∧ c.content = loaded.content ∧
      sameJson c.contentJson loaded.contentJson = true ∧ c.summary = loaded.summary ∧
      c.authorType = loaded.authorType then []
  else [.updateRevision loaded.id (revisionDiff sameJson loaded c)]

end Revisions

/-! ## The transactions -/

section Transactions

variable (unicode : UnicodeData) (sameJson : Option PyValue → Option PyValue → Bool)

inductive WriteRequest where
  | createOrUpdatePage (update : PageUpdate)
  | createRevision (tenantId slug : String) (content : RevisionContent)

namespace WriteRequest

def tenantId : WriteRequest → String
  | createOrUpdatePage update => update.tenantId
  | createRevision tenantId _ _ => tenantId

/-- The slug of the page, or the error for one that is empty. -/
def slug : WriteRequest → Except PyException String
  | createOrUpdatePage update => requireSlug unicode (orElse update.slug update.title)
  | createRevision _ slug _ => requireSlug unicode slug

def content : WriteRequest → RevisionContent
  | createOrUpdatePage update => update.content
  | createRevision _ _ c => c

/-- What becomes of a page that exists. -/
def retitle : WriteRequest → WikiPage → WikiPage
  | createOrUpdatePage update, page =>
    (retitlePatch update.title update.pageType update.status).app page
  | createRevision _ _ _, page => page

end WriteRequest

/-- The next statement of a writer; `page` is the mapped object of the page, and `found` what
`_get_revision_by_no` found. -/
inductive WriterPc where
  | selectPage
  | insertPage (update : PageUpdate) (slug : String)
  | flushPage (page : WikiPage)
  | selectMax (page : WikiPage)
  | selectRevision (page : WikiPage) (revisionNo : ℕ)
  | flushRevision (page : WikiPage) (revisionNo : ℕ) (found : Option WikiRevision)
  | flushCurrent (page : WikiPage) (found : Option WikiRevision) (revisionId : ℕ)
  | deleteLinks (page : WikiPage) (found : Option WikiRevision)
  | insertLinks (page : WikiPage) (found : Option WikiRevision)
  | commit (page : WikiPage) (found : Option WikiRevision)
  | done
  | failed

/-- What the next statement asks of the database. -/
inductive WriterMove where
  /-- These writes, after which the writer is at the given statement. -/
  | statement (pc : WriterPc) (writes : List WikiWrite)
  | commit
  | raise

/-- The next statement, on the store that the transaction sees. -/
def WriterPc.move (request : WriteRequest) (w : WikiStore) (nextId : ℕ) :
    WriterPc → Option WriterMove
  | selectPage => some <| match request.slug unicode with
    | .error _ => .raise
    | .ok slug => match w.pageBySlug request.tenantId slug, request with
      | some page, _ => .statement (.flushPage page) []
      | none, .createOrUpdatePage update => .statement (.insertPage update slug) []
      | none, .createRevision _ _ _ => .raise
  | insertPage update slug =>
    let page : WikiPage := ⟨nextId, update.tenantId, slug, update.title, update.pageType,
      orElse update.status "draft", none⟩
    some (.statement (.selectMax page) [.insertPage page])
  -- the new title is written back before the next SELECT
  | flushPage page =>
    some (.statement (.selectMax (request.retitle page))
      (KnowledgeAlakazam.flushPage page (request.retitle page)))
  | selectMax page => some (.statement (.selectRevision page (w.nextRevisionNo page.id)) [])
  | selectRevision page revisionNo =>
    some (.statement (.flushRevision page revisionNo (w.revisionByNo page.id revisionNo)) [])
  | flushRevision page revisionNo none =>
    some (.statement (.flushCurrent page none nextId)
      [.insertRevision (request.content.newRevision nextId page.id revisionNo)])
  | flushRevision page _ (some revision) =>
    some (.statement (.flushCurrent page (some revision) revision.id)
      (flushFound sameJson revision request.content))
  | flushCurrent page found revisionId =>
    let pointed := (setCurrentPatch revisionId).app page
    some (.statement (.deleteLinks pointed found) (KnowledgeAlakazam.flushPage page pointed))
  | deleteLinks page found =>
    let links := (w.linksOf page.id).filter fun link ↦ link.tenantId == request.tenantId
    some (.statement (.insertLinks page found) [.deleteLinks (links.map WikiLink.id)])
  | insertLinks page found =>
    let toSlugs := dedupeSlugs (linkTargets unicode request.content)
    some (.statement (.commit page found) (toSlugs.mapIdx fun k toSlug ↦
      .insertLink ⟨nextId + k, request.tenantId, page.id, toSlug, "wikilink"⟩))
  | commit _ _ => some .commit
  | done => none
  | failed => none

/-! ## The system -/

/-- A writer: its next statement, and what its transaction wrote so far. -/
structure Writer where
  pc : WriterPc
  pending : List WikiWrite

/-- The committed store and the writers. -/
structure WriteState (n : ℕ) where
  store : WikiStore
  nextId : ℕ
  writers : Fin n → Writer

/-- A writer executes its next statement, or it raises. -/
inductive WriteLabel (n : ℕ) where
  | proceed (i : Fin n)
  | abort (i : Fin n)
deriving DecidableEq

namespace WriteState

variable {n : ℕ}

def initial (store : WikiStore) (nextId : ℕ) : WriteState n :=
  ⟨store, nextId, fun _ ↦ ⟨.selectPage, []⟩⟩

def visible (s : WriteState n) (i : Fin n) : WikiStore := s.store.overlay (s.writers i).pending

/-- The writes wait for another transaction. -/
def Blocked (s : WriteState n) (i : Fin n) (writes : List WikiWrite) : Prop :=
  ∃ j, j ≠ i ∧ ∃ lock ∈ writes.flatMap WikiWrite.locks,
    lock ∈ (s.writers j).pending.flatMap WikiWrite.locks

instance (s : WriteState n) (i : Fin n) (writes : List WikiWrite) :
    Decidable (s.Blocked i writes) :=
  inferInstanceAs (Decidable (∃ _, _ ∧ ∃ lock ∈ _, lock ∈ _))

def fail (s : WriteState n) (i : Fin n) : WriteState n :=
  { s with writers := Function.update s.writers i ⟨.failed, []⟩ }

def commit (s : WriteState n) (i : Fin n) : WriteState n :=
  { s with
    store := s.visible i
    writers := Function.update s.writers i ⟨.done, []⟩ }

/-- The writes of a statement join those of the transaction. -/
def write (s : WriteState n) (i : Fin n) (pc : WriterPc) (writes : List WikiWrite) :
    WriteState n :=
  { s with
    nextId := s.nextId + writes.length
    writers := Function.update s.writers i ⟨pc, (s.writers i).pending ++ writes⟩ }

variable (requests : Fin n → WriteRequest)

def step (s : WriteState n) : WriteLabel n → Option (WriteState n)
  | .proceed i =>
    match (s.writers i).pc.move unicode sameJson (requests i) (s.visible i) s.nextId with
    | none => none
    | some .raise => some (s.fail i)
    | some .commit => some (s.commit i)
    | some (.statement pc writes) =>
      if s.Blocked i writes then none
      else if ∀ write ∈ writes, write.Fits (s.visible i) then some (s.write i pc writes)
      else some (s.fail i)
  | .abort i =>
    match (s.writers i).pc.move unicode sameJson (requests i) (s.visible i) s.nextId with
    | none => none
    | some _ => some (s.fail i)

end WriteState

end Transactions

end KnowledgeAlakazam
