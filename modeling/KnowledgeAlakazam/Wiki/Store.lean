import KnowledgeAlakazam.Core.PyValue
import KnowledgeAlakazam.Core.Table
import KnowledgeAlakazam.Wiki.Text
import Mathlib.Data.List.Sort
import Mathlib.Data.String.Basic

/-!
# The wiki's tables

The rows of the wiki and the queries of the repository, as functions of the store. A page has one
row, addressed by its tenant and slug; what it says is in its revisions, numbered from one, and
the page points to the current one. Links, claims and claim sources hang off pages and revisions
by id. The texts that are written to be read, as opposed to names, are lists of characters.
-/

namespace KnowledgeAlakazam

/-- A row of `wiki_page`. -/
structure WikiPage where
  id : ℕ
  tenantId : String
  slug : String
  title : String
  pageType : String
  status : String
  currentRevisionId : Option ℕ
deriving DecidableEq

/-- A row of `wiki_revision`. -/
structure WikiRevision where
  id : ℕ
  pageId : ℕ
  revisionNo : ℕ
  contentFormat : String
  content : List Char
  contentJson : Option PyValue
  summary : Option (List Char)
  authorType : String

/-- A row of `wiki_link`. -/
structure WikiLink where
  id : ℕ
  tenantId : String
  fromPageId : ℕ
  toSlug : String
  linkType : String
deriving DecidableEq

/-- A row of `wiki_claim`; the confidence is in units of the fourth decimal. -/
structure WikiClaim where
  id : ℕ
  tenantId : String
  pageId : ℕ
  revisionId : ℕ
  claimText : List Char
  supportStatus : String
  confidence : Option ℤ
deriving DecidableEq

/-- A row of `wiki_claim_source`. -/
structure WikiClaimSource where
  id : ℕ
  claimId : ℕ
  sourceId : String
  documentUri : Option String
  chunkId : Option String
  entityId : Option String
  relationId : Option String
  assetUrl : Option String
  pageNo : Option ℤ
  bbox : Option PyValue
  quote : Option String
  locator : PyValue

/-- A row of `wiki_compile_job`. -/
structure WikiCompileJob where
  id : ℕ
  tenantId : String
  sourceId : String
  targetSlug : Option String
  status : String
  error : Option String
deriving DecidableEq

/-- The primary key, and `uq_wiki_page_tenant_slug`. -/
instance : Row WikiPage ℕ (String × String) where
  primary page := page.id
  unique page := (page.tenantId, page.slug)

/-- The primary key, and `uq_wiki_revision_page_revision_no`. -/
instance : Row WikiRevision ℕ (ℕ × ℕ) where
  primary revision := revision.id
  unique revision := (revision.pageId, revision.revisionNo)

instance : Row WikiLink ℕ ℕ where
  primary link := link.id
  unique link := link.id

instance : Row WikiClaim ℕ ℕ where
  primary claim := claim.id
  unique claim := claim.id

instance : Row WikiClaimSource ℕ ℕ where
  primary source := source.id
  unique source := source.id

instance : Row WikiCompileJob ℕ ℕ where
  primary job := job.id
  unique job := job.id

/-- The wiki's tables. -/
structure WikiStore where
  pages : Table WikiPage
  revisions : Table WikiRevision
  links : Table WikiLink
  claims : Table WikiClaim
  claimSources : Table WikiClaimSource
  compileJobs : Table WikiCompileJob

/-- What the database does with texts and ids by its own rules. -/
structure PostgresData where
  /-- `lower(text)`. -/
  lower : List Char → List Char
  /-- The order of texts in the collation of the database. -/
  collation : LinearOrder String
  /-- The place of an id among the others. -/
  uuidRank : ℕ → ℕ

namespace PostgresData

variable (postgres : PostgresData)

/-- `a <= b`, of texts. -/
def TextLE (a b : String) : Prop := postgres.collation.le a b

/-- `a < b`, of texts. -/
def TextLT (a b : String) : Prop := postgres.collation.lt a b

instance : DecidableRel postgres.TextLE := postgres.collation.toDecidableLE

instance : DecidableRel postgres.TextLT := postgres.collation.toDecidableLT

end PostgresData

/-- A database with ASCII texts, which it sorts by code points, and with ids that are numbers. -/
def asciiPostgres : PostgresData where
  lower := asciiData.lower
  collation := inferInstance
  uuidRank := id

namespace WikiStore

def empty : WikiStore := ⟨.empty, .empty, .empty, .empty, .empty, .empty⟩

/-! ## Queries -/

/-- `get_page_by_slug`. -/
def pageBySlug (w : WikiStore) (tenantId slug : String) : Option WikiPage :=
  w.pages.lookup (tenantId, slug)

def revisionsOf (w : WikiStore) (pageId : ℕ) : List WikiRevision :=
  w.revisions.rows.filter fun revision ↦ revision.pageId == pageId

/-- `_next_revision_no`. -/
def nextRevisionNo (w : WikiStore) (pageId : ℕ) : ℕ :=
  ((w.revisionsOf pageId).map WikiRevision.revisionNo).foldr max 0 + 1

/-- `_get_revision_by_no`. -/
def revisionByNo (w : WikiStore) (pageId revisionNo : ℕ) : Option WikiRevision :=
  w.revisions.lookup (pageId, revisionNo)

/-- `list_page_revisions`. -/
def pageRevisions (w : WikiStore) (pageId : ℕ) : List WikiRevision :=
  (w.revisionsOf pageId).insertionSort fun a b ↦ a.revisionNo ≤ b.revisionNo

def currentOf (w : WikiStore) (page : WikiPage) : Option WikiRevision :=
  page.currentRevisionId.bind w.revisions.find

/-- `get_current_revision`. -/
def currentRevision (w : WikiStore) (tenantId slug : String) : Option WikiRevision :=
  (w.pageBySlug tenantId slug).bind w.currentOf

def linksOf (w : WikiStore) (pageId : ℕ) : List WikiLink :=
  w.links.rows.filter fun link ↦ link.fromPageId == pageId

/-- The store without the links that `replace_links_for_page` deletes. -/
def dropLinks (w : WikiStore) (tenantId : String) (pageId : ℕ) : WikiStore :=
  { w with
    links := w.links.keep fun link ↦ !(link.tenantId == tenantId && link.fromPageId == pageId) }

/-- The row of `list_backlinks` for a link: the link, if it is the tenant's and to the slug, with
the page it is on. -/
def backlinkOf (w : WikiStore) (tenantId slug : String) (link : WikiLink) :
    Option (WikiLink × WikiPage) :=
  if link.tenantId = tenantId ∧ link.toSlug = slug then
    ((w.pages.find link.fromPageId).filter fun page ↦ page.tenantId = tenantId).map
      fun page ↦ (link, page)
  else none

/-- `list_backlinks`, by title and slug. -/
def backlinks (postgres : PostgresData) (w : WikiStore) (tenantId slug : String) :
    List (WikiLink × WikiPage) :=
  (w.links.rows.filterMap (w.backlinkOf tenantId slug)).insertionSort fun a b ↦
    postgres.TextLT a.2.title b.2.title ∨ a.2.title = b.2.title ∧ postgres.TextLE a.2.slug b.2.slug

theorem revisionNo_lt_nextRevisionNo {w : WikiStore} {pageId : ℕ} {revision : WikiRevision}
    (h : revision ∈ w.revisions.rows) (hpage : revision.pageId = pageId) :
    revision.revisionNo < w.nextRevisionNo pageId := by
  have hmem : revision.revisionNo ∈ (w.revisionsOf pageId).map WikiRevision.revisionNo :=
    List.mem_map_of_mem (List.mem_filter.mpr ⟨h, by simpa using hpage⟩)
  have hle : ∀ l : List ℕ, ∀ m ∈ l, m ≤ l.foldr max 0 := by
    intro l
    induction l with
    | nil => exact fun m hm ↦ nomatch hm
    | cons a l ih =>
      intro m hm
      rw [List.foldr_cons]
      rcases List.mem_cons.mp hm with rfl | hm
      · exact le_max_left _ _
      · exact le_trans (ih m hm) (le_max_right _ _)
  exact Nat.lt_succ_of_le (hle _ _ hmem)

/-- The next number is free, as long as nobody else writes. -/
theorem revisionByNo_nextRevisionNo (w : WikiStore) (pageId : ℕ) :
    w.revisionByNo pageId (w.nextRevisionNo pageId) = none := by
  rw [revisionByNo, Table.lookup_eq_none]
  intro revision hmem hkey
  obtain ⟨hpage, hno⟩ := Prod.mk.inj hkey
  exact absurd hno (Nat.ne_of_lt (revisionNo_lt_nextRevisionNo hmem hpage))

end WikiStore

end KnowledgeAlakazam
