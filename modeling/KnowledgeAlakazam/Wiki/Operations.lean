import KnowledgeAlakazam.Core.Transition
import KnowledgeAlakazam.Wiki.Validation

/-!
# The operations of the wiki

The nine operations of `WikiService` and `WikiValidationService` as one type, and runs in which
they are executed one after the other, each in a session of its own. An operation of the first
service is a program on the tables of the wiki; the times that the mapper fills in are put into
the database when its unit of work has ended.
-/

namespace KnowledgeAlakazam

/-! ## Operations -/

/-- The operations of the two services, with their arguments. -/
inductive WikiOperation where
  | createOrUpdatePage (update : PageUpdate)
  | publishPage (tenantId slug : String) (revisionNo : Option ℤ)
  | getPage (tenantId slug : String)
  | createRevision (tenantId slug : String) (content : RevisionContent)
  | addClaimWithSources (tenantId slug : String) (claimText : List Char)
    (sources : List ClaimSourceInput) (supportStatus : String) (confidence : Option ℤ)
  | rebuildLinksFromMarkdown (tenantId slug : String) (markdown : List Char)
  | getBacklinks (tenantId slug : String)
  | validatePage (validators : Option (List WikiValidator)) (tenantId slug : String)
  | listPageResults (tenantId slug : String)

inductive WikiAnswer where
  | detail (detail : WikiPageDetail)
  | bundle (bundle : WikiClaimBundle)
  | links (links : List WikiLink)
  | backlinks (backlinks : List (WikiLink × WikiPage))
  | validationRun (run : WikiValidationRun)

/-- An operation, when it is called, and how the statements it awaits end. -/
structure OperationLabel where
  operation : WikiOperation
  time : CallTime
  outcomes : List (Option PyException)

structure DatabaseState where
  db : WikiDatabase
  nextId : ℕ

/-- The database after a unit of work of `WikiService`. The mapper fills in the time of a claim
that is new, and of a page that is new or has a column that changed. -/
def WikiDatabase.stamp (db : WikiDatabase) (now : ℤ) (wiki : WikiStore) : WikiDatabase where
  wiki := wiki
  updatedAt i := if wiki.pages.find i = db.wiki.pages.find i then db.updatedAt i else now
  claimedAt i := if wiki.claims.find i = db.wiki.claims.find i then db.claimedAt i else now
  validationResults := db.validationResults

def WikiDatabase.empty : WikiDatabase := ⟨.empty, fun _ ↦ 0, fun _ ↦ 0, .empty⟩

def DatabaseState.initial : DatabaseState := ⟨.empty, 0⟩

section Definitions

variable (unicode : UnicodeData) (postgres : PostgresData)

namespace WikiOperation

def tenantId : WikiOperation → String
  | createOrUpdatePage update => update.tenantId
  | publishPage tenantId _ _ => tenantId
  | getPage tenantId _ => tenantId
  | createRevision tenantId _ _ => tenantId
  | addClaimWithSources tenantId _ _ _ _ _ => tenantId
  | rebuildLinksFromMarkdown tenantId _ _ => tenantId
  | getBacklinks tenantId _ => tenantId
  | validatePage _ tenantId _ => tenantId
  | listPageResults tenantId _ => tenantId

/-- Its program: on the tables of the wiki, or on these and those of the validation. -/
def program (time : CallTime) : WikiOperation → WikiProgram WikiAnswer ⊕ DatabaseProgram WikiAnswer
  | createOrUpdatePage update =>
    .inl (.detail <$> WikiService.createOrUpdatePage unicode update)
  | publishPage tenantId slug revisionNo =>
    .inl (.detail <$> WikiService.publishPage unicode tenantId slug revisionNo)
  | getPage tenantId slug => .inl (.detail <$> WikiService.getPage unicode tenantId slug)
  | createRevision tenantId slug content =>
    .inl (.detail <$> WikiService.createRevision unicode tenantId slug content)
  | addClaimWithSources tenantId slug claimText sources supportStatus confidence =>
    .inl (.bundle <$> WikiService.addClaimWithSources unicode tenantId slug claimText sources
      supportStatus confidence)
  | rebuildLinksFromMarkdown tenantId slug markdown =>
    .inl (.links <$> WikiService.rebuildLinksFromMarkdown unicode tenantId slug markdown)
  | getBacklinks tenantId slug =>
    .inl (.backlinks <$> WikiService.getBacklinks unicode postgres tenantId slug)
  | validatePage validators tenantId slug =>
    .inr (.validationRun <$> WikiValidationService.validatePage unicode postgres validators time
      tenantId slug)
  | listPageResults tenantId slug =>
    .inr (.validationRun <$> WikiValidationService.listPageResults unicode postgres tenantId slug)

end WikiOperation

/-- The run of an operation in a session of its own: its answer, and the database afterwards. -/
def OperationLabel.run (label : OperationLabel) (s : DatabaseState) :
    Except PyException WikiAnswer × DatabaseState :=
  match label.operation.program unicode postgres label.time with
  | .inl x =>
    let r := x (Session.start s.db.wiki s.nextId label.outcomes)
    (r.1, ⟨s.db.stamp label.time.transaction r.2.committed, r.2.nextId⟩)
  | .inr x =>
    let r := x (Session.start s.db s.nextId label.outcomes)
    (r.1, ⟨r.2.committed, r.2.nextId⟩)

/-- An operation is answered, with a result or an error. -/
def DatabaseState.step (s : DatabaseState) (label : OperationLabel) : Option DatabaseState :=
  some (label.run unicode postgres s).2

end Definitions

end KnowledgeAlakazam
