import KnowledgeAlakazam.Wiki.Service

/-!
# The validation of pages

`WikiValidationService` and its validators. A validator reads the tables and returns issues; the
service runs its validators one after the other and stores what they found as rows of
`wiki_validation_result`, in place of the rows that an earlier run stored for the same revision.

The service needs three things that the tables of the wiki leave out: its own table, and the
columns `wiki_page.updated_at` and `wiki_claim.created_at`, which two of the validators read.
`WikiDatabase` has them beside the tables. Times are microseconds.
-/

namespace KnowledgeAlakazam

/-! ## Tables -/

/-- `ValidationSeverity`. -/
inductive ValidationSeverity where
  | info
  | warning
  | error
deriving DecidableEq

/-- A row of `wiki_validation_result`. -/
structure WikiValidationResult where
  id : ℕ
  tenantId : String
  pageId : ℕ
  revisionId : ℕ
  validatorName : String
  severity : ValidationSeverity
  message : String
  metadata : PyValue
  createdAt : ℤ

instance : Row WikiValidationResult ℕ ℕ where
  primary result := result.id
  unique result := result.id

/-- The wiki's tables, with what the validation reads and writes. -/
structure WikiDatabase where
  wiki : WikiStore
  /-- `wiki_page.updated_at`, by the id of the page. -/
  updatedAt : ℕ → ℤ
  /-- `wiki_claim.created_at`, by the id of the claim. -/
  claimedAt : ℕ → ℤ
  validationResults : Table WikiValidationResult

/-- The times at which a call is made. -/
structure CallTime where
  /-- `now()` of the transaction. -/
  transaction : ℤ
  /-- `datetime.now(UTC)`. -/
  clock : ℤ

/-- A program on the tables of the wiki and of the validation. -/
abbrev DatabaseProgram (α : Type) := Program WikiDatabase PyException α

section Queries

variable (unicode : UnicodeData) (postgres : PostgresData)

/-- The rows of `list_pages_by_slugs`. -/
def WikiStore.pagesBySlugs (w : WikiStore) (tenantId : String) (slugs : List String) :
    List WikiPage :=
  (w.pages.rows.filter fun page ↦
    page.tenantId == tenantId && slugs.contains page.slug).insertionSort
      fun a b ↦ postgres.TextLE a.slug b.slug

/-- The rows of `list_pages_by_title`. -/
def WikiStore.pagesByTitle (w : WikiStore) (tenantId title : String) : List WikiPage :=
  (w.pages.rows.filter fun page ↦ page.tenantId == tenantId &&
    postgres.lower page.title.toList == unicode.lower title.toList).insertionSort
      fun a b ↦ postgres.TextLE a.slug b.slug

namespace WikiDatabase

/-- The rows of `list_claims_for_revision`. -/
def claimsForRevision (db : WikiDatabase) (tenantId : String) (pageId revisionId : ℕ) :
    List WikiClaim :=
  (db.wiki.claims.rows.filter fun claim ↦ claim.tenantId == tenantId &&
    claim.pageId == pageId && claim.revisionId == revisionId).insertionSort
      fun a b ↦ db.claimedAt a.id < db.claimedAt b.id ∨ db.claimedAt a.id = db.claimedAt b.id ∧
        postgres.uuidRank a.id ≤ postgres.uuidRank b.id

/-- The row is one of `list_validation_results`. -/
def isListed (tenantId : String) (pageId : ℕ) (revisionId : Option ℕ)
    (result : WikiValidationResult) : Bool :=
  result.tenantId == tenantId && result.pageId == pageId &&
    revisionId.all fun id ↦ result.revisionId == id

/-- The rows of `list_validation_results`. -/
def resultsFor (db : WikiDatabase) (tenantId : String) (pageId : ℕ) (revisionId : Option ℕ) :
    List WikiValidationResult :=
  (db.validationResults.rows.filter (isListed tenantId pageId revisionId)).insertionSort
    fun a b ↦ b.createdAt < a.createdAt ∨ b.createdAt = a.createdAt ∧
      (postgres.TextLT a.validatorName b.validatorName ∨ a.validatorName = b.validatorName ∧
        postgres.uuidRank a.id ≤ postgres.uuidRank b.id)

/-- The database without the rows that `replace_validation_results` deletes. -/
def dropResults (db : WikiDatabase) (tenantId : String) (pageId revisionId : ℕ) : WikiDatabase :=
  { db with
    validationResults := db.validationResults.keep fun result ↦
      !isListed tenantId pageId (some revisionId) result }

end WikiDatabase

end Queries

/-! ## Issues -/

/-- `ValidationIssue`. -/
structure ValidationIssue where
  validatorName : String
  severity : ValidationSeverity
  message : String
  metadata : List (PyValue × PyValue)

/-- `WikiValidationResultInput`. -/
structure WikiValidationResultInput where
  validatorName : String
  severity : ValidationSeverity
  message : String
  metadata : Option (List (PyValue × PyValue))

def WikiValidationResultInput.row (input : WikiValidationResultInput) (tenantId : String)
    (pageId revisionId : ℕ) (now : ℤ) (id : ℕ) : WikiValidationResult where
  id := id
  tenantId := tenantId
  pageId := pageId
  revisionId := revisionId
  validatorName := input.validatorName
  severity := input.severity
  message := input.message
  metadata := .dict (input.metadata.getD [])
  createdAt := now

/-- `ValidationContext`; the repository is the database the validator runs on. -/
structure ValidationContext where
  tenantId : String
  page : WikiPage
  /-- `page.updated_at`. -/
  updatedAt : ℤ
  revision : WikiRevision

/-- `WikiValidator`: a validator reads. -/
structure WikiValidator where
  validate : ValidationContext → DatabaseProgram (List ValidationIssue)
  reads : ∀ context, (validate context).ReadOnly

/-- `WikiValidationRun`. -/
structure WikiValidationRun where
  page : WikiPage
  revision : WikiRevision
  results : List WikiValidationResult

namespace WikiRepository

open Program

variable (unicode : UnicodeData) (postgres : PostgresData)

/-- `list_pages_by_slugs`. -/
def listPagesBySlugs (tenantId : String) (slugs : List String) : DatabaseProgram (List WikiPage) :=
  if slugs = [] then return [] else query fun db ↦ db.wiki.pagesBySlugs postgres tenantId slugs

theorem readOnly_listPagesBySlugs (tenantId : String) (slugs : List String) :
    ReadOnly (listPagesBySlugs postgres tenantId slugs) := by
  unfold listPagesBySlugs
  split
  · exact .pure _
  · exact .query _

/-- `list_pages_by_title`. -/
def listPagesByTitle (tenantId title : String) : DatabaseProgram (List WikiPage) :=
  query fun db ↦ db.wiki.pagesByTitle unicode postgres tenantId title

/-- `list_claims_for_revision`. -/
def listClaimsForRevision (tenantId : String) (pageId revisionId : ℕ) :
    DatabaseProgram (List WikiClaim) :=
  query fun db ↦ db.claimsForRevision postgres tenantId pageId revisionId

/-- `list_validation_results`. -/
def listValidationResults (tenantId : String) (pageId : ℕ) (revisionId : Option ℕ) :
    DatabaseProgram (List WikiValidationResult) :=
  query fun db ↦ db.resultsFor postgres tenantId pageId revisionId

/-- The flush of `replace_validation_results`; without new rows there is no statement. -/
def insertResults : List WikiValidationResult → DatabaseProgram Unit
  | [] => return ()
  | rows => statement fun db ↦ match db.validationResults.insertAll rows with
    | some results => .ok ((), { db with validationResults := results })
    | none => .error (integrityError "wiki_validation_result_pkey")

/-- The row of an issue, with a fresh id. -/
def newResult (tenantId : String) (pageId revisionId : ℕ) (now : ℤ)
    (input : WikiValidationResultInput) : DatabaseProgram WikiValidationResult := do
  let id ← freshId
  return input.row tenantId pageId revisionId now id

/-- `replace_validation_results`. -/
def replaceValidationResults (tenantId : String) (pageId revisionId : ℕ) (now : ℤ)
    (results : List WikiValidationResultInput) : DatabaseProgram (List WikiValidationResult) := do
  statement fun db ↦ .ok ((), db.dropResults tenantId pageId revisionId)
  let rows ← results.mapM' (newResult tenantId pageId revisionId now)
  insertResults rows
  return rows

end WikiRepository

/-! ## The validators -/

section Validators

open Program WikiRepository

variable (unicode : UnicodeData) (postgres : PostgresData)

/-- The issue of a wikilink without a page. -/
def brokenWikilink (slug : String) : ValidationIssue where
  validatorName := "broken_wikilinks"
  severity := .error
  message := "Broken wikilink target: [[" ++ slug ++ "]]"
  metadata := [(.str "target_slug", .str slug)]

/-- `BrokenWikilinksValidator`. -/
def brokenWikilinksValidator : WikiValidator where
  validate context :=
    if context.revision.contentFormat ≠ "markdown" then return []
    else if extractWikilinks unicode context.revision.content = [] then return []
    else do
      let linked := extractWikilinks unicode context.revision.content
      let pages ← listPagesBySlugs postgres context.tenantId linked
      let existing := pages.map WikiPage.slug
      return (linked.filter fun slug ↦ !existing.contains slug).map brokenWikilink
  reads context := by
    split
    · exact .pure _
    · split
      · exact .pure _
      · exact (readOnly_listPagesBySlugs postgres _ _).bind fun _ ↦ .pure _

/-- The issue of a claim that is not supported, or not known to be. -/
def unsupportedClaim (claim : WikiClaim) : ValidationIssue where
  validatorName := "unsupported_claims"
  severity := if claim.supportStatus = "unsupported" then .error else .warning
  message := "Claim support has not been confirmed"
  metadata := [(.str "claim_id", .str (toString claim.id)),
    (.str "support_status", .str claim.supportStatus)]

/-- `UnsupportedClaimsValidator`. -/
def unsupportedClaimsValidator : WikiValidator where
  validate context := do
    let claims ← listClaimsForRevision postgres context.tenantId context.page.id
      context.revision.id
    return (claims.filter fun claim ↦
      ["unknown", "unsupported"].contains claim.supportStatus).map unsupportedClaim
  reads _ := (ReadOnly.query _).bind fun _ ↦ .pure _

/-- The days from one time to another, rounded down. -/
def ageDays (now updatedAt : ℤ) : ℤ := (now - updatedAt) / 86400000000

/-- `StalePageValidator`. -/
def stalePageValidator (staleAfterDays clock : ℤ) : WikiValidator where
  validate context :=
    let age := ageDays clock context.updatedAt
    if age ≤ staleAfterDays then return []
    else return [{
      validatorName := "stale_page"
      severity := .info
      message := "Page has not been updated recently"
      metadata := [(.str "age_days", .int age), (.str "stale_after_days", .int staleAfterDays)] }]
  reads context := by
    dsimp only
    split <;> exact .pure _

/-- The issue of a slug that other pages have, if there are any. -/
def duplicateSlug (page : WikiPage) : List WikiPage → List ValidationIssue
  | [] => []
  | others => [{
      validatorName := "duplicate_slug_title"
      severity := .error
      message := "Duplicate page slug detected"
      metadata := [(.str "slug", .str page.slug),
        (.str "matching_page_ids", .list (others.map fun other ↦ .str (toString other.id)))] }]

/-- The issue of a title that other pages have, if there are any. -/
def duplicateTitle (page : WikiPage) : List WikiPage → List ValidationIssue
  | [] => []
  | others => [{
      validatorName := "duplicate_slug_title"
      severity := .warning
      message := "Another page uses the same title"
      metadata := [(.str "title", .str page.title),
        (.str "matching_slugs", .list (others.map fun other ↦ .str other.slug))] }]

/-- `DuplicateSlugTitleValidator`. -/
def duplicateSlugTitleValidator : WikiValidator where
  validate context := do
    let slugMatches ← listPagesBySlugs postgres context.tenantId [context.page.slug]
    let titleMatches ← listPagesByTitle unicode postgres context.tenantId context.page.title
    return duplicateSlug context.page (slugMatches.filter fun page ↦ page.id != context.page.id) ++
      duplicateTitle context.page (titleMatches.filter fun page ↦ page.id != context.page.id)
  reads _ := (readOnly_listPagesBySlugs postgres _ _).bind fun _ ↦
    (ReadOnly.query _).bind fun _ ↦ .pure _

/-- `default_validators`. -/
def defaultValidators (clock : ℤ) : List WikiValidator :=
  [brokenWikilinksValidator unicode postgres, unsupportedClaimsValidator postgres,
    stalePageValidator 90 clock, duplicateSlugTitleValidator unicode postgres]

end Validators

/-! ## The service -/

namespace WikiValidationService

open Program WikiRepository

variable (unicode : UnicodeData) (postgres : PostgresData)

/-- `_require_slug`. -/
def requireSlug (slug : String) : Except PyException String :=
  let resolved := slugifyWikiTarget unicode slug
  if resolved = "" then .error (valueError "slug must not be empty") else .ok resolved

/-- The validators a service is made with: `validators or default_validators()`. -/
def validatorsOr (given : Option (List WikiValidator)) (clock : ℤ) : List WikiValidator :=
  match given with
  | some (validator :: validators) => validator :: validators
  | _ => defaultValidators unicode postgres clock

/-- `_require_page`: the page, and when it was updated. -/
def requirePage (tenantId slug : String) : DatabaseProgram (WikiPage × ℤ) := do
  match ← query fun db ↦ (db.wiki.pageBySlug tenantId slug).map fun page ↦
    (page, db.updatedAt page.id) with
  | some found => return found
  | none => raise (pageNotFound slug)

/-- `_require_current_revision`. -/
def requireCurrentRevision (tenantId slug : String) : DatabaseProgram WikiRevision := do
  match ← query fun db ↦ db.wiki.currentRevision tenantId slug with
  | some revision => return revision
  | none => raise (noCurrentRevision slug)

/-- `_run_validators`. -/
def runValidators (validators : List WikiValidator) (context : ValidationContext) :
    DatabaseProgram (List ValidationIssue) := do
  let found ← validators.mapM' fun validator ↦ validator.validate context
  return found.flatten

/-- The input for the row of an issue. -/
def resultInput (issue : ValidationIssue) : WikiValidationResultInput :=
  ⟨issue.validatorName, issue.severity, issue.message, some issue.metadata⟩

/-- `validate_page`. -/
def validatePage (given : Option (List WikiValidator)) (time : CallTime)
    (tenantId slug : String) : DatabaseProgram WikiValidationRun := do
  let slug ← ofExcept (requireSlug unicode slug)
  transaction do
    let (page, updatedAt) ← requirePage tenantId slug
    let revision ← requireCurrentRevision tenantId slug
    let issues ← runValidators (validatorsOr unicode postgres given time.clock)
      ⟨tenantId, page, updatedAt, revision⟩
    let results ← replaceValidationResults tenantId page.id revision.id time.transaction
      (issues.map resultInput)
    return ⟨page, revision, results⟩

/-- `list_page_results`. -/
def listPageResults (tenantId slug : String) : DatabaseProgram WikiValidationRun := do
  let slug ← ofExcept (requireSlug unicode slug)
  let (page, _) ← requirePage tenantId slug
  let revision ← requireCurrentRevision tenantId slug
  let results ← listValidationResults postgres tenantId page.id (some revision.id)
  return ⟨page, revision, results⟩

end WikiValidationService

/-! ## What the service does to the database -/

/-- The findings about a revision were replaced by rows for these inputs. -/
structure ResultsStored (db db' : WikiDatabase) (tenantId : String) (pageId revisionId : ℕ)
    (now : ℤ) (inputs : List WikiValidationResultInput) (rows : List WikiValidationResult) :
    Prop where
  new : List.Forall₂ (fun input row ↦ ∃ id, row = input.row tenantId pageId revisionId now id)
    inputs rows
  rows : db'.validationResults.rows
    = (db.dropResults tenantId pageId revisionId).validationResults.rows ++ rows
  store : db' = { db with validationResults := db'.validationResults }

theorem ResultsStored.own {db db' : WikiDatabase} {tenantId : String} {pageId revisionId : ℕ}
    {now : ℤ} {inputs : List WikiValidationResultInput} {rows : List WikiValidationResult}
    (h : ResultsStored db db' tenantId pageId revisionId now inputs rows) :
    ∀ row ∈ rows,
      row.tenantId = tenantId ∧ row.pageId = pageId ∧ row.revisionId = revisionId := by
  intro row hrow
  obtain ⟨i, hi, rfl⟩ := List.getElem_of_mem hrow
  obtain ⟨id, heq⟩ := (List.forall₂_iff_get.mp h.new).2 i
    ((List.forall₂_iff_get.mp h.new).1 ▸ hi) hi
  rw [List.get_eq_getElem] at heq
  rw [heq]
  exact ⟨rfl, rfl, rfl⟩

namespace WikiRepository

open Program

variable (db : WikiDatabase)

private theorem inTx_newResults (tenantId : String) (pageId revisionId : ℕ) (now : ℤ)
    (inputs : List WikiValidationResultInput) :
    InTx (inputs.mapM' (newResult tenantId pageId revisionId now)) db fun rows db' ↦
      List.Forall₂ (fun input row ↦ ∃ id, row = input.row tenantId pageId revisionId now id)
        inputs rows ∧ db = db' := by
  refine (InTx.mapM' (I := fun rest rows db' ↦ (∃ done, done ++ rest = inputs ∧
    List.Forall₂ (fun input row ↦ ∃ id, row = input.row tenantId pageId revisionId now id)
      done rows) ∧ db = db') ?_ ⟨⟨[], rfl, .nil⟩, rfl⟩).mono ?_
  · rintro input rest rows _ ⟨⟨done, hdone, hrows⟩, rfl⟩
    refine (InTx.freshId (T := fun _ db' ↦ db = db') fun _ ↦ rfl).bind ?_
    rintro id _ rfl
    refine InTx.pure ⟨⟨done ++ [input], ?_, ?_⟩, rfl⟩
    · rw [List.append_assoc]
      exact hdone
    · exact List.rel_append hrows (.cons ⟨id, rfl⟩ .nil)
  · rintro rows db' ⟨⟨done, hdone, hrows⟩, rfl⟩
    rw [List.append_nil] at hdone
    exact ⟨hdone ▸ hrows, rfl⟩

theorem inTx_replaceValidationResults (tenantId : String) (pageId revisionId : ℕ) (now : ℤ)
    (inputs : List WikiValidationResultInput) :
    InTx (replaceValidationResults tenantId pageId revisionId now inputs) db fun rows db' ↦
      ResultsStored db db' tenantId pageId revisionId now inputs rows := by
  refine (InTx.statement (R := fun _ db' ↦ db.dropResults tenantId pageId revisionId = db')
    fun _ _ h ↦ (Prod.mk.inj (Except.ok.inj h)).2).bind ?_
  rintro - _ rfl
  refine (inTx_newResults _ tenantId pageId revisionId now inputs).bind ?_
  rintro rows _ ⟨hrows, rfl⟩
  have hinsert : InTx (insertResults rows) (db.dropResults tenantId pageId revisionId)
      fun _ db' ↦ ResultsStored db db' tenantId pageId revisionId now inputs rows := by
    cases rows with
    | nil => exact InTx.pure ⟨hrows, (List.append_nil _).symm, rfl⟩
    | cons row rows =>
      have hflush : insertResults (row :: rows) = statement fun db ↦
          match db.validationResults.insertAll (row :: rows) with
          | some results => .ok ((), { db with validationResults := results })
          | none => .error (integrityError "wiki_validation_result_pkey") := rfl
      rw [hflush]
      refine InTx.statement fun _ db' h ↦ ?_
      split at h
      · rename_i results hins
        obtain ⟨-, rfl⟩ := Prod.mk.inj (Except.ok.inj h)
        exact ⟨hrows, Table.rows_insertAll hins, rfl⟩
      · cases h
  exact hinsert.bind fun _ _ h ↦ InTx.pure h

end WikiRepository

namespace WikiValidationService

open Program WikiRepository

variable (unicode : UnicodeData) (postgres : PostgresData) (db : WikiDatabase)

theorem readOnly_requirePage (tenantId slug : String) : ReadOnly (requirePage tenantId slug) := by
  refine (ReadOnly.query _).bind fun found ↦ ?_
  cases found with
  | none => exact .raise _
  | some found => exact .pure _

theorem readOnly_requireCurrentRevision (tenantId slug : String) :
    ReadOnly (requireCurrentRevision tenantId slug) := by
  refine (ReadOnly.query _).bind fun found ↦ ?_
  cases found with
  | none => exact .raise _
  | some revision => exact .pure _

theorem readOnly_runValidators (validators : List WikiValidator) (context : ValidationContext) :
    ReadOnly (runValidators validators context) :=
  (ReadOnly.mapM' (fun validator ↦ validator.reads context) validators).bind fun _ ↦ .pure _

theorem inTx_requirePage (tenantId slug : String) :
    InTx (requirePage tenantId slug) db fun found db' ↦
      (db.wiki.pageBySlug tenantId slug = some found.1 ∧ found.2 = db.updatedAt found.1.id) ∧
        db = db' := by
  refine (InTx.query_eq _).bind ?_
  rintro found _ ⟨hfound, rfl⟩
  cases found with
  | none => exact InTx.raise _
  | some found =>
    obtain ⟨page, hpage, rfl⟩ := Option.map_eq_some_iff.mp hfound.symm
    exact InTx.pure ⟨⟨hpage, rfl⟩, rfl⟩

theorem inTx_requireCurrentRevision (tenantId slug : String) :
    InTx (requireCurrentRevision tenantId slug) db fun revision db' ↦
      db.wiki.currentRevision tenantId slug = some revision ∧ db = db' := by
  refine (InTx.query_eq _).bind ?_
  rintro found _ ⟨hfound, rfl⟩
  cases found with
  | none => exact InTx.raise _
  | some revision => exact InTx.pure ⟨hfound.symm, rfl⟩

theorem outTx_validatePage (given : Option (List WikiValidator)) (time : CallTime)
    (tenantId slug : String) :
    OutTx (validatePage unicode postgres given time tenantId slug) db
      (fun run db' ↦ ∃ resolved inputs, requireSlug unicode slug = .ok resolved ∧
        db.wiki.pageBySlug tenantId resolved = some run.page ∧
        db.wiki.currentOf run.page = some run.revision ∧
        ResultsStored db db' tenantId run.page.id run.revision.id time.transaction inputs
          run.results)
      fun _ db' ↦ db = db' := by
  refine (OutTx.ofExcept (Q := fun resolved db' ↦
    requireSlug unicode slug = .ok resolved ∧ db = db') (fun _ h ↦ ⟨h, rfl⟩) fun _ _ ↦ rfl).bind ?_
  rintro resolved _ ⟨hslug, rfl⟩
  refine OutTx.transaction ?_ fun _ ↦ rfl
  refine (inTx_requirePage _ tenantId resolved).bind ?_
  rintro ⟨page, updatedAt⟩ _ ⟨⟨hpage, -⟩, rfl⟩
  refine (inTx_requireCurrentRevision _ tenantId resolved).bind ?_
  rintro revision _ ⟨hrevision, rfl⟩
  rw [WikiStore.currentRevision, hpage, Option.bind_some] at hrevision
  refine ((readOnly_runValidators _ _).inTx _).bind ?_
  rintro issues _ rfl
  refine (inTx_replaceValidationResults _ tenantId page.id revision.id time.transaction
    (issues.map resultInput)).bind fun rows db' h ↦ ?_
  exact InTx.pure ⟨resolved, issues.map resultInput, hslug, hpage, hrevision, h⟩

theorem outTx_listPageResults (tenantId slug : String) :
    OutTx (listPageResults unicode postgres tenantId slug) db (fun _ db' ↦ db = db')
      fun _ db' ↦ db = db' := by
  refine (OutTx.ofExcept (Q := fun _ db' ↦ db = db') (fun _ _ ↦ rfl) fun _ _ ↦ rfl).bind ?_
  rintro resolved _ rfl
  refine ((readOnly_requirePage tenantId resolved).bind fun _ ↦
    (readOnly_requireCurrentRevision tenantId resolved).bind fun _ ↦
      (ReadOnly.query _).bind fun _ ↦ ReadOnly.pure _).outTx _

end WikiValidationService

end KnowledgeAlakazam
