import KnowledgeAlakazam.Wiki.SlugStability
import KnowledgeAlakazam.Wiki.TenantIsolation

/-!
# The findings about a page

`validate_page` asks its validators about the current revision of a page, and stores what they
report in place of what was stored about that revision. So the rows of the revision are the issues
that were reported, in order, and no other row has changed (`FindingsReplaced`). A validator of the
source computes its issues from the tables of the wiki (`ValidatorClass.determined`), which is why
asking again stores the same; those of `broken_wikilinks` are one for every slug that the revision
links to and the tenant has no page for.

All of this is about the page that the service finds, and the service sends the slug it receives
through `slugify_wiki_target` like every other call. For the slug of a page the exact condition is
`storesFindings_iff`: it has to be its own slug. The failing input is a page with two letters in
its slug that are composed when they are normalised again.
-/

namespace KnowledgeAlakazam

open Program

/-! ## Rows for issues -/

namespace WikiDatabase

/-- The rows of the findings about a revision of a page. -/
def findings (db : WikiDatabase) (page : WikiPage) (revision : WikiRevision) :
    List WikiValidationResult :=
  db.validationResults.rows.filter (isListed page.tenantId page.id (some revision.id))

def otherFindings (db : WikiDatabase) (page : WikiPage) (revision : WikiRevision) :
    List WikiValidationResult :=
  db.validationResults.rows.filter fun result ↦
    !isListed page.tenantId page.id (some revision.id) result

end WikiDatabase

/-- The row holds the issue, as one about the revision of the page. -/
def RowOf (page : WikiPage) (revision : WikiRevision) (now : ℤ) (issue : ValidationIssue)
    (row : WikiValidationResult) : Prop :=
  ∃ id, row = (WikiValidationService.resultInput issue).row page.tenantId page.id revision.id now id

/-- The findings about the revision are rows for the issues, in order; nothing else changed. -/
structure FindingsReplaced (db db' : WikiDatabase) (page : WikiPage) (revision : WikiRevision)
    (now : ℤ) (issues : List ValidationIssue) : Prop where
  rows : List.Forall₂ (RowOf page revision now) issues (db'.findings page revision)
  others : db'.otherFindings page revision = db.otherFindings page revision
  tables : db' = { db with validationResults := db'.validationResults }

/-- The validators, asked one after the other, report the issues. -/
def Report (validators : List WikiValidator) (context : ValidationContext) (db : WikiDatabase)
    (issues : List ValidationIssue) : Prop :=
  ∃ found, List.Forall₂ (fun validator issues ↦ MayReturn (validator.validate context) db issues)
    validators found ∧ issues = found.flatten

/-- What the validator reports is determined by its context and the tables of the wiki. -/
def WikiValidator.Determined (validator : WikiValidator) : Prop :=
  ∀ context, ∃ issues : WikiDatabase → List ValidationIssue,
    (∀ db, InTx (validator.validate context) db fun found _ ↦ found = issues db) ∧
      ∀ db results, issues { db with validationResults := results } = issues db

/-- The rows are the same up to id and time. -/
def SameFinding (row row' : WikiValidationResult) : Prop :=
  row' = { row with
    id := row'.id
    createdAt := row'.createdAt }

section Definitions

variable (unicode : UnicodeData) (postgres : PostgresData)

open WikiValidationService

/-- The slug is one that the revision links to, if it is Markdown, and that the tenant has no page
for. -/
def BrokenLink (db : WikiDatabase) (tenantId : String) (revision : WikiRevision)
    (slug : String) : Prop :=
  revision.contentFormat = "markdown" ∧ slug ∈ extractWikilinks unicode revision.content ∧
    db.wiki.pageBySlug tenantId slug = none

/-- To validate a page under the address stores exactly the current findings about it. -/
structure StoresFindings (s : DatabaseState) (address : String) (page : WikiPage)
    (revision : WikiRevision) : Prop where
  /-- If no statement is interrupted and no validator raises, the call returns. -/
  returns : ∀ given time (session : Session WikiDatabase PyException), session.Idle s.db →
    s.nextId ≤ session.nextId → session.outcomes = [] →
    (∀ validator ∈ validatorsOr unicode postgres given time.clock, ∀ context,
      RaisesOnly (fun _ ↦ False) (validator.validate context)) →
    ∃ run session', validatePage unicode postgres given time page.tenantId address session
      = (.ok run, session')
  /-- When it returns, the issues that the validators reported are stored. -/
  stores : ∀ given time (session session' : Session WikiDatabase PyException) run,
    session.Idle s.db →
    validatePage unicode postgres given time page.tenantId address session
      = (.ok run, session') →
    run = ⟨page, revision, session'.committed.findings page revision⟩ ∧
    ∃ issues, Report (validatorsOr unicode postgres given time.clock)
        ⟨page.tenantId, page, s.db.updatedAt page.id, revision⟩ s.db issues ∧
      FindingsReplaced s.db session'.committed page revision time.transaction issues
  /-- And they are listed. -/
  lists : ∀ given time (session session' session₁ : Session WikiDatabase PyException) run,
    session.Idle s.db →
    validatePage unicode postgres given time page.tenantId address session
      = (.ok run, session') →
    session₁.Idle session'.committed → session₁.outcomes = [] →
    ∃ results session₁', listPageResults unicode postgres page.tenantId address session₁
        = (.ok ⟨page, revision, results⟩, session₁') ∧
      results.Perm (session'.committed.findings page revision)
  /-- The default validators report the broken links. -/
  broken : ∀ given time (session session' : Session WikiDatabase PyException) run,
    session.Idle s.db → given.getD [] = [] →
    validatePage unicode postgres given time page.tenantId address session
      = (.ok run, session') →
    ∃ slugs, slugs.Nodup ∧
      (∀ slug, slug ∈ slugs ↔ BrokenLink unicode s.db page.tenantId revision slug) ∧
      List.Forall₂ (fun slug ↦ RowOf page revision time.transaction (brokenWikilink slug)) slugs
        ((session'.committed.findings page revision).filter fun row ↦
          row.validatorName == "broken_wikilinks")
  /-- In the same state of the wiki, before or after the call, it stores the same again. -/
  again : ∀ given time time₁ (session session' session₁ session₁' :
      Session WikiDatabase PyException) run run₁ results,
    session.Idle s.db → (∀ validator ∈ given.getD [], validator.Determined) →
    validatePage unicode postgres given time page.tenantId address session
      = (.ok run, session') →
    session₁.Idle { s.db with validationResults := results } → time₁.clock = time.clock →
    validatePage unicode postgres given time₁ page.tenantId address session₁
      = (.ok run₁, session₁') →
    List.Forall₂ SameFinding (session'.committed.findings page revision)
      (session₁'.committed.findings page revision)
  /-- If it raises, nothing was stored. -/
  undone : ∀ given time (session session' : Session WikiDatabase PyException) e,
    session.Idle s.db →
    validatePage unicode postgres given time page.tenantId address session
      = (.error e, session') →
    session'.committed = s.db

end Definitions

/-! ## What is stored -/

section Stored

variable {db db' : WikiDatabase} {page : WikiPage} {revision : WikiRevision} {now : ℤ}
  {rows : List WikiValidationResult}

namespace ResultsStored

variable {inputs : List WikiValidationResultInput}
  (h : ResultsStored db db' page.tenantId page.id revision.id now inputs rows)
include h

theorem isListed_of_mem : ∀ row ∈ rows,
    WikiDatabase.isListed page.tenantId page.id (some revision.id) row = true := by
  intro row hrow
  obtain ⟨htenant, hpage, hrevision⟩ := h.own row hrow
  simp [WikiDatabase.isListed, htenant, hpage, hrevision]

theorem findings_eq : db'.findings page revision = rows := by
  have hold : ∀ row ∈ (db.dropResults page.tenantId page.id revision.id).validationResults.rows,
      ¬WikiDatabase.isListed page.tenantId page.id (some revision.id) row = true :=
    fun row hrow ↦ by simpa using (List.mem_filter.mp hrow).2
  rw [WikiDatabase.findings, h.rows, List.filter_append, List.filter_eq_nil_iff.mpr hold,
    List.filter_eq_self.mpr h.isListed_of_mem, List.nil_append]

theorem otherFindings_eq : db'.otherFindings page revision = db.otherFindings page revision := by
  have hnew : ∀ row ∈ rows,
      ¬(!WikiDatabase.isListed page.tenantId page.id (some revision.id) row) = true :=
    fun row hrow ↦ by simp [h.isListed_of_mem row hrow]
  rw [WikiDatabase.otherFindings, h.rows, List.filter_append, List.filter_eq_nil_iff.mpr hnew,
    List.append_nil, WikiDatabase.dropResults, Table.rows_keep, List.filter_filter]
  simp only [Bool.and_self, WikiDatabase.otherFindings]

end ResultsStored

theorem ResultsStored.replaced {issues : List ValidationIssue}
    (h : ResultsStored db db' page.tenantId page.id revision.id now
      (issues.map WikiValidationService.resultInput) rows) :
    FindingsReplaced db db' page revision now issues where
  rows := by
    have hnew := h.new
    rw [List.forall₂_map_left_iff] at hnew
    rw [h.findings_eq]
    exact hnew
  others := h.otherFindings_eq
  tables := h.store

end Stored

section Service

variable {unicode : UnicodeData} {postgres : PostgresData} (db : WikiDatabase)

namespace WikiValidationService

open WikiRepository

theorem inTx_runValidators (validators : List WikiValidator) (context : ValidationContext) :
    InTx (runValidators validators context) db fun issues db' ↦
      Report validators context db issues ∧ db = db' := by
  refine (ReadOnly.inTx_mapM' (fun validator : WikiValidator ↦ validator.reads context)
    validators db).bind ?_
  rintro found _ ⟨hfound, rfl⟩
  exact InTx.pure ⟨⟨found, hfound, rfl⟩, rfl⟩

variable (unicode postgres) in
theorem outTx_validatePage_report (given : Option (List WikiValidator)) (time : CallTime)
    (tenantId address : String) :
    OutTx (validatePage unicode postgres given time tenantId address) db
      (fun run db' ↦ ∃ resolved issues, requireSlug unicode address = .ok resolved ∧
        db.wiki.pageBySlug tenantId resolved = some run.page ∧
        db.wiki.currentOf run.page = some run.revision ∧
        run.results = db'.findings run.page run.revision ∧
        Report (validatorsOr unicode postgres given time.clock)
          ⟨tenantId, run.page, db.updatedAt run.page.id, run.revision⟩ db issues ∧
        FindingsReplaced db db' run.page run.revision time.transaction issues)
      fun _ db' ↦ db = db' := by
  refine (OutTx.ofExcept (Q := fun resolved db' ↦
    requireSlug unicode address = .ok resolved ∧ db = db') (fun _ h ↦ ⟨h, rfl⟩)
    fun _ _ ↦ rfl).bind ?_
  rintro resolved _ ⟨hslug, rfl⟩
  refine OutTx.transaction ?_ fun _ ↦ rfl
  refine (inTx_requirePage _ tenantId resolved).bind ?_
  rintro ⟨page, updatedAt⟩ _ ⟨⟨hpage, hupdated⟩, rfl⟩
  dsimp only at hpage hupdated
  subst hupdated
  obtain rfl : page.tenantId = tenantId := (Prod.mk.inj (Table.unique_of_lookup hpage)).1
  refine (inTx_requireCurrentRevision _ page.tenantId resolved).bind ?_
  rintro revision _ ⟨hrevision, rfl⟩
  rw [WikiStore.currentRevision, hpage, Option.bind_some] at hrevision
  refine (inTx_runValidators _ _ _).bind ?_
  rintro issues _ ⟨hreport, rfl⟩
  refine (inTx_replaceValidationResults _ page.tenantId page.id revision.id time.transaction
    (issues.map resultInput)).bind fun rows db' h ↦ ?_
  exact InTx.pure ⟨resolved, issues, hslug, hpage, hrevision, h.findings_eq.symm, hreport,
    h.replaced⟩

end WikiValidationService

end Service

/-! ## What the validators of the source report -/

/-- The name under which a validator reports. -/
def ValidatorClass.name : ValidatorClass → String
  | brokenWikilinks => "broken_wikilinks"
  | unsupportedClaims => "unsupported_claims"
  | stalePage _ _ => "stale_page"
  | duplicateSlugTitle => "duplicate_slug_title"

def brokenLinks (unicode : UnicodeData) (db : WikiDatabase) (tenantId : String)
    (revision : WikiRevision) : List String :=
  if revision.contentFormat = "markdown" then
    (extractWikilinks unicode revision.content).filter fun slug ↦
      (db.wiki.pageBySlug tenantId slug).isNone
  else []

section Validators

variable {unicode : UnicodeData} {postgres : PostgresData} (db : WikiDatabase)

theorem mem_brokenLinks {tenantId : String} {revision : WikiRevision} {slug : String} :
    slug ∈ brokenLinks unicode db tenantId revision ↔
      BrokenLink unicode db tenantId revision slug := by
  unfold brokenLinks BrokenLink
  split
  · rename_i hformat
    rw [List.mem_filter, Option.isNone_iff_eq_none]
    exact (and_iff_right hformat).symm
  · rename_i hformat
    exact iff_of_false List.not_mem_nil fun h ↦ hformat h.1

theorem nodup_brokenLinks (tenantId : String) (revision : WikiRevision) :
    (brokenLinks unicode db tenantId revision).Nodup := by
  unfold brokenLinks
  split
  · exact (nodup_extractWikilinks unicode _).filter _
  · exact List.nodup_nil

theorem WikiStore.mem_slugs_pagesBySlugs {w : WikiStore} {tenantId slug : String}
    {slugs : List String} (hslug : slug ∈ slugs) :
    slug ∈ (w.pagesBySlugs postgres tenantId slugs).map WikiPage.slug ↔
      w.pageBySlug tenantId slug ≠ none := by
  rw [List.mem_map, pageBySlug, Ne, Table.lookup_eq_none, not_forall]
  constructor
  · rintro ⟨page, hpage, rfl⟩
    rw [pagesBySlugs, List.mem_insertionSort, List.mem_filter, Bool.and_eq_true, beq_iff_eq]
      at hpage
    exact ⟨page, fun h ↦ h hpage.1 (Prod.ext hpage.2.1 rfl)⟩
  · rintro ⟨page, hpage⟩
    obtain ⟨hrow, hkey⟩ := Classical.not_imp.mp hpage
    obtain ⟨htenant, hpageSlug⟩ := Prod.mk.inj (not_not.mp hkey)
    refine ⟨page, ?_, hpageSlug⟩
    rw [pagesBySlugs, List.mem_insertionSort, List.mem_filter, Bool.and_eq_true, beq_iff_eq,
      List.contains_iff_mem]
    exact ⟨hrow, htenant, hpageSlug ▸ hslug⟩

theorem WikiRepository.inTx_listPagesBySlugs (tenantId : String) (slugs : List String) :
    InTx (listPagesBySlugs postgres tenantId slugs) db fun pages db' ↦
      pages = db.wiki.pagesBySlugs postgres tenantId slugs ∧ db = db' := by
  unfold listPagesBySlugs
  split
  · rename_i hnil
    refine InTx.pure ⟨?_, rfl⟩
    simp [hnil, WikiStore.pagesBySlugs]
  · exact InTx.query ⟨rfl, rfl⟩

open WikiRepository in
theorem inTx_brokenWikilinks (context : ValidationContext) :
    InTx ((brokenWikilinksValidator unicode postgres).validate context) db fun found _ ↦
      found = (brokenLinks unicode db context.tenantId context.revision).map brokenWikilink := by
  unfold brokenWikilinksValidator brokenLinks
  dsimp only
  by_cases hformat : context.revision.contentFormat = "markdown"
  · rw [if_neg (not_not.mpr hformat), if_pos hformat]
    split
    · rename_i hnone
      rw [hnone]
      exact InTx.pure rfl
    · refine (inTx_listPagesBySlugs db _ _).bind ?_
      rintro pages _ ⟨rfl, rfl⟩
      refine InTx.pure (congrArg (List.map brokenWikilink) (List.filter_congr fun slug hslug ↦ ?_))
      rw [Bool.eq_iff_iff, Bool.not_eq_true', ← Bool.not_eq_true, List.contains_iff_mem,
        WikiStore.mem_slugs_pagesBySlugs hslug, not_not, Option.isNone_iff_eq_none]
  · rw [if_pos hformat, if_neg hformat]
    exact InTx.pure rfl

private theorem validatorName_duplicateSlug (page : WikiPage) (others : List WikiPage) :
    ∀ issue ∈ duplicateSlug page others, issue.validatorName = "duplicate_slug_title" := by
  intro issue hissue
  cases others with
  | nil => cases hissue
  | cons other others => rw [List.mem_singleton.mp hissue]

private theorem validatorName_duplicateTitle (page : WikiPage) (others : List WikiPage) :
    ∀ issue ∈ duplicateTitle page others, issue.validatorName = "duplicate_slug_title" := by
  intro issue hissue
  cases others with
  | nil => cases hissue
  | cons other others => rw [List.mem_singleton.mp hissue]

variable (unicode postgres) in
open WikiRepository in
/-- A validator of the source computes what it reports from the tables of the wiki, and reports it
under its name. -/
theorem ValidatorClass.reports (c : ValidatorClass) (context : ValidationContext) :
    ∃ issues : WikiDatabase → List ValidationIssue,
      (∀ db, InTx ((c.make unicode postgres).validate context) db fun found _ ↦
        found = issues db) ∧
      (∀ db results, issues { db with validationResults := results } = issues db) ∧
      ∀ db, ∀ issue ∈ issues db, issue.validatorName = c.name := by
  cases c with
  | brokenWikilinks =>
    refine ⟨_, fun db ↦ inTx_brokenWikilinks db context, fun _ _ ↦ rfl, fun db issue hissue ↦ ?_⟩
    obtain ⟨slug, -, rfl⟩ := List.mem_map.mp hissue
    rfl
  | unsupportedClaims =>
    refine ⟨fun db ↦ ((db.claimsForRevision postgres context.tenantId context.page.id
      context.revision.id).filter fun claim ↦
        ["unknown", "unsupported"].contains claim.supportStatus).map unsupportedClaim,
      fun db ↦ ?_, fun _ _ ↦ rfl, fun db issue hissue ↦ ?_⟩
    · refine (InTx.query_eq _).bind ?_
      rintro claims _ ⟨rfl, rfl⟩
      exact InTx.pure rfl
    · obtain ⟨claim, -, rfl⟩ := List.mem_map.mp hissue
      rfl
  | stalePage staleAfterDays clock =>
    unfold make stalePageValidator
    dsimp only
    split
    -- the page is recent
    · exact ⟨fun _ ↦ [], fun _ ↦ InTx.pure rfl, fun _ _ ↦ rfl, fun _ _ h ↦ absurd h (by simp)⟩
    · refine ⟨fun _ ↦ _, fun _ ↦ InTx.pure rfl, fun _ _ ↦ rfl, fun _ issue hissue ↦ ?_⟩
      rw [List.mem_singleton.mp hissue]
      rfl
  | duplicateSlugTitle =>
    refine ⟨fun db ↦
      duplicateSlug context.page ((db.wiki.pagesBySlugs postgres context.tenantId
        [context.page.slug]).filter fun page ↦ page.id != context.page.id) ++
      duplicateTitle context.page ((db.wiki.pagesByTitle unicode postgres context.tenantId
        context.page.title).filter fun page ↦ page.id != context.page.id),
      fun db ↦ ?_, fun _ _ ↦ rfl, fun db issue hissue ↦ ?_⟩
    · refine (inTx_listPagesBySlugs db _ _).bind ?_
      rintro slugMatches _ ⟨rfl, rfl⟩
      refine (InTx.query_eq _).bind ?_
      rintro titleMatches _ ⟨rfl, rfl⟩
      exact InTx.pure rfl
    · rcases List.mem_append.mp hissue with hissue | hissue
      · exact validatorName_duplicateSlug _ _ issue hissue
      · exact validatorName_duplicateTitle _ _ issue hissue

theorem ValidatorClass.determined (c : ValidatorClass) : (c.make unicode postgres).Determined :=
  fun context ↦ (c.reports unicode postgres context).imp fun _ h ↦ ⟨h.1, h.2.1⟩

end Validators

/-! ## Reports and their rows -/

section Reports

variable {unicode : UnicodeData} {postgres : PostgresData} {db : WikiDatabase}
  {context : ValidationContext} {page : WikiPage} {revision : WikiRevision}

open WikiValidationService

private theorem eq_of_forall₂ {α β : Type} {R R' : α → β → Prop} {as : List α} {bs cs : List β}
    (hunique : ∀ a ∈ as, ∀ b c, R a b → R' a c → b = c) (h : List.Forall₂ R as bs)
    (h' : List.Forall₂ R' as cs) : bs = cs := by
  induction h generalizing cs with
  | nil => rw [List.forall₂_nil_left_iff.mp h']
  | @cons a b as bs hab _ ih =>
    obtain ⟨c, cs, hac, hrest, rfl⟩ := List.forall₂_cons_left_iff.mp h'
    rw [hunique a List.mem_cons_self b c hab hac,
      ih (fun a ha ↦ hunique a (List.mem_cons_of_mem _ ha)) hrest]

/-- Validators whose reports are determined report the same, whatever findings are stored. -/
theorem Report.unique {validators : List WikiValidator} {results : Table WikiValidationResult}
    {issues issues' : List ValidationIssue}
    (hdetermined : ∀ validator ∈ validators, validator.Determined)
    (h : Report validators context db issues)
    (h' : Report validators context { db with validationResults := results } issues') :
    issues = issues' := by
  obtain ⟨found, hfound, rfl⟩ := h
  obtain ⟨found', hfound', rfl⟩ := h'
  refine congrArg List.flatten (eq_of_forall₂ (fun validator hmem a b ha hb ↦ ?_) hfound hfound')
  obtain ⟨computed, hcomputed, hsame⟩ := hdetermined validator hmem context
  obtain ⟨-, rfl⟩ := (hcomputed db).of_mayReturn ha
  obtain ⟨-, rfl⟩ := (hcomputed _).of_mayReturn hb
  exact (hsame db results).symm

theorem validatorsOr_default {given : Option (List WikiValidator)} (h : given.getD [] = [])
    (clock : ℤ) :
    validatorsOr unicode postgres given clock = defaultValidators unicode postgres clock := by
  match given with
  | none => rfl
  | some [] => rfl
  | some (_ :: _) => cases h

theorem determined_validatorsOr {given : Option (List WikiValidator)} (clock : ℤ)
    (h : ∀ validator ∈ given.getD [], validator.Determined) :
    ∀ validator ∈ validatorsOr unicode postgres given clock, validator.Determined := by
  have hdefault : ∀ validator ∈ defaultValidators unicode postgres clock,
      validator.Determined := by
    intro validator hmem
    obtain ⟨c, rfl⟩ := source_of_mem_validatorsOr none clock (fun _ h ↦ by cases h) validator hmem
    exact c.determined
  match given with
  | none => exact hdefault
  | some [] => exact hdefault
  | some (_ :: _) => exact h

/-- Of what the default validators report, the broken links are what `broken_wikilinks` reports. -/
theorem Report.broken {clock : ℤ} {issues : List ValidationIssue}
    (h : Report (defaultValidators unicode postgres clock) context db issues) :
    (issues.filter fun issue ↦ issue.validatorName == "broken_wikilinks")
      = (brokenLinks unicode db context.tenantId context.revision).map brokenWikilink := by
  have hothers : ∀ c : ValidatorClass, c.name ≠ "broken_wikilinks" → ∀ found,
      MayReturn ((c.make unicode postgres).validate context) db found →
      (found.filter fun issue ↦ issue.validatorName == "broken_wikilinks") = [] := by
    intro c hname found hfound
    obtain ⟨computed, hcomputed, -, hnamed⟩ := c.reports unicode postgres context
    obtain ⟨-, rfl⟩ := (hcomputed db).of_mayReturn hfound
    refine List.filter_eq_nil_iff.mpr fun issue hissue ↦ ?_
    rw [hnamed db issue hissue, beq_iff_eq]
    exact hname
  have hbroken : ∀ issue ∈ (brokenLinks unicode db context.tenantId context.revision).map
      brokenWikilink, (issue.validatorName == "broken_wikilinks") = true := by
    intro issue hissue
    obtain ⟨slug, -, rfl⟩ := List.mem_map.mp hissue
    rfl
  obtain ⟨found, hfound, rfl⟩ := h
  obtain ⟨links, _, hlinks, hfound₁, rfl⟩ := List.forall₂_cons_left_iff.mp hfound
  obtain ⟨claims, _, hclaims, hfound₂, rfl⟩ := List.forall₂_cons_left_iff.mp hfound₁
  obtain ⟨stale, _, hstale, hfound₃, rfl⟩ := List.forall₂_cons_left_iff.mp hfound₂
  obtain ⟨duplicates, _, hduplicates, hfound₄, rfl⟩ := List.forall₂_cons_left_iff.mp hfound₃
  obtain rfl := List.forall₂_nil_left_iff.mp hfound₄
  obtain ⟨-, rfl⟩ := (inTx_brokenWikilinks db context).of_mayReturn hlinks
  simp only [List.flatten_cons, List.flatten_nil, List.append_nil, List.filter_append]
  rw [List.filter_eq_self.mpr hbroken, hothers .unsupportedClaims (by decide) claims hclaims,
    hothers (.stalePage 90 clock) (show "stale_page" ≠ _ by decide) stale hstale,
    hothers .duplicateSlugTitle (by decide) duplicates hduplicates]
  simp only [List.append_nil]

theorem sameFindings_of_rowOf {now now' : ℤ} {issues : List ValidationIssue}
    {rows rows' : List WikiValidationResult}
    (h : List.Forall₂ (RowOf page revision now) issues rows)
    (h' : List.Forall₂ (RowOf page revision now') issues rows') :
    List.Forall₂ SameFinding rows rows' := by
  induction h generalizing rows' with
  | nil =>
    rw [List.forall₂_nil_left_iff.mp h']
    exact .nil
  | cons hrow _ ih =>
    obtain ⟨row', rows', hrow', hrest, rfl⟩ := List.forall₂_cons_left_iff.mp h'
    obtain ⟨id, rfl⟩ := hrow
    obtain ⟨id', rfl⟩ := hrow'
    exact .cons rfl (ih hrest)

end Reports

/-! ## Calls that are not interrupted -/

section Calls

variable {unicode : UnicodeData} {postgres : PostgresData} {tenantId slug : String}
  {page : WikiPage} {revision : WikiRevision} {s : Session WikiDatabase PyException}

namespace WikiRepository

theorem insertResults_of_outcomes {row : WikiValidationResult} {rows : List WikiValidationResult}
    {results : Table WikiValidationResult} (hs : s.outcomes = [])
    (hins : s.working.validationResults.insertAll (row :: rows) = some results) :
    insertResults (row :: rows) s = (.ok (), { s.autobegin with
      working := { s.working with validationResults := results } }) := by
  rw [insertResults]
  · exact statement_of_outcomes hs (by rw [hins])
  · exact List.cons_ne_nil _ _

variable (tenantId) in
theorem replaceValidationResults_of_outcomes (hs : s.outcomes = [])
    (hn : s.working.Numbered s.nextId) (pageId revisionId : ℕ) (now : ℤ)
    (inputs : List WikiValidationResultInput) :
    ∃ rows s', replaceValidationResults tenantId pageId revisionId now inputs s = (.ok rows, s') ∧
      s'.outcomes = [] := by
  have hdropped : (s.working.dropResults tenantId pageId revisionId).Numbered s.nextId :=
    { hn with validationResults := hn.validationResults.keep _ }
  have hdrop := statement_of_outcomes hs (f := fun db : WikiDatabase ↦
    .ok ((), db.dropResults tenantId pageId revisionId)) rfl
  refine ⟨resultRows tenantId pageId revisionId now inputs s.nextId, ?_⟩
  unfold replaceValidationResults
  rw [bind_ok hdrop, bind_ok (newResults_eq inputs _)]
  cases inputs with
  | nil => exact ⟨_, rfl, hs⟩
  | cons input inputs =>
    obtain ⟨results, -, hins, -⟩ :=
      insertResults_flush tenantId pageId revisionId now hdropped (input :: inputs)
    exact ⟨_, bind_ok (insertResults_of_outcomes (s := { s.autobegin with
      working := s.working.dropResults tenantId pageId revisionId
      nextId := s.nextId + (input :: inputs).length }) hs hins), hs⟩

end WikiRepository

namespace WikiValidationService

theorem requirePage_of_outcomes (hs : s.outcomes = [])
    (hpage : s.working.wiki.pageBySlug tenantId slug = some page) :
    requirePage tenantId slug s = (.ok (page, s.working.updatedAt page.id), s.autobegin) := by
  refine (bind_ok (query_of_outcomes hs _)).trans ?_
  rw [hpage]
  rfl

theorem requireCurrentRevision_of_outcomes (hs : s.outcomes = [])
    (hrevision : s.working.wiki.currentRevision tenantId slug = some revision) :
    requireCurrentRevision tenantId slug s = (.ok revision, s.autobegin) := by
  refine (bind_ok (query_of_outcomes hs _)).trans ?_
  rw [hrevision]
  rfl

end WikiValidationService

end Calls

/-! ## The page under an address -/

section Address

variable {unicode : UnicodeData} {postgres : PostgresData} {db : WikiDatabase}
  {page : WikiPage} {revision : WikiRevision} {address : String}

namespace WikiValidationService

open WikiRepository

/-- What `validate_page` does in its unit of work. -/
def validation (unicode : UnicodeData) (postgres : PostgresData)
    (given : Option (List WikiValidator)) (time : CallTime) (tenantId slug : String) :
    DatabaseProgram WikiValidationRun := do
  let (page, updatedAt) ← requirePage tenantId slug
  let revision ← requireCurrentRevision tenantId slug
  let issues ← runValidators (validatorsOr unicode postgres given time.clock)
    ⟨tenantId, page, updatedAt, revision⟩
  let results ← replaceValidationResults tenantId page.id revision.id time.transaction
    (issues.map resultInput)
  return ⟨page, revision, results⟩

theorem validatePage_eq (given : Option (List WikiValidator)) (time : CallTime)
    (tenantId : String) : validatePage unicode postgres given time tenantId address
      = ofExcept (requireSlug unicode address) >>= fun slug ↦
        transaction (validation unicode postgres given time tenantId slug) := rfl

theorem pageBySlug_of_mem (hpage : page ∈ db.wiki.pages.rows) :
    db.wiki.pageBySlug page.tenantId page.slug = some page :=
  Table.lookup_eq_some.mpr ⟨hpage, rfl⟩

variable (hpage : page ∈ db.wiki.pages.rows) (hcurrent : db.wiki.currentOf page = some revision)
include hpage hcurrent

theorem currentRevision_of_mem :
    db.wiki.currentRevision page.tenantId page.slug = some revision := by
  rw [WikiStore.currentRevision, pageBySlug_of_mem hpage, Option.bind_some, hcurrent]

theorem findingsReplaced_of_run (hslug : requireSlug unicode address = .ok page.slug)
    {given : Option (List WikiValidator)} {time : CallTime}
    {session session' : Session WikiDatabase PyException} {run : WikiValidationRun}
    (hs : session.Idle db)
    (hrun : validatePage unicode postgres given time page.tenantId address session
      = (.ok run, session')) :
    run = ⟨page, revision, session'.committed.findings page revision⟩ ∧
    ∃ issues, Report (validatorsOr unicode postgres given time.clock)
        ⟨page.tenantId, page, db.updatedAt page.id, revision⟩ db issues ∧
      FindingsReplaced db session'.committed page revision time.transaction issues := by
  obtain ⟨resolved, issues, hresolved, hfound, hof, hresults, hreport, hreplaced⟩ :=
    (outTx_validatePage_report unicode postgres db given time page.tenantId
      address).committed_ok hs hrun
  obtain rfl : page.slug = resolved := Except.ok.inj (hslug.symm.trans hresolved)
  obtain rfl : page = run.page := Option.some.inj ((pageBySlug_of_mem hpage).symm.trans hfound)
  obtain rfl : revision = run.revision := Option.some.inj (hcurrent.symm.trans hof)
  exact ⟨by rw [← hresults], issues, hreport, hreplaced⟩

/-- The unit of work of a call that is not interrupted, with validators that do not raise. -/
theorem validation_of_outcomes {given : Option (List WikiValidator)} {time : CallTime}
    {s : Session WikiDatabase PyException} (hs : s.working = db) (hn : db.Numbered s.nextId)
    (houtcomes : s.outcomes = [])
    (hvalidators : ∀ validator ∈ validatorsOr unicode postgres given time.clock, ∀ context,
      RaisesOnly (fun _ ↦ False) (validator.validate context)) :
    ∃ run s', validation unicode postgres given time page.tenantId page.slug s = (.ok run, s') ∧
      s'.outcomes = [] := by
  subst hs
  have hfound := requirePage_of_outcomes houtcomes (pageBySlug_of_mem hpage)
  have hof := requireCurrentRevision_of_outcomes (s := s.autobegin) houtcomes
    (currentRevision_of_mem hpage hcurrent)
  have hreport : RaisesOnly (fun _ ↦ False) (runValidators
      (validatorsOr unicode postgres given time.clock)
      ⟨page.tenantId, page, s.working.updatedAt page.id, revision⟩) :=
    (RaisesOnly.mapM' fun validator hmem ↦ hvalidators validator hmem _).bind
      fun _ ↦ RaisesOnly.pure _
  -- The validators may be anything that reads and does not raise, so nothing else is known of what
  -- they find.
  have hraises := hreport s.autobegin.autobegin houtcomes
  have hread := readOnly_runValidators (validatorsOr unicode postgres given time.clock)
    ⟨page.tenantId, page, s.working.updatedAt page.id, revision⟩ s.autobegin.autobegin
  unfold Triple at hraises
  rcases hrun : runValidators (validatorsOr unicode postgres given time.clock)
    ⟨page.tenantId, page, s.working.updatedAt page.id, revision⟩ s.autobegin.autobegin
    with ⟨e | issues, s₁⟩
  · rw [hrun] at hraises
    exact hraises.2.elim
  · rw [hrun] at hraises hread
    have hn₁ : s₁.working.Numbered s₁.nextId := by
      rw [hread.working]
      exact WikiDatabase.Numbered.mono _ _ _ hread.nextId hn
    obtain ⟨rows, s', hstored, houtcomes'⟩ := replaceValidationResults_of_outcomes
      page.tenantId hraises hn₁ page.id revision.id time.transaction
      (issues.map resultInput)
    refine ⟨⟨page, revision, rows⟩, s', ?_, houtcomes'⟩
    unfold validation
    rw [bind_ok hfound]
    dsimp only
    rw [bind_ok hof, bind_ok hrun, bind_ok hstored]
    rfl

variable (hslug : requireSlug unicode address = .ok page.slug)
include hslug

theorem validatePage_of_outcomes {given : Option (List WikiValidator)} {time : CallTime}
    {session : Session WikiDatabase PyException} (hs : session.Idle db)
    (hn : db.Numbered session.nextId) (houtcomes : session.outcomes = [])
    (hvalidators : ∀ validator ∈ validatorsOr unicode postgres given time.clock, ∀ context,
      RaisesOnly (fun _ ↦ False) (validator.validate context)) :
    ∃ run session', validatePage unicode postgres given time page.tenantId address session
      = (.ok run, session') := by
  obtain ⟨run, s', hrun, houtcomes'⟩ := validation_of_outcomes hpage hcurrent
    (s := { session with
      depth := session.depth + 1
      origin := some (session.origin.getD .begin) }) hs.working hn houtcomes hvalidators
  obtain ⟨session', hend⟩ := transaction_of_outcomes hs hrun houtcomes'
  refine ⟨run, session', ?_⟩
  rw [validatePage_eq, hslug]
  exact hend

variable (unicode postgres) in
theorem listPageResults_of_outcomes {session : Session WikiDatabase PyException}
    (hs : session.Idle db) (houtcomes : session.outcomes = []) :
    ∃ session', listPageResults unicode postgres page.tenantId address session
      = (.ok ⟨page, revision, db.resultsFor postgres page.tenantId page.id (some revision.id)⟩,
        session') := by
  have hworking : session.working = db := hs.working
  subst hworking
  have hfound := requirePage_of_outcomes houtcomes (pageBySlug_of_mem hpage)
  have hof := requireCurrentRevision_of_outcomes (s := session.autobegin) houtcomes
    (currentRevision_of_mem hpage hcurrent)
  have hlisted : listValidationResults postgres page.tenantId page.id (some revision.id)
      session.autobegin.autobegin = (.ok (session.working.resultsFor postgres page.tenantId page.id
        (some revision.id)), session.autobegin.autobegin.autobegin) :=
    query_of_outcomes (s := session.autobegin.autobegin) houtcomes _
  refine ⟨session.autobegin.autobegin.autobegin, ?_⟩
  unfold listPageResults
  rw [hslug]
  refine (bind_ok hfound).trans ?_
  dsimp only
  rw [bind_ok hof, bind_ok hlisted]
  rfl

end WikiValidationService

end Address

/-! ## When the current findings are stored -/

section Main

variable {unicode : UnicodeData} {postgres : PostgresData}

open WikiRepository in
theorem ValidatorClass.raisesOnly (c : ValidatorClass) (context : ValidationContext) :
    RaisesOnly (fun _ ↦ False) ((c.make unicode postgres).validate context) := by
  have hlist : ∀ tenantId slugs, RaisesOnly (fun _ ↦ False)
      (listPagesBySlugs postgres tenantId slugs) := by
    intro tenantId slugs
    unfold listPagesBySlugs
    split
    · exact .pure _
    · exact .query _
  cases c with
  | brokenWikilinks =>
    unfold make brokenWikilinksValidator
    dsimp only
    split
    · exact .pure _
    · split
      · exact .pure _
      · exact (hlist _ _).bind fun _ ↦ .pure _
  | unsupportedClaims => exact (RaisesOnly.query _).bind fun _ ↦ .pure _
  | stalePage staleAfterDays clock =>
    unfold make stalePageValidator
    dsimp only
    split <;> exact .pure _
  | duplicateSlugTitle =>
    exact (hlist _ _).bind fun _ ↦ (RaisesOnly.query _).bind fun _ ↦ .pure _

variable {s : DatabaseState} {page : WikiPage} {revision : WikiRevision} {address : String}

open WikiValidationService

theorem StoresFindings.returns_default
    (h : StoresFindings unicode postgres s address page revision) :
    ∃ run session', validatePage unicode postgres none ⟨0, 0⟩ page.tenantId address
      (Session.start s.db s.nextId []) = (.ok run, session') := by
  refine h.returns none ⟨0, 0⟩ _ (Session.idle_start _ _ _) (Nat.le_refl _) rfl ?_
  intro validator hmem context
  obtain ⟨c, rfl⟩ := source_of_mem_validatorsOr none 0 (fun _ h ↦ by cases h) validator hmem
  exact c.raisesOnly context

theorem not_storesFindings (hraised : (validatePage unicode postgres none ⟨0, 0⟩ page.tenantId
    address (Session.start s.db s.nextId [])).1.isOk = false) :
    ¬StoresFindings unicode postgres s address page revision := by
  intro h
  obtain ⟨run, session', hrun⟩ := h.returns_default
  rw [hrun] at hraised
  cases hraised

theorem StoresFindings.requireSlug_eq
    (h : StoresFindings unicode postgres s address page revision) :
    WikiValidationService.requireSlug unicode address = .ok page.slug := by
  have hs := Session.idle_start (ε := PyException) s.db s.nextId []
  obtain ⟨run, session', hrun⟩ := h.returns_default
  obtain ⟨resolved, issues, hresolved, hfound, -⟩ :=
    (outTx_validatePage_report unicode postgres s.db none ⟨0, 0⟩ page.tenantId
      address).committed_ok hs hrun
  obtain ⟨rfl, -⟩ := h.stores none ⟨0, 0⟩ _ _ run hs hrun
  obtain rfl : page.slug = resolved := (Prod.mk.inj (Table.unique_of_lookup hfound)).2
  exact hresolved

/-- The service does what it should for a page that the address resolves to. -/
theorem storesFindings_of_requireSlug (hn : s.db.Numbered s.nextId)
    (hpage : page ∈ s.db.wiki.pages.rows) (hcurrent : s.db.wiki.currentOf page = some revision)
    (hslug : WikiValidationService.requireSlug unicode address = .ok page.slug) :
    StoresFindings unicode postgres s address page revision where
  returns given time session hs hnext houtcomes hvalidators :=
    validatePage_of_outcomes hpage hcurrent hslug hs (WikiDatabase.Numbered.mono _ _ _ hnext hn)
      houtcomes hvalidators
  stores given time session session' run hs hrun :=
    findingsReplaced_of_run hpage hcurrent hslug hs hrun
  lists given time session session' session₁ run hs hrun hs₁ houtcomes := by
    obtain ⟨-, issues, -, hreplaced⟩ := findingsReplaced_of_run hpage hcurrent hslug hs hrun
    have hwiki : session'.committed.wiki = s.db.wiki :=
      (congrArg WikiDatabase.wiki hreplaced.tables).trans rfl
    obtain ⟨session₁', hlisted⟩ := listPageResults_of_outcomes unicode postgres
      (hwiki.symm ▸ hpage) (hwiki.symm ▸ hcurrent) hslug hs₁ houtcomes
    exact ⟨_, session₁', hlisted, List.perm_insertionSort _ _⟩
  broken given time session session' run hs hdefault hrun := by
    obtain ⟨-, issues, hreport, hreplaced⟩ := findingsReplaced_of_run hpage hcurrent hslug hs hrun
    rw [validatorsOr_default hdefault] at hreport
    -- The rows are the issues in the same order, so the filters go along with each other.
    have hname : ∀ issue row, RowOf page revision time.transaction issue row →
        ((issue.validatorName == "broken_wikilinks") = true ↔
          (row.validatorName == "broken_wikilinks") = true) := by
      rintro issue row ⟨id, rfl⟩
      exact Iff.rfl
    have hrows := List.rel_filter (p := fun issue ↦ issue.validatorName == "broken_wikilinks")
      (q := fun row ↦ row.validatorName == "broken_wikilinks") (fun issue row ↦ hname issue row)
      hreplaced.rows
    rw [hreport.broken, List.forall₂_map_left_iff] at hrows
    exact ⟨_, nodup_brokenLinks s.db _ _, fun slug ↦ mem_brokenLinks s.db, hrows⟩
  again given time time₁ session session' session₁ session₁' run run₁ results hs hdetermined hrun
      hs₁ hclock hrun₁ := by
    obtain ⟨-, issues, hreport, hreplaced⟩ := findingsReplaced_of_run hpage hcurrent hslug hs hrun
    -- the earlier results are no input of a validator, so the second run finds the same
    have hpage₁ :
        page ∈ ({ s.db with validationResults := results } : WikiDatabase).wiki.pages.rows := hpage
    obtain ⟨-, issues₁, hreport₁, hreplaced₁⟩ :=
      findingsReplaced_of_run hpage₁ hcurrent hslug hs₁ hrun₁
    rw [hclock] at hreport₁
    obtain rfl := hreport.unique (determined_validatorsOr time.clock hdetermined) hreport₁
    exact sameFindings_of_rowOf hreplaced.rows hreplaced₁.rows
  undone given time session session' e hs hrun :=
    ((outTx_validatePage_report unicode postgres s.db given time page.tenantId
      address).committed_error hs hrun).symm

end Main

/-- **When `validate_page` stores exactly the current findings** about a page of a reachable wiki:
just if the slug of the page is its own slug. -/
theorem storesFindings_iff (unicode : UnicodeData) (postgres : PostgresData)
    (labels : List OperationLabel) {page : WikiPage} {revision : WikiRevision}
    (hpage : page ∈ (run (DatabaseState.step unicode postgres) .initial labels).db.wiki.pages.rows)
    (hcurrent : (run (DatabaseState.step unicode postgres) .initial labels).db.wiki.currentOf page
      = some revision) :
    StoresFindings unicode postgres (run (DatabaseState.step unicode postgres) .initial labels)
        page.slug page revision ↔
      WikiValidationService.requireSlug unicode page.slug = .ok page.slug :=
  ⟨fun h ↦ h.requireSlug_eq, fun hslug ↦ storesFindings_of_requireSlug
    (reachable unicode postgres labels).2 hpage hcurrent hslug⟩

/-- The page `a` is found under its slug. -/
theorem pageA_storesFindings :
    let s := run (DatabaseState.step asciiData asciiPostgres) .initial [createPageA "acme"]
    ∃ page revision, page ∈ s.db.wiki.pages.rows ∧ s.db.wiki.currentOf page = some revision ∧
      StoresFindings asciiData asciiPostgres s page.slug page revision := by
  have hrows : (run (DatabaseState.step asciiData asciiPostgres) .initial
      [createPageA "acme"]).db.wiki.pages.rows
        = [⟨0, "acme", "a", "A", "concept", "draft", some 1⟩] := by
    decide +kernel
  have hcurrent : ((run (DatabaseState.step asciiData asciiPostgres) .initial
      [createPageA "acme"]).db.wiki.currentOf
        ⟨0, "acme", "a", "A", "concept", "draft", some 1⟩).isSome = true := by
    decide +kernel
  have hslug : slugifyWikiTarget asciiData "a" = "a" := by decide +kernel
  obtain ⟨revision, hrevision⟩ := Option.isSome_iff_exists.mp hcurrent
  have hpage := List.mem_of_mem_head? (Option.mem_def.mpr (congrArg List.head? hrows))
  refine ⟨_, revision, hpage, hrevision,
    (storesFindings_iff asciiData asciiPostgres [createPageA "acme"] hpage hrevision).mpr ?_⟩
  rw [WikiValidationService.requireSlug, hslug]
  exact if_neg (by decide)

/-! ## A page that is not found under its slug -/

/-- A page is created under a title with two letters that are brought together. -/
def createJamoPage : OperationLabel where
  operation := .createOrUpdatePage
    { tenantId := "acme", slug := none, title := "\u1100!\u1161", pageType := "concept"
      status := none
      content :=
        { content := "[[b]]".toList, contentFormat := "markdown", contentJson := none
          summary := none, authorType := "human" } }
  time := ⟨0, 0⟩
  outcomes := []

/-- `validate_page`, called with the slug of the page, finds no page and raises. -/
theorem jamo_page_not_validated :
    let s := run (DatabaseState.step jamoData asciiPostgres) .initial [createJamoPage]
    ∃ page revision, page ∈ s.db.wiki.pages.rows ∧ s.db.wiki.currentOf page = some revision ∧
      (WikiValidationService.validatePage jamoData asciiPostgres none ⟨0, 0⟩ page.tenantId page.slug
        (Session.start s.db s.nextId [])).1.isOk = false ∧
      ¬StoresFindings jamoData asciiPostgres s page.slug page revision := by
  have hrows : (run (DatabaseState.step jamoData asciiPostgres) .initial
      [createJamoPage]).db.wiki.pages.rows
        = [⟨0, "acme", "\u1100\u1161", "\u1100!\u1161", "concept", "draft", some 1⟩] := by
    decide +kernel
  have hcurrent : ((run (DatabaseState.step jamoData asciiPostgres) .initial
      [createJamoPage]).db.wiki.currentOf ⟨0, "acme", "\u1100\u1161", "\u1100!\u1161",
        "concept", "draft", some 1⟩).isSome = true := by
    decide +kernel
  obtain ⟨revision, hrevision⟩ := Option.isSome_iff_exists.mp hcurrent
  have hpage := List.mem_of_mem_head? (Option.mem_def.mpr (congrArg List.head? hrows))
  have hraised : (WikiValidationService.validatePage jamoData asciiPostgres none ⟨0, 0⟩ "acme"
      "\u1100\u1161" (Session.start (run (DatabaseState.step jamoData asciiPostgres) .initial
        [createJamoPage]).db (run (DatabaseState.step jamoData asciiPostgres) .initial
          [createJamoPage]).nextId [])).1.isOk = false := by
    decide +kernel
  exact ⟨_, revision, hpage, hrevision, hraised, not_storesFindings hraised⟩

end KnowledgeAlakazam
