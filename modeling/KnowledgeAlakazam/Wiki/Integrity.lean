import KnowledgeAlakazam.Wiki.Links
import KnowledgeAlakazam.Wiki.Operations
import Mathlib.Logic.Relation

/-!
# The integrity of the wiki's tables

The tables of the wiki refer to each other, and most of what makes the references meaningful is
no constraint of the database: that a page points to a revision of its own, that a claim is about
a revision of its page, that links, claims and findings are of the tenant of their page. It holds
because every operation picks ids that match (`WikiStore.Intact`, `WikiDatabase.Intact`).

Whatever its arguments and however it ends, an operation changes the tables by a sequence of
statements of six kinds (`WikiEffect`), or it replaces the stored findings about one revision
(`DatabaseEffect`). That an operation does nothing else is `OperationLabel.effect`, that the
statements keep the tables intact is `WikiEffect.intact`, and `intact_run` puts them together.
-/

namespace KnowledgeAlakazam

/-! ## Intact tables -/

namespace WikiStore

/-- The page is there, and the tenant's. -/
def OwnedBy (w : WikiStore) (tenantId : String) (pageId : ℕ) : Prop :=
  ∃ page, w.pages.find pageId = some page ∧ page.tenantId = tenantId

/-- The revision is there, and of the page. -/
def RevisionOf (w : WikiStore) (pageId revisionId : ℕ) : Prop :=
  ∃ revision, w.revisions.find revisionId = some revision ∧ revision.pageId = pageId

/-- The claim is there, and the tenant's. -/
def ClaimOf (w : WikiStore) (tenantId : String) (claimId : ℕ) : Prop :=
  ∃ claim, w.claims.find claimId = some claim ∧ claim.tenantId = tenantId

/-- The references between the tables of the wiki are what they should be. -/
structure Intact (w : WikiStore) : Prop where
  /-- No two pages share tenant and slug. -/
  slugs : (w.pages.rows.map fun page ↦ (page.tenantId, page.slug)).Nodup
  /-- Revisions are of pages. -/
  revisions : ∀ revision ∈ w.revisions.rows, ∃ page, w.pages.find revision.pageId = some page
  /-- The revisions of a page are numbered from one, without gaps and repeats. -/
  revisionNos : ∀ pageId, ((w.revisionsOf pageId).map WikiRevision.revisionNo).Perm
    (List.range' 1 (w.revisionsOf pageId).length)
  /-- The current revision of a page is one of its revisions. -/
  pointers : ∀ page ∈ w.pages.rows, ∀ id ∈ page.currentRevisionId, w.RevisionOf page.id id
  /-- A claim is about a revision of its page, and of the tenant of the page. -/
  claims : ∀ claim ∈ w.claims.rows,
    w.OwnedBy claim.tenantId claim.pageId ∧ w.RevisionOf claim.pageId claim.revisionId
  /-- Sources are of claims. -/
  claimSources : ∀ source ∈ w.claimSources.rows,
    ∃ claim, w.claims.find source.claimId = some claim
  /-- A link is of the tenant of its page. -/
  links : ∀ link ∈ w.links.rows, w.OwnedBy link.tenantId link.fromPageId
  /-- No two links of a page are to the same slug. -/
  linkSlugs : ∀ pageId, ((w.linksOf pageId).map WikiLink.toSlug).Nodup

end WikiStore

/-- And so are the references of the findings. -/
structure WikiDatabase.Intact (db : WikiDatabase) : Prop where
  wiki : db.wiki.Intact
  /-- A finding is about a revision of its page, and of the tenant of the page. -/
  results : ∀ result ∈ db.validationResults.rows,
    db.wiki.OwnedBy result.tenantId result.pageId ∧
      db.wiki.RevisionOf result.pageId result.revisionId

/-! ## Effects -/

namespace WikiStore

theorem ownedBy_of_pageBySlug {w : WikiStore} {tenantId slug : String} {page : WikiPage}
    (h : w.pageBySlug tenantId slug = some page) : w.OwnedBy tenantId page.id :=
  ⟨page, Table.find_of_lookup h, (Prod.mk.inj (Table.unique_of_lookup h)).1⟩

end WikiStore

/-- The statements on the tables of the wiki that an operation for a tenant is made of. -/
inductive WikiEffect (tenantId : String) (W : WikiStore) : WikiStore → Prop
  /-- A page is inserted. -/
  | created {page : WikiPage} {pages : Table WikiPage} (htenant : page.tenantId = tenantId)
    (hpointer : page.currentRevisionId = none) (hins : W.pages.insert page = some pages) :
    WikiEffect tenantId W { W with pages := pages }
  /-- A page of the tenant is updated; its pointer is to a revision of it. -/
  | changed {pageId : ℕ} {patch : Patch WikiPage} (howned : W.OwnedBy tenantId pageId)
    (hpointer : ∀ page, W.pages.find pageId = some page →
      (patch.app page).currentRevisionId = page.currentRevisionId ∨
        ∃ id, (patch.app page).currentRevisionId = some id ∧ W.RevisionOf pageId id) :
    WikiEffect tenantId W { W with pages := W.pages.modify pageId patch }
  /-- A revision of a page of the tenant is inserted, with the next number. -/
  | revised {revision : WikiRevision} {revisions : Table WikiRevision}
    (howned : W.OwnedBy tenantId revision.pageId)
    (hno : revision.revisionNo = W.nextRevisionNo revision.pageId)
    (hins : W.revisions.insert revision = some revisions) :
    WikiEffect tenantId W { W with revisions := revisions }
  /-- The links of a page of the tenant are replaced. -/
  | relinked {W' : WikiStore} {pageId : ℕ} {toSlugs : List String}
    (howned : W.OwnedBy tenantId pageId) (h : LinksReplaced W W' tenantId pageId toSlugs) :
    WikiEffect tenantId W W'
  /-- A claim of the tenant about a revision of its page is inserted. -/
  | claimed {claim : WikiClaim} {claims : Table WikiClaim} (htenant : claim.tenantId = tenantId)
    (howned : W.OwnedBy tenantId claim.pageId)
    (hrevision : W.RevisionOf claim.pageId claim.revisionId)
    (hins : W.claims.insert claim = some claims) :
    WikiEffect tenantId W { W with claims := claims }
  /-- A source of a claim of the tenant is inserted. -/
  | sourced {source : WikiClaimSource} {sources : Table WikiClaimSource}
    (hclaim : W.ClaimOf tenantId source.claimId)
    (hins : W.claimSources.insert source = some sources) :
    WikiEffect tenantId W { W with claimSources := sources }

abbrev WikiEffects (tenantId : String) : WikiStore → WikiStore → Prop :=
  Relation.ReflTransGen (WikiEffect tenantId)

/-- The findings about a revision of a page of the tenant are replaced. -/
structure ResultsReplaced (db db' : WikiDatabase) (tenantId : String) (pageId revisionId : ℕ)
    (new : List WikiValidationResult) : Prop where
  owned : db.wiki.OwnedBy tenantId pageId
  revision : db.wiki.RevisionOf pageId revisionId
  rows : db'.validationResults.rows
    = (db.dropResults tenantId pageId revisionId).validationResults.rows ++ new
  own : ∀ result ∈ new,
    result.tenantId = tenantId ∧ result.pageId = pageId ∧ result.revisionId = revisionId
  store : db' = { db with validationResults := db'.validationResults }

/-- What an operation for a tenant does to the database. -/
inductive DatabaseEffect (tenantId : String) (db : WikiDatabase) (now : ℤ) : WikiDatabase → Prop
  | wiki {W' : WikiStore} (h : WikiEffects tenantId db.wiki W') :
    DatabaseEffect tenantId db now (db.stamp now W')
  | validated {db' : WikiDatabase} {pageId revisionId : ℕ} {new : List WikiValidationResult}
    (h : ResultsReplaced db db' tenantId pageId revisionId new) :
    DatabaseEffect tenantId db now db'
  | unchanged : DatabaseEffect tenantId db now db

/-! ## What the statements keep -/

theorem Patch.tenantId_app (patch : Patch WikiPage) (page : WikiPage) :
    (patch.app page).tenantId = page.tenantId := (Prod.mk.inj (patch.unique_app page)).1

structure WikiStore.Keeps (w w' : WikiStore) : Prop where
  pages : ∀ tenantId pageId, w.OwnedBy tenantId pageId → w'.OwnedBy tenantId pageId
  revisions : ∀ pageId revisionId, w.RevisionOf pageId revisionId → w'.RevisionOf pageId revisionId
  claims : ∀ tenantId claimId, w.ClaimOf tenantId claimId → w'.ClaimOf tenantId claimId

section Statements

variable {tenantId : String} {W W₁ W' : WikiStore}

theorem WikiStore.Keeps.refl : W.Keeps W := ⟨fun _ _ ↦ id, fun _ _ ↦ id, fun _ _ ↦ id⟩

theorem WikiStore.Keeps.trans (h : W.Keeps W₁) (h' : W₁.Keeps W') : W.Keeps W' :=
  ⟨fun t i ↦ h'.pages t i ∘ h.pages t i, fun t i ↦ h'.revisions t i ∘ h.revisions t i,
    fun t i ↦ h'.claims t i ∘ h.claims t i⟩

theorem WikiEffect.keeps (h : WikiEffect tenantId W W') : W.Keeps W' := by
  cases h with
  | created htenant hpointer hins =>
    refine ⟨?_, fun _ _ ↦ id, fun _ _ ↦ id⟩
    rintro t i ⟨page, hpage, ht⟩
    exact ⟨page, Table.find_insert_of_find hins hpage, ht⟩
  | @changed pageId patch howned hpointer =>
    refine ⟨?_, fun _ _ ↦ id, fun _ _ ↦ id⟩
    rintro t i ⟨page, hpage, ht⟩
    by_cases hi : i = pageId
    · subst hi
      exact ⟨_, Table.find_modify_self hpage patch, (patch.tenantId_app page).trans ht⟩
    · exact ⟨page, (Table.find_modify_of_ne hi patch).trans hpage, ht⟩
  | revised howned hno hins =>
    refine ⟨fun _ _ ↦ id, ?_, fun _ _ ↦ id⟩
    rintro i j ⟨revision, hrevision, hi⟩
    exact ⟨revision, Table.find_insert_of_find hins hrevision, hi⟩
  | relinked howned h =>
    rw [h.store]
    exact ⟨fun _ _ ↦ id, fun _ _ ↦ id, fun _ _ ↦ id⟩
  | claimed htenant howned hrevision hins =>
    refine ⟨fun _ _ ↦ id, fun _ _ ↦ id, ?_⟩
    rintro t i ⟨claim, hclaim, ht⟩
    exact ⟨claim, Table.find_insert_of_find hins hclaim, ht⟩
  | sourced hclaim hins => exact ⟨fun _ _ ↦ id, fun _ _ ↦ id, fun _ _ ↦ id⟩

theorem WikiEffects.keeps (h : WikiEffects tenantId W W') : W.Keeps W' := by
  induction h with
  | refl => exact .refl
  | tail _ h ih => exact ih.trans h.keeps

/-- The next number of a page whose revisions are numbered from one to `n`. -/
theorem WikiStore.nextRevisionNo_eq {pageId n : ℕ}
    (h : ((W.revisionsOf pageId).map WikiRevision.revisionNo).Perm (List.range' 1 n)) :
    W.nextRevisionNo pageId = n + 1 := by
  have hle : ∀ l : List ℕ, (∀ m ∈ l, m ≤ n) → l.foldr max 0 ≤ n := by
    intro l
    induction l with
    | nil => exact fun _ ↦ Nat.zero_le n
    | cons a l ih =>
      intro hl
      exact max_le (hl a List.mem_cons_self) (ih fun m hm ↦ hl m (List.mem_cons_of_mem a hm))
  have hupper : W.nextRevisionNo pageId ≤ n + 1 := by
    refine Nat.succ_le_succ (hle _ fun m hm ↦ ?_)
    have hm := List.mem_range'_1.mp (h.mem_iff.mp hm)
    omega
  refine Nat.le_antisymm hupper ?_
  cases n with
  | zero => exact Nat.succ_le_succ (Nat.zero_le _)
  | succ n =>
    have hmem : n + 1 ∈ (W.revisionsOf pageId).map WikiRevision.revisionNo :=
      h.mem_iff.mpr (List.mem_range'_1.mpr (by omega))
    obtain ⟨revision, hrevision, hno⟩ := List.mem_map.mp hmem
    obtain ⟨hrow, hpage⟩ := List.mem_filter.mp hrevision
    have hlt : revision.revisionNo < W.nextRevisionNo pageId :=
      WikiStore.revisionNo_lt_nextRevisionNo hrow (beq_iff_eq.mp hpage)
    omega

namespace WikiStore.Intact

theorem linkSound (hw : W.Intact) : LinkSound W where
  tenants := hw.links
  pointers i page hpage id hid := by
    obtain ⟨revision, hrevision, -⟩ := hw.pointers page (Table.mem_of_find hpage) id hid
    exact ⟨revision, hrevision⟩

theorem insertPage (hw : W.Intact) {page : WikiPage} {pages : Table WikiPage}
    (hpointer : page.currentRevisionId = none) (hins : W.pages.insert page = some pages)
    (hk : W.Keeps { W with pages := pages }) : Intact { W with pages := pages } where
  slugs := pages.unique_nodup
  revisions revision hrevision := by
    obtain ⟨owner, howner⟩ := hw.revisions revision hrevision
    exact ⟨owner, Table.find_insert_of_find hins howner⟩
  revisionNos := hw.revisionNos
  pointers page' hpage' id hid := by
    rw [Table.rows_insert hins, List.mem_append, List.mem_singleton] at hpage'
    rcases hpage' with hold | rfl
    · exact hw.pointers page' hold id hid
    · exact absurd (hpointer.symm.trans hid) (by simp)
  claims claim hclaim := ⟨hk.pages _ _ (hw.claims claim hclaim).1, (hw.claims claim hclaim).2⟩
  claimSources := hw.claimSources
  links link hlink := hk.pages _ _ (hw.links link hlink)
  linkSlugs := hw.linkSlugs

theorem updatePage (hw : W.Intact) {pageId : ℕ} {patch : Patch WikiPage}
    (hpointer : ∀ page, W.pages.find pageId = some page →
      (patch.app page).currentRevisionId = page.currentRevisionId ∨
        ∃ id, (patch.app page).currentRevisionId = some id ∧ W.RevisionOf pageId id)
    (hk : W.Keeps { W with pages := W.pages.modify pageId patch }) :
    Intact { W with pages := W.pages.modify pageId patch } where
  slugs := (W.pages.modify pageId patch).unique_nodup
  revisions revision hrevision := by
    obtain ⟨owner, howner⟩ := hw.revisions revision hrevision
    obtain ⟨owner', howner', -⟩ := hk.pages _ _ ⟨owner, howner, rfl⟩
    exact ⟨owner', howner'⟩
  revisionNos := hw.revisionNos
  pointers page' hpage' id hid := by
    rw [Table.rows_modify] at hpage'
    obtain ⟨page, hpage, rfl⟩ := List.mem_map.mp hpage'
    split at hid
    · rename_i hi
      rw [if_pos hi, show (patch.app page).id = pageId from (patch.primary_app page).trans hi]
      rcases hpointer page (hi ▸ Table.find_primary hpage) with heq | ⟨id', heq, hrevision⟩
      · rw [heq] at hid
        exact (show page.id = pageId from hi) ▸ hw.pointers page hpage id hid
      · obtain rfl : id' = id := Option.some.inj (heq.symm.trans hid)
        exact hrevision
    · rename_i hi
      rw [if_neg hi]
      exact hw.pointers page hpage id hid
  claims claim hclaim := ⟨hk.pages _ _ (hw.claims claim hclaim).1, (hw.claims claim hclaim).2⟩
  claimSources := hw.claimSources
  links link hlink := hk.pages _ _ (hw.links link hlink)
  linkSlugs := hw.linkSlugs

theorem insertRevision (hw : W.Intact) {revision : WikiRevision}
    {revisions : Table WikiRevision} (howned : W.OwnedBy tenantId revision.pageId)
    (hno : revision.revisionNo = W.nextRevisionNo revision.pageId)
    (hins : W.revisions.insert revision = some revisions)
    (hk : W.Keeps { W with revisions := revisions }) :
    Intact { W with revisions := revisions } where
  slugs := hw.slugs
  revisions other hother := by
    rw [Table.rows_insert hins, List.mem_append, List.mem_singleton] at hother
    rcases hother with hold | rfl
    · exact hw.revisions other hold
    · exact ⟨howned.choose, howned.choose_spec.1⟩
  revisionNos pageId := by
    have hrows : ({ W with revisions := revisions } : WikiStore).revisionsOf pageId
        = W.revisionsOf pageId ++ [revision].filter fun r ↦ r.pageId == pageId := by
      rw [revisionsOf, Table.rows_insert hins, List.filter_append, ← revisionsOf]
    rw [hrows]
    by_cases hpage : revision.pageId = pageId
    · rw [List.filter_singleton, show (revision.pageId == pageId) = true by simpa using hpage,
        cond_true, List.map_append, List.length_append, List.length_singleton,
        List.range'_1_concat, List.map_singleton, hno, hpage,
        nextRevisionNo_eq (hw.revisionNos pageId), Nat.add_comm 1]
      exact (hw.revisionNos pageId).append_right _
    · rw [List.filter_singleton, show (revision.pageId == pageId) = false by simpa using hpage,
        cond_false, List.append_nil]
      exact hw.revisionNos pageId
  pointers page hpage id hid := hk.revisions _ _ (hw.pointers page hpage id hid)
  claims claim hclaim := ⟨(hw.claims claim hclaim).1, hk.revisions _ _ (hw.claims claim hclaim).2⟩
  claimSources := hw.claimSources
  links := hw.links
  linkSlugs := hw.linkSlugs

theorem replaceLinks (hw : W.Intact) {pageId : ℕ} {toSlugs : List String}
    (howned : W.OwnedBy tenantId pageId) (h : LinksReplaced W W' tenantId pageId toSlugs) :
    W'.Intact := by
  obtain ⟨page, hpage, htenant⟩ := howned
  obtain rfl : page.id = pageId := Table.primary_of_find hpage
  have hlinks : ∀ link ∈ W'.links.rows, W.OwnedBy link.tenantId link.fromPageId := by
    obtain ⟨⟨new, hrows, -, hnew⟩, -⟩ := h
    intro link hlink
    rw [hrows, List.mem_append] at hlink
    rcases hlink with hold | hlink
    · exact hw.links link (List.mem_filter.mp hold).1
    · obtain ⟨ht, hp⟩ := hnew link hlink
      exact ⟨page, hp ▸ hpage, htenant.trans ht.symm⟩
  have hslugs : ∀ i, ((W'.linksOf i).map WikiLink.toSlug).Nodup := by
    intro i
    by_cases hi : i = page.id
    · rw [hi, h.linksOf_self hw.linkSound page hpage htenant]
      exact nodup_dedupeFrom [] toSlugs
    · rw [h.linksOf_of_ne hi]
      exact hw.linkSlugs i
  have hstore : W' = { W with links := W'.links } := h.store
  generalize W'.links = links at hstore hlinks
  subst hstore
  exact { hw with
    links := hlinks
    linkSlugs := hslugs }

theorem insertClaim (hw : W.Intact) {claim : WikiClaim} {claims : Table WikiClaim}
    (howned : W.OwnedBy claim.tenantId claim.pageId)
    (hrevision : W.RevisionOf claim.pageId claim.revisionId)
    (hins : W.claims.insert claim = some claims) : Intact { W with claims := claims } where
  slugs := hw.slugs
  revisions := hw.revisions
  revisionNos := hw.revisionNos
  pointers := hw.pointers
  claims other hother := by
    rw [Table.rows_insert hins, List.mem_append, List.mem_singleton] at hother
    rcases hother with hold | rfl
    · exact hw.claims other hold
    · exact ⟨howned, hrevision⟩
  claimSources source hsource := by
    obtain ⟨of, hof⟩ := hw.claimSources source hsource
    exact ⟨of, Table.find_insert_of_find hins hof⟩
  links := hw.links
  linkSlugs := hw.linkSlugs

theorem insertSource (hw : W.Intact) {source : WikiClaimSource} {sources : Table WikiClaimSource}
    (hclaim : W.ClaimOf tenantId source.claimId)
    (hins : W.claimSources.insert source = some sources) :
    Intact { W with claimSources := sources } where
  slugs := hw.slugs
  revisions := hw.revisions
  revisionNos := hw.revisionNos
  pointers := hw.pointers
  claims := hw.claims
  claimSources other hother := by
    rw [Table.rows_insert hins, List.mem_append, List.mem_singleton] at hother
    rcases hother with hold | rfl
    · exact hw.claimSources other hold
    · exact ⟨hclaim.choose, hclaim.choose_spec.1⟩
  links := hw.links
  linkSlugs := hw.linkSlugs

end WikiStore.Intact

/-- **Every statement keeps the tables intact.** -/
theorem WikiEffect.intact (hw : W.Intact) (h : WikiEffect tenantId W W') : W'.Intact := by
  have hk := h.keeps
  cases h with
  | created htenant hpointer hins => exact hw.insertPage hpointer hins hk
  | changed howned hpointer => exact hw.updatePage hpointer hk
  | revised howned hno hins => exact hw.insertRevision howned hno hins hk
  | relinked howned h => exact hw.replaceLinks howned h
  | claimed htenant howned hrevision hins =>
    exact hw.insertClaim (htenant ▸ howned) hrevision hins
  | sourced hclaim hins => exact hw.insertSource hclaim hins

theorem WikiEffects.intact (hw : W.Intact) (h : WikiEffects tenantId W W') : W'.Intact := by
  induction h with
  | refl => exact hw
  | tail _ h ih => exact h.intact ih

end Statements

/-! ## What the operations do -/

section Operations

variable {unicode : UnicodeData} {W W₁ W' : WikiStore}

theorem PagePrepared.effects {update : PageUpdate} {slug : String} {page : WikiPage}
    (h : PagePrepared W update slug page W₁) :
    WikiEffects update.tenantId W W₁ ∧ W₁.OwnedBy update.tenantId page.id := by
  refine ⟨?_, page, h.find_page⟩
  cases h with
  | created hnone hins => exact .single (.created rfl rfl hins)
  | found hpage =>
    exact .single (.changed (WikiStore.ownedBy_of_pageBySlug hpage) fun _ _ ↦ Or.inl rfl)

theorem RevisionAdded.effects {tenantId : String} {pageId : ℕ} {c : RevisionContent}
    {revision : WikiRevision} (howned : W.OwnedBy tenantId pageId)
    (h : RevisionAdded W W₁ pageId c revision) :
    WikiEffects tenantId W W₁ ∧ W₁.OwnedBy tenantId pageId := by
  obtain ⟨⟨id, rfl⟩, -, revisions, hins, rfl⟩ := h
  have hrevised : WikiEffect tenantId W { W with revisions := revisions } :=
    .revised howned rfl hins
  have hmoved : WikiEffect tenantId { W with revisions := revisions }
      { W with revisions := revisions, pages := W.pages.modify pageId (setCurrentPatch id) } :=
    .changed howned fun _ _ ↦ Or.inr ⟨id, rfl, _, Table.find_insert_self hins, rfl⟩
  exact ⟨.tail (.single hrevised) hmoved, hmoved.keeps.pages _ _ howned⟩

theorem WikiService.Written.effects {tenantId : String} {page : WikiPage} {c : RevisionContent}
    {detail : WikiPageDetail} (howned : W.OwnedBy tenantId page.id)
    (h : WikiService.Written unicode W W' tenantId page c detail) :
    WikiEffects tenantId W W' := by
  obtain ⟨revision, -, W₁, hadded, hlinks⟩ := h
  obtain ⟨heffects, howned₁⟩ := hadded.effects howned
  exact heffects.tail (.relinked howned₁ hlinks)

namespace WikiStore.Intact

theorem revisionOf_current (hw : W.Intact) {page : WikiPage} {revision : WikiRevision}
    (hpage : page ∈ W.pages.rows) (h : W.currentOf page = some revision) :
    W.RevisionOf page.id revision.id := by
  obtain ⟨id, hid, hfind⟩ := Option.bind_eq_some_iff.mp h
  obtain rfl : revision.id = id := Table.primary_of_find hfind
  exact hw.pointers page hpage _ hid

theorem revisionOf_resolved (hw : W.Intact) {page : WikiPage} {revision : WikiRevision}
    {revisionNo : Option ℤ} (hpage : page ∈ W.pages.rows)
    (h : W.resolved page revisionNo = some revision) : W.RevisionOf page.id revision.id := by
  cases revisionNo with
  | none => exact hw.revisionOf_current hpage h
  | some no =>
    have hmem : revision ∈ W.pageRevisions page.id := List.mem_of_find?_eq_some h
    rw [pageRevisions, List.mem_insertionSort] at hmem
    obtain ⟨hrow, hof⟩ := List.mem_filter.mp hmem
    exact ⟨revision, Table.find_primary hrow, by simpa using hof⟩

end WikiStore.Intact

namespace WikiService

open Program WikiRepository

theorem outTx_addClaimWithSources_effects (hw : W.Intact) (tenantId slug : String)
    (claimText : List Char) (sources : List ClaimSourceInput) (supportStatus : String)
    (confidence : Option ℤ) :
    OutTx (addClaimWithSources unicode tenantId slug claimText sources supportStatus confidence) W
      (fun _ W' ↦ WikiEffects tenantId W W') fun _ W' ↦ W = W' := by
  refine (OutTx.ofExcept (Q := fun _ W' ↦ W = W') (fun _ _ ↦ rfl) fun _ _ ↦ rfl).bind ?_
  rintro resolved _ rfl
  refine OutTx.transaction ?_ fun _ ↦ rfl
  refine (inTx_requirePage W tenantId resolved).bind ?_
  rintro page _ ⟨hpage, rfl⟩
  refine (InTx.query (R := fun found W' ↦ found = W.currentOf page ∧ W = W')
    ⟨by rw [WikiStore.currentRevision, hpage]; rfl, rfl⟩).bind ?_
  rintro found _ ⟨hfound, rfl⟩
  cases found with
  | none => exact InTx.raise _
  | some revision =>
    refine InTx.bind (inTx_createClaim W tenantId page.id revision.id claimText supportStatus
      confidence) ?_
    rintro claim W₁ ⟨⟨htenant, hclaimPage, hclaimRevision, -⟩, hins, hstore⟩
    have hclaimed : WikiEffect tenantId W W₁ := by
      rw [hstore]
      refine .claimed htenant ?_ ?_ hins
      · rw [hclaimPage]
        exact WikiStore.ownedBy_of_pageBySlug hpage
      · rw [hclaimPage, hclaimRevision]
        exact hw.revisionOf_current (Table.mem_of_lookup hpage) hfound.symm
    have hclaim : W₁.ClaimOf tenantId claim.id :=
      ⟨claim, Table.find_insert_self hins, htenant⟩
    -- every round of the loop adds a source of the claim
    have hloop : InTx (sources.mapM' (attachClaimSource claim.id)) W₁
        fun _ W' ↦ WikiEffects tenantId W W' := by
      refine (InTx.mapM' (I := fun _ _ W' ↦
        WikiEffects tenantId W W' ∧ W'.ClaimOf tenantId claim.id) ?_
        ⟨.single hclaimed, hclaim⟩).mono fun _ _ h ↦ h.1
      intro input _ _ W₂ hround
      obtain ⟨heffects, hclaim₂⟩ := hround
      refine (inTx_attachClaimSource W₂ claim.id input).mono ?_
      rintro source W' ⟨hof, hsource, hstore'⟩
      have hsourced : WikiEffect tenantId W₂ W' := by
        rw [hstore']
        exact .sourced (hof ▸ hclaim₂) hsource
      exact ⟨heffects.tail hsourced, hsourced.keeps.claims _ _ hclaim₂⟩
    exact hloop.bind fun _ _ h ↦ InTx.pure h

end WikiService

variable {postgres : PostgresData} {time : CallTime}

/-- What the operations of `WikiService` do, by the statements they are made of. -/
theorem WikiOperation.outTx_wiki (hw : W.Intact) (operation : WikiOperation)
    {x : WikiProgram WikiAnswer} (hx : operation.program unicode postgres time = .inl x) :
    OutTx x W (fun _ W' ↦ WikiEffects operation.tenantId W W') fun _ W' ↦ W = W' := by
  cases operation with
  | createOrUpdatePage update =>
    obtain rfl := Sum.inl.inj hx
    refine OutTx.map ((WikiService.outTx_createOrUpdatePage unicode W update).mono ?_
      fun _ _ h ↦ h)
    rintro detail W' ⟨slug, page, W₁, -, hprep, hwritten⟩
    obtain ⟨heffects, howned⟩ := hprep.effects
    exact heffects.trans (hwritten.effects howned)
  | publishPage tenantId slug revisionNo =>
    obtain rfl := Sum.inl.inj hx
    refine OutTx.map ((WikiService.outTx_publishPage unicode W tenantId slug revisionNo).mono ?_
      fun _ _ h ↦ h)
    rintro detail W' ⟨resolved, page, revision, -, hpage, hrevision, -, rfl⟩
    -- the revision that is published is one of the page's own
    exact .single (.changed (WikiStore.ownedBy_of_pageBySlug hpage) fun _ _ ↦
      Or.inr ⟨revision.id, rfl, hw.revisionOf_resolved (Table.mem_of_lookup hpage) hrevision⟩)
  | getPage tenantId slug =>
    obtain rfl := Sum.inl.inj hx
    refine OutTx.map ((WikiService.outTx_getPage unicode W tenantId slug).mono ?_ fun _ _ h ↦ h)
    rintro _ _ rfl
    exact .refl
  | createRevision tenantId slug content =>
    obtain rfl := Sum.inl.inj hx
    refine OutTx.map ((WikiService.outTx_createRevision unicode W tenantId slug content).mono ?_
      fun _ _ h ↦ h)
    rintro detail W' ⟨resolved, page, -, hpage, hwritten⟩
    exact hwritten.effects (WikiStore.ownedBy_of_pageBySlug hpage)
  | addClaimWithSources tenantId slug claimText sources supportStatus confidence =>
    obtain rfl := Sum.inl.inj hx
    exact OutTx.map (WikiService.outTx_addClaimWithSources_effects hw tenantId slug claimText
      sources supportStatus confidence)
  | rebuildLinksFromMarkdown tenantId slug markdown =>
    obtain rfl := Sum.inl.inj hx
    refine OutTx.map ((WikiService.outTx_rebuildLinksFromMarkdown unicode W tenantId slug
      markdown).mono ?_ fun _ _ h ↦ h)
    rintro _ W' ⟨resolved, page, -, hpage, hlinks⟩
    exact .single (.relinked (WikiStore.ownedBy_of_pageBySlug hpage) hlinks)
  | getBacklinks tenantId slug =>
    obtain rfl := Sum.inl.inj hx
    refine OutTx.map ((WikiService.outTx_getBacklinks unicode W postgres tenantId slug).mono ?_
      fun _ _ h ↦ h)
    rintro _ _ ⟨rfl, -⟩
    exact .refl
  | validatePage validators tenantId slug => cases hx
  | listPageResults tenantId slug => cases hx

theorem WikiOperation.outTx_database {db : WikiDatabase} (hdb : db.Intact)
    (operation : WikiOperation) {x : DatabaseProgram WikiAnswer}
    (hx : operation.program unicode postgres time = .inr x) :
    OutTx x db (fun _ db' ↦ DatabaseEffect operation.tenantId db time.transaction db')
      fun _ db' ↦ db = db' := by
  cases operation with
  | validatePage validators tenantId slug =>
    obtain rfl := Sum.inr.inj hx
    refine OutTx.map ((WikiValidationService.outTx_validatePage unicode postgres db validators
      time tenantId slug).mono ?_ fun _ _ h ↦ h)
    rintro run db' ⟨resolved, inputs, -, hpage, hrevision, hstored⟩
    exact .validated ⟨WikiStore.ownedBy_of_pageBySlug hpage,
      hdb.wiki.revisionOf_current (Table.mem_of_lookup hpage) hrevision, hstored.rows,
      hstored.own, hstored.store⟩
  | listPageResults tenantId slug =>
    obtain rfl := Sum.inr.inj hx
    refine OutTx.map ((WikiValidationService.outTx_listPageResults unicode postgres db tenantId
      slug).mono ?_ fun _ _ h ↦ h)
    rintro _ _ rfl
    exact .unchanged
  | createOrUpdatePage update => cases hx
  | publishPage tenantId slug revisionNo => cases hx
  | getPage tenantId slug => cases hx
  | createRevision tenantId slug content => cases hx
  | addClaimWithSources tenantId slug claimText sources supportStatus confidence => cases hx
  | rebuildLinksFromMarkdown tenantId slug markdown => cases hx
  | getBacklinks tenantId slug => cases hx

/-- What an operation does to the database, however it ends. -/
theorem OperationLabel.effect (unicode : UnicodeData) (postgres : PostgresData)
    (label : OperationLabel) {s : DatabaseState} (hs : s.db.Intact) :
    DatabaseEffect label.operation.tenantId s.db label.time.transaction
      (label.run unicode postgres s).2.db := by
  unfold OperationLabel.run
  split
  · rename_i x hx
    have h : OutTx x s.db.wiki (fun _ W' ↦ WikiEffects label.operation.tenantId s.db.wiki W')
        fun _ W' ↦ WikiEffects label.operation.tenantId s.db.wiki W' :=
      (label.operation.outTx_wiki hs.wiki hx).mono (fun _ _ h ↦ h) (by rintro _ _ rfl; exact .refl)
    exact .wiki (h.committed (Session.idle_start _ _ _))
  · rename_i x hx
    have h : OutTx x s.db
        (fun _ db' ↦ DatabaseEffect label.operation.tenantId s.db label.time.transaction db')
        fun _ db' ↦ DatabaseEffect label.operation.tenantId s.db label.time.transaction db' :=
      (label.operation.outTx_database hs hx).mono (fun _ _ h ↦ h)
        (by rintro _ _ rfl; exact .unchanged)
    exact h.committed (Session.idle_start _ _ _)

end Operations

/-! ## Runs -/

theorem WikiDatabase.Intact.empty : WikiDatabase.empty.Intact where
  wiki :=
    { slugs := List.nodup_nil
      revisions _ h := absurd h (by simp [WikiDatabase.empty, WikiStore.empty, Table.empty])
      revisionNos _ := List.Perm.refl []
      pointers _ h := absurd h (by simp [WikiDatabase.empty, WikiStore.empty, Table.empty])
      claims _ h := absurd h (by simp [WikiDatabase.empty, WikiStore.empty, Table.empty])
      claimSources _ h := absurd h (by simp [WikiDatabase.empty, WikiStore.empty, Table.empty])
      links _ h := absurd h (by simp [WikiDatabase.empty, WikiStore.empty, Table.empty])
      linkSlugs _ := List.nodup_nil }
  results _ h := absurd h (by simp [WikiDatabase.empty, Table.empty])

theorem DatabaseEffect.intact {tenantId : String} {db db' : WikiDatabase} {now : ℤ}
    (hdb : db.Intact) (h : DatabaseEffect tenantId db now db') : db'.Intact := by
  cases h with
  | wiki h =>
    exact ⟨h.intact hdb.wiki, fun result hresult ↦
      ⟨h.keeps.pages _ _ (hdb.results result hresult).1,
        h.keeps.revisions _ _ (hdb.results result hresult).2⟩⟩
  | @validated _ pageId revisionId new h =>
    obtain ⟨howned, hrevision, hrows, hown, hstore⟩ := h
    have hwiki : db'.wiki = db.wiki := by rw [hstore]
    refine ⟨hwiki ▸ hdb.wiki, fun result hresult ↦ ?_⟩
    rw [hwiki]
    rw [hrows, List.mem_append] at hresult
    rcases hresult with hold | hnew
    · exact hdb.results result (List.mem_filter.mp hold).1
    · obtain ⟨ht, hp, hr⟩ := hown result hnew
      rw [ht, hp, hr]
      exact ⟨howned, hrevision⟩
  | unchanged => exact hdb

/-- **Main result.** In every state that operations lead to, the references between the tables
are what they should be. -/
theorem intact_run (unicode : UnicodeData) (postgres : PostgresData)
    (labels : List OperationLabel) :
    (run (DatabaseState.step unicode postgres) .initial labels).db.Intact := by
  refine run_induction (I := fun s : DatabaseState ↦ s.db.Intact) ?_ WikiDatabase.Intact.empty
    labels
  intro s label s' hs hstep
  obtain rfl := Option.some.inj hstep
  exact (label.effect unicode postgres hs).intact hs

end KnowledgeAlakazam
