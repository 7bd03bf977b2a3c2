import KnowledgeAlakazam.Core.View
import KnowledgeAlakazam.Wiki.Integrity

/-!
# A tenant's part of the wiki

The rows of a tenant: its pages, links, claims and findings by their `tenant_id`, and its revisions
and claim sources by the page and the claim they belong to, since they carry no tenant of their
own. `ofTenant` is the database that has these rows and no others. The queries that the services
make for a tenant have the same answers there, and the statements they execute have the same
effect; for every other tenant these statements do nothing (`DatabaseEffect.ofTenant_of_ne`).

The last part uses that fresh ids increase: the rows of every reachable table are in the order of
their ids, so that two tables with the same rows are the same list (`ofTenant_eq`).
-/

namespace KnowledgeAlakazam

namespace WikiStore

variable (w : WikiStore) (tenantId : String)

def owns (pageId : ℕ) : Bool := (w.pages.find pageId).any fun page ↦ page.tenantId == tenantId

def ownsClaim (claimId : ℕ) : Bool :=
  (w.claims.find claimId).any fun claim ↦ claim.tenantId == tenantId

def ofTenant : WikiStore where
  pages := w.pages.keep fun page ↦ page.tenantId == tenantId
  revisions := w.revisions.keep fun revision ↦ w.owns tenantId revision.pageId
  links := w.links.keep fun link ↦ link.tenantId == tenantId
  claims := w.claims.keep fun claim ↦ claim.tenantId == tenantId
  claimSources := w.claimSources.keep fun source ↦ w.ownsClaim tenantId source.claimId
  compileJobs := w.compileJobs.keep fun job ↦ job.tenantId == tenantId

variable {w tenantId}

theorem owns_iff {pageId : ℕ} : w.owns tenantId pageId = true ↔ w.OwnedBy tenantId pageId := by
  rw [owns, Option.any_eq_true]
  exact exists_congr fun page ↦ and_congr_right fun _ ↦ beq_iff_eq

theorem ownsClaim_iff {claimId : ℕ} :
    w.ownsClaim tenantId claimId = true ↔ w.ClaimOf tenantId claimId := by
  rw [ownsClaim, Option.any_eq_true]
  exact exists_congr fun claim ↦ and_congr_right fun _ ↦ beq_iff_eq

theorem owns_eq_false {other : String} {pageId : ℕ} (h : w.OwnedBy tenantId pageId)
    (hne : other ≠ tenantId) : w.owns other pageId = false := by
  obtain ⟨page, hpage, rfl⟩ := h
  rw [owns, hpage, Option.any_some]
  exact beq_eq_false_iff_ne.mpr hne.symm

theorem ownsClaim_eq_false {other : String} {claimId : ℕ} (h : w.ClaimOf tenantId claimId)
    (hne : other ≠ tenantId) : w.ownsClaim other claimId = false := by
  obtain ⟨claim, hclaim, rfl⟩ := h
  rw [ownsClaim, hclaim, Option.any_some]
  exact beq_eq_false_iff_ne.mpr hne.symm

/-! ## Queries for the tenant -/

theorem pageBySlug_ofTenant (slug : String) :
    (w.ofTenant tenantId).pageBySlug tenantId slug = w.pageBySlug tenantId slug := by
  rw [pageBySlug, ofTenant, Table.lookup_keep, ← pageBySlug]
  cases h : w.pageBySlug tenantId slug with
  | none => rfl
  | some page =>
    rw [Option.filter_some, if_pos]
    exact beq_iff_eq.mpr (Prod.mk.inj (Table.unique_of_lookup h)).1

theorem find_page_ofTenant {pageId : ℕ} (h : w.OwnedBy tenantId pageId) :
    (w.ofTenant tenantId).pages.find pageId = w.pages.find pageId := by
  obtain ⟨page, hpage, ht⟩ := h
  rw [ofTenant, Table.find_keep, hpage, Option.filter_some, if_pos (beq_iff_eq.mpr ht)]

theorem currentOf_ofTenant (hw : w.Intact) {page : WikiPage} (hpage : page ∈ w.pages.rows)
    (ht : page.tenantId = tenantId) : (w.ofTenant tenantId).currentOf page = w.currentOf page := by
  rw [currentOf, currentOf]
  cases hid : page.currentRevisionId with
  | none => rfl
  | some id =>
    -- the current revision is one of the page, so it is the tenant's
    obtain ⟨revision, hrevision, hof⟩ := hw.pointers page hpage id hid
    rw [Option.bind_some, Option.bind_some, ofTenant, Table.find_keep, hrevision,
      Option.filter_some, if_pos]
    exact owns_iff.mpr ⟨page, hof ▸ Table.find_primary hpage, ht⟩

theorem currentRevision_ofTenant (hw : w.Intact) (slug : String) :
    (w.ofTenant tenantId).currentRevision tenantId slug = w.currentRevision tenantId slug := by
  rw [currentRevision, currentRevision, pageBySlug_ofTenant]
  cases h : w.pageBySlug tenantId slug with
  | none => rfl
  | some page =>
    exact currentOf_ofTenant hw (Table.mem_of_lookup h) (Prod.mk.inj (Table.unique_of_lookup h)).1

theorem revisionsOf_ofTenant {pageId : ℕ} (h : w.OwnedBy tenantId pageId) :
    (w.ofTenant tenantId).revisionsOf pageId = w.revisionsOf pageId := by
  rw [revisionsOf, revisionsOf, ofTenant, Table.rows_keep, List.filter_filter]
  refine List.filter_congr fun revision _ ↦ ?_
  by_cases hid : revision.pageId = pageId
  · rw [hid, owns_iff.mpr h, Bool.and_true]
  · rw [show (revision.pageId == pageId) = false from beq_eq_false_iff_ne.mpr hid, Bool.false_and]

theorem nextRevisionNo_ofTenant {pageId : ℕ} (h : w.OwnedBy tenantId pageId) :
    (w.ofTenant tenantId).nextRevisionNo pageId = w.nextRevisionNo pageId := by
  rw [nextRevisionNo, nextRevisionNo, revisionsOf_ofTenant h]

theorem pageRevisions_ofTenant {pageId : ℕ} (h : w.OwnedBy tenantId pageId) :
    (w.ofTenant tenantId).pageRevisions pageId = w.pageRevisions pageId := by
  rw [pageRevisions, pageRevisions, revisionsOf_ofTenant h]

theorem revisionByNo_ofTenant {pageId : ℕ} (h : w.OwnedBy tenantId pageId) (revisionNo : ℕ) :
    (w.ofTenant tenantId).revisionByNo pageId revisionNo = w.revisionByNo pageId revisionNo := by
  rw [revisionByNo, ofTenant, Table.lookup_keep, ← revisionByNo]
  cases hr : w.revisionByNo pageId revisionNo with
  | none => rfl
  | some revision =>
    have hid : revision.pageId = pageId := (Prod.mk.inj (Table.unique_of_lookup hr)).1
    rw [Option.filter_some, hid, if_pos (owns_iff.mpr h)]

theorem backlinks_ofTenant (postgres : PostgresData) (slug : String) :
    (w.ofTenant tenantId).backlinks postgres tenantId slug
      = w.backlinks postgres tenantId slug := by
  have hof : ∀ link, (w.ofTenant tenantId).backlinkOf tenantId slug link
      = w.backlinkOf tenantId slug link := by
    intro link
    rw [backlinkOf, backlinkOf, ofTenant, Table.find_keep, Option.filter_filter]
    congr 3
    funext page
    rw [← Bool.beq_eq_decide_eq, Bool.and_self]
  rw [backlinks, backlinks, funext hof]
  congr 1
  rw [ofTenant, Table.rows_keep, List.filterMap_filter]
  refine List.filterMap_congr fun link _ ↦ ?_
  split
  · rfl
  · rename_i hne
    rw [backlinkOf, if_neg fun h ↦ hne (beq_iff_eq.mpr h.1)]

/-! ## The rows of a tenant after a statement -/

theorem ofTenant_setPages {pages : Table WikiPage}
    (h : ∀ revision ∈ w.revisions.rows, owns { w with pages := pages } tenantId revision.pageId
      = w.owns tenantId revision.pageId) :
    ofTenant { w with pages := pages } tenantId
      = { w.ofTenant tenantId with
          pages := pages.keep fun page ↦ page.tenantId == tenantId } := by
  have hrevisions := Table.keep_congr (t := w.revisions)
    (p := fun revision ↦ owns { w with pages := pages } tenantId revision.pageId) h
  rw [ofTenant, ofTenant, hrevisions]
  rfl

theorem ofTenant_setClaims {claims : Table WikiClaim}
    (h : ∀ source ∈ w.claimSources.rows,
      ownsClaim { w with claims := claims } tenantId source.claimId
        = w.ownsClaim tenantId source.claimId) :
    ofTenant { w with claims := claims } tenantId
      = { w.ofTenant tenantId with
          claims := claims.keep fun claim ↦ claim.tenantId == tenantId } := by
  have hsources := Table.keep_congr (t := w.claimSources)
    (p := fun source ↦ ownsClaim { w with claims := claims } tenantId source.claimId) h
  rw [ofTenant, ofTenant, hsources]
  rfl

/-- A page is inserted: pages that have revisions were there before. -/
theorem ofTenant_insertPage (hw : w.Intact) {page : WikiPage} {pages : Table WikiPage}
    (hins : w.pages.insert page = some pages) :
    ofTenant { w with pages := pages } tenantId
      = { w.ofTenant tenantId with
          pages := pages.keep fun page ↦ page.tenantId == tenantId } := by
  refine ofTenant_setPages fun revision hrevision ↦ ?_
  obtain ⟨owner, howner⟩ := hw.revisions revision hrevision
  rw [owns, owns, howner, Table.find_insert_of_find hins howner]

theorem ofTenant_updatePage (pageId : ℕ) (patch : Patch WikiPage) :
    ofTenant { w with pages := w.pages.modify pageId patch } tenantId
      = { w.ofTenant tenantId with
          pages := (w.ofTenant tenantId).pages.modify pageId patch } := by
  have hkeep : (w.pages.modify pageId patch).keep (fun page ↦ page.tenantId == tenantId)
      = (w.ofTenant tenantId).pages.modify pageId patch :=
    Table.keep_modify _ _ fun page ↦ by rw [patch.tenantId_app]
  rw [← hkeep]
  refine ofTenant_setPages fun revision _ ↦ ?_
  rw [owns, owns, Table.find_modify]
  split
  · cases w.pages.find revision.pageId with
    | none => rfl
    | some page =>
      rw [Option.map_some, Option.any_some, Option.any_some, patch.tenantId_app]
  · rfl

/-- A claim is inserted: claims that have sources were there before. -/
theorem ofTenant_insertClaim (hw : w.Intact) {claim : WikiClaim} {claims : Table WikiClaim}
    (hins : w.claims.insert claim = some claims) :
    ofTenant { w with claims := claims } tenantId
      = { w.ofTenant tenantId with
          claims := claims.keep fun claim ↦ claim.tenantId == tenantId } := by
  refine ofTenant_setClaims fun source hsource ↦ ?_
  obtain ⟨owner, howner⟩ := hw.claimSources source hsource
  rw [ownsClaim, ownsClaim, howner, Table.find_insert_of_find hins howner]

theorem ofTenant_dropLinks (linkTenant : String) (pageId : ℕ) :
    (w.dropLinks linkTenant pageId).ofTenant tenantId
      = (w.ofTenant tenantId).dropLinks linkTenant pageId := by
  rw [dropLinks, dropLinks, ofTenant, ofTenant, Table.keep_keep]
  rfl

end WikiStore

/-! ## The rows of the other tenants -/

section Others

variable {tenantId other : String} {W W' : WikiStore} {db db' : WikiDatabase} {now : ℤ}

/-- **A statement does nothing to the rows of another tenant.** -/
theorem WikiEffect.ofTenant_of_ne (hw : W.Intact) (hne : other ≠ tenantId)
    (h : WikiEffect tenantId W W') : W'.ofTenant other = W.ofTenant other := by
  have hbeq : ∀ text : String, text = tenantId → (text == other) = false := by
    rintro _ rfl
    exact beq_eq_false_iff_ne.mpr hne.symm
  cases h with
  | created htenant hpointer hins =>
    rw [WikiStore.ofTenant_insertPage hw hins, Table.keep_insert hins (hbeq _ htenant)]
    rfl
  | @changed pageId patch howned hpointer =>
    have hkeep : (W.pages.modify pageId patch).keep (fun page ↦ page.tenantId == other)
        = W.pages.keep fun page ↦ page.tenantId == other := by
      refine Table.keep_modify_of_not (fun page ↦ by rw [patch.tenantId_app]) fun page hpage ↦ ?_
      obtain ⟨owner, howner, ht⟩ := howned
      obtain rfl := Option.some.inj (howner.symm.trans hpage)
      exact hbeq _ ht
    rw [WikiStore.ofTenant_updatePage, ← show _ = (W.ofTenant other).pages.modify pageId patch from
      Table.keep_modify W.pages pageId fun page ↦ by rw [patch.tenantId_app], hkeep]
    rfl
  | revised howned hno hins =>
    have hkeep := Table.keep_insert (p := fun r : WikiRevision ↦ W.owns other r.pageId) hins
      (WikiStore.owns_eq_false howned hne)
    unfold WikiStore.ofTenant
    exact congrArg (fun revisions ↦ { W.ofTenant other with revisions := revisions }) hkeep
  | relinked howned h =>
    obtain ⟨⟨new, hrows, -, hnew⟩, hstore⟩ := h
    have hkeep : W'.links.keep (fun link ↦ link.tenantId == other)
        = W.links.keep fun link ↦ link.tenantId == other := by
      refine Table.eq_of_rows ?_
      -- The links that are added are the tenant's, and so are those that are dropped.
      have hnil : new.filter (fun link ↦ link.tenantId == other) = [] := by
        rw [List.filter_eq_nil_iff]
        intro link hlink
        rw [hbeq _ (hnew link hlink).1]
        exact Bool.false_ne_true
      rw [Table.rows_keep, Table.rows_keep, hrows, List.filter_append, hnil, List.append_nil,
        WikiStore.dropLinks, Table.rows_keep, List.filter_filter]
      refine List.filter_congr fun link _ ↦ ?_
      by_cases hl : link.tenantId = other
      · rw [hl, beq_eq_false_iff_ne.mpr hne, Bool.false_and, Bool.not_false, Bool.and_true]
      · rw [beq_eq_false_iff_ne.mpr hl, Bool.false_and]
    rw [hstore]
    unfold WikiStore.ofTenant
    exact congrArg (fun links ↦ { W.ofTenant other with links := links }) hkeep
  | claimed htenant howned hrevision hins =>
    rw [WikiStore.ofTenant_insertClaim hw hins, Table.keep_insert hins (hbeq _ htenant)]
    rfl
  | sourced hclaim hins =>
    have hkeep := Table.keep_insert (p := fun s : WikiClaimSource ↦ W.ownsClaim other s.claimId)
      hins (WikiStore.ownsClaim_eq_false hclaim hne)
    unfold WikiStore.ofTenant
    exact congrArg (fun sources ↦ { W.ofTenant other with claimSources := sources }) hkeep

theorem WikiEffects.ofTenant_of_ne (hw : W.Intact) (hne : other ≠ tenantId)
    (h : WikiEffects tenantId W W') : W'.ofTenant other = W.ofTenant other := by
  induction h with
  | refl => rfl
  | tail hbefore h ih => exact (h.ofTenant_of_ne (WikiEffects.intact hw hbefore) hne).trans ih

end Others

/-! ## The rows of a tenant in the database -/

namespace WikiDatabase

/-- The rows of a tenant, with their times. -/
def ofTenant (db : WikiDatabase) (tenantId : String) : WikiDatabase where
  wiki := db.wiki.ofTenant tenantId
  updatedAt i := if db.wiki.owns tenantId i then db.updatedAt i else 0
  claimedAt i := if db.wiki.ownsClaim tenantId i then db.claimedAt i else 0
  validationResults := db.validationResults.keep fun result ↦ result.tenantId == tenantId

theorem updatedAt_ofTenant {db : WikiDatabase} {tenantId : String} {i : ℕ}
    (h : db.wiki.OwnedBy tenantId i) : (db.ofTenant tenantId).updatedAt i = db.updatedAt i :=
  if_pos (WikiStore.owns_iff.mpr h)

theorem claimedAt_ofTenant {db : WikiDatabase} {tenantId : String} {i : ℕ}
    (h : db.wiki.ClaimOf tenantId i) : (db.ofTenant tenantId).claimedAt i = db.claimedAt i :=
  if_pos (WikiStore.ownsClaim_iff.mpr h)

/-- Two databases have the same rows of a tenant. -/
structure SameTenant (tenantId : String) (db db' : WikiDatabase) : Prop where
  pages : ∀ page : WikiPage, page.tenantId = tenantId →
    (page ∈ db.wiki.pages.rows ↔ page ∈ db'.wiki.pages.rows)
  updatedAt : ∀ page ∈ db.wiki.pages.rows, page.tenantId = tenantId →
    db.updatedAt page.id = db'.updatedAt page.id
  revisions : ∀ revision : WikiRevision,
    revision ∈ db.wiki.revisions.rows ∧ db.wiki.OwnedBy tenantId revision.pageId ↔
      revision ∈ db'.wiki.revisions.rows ∧ db'.wiki.OwnedBy tenantId revision.pageId
  links : ∀ link : WikiLink, link.tenantId = tenantId →
    (link ∈ db.wiki.links.rows ↔ link ∈ db'.wiki.links.rows)
  claims : ∀ claim : WikiClaim, claim.tenantId = tenantId →
    (claim ∈ db.wiki.claims.rows ↔ claim ∈ db'.wiki.claims.rows)
  claimedAt : ∀ claim ∈ db.wiki.claims.rows, claim.tenantId = tenantId →
    db.claimedAt claim.id = db'.claimedAt claim.id
  claimSources : ∀ source : WikiClaimSource,
    source ∈ db.wiki.claimSources.rows ∧ db.wiki.ClaimOf tenantId source.claimId ↔
      source ∈ db'.wiki.claimSources.rows ∧ db'.wiki.ClaimOf tenantId source.claimId
  compileJobs : ∀ job : WikiCompileJob, job.tenantId = tenantId →
    (job ∈ db.wiki.compileJobs.rows ↔ job ∈ db'.wiki.compileJobs.rows)
  validationResults : ∀ result : WikiValidationResult, result.tenantId = tenantId →
    (result ∈ db.validationResults.rows ↔ result ∈ db'.validationResults.rows)

end WikiDatabase

section Databases

variable {tenantId other : String} {W' : WikiStore} {db db' : WikiDatabase} {now : ℤ}

theorem WikiStore.find_filter_of_ofTenant_eq {w w' : WikiStore}
    (h : w.ofTenant tenantId = w'.ofTenant tenantId) (i : ℕ) :
    (w.pages.find i).filter (fun page ↦ page.tenantId == tenantId)
      = (w'.pages.find i).filter fun page ↦ page.tenantId == tenantId := by
  rw [← Table.find_keep, ← Table.find_keep]
  exact congrArg (fun view : WikiStore ↦ view.pages.find i) h

theorem WikiStore.find_claim_filter_of_ofTenant_eq {w w' : WikiStore}
    (h : w.ofTenant tenantId = w'.ofTenant tenantId) (i : ℕ) :
    (w.claims.find i).filter (fun claim ↦ claim.tenantId == tenantId)
      = (w'.claims.find i).filter fun claim ↦ claim.tenantId == tenantId := by
  rw [← Table.find_keep, ← Table.find_keep]
  exact congrArg (fun view : WikiStore ↦ view.claims.find i) h

private theorem stampOther {ρ : Type} [DecidableEq ρ] {p : ρ → Bool} {before after : Option ρ}
    (h : after.filter p = before.filter p) (old now : ℤ) :
    (if after.any p then (if after = before then old else now) else 0)
      = if before.any p then old else 0 := by
  cases after with
  | none =>
    cases before with
    | none => rfl
    | some row =>
      cases hp : p row with
      | true => simp [Option.filter_some, hp] at h
      | false => simp [hp]
  | some row =>
    cases hp : p row with
    | true =>
      rw [Option.filter_some, if_pos hp] at h
      have hbefore : before = some row := (Option.filter_eq_some_iff.mp h.symm).1
      rw [hbefore, if_pos rfl]
    | false =>
      rw [Option.filter_some, hp, if_neg Bool.false_ne_true] at h
      have hany : before.any p = false := by
        cases before with
        | none => rfl
        | some row' =>
          cases hp' : p row' with
          | true => simp [Option.filter_some, hp'] at h
          | false => simp [hp']
      rw [hany, Option.any_some, hp]
      rfl

/-- A time that is filled in where a row changed is filled in the same way in the part with the
tenant's rows, provided that rows stay with their tenant. -/
private theorem stampOwn {ρ : Type} [DecidableEq ρ] {p : ρ → Bool} {before after : Option ρ}
    (hkept : ∀ row, before = some row → ∃ row', after = some row' ∧ p row' = p row)
    (old now : ℤ) :
    (if after.any p then (if after = before then old else now) else 0)
      = if after.filter p = before.filter p then (if before.any p then old else 0) else now := by
  cases before with
  | none =>
    cases after with
    | none => rfl
    | some row => cases hp : p row <;> simp [Option.filter_some, hp]
  | some row =>
    obtain ⟨row', rfl, hsame⟩ := hkept row rfl
    cases hp : p row with
    | true => simp [Option.filter_some, hp, hsame]
    | false => simp [Option.filter_some, hp, hsame]

theorem WikiDatabase.stamp_ofTenant_of_eq (h : W'.ofTenant other = db.wiki.ofTenant other) :
    (db.stamp now W').ofTenant other = db.ofTenant other := by
  have hpages := funext fun i ↦ stampOther (WikiStore.find_filter_of_ofTenant_eq h i)
    (db.updatedAt i) now
  have hclaims := funext fun i ↦ stampOther (WikiStore.find_claim_filter_of_ofTenant_eq h i)
    (db.claimedAt i) now
  unfold WikiDatabase.ofTenant
  rw [WikiDatabase.mk.injEq]
  exact ⟨h, hpages, hclaims, rfl⟩

/-- The times of a tenant's rows are filled in as if there were no other rows. -/
theorem WikiDatabase.stamp_ofTenant (hk : db.wiki.Keeps W') :
    (db.stamp now W').ofTenant tenantId
      = (db.ofTenant tenantId).stamp now (W'.ofTenant tenantId) := by
  have hpages : ∀ i, (if W'.owns tenantId i then
      (if W'.pages.find i = db.wiki.pages.find i then db.updatedAt i else now) else 0)
        = if (W'.ofTenant tenantId).pages.find i = (db.wiki.ofTenant tenantId).pages.find i then
          (if db.wiki.owns tenantId i then db.updatedAt i else 0) else now := by
    intro i
    rw [WikiStore.ofTenant, WikiStore.ofTenant, Table.find_keep, Table.find_keep]
    refine stampOwn (fun page hpage ↦ ?_) _ _
    obtain ⟨page', hpage', ht⟩ := hk.pages _ i ⟨page, hpage, rfl⟩
    exact ⟨page', hpage', by rw [ht]⟩
  have hclaims : ∀ i, (if W'.ownsClaim tenantId i then
      (if W'.claims.find i = db.wiki.claims.find i then db.claimedAt i else now) else 0)
        = if (W'.ofTenant tenantId).claims.find i = (db.wiki.ofTenant tenantId).claims.find i then
          (if db.wiki.ownsClaim tenantId i then db.claimedAt i else 0) else now := by
    intro i
    rw [WikiStore.ofTenant, WikiStore.ofTenant, Table.find_keep, Table.find_keep]
    refine stampOwn (fun claim hclaim ↦ ?_) _ _
    obtain ⟨claim', hclaim', ht⟩ := hk.claims _ i ⟨claim, hclaim, rfl⟩
    exact ⟨claim', hclaim', by rw [ht]⟩
  unfold WikiDatabase.ofTenant WikiDatabase.stamp
  rw [WikiDatabase.mk.injEq]
  exact ⟨rfl, funext hpages, funext hclaims, rfl⟩

/-- **An operation does nothing to the rows of another tenant.** -/
theorem DatabaseEffect.ofTenant_of_ne (hdb : db.Intact) (hne : other ≠ tenantId)
    (h : DatabaseEffect tenantId db now db') : db'.ofTenant other = db.ofTenant other := by
  cases h with
  | wiki h => exact WikiDatabase.stamp_ofTenant_of_eq (h.ofTenant_of_ne hdb.wiki hne)
  | @validated _ pageId revisionId new h =>
    have hkeep : db'.validationResults.keep (fun result ↦ result.tenantId == other)
        = db.validationResults.keep fun result ↦ result.tenantId == other := by
      refine Table.eq_of_rows ?_
      have hnil : new.filter (fun result ↦ result.tenantId == other) = [] := by
        rw [List.filter_eq_nil_iff]
        intro result hresult
        rw [(h.own result hresult).1, beq_eq_false_iff_ne.mpr hne.symm]
        exact Bool.false_ne_true
      rw [Table.rows_keep, Table.rows_keep, h.rows, List.filter_append, hnil, List.append_nil,
        WikiDatabase.dropResults, Table.rows_keep, List.filter_filter]
      refine List.filter_congr fun result _ ↦ ?_
      by_cases hr : result.tenantId = other
      · rw [WikiDatabase.isListed, hr, beq_eq_false_iff_ne.mpr hne, Bool.false_and,
          Bool.false_and, Bool.not_false, Bool.and_true]
      · rw [beq_eq_false_iff_ne.mpr hr, Bool.false_and]
    rw [h.store]
    unfold WikiDatabase.ofTenant
    exact congrArg (fun results ↦ { db.ofTenant other with validationResults := results }) hkeep
  | unchanged => rfl

end Databases

/-! ## Rows in the order of their ids -/

/-- The rows of every table of the wiki are in the order of their ids, and the next id is free. -/
structure WikiStore.Numbered (n : ℕ) (w : WikiStore) : Prop where
  pages : w.pages.Numbered n
  revisions : w.revisions.Numbered n
  links : w.links.Numbered n
  claims : w.claims.Numbered n
  claimSources : w.claimSources.Numbered n
  compileJobs : w.compileJobs.Numbered n

structure WikiDatabase.Numbered (n : ℕ) (db : WikiDatabase) : Prop where
  wiki : db.wiki.Numbered n
  validationResults : db.validationResults.Numbered n

theorem WikiStore.Numbered.mono : IdMonotone WikiStore.Numbered := fun _ _ _ hle h ↦
  ⟨h.pages.mono hle, h.revisions.mono hle, h.links.mono hle, h.claims.mono hle,
    h.claimSources.mono hle, h.compileJobs.mono hle⟩

theorem WikiDatabase.Numbered.mono : IdMonotone WikiDatabase.Numbered := fun _ _ _ hle h ↦
  ⟨WikiStore.Numbered.mono _ _ _ hle h.wiki, h.validationResults.mono hle⟩

theorem WikiDatabase.Numbered.empty (n : ℕ) : WikiDatabase.empty.Numbered n :=
  ⟨⟨.empty n, .empty n, .empty n, .empty n, .empty n, .empty n⟩, .empty n⟩

namespace WikiDatabase

variable {tenantId : String} {db db' : WikiDatabase} {n m : ℕ}

private theorem mem_keep_of_eq {ρ ι κ : Type} [Row ρ ι κ] {t t' : Table ρ} {p p' : ρ → Bool}
    (h : t.keep p = t'.keep p') (r : ρ) : r ∈ t.rows ∧ p r = true ↔ r ∈ t'.rows ∧ p' r = true := by
  rw [← List.mem_filter, ← List.mem_filter, ← Table.rows_keep, ← Table.rows_keep, h]

private theorem keep_eq_of_mem_iff {ρ κ : Type} [Row ρ ℕ κ] {t t' : Table ρ} {p p' : ρ → Bool}
    (hn : t.Numbered n) (hm : t'.Numbered m)
    (h : ∀ r, r ∈ t.rows ∧ p r = true ↔ r ∈ t'.rows ∧ p' r = true) : t.keep p = t'.keep p' := by
  refine (hn.keep p).eq_of_mem_iff (hm.keep p') fun r ↦ ?_
  rw [Table.rows_keep, Table.rows_keep, List.mem_filter, List.mem_filter]
  exact h r

/-- Databases with the same part of a tenant have the same rows of the tenant. -/
theorem sameTenant_of_ofTenant_eq (h : db.ofTenant tenantId = db'.ofTenant tenantId) :
    SameTenant tenantId db db' := by
  have hwiki : db.wiki.ofTenant tenantId = db'.wiki.ofTenant tenantId := congrArg wiki h
  have hpages := mem_keep_of_eq (congrArg WikiStore.pages hwiki)
  have hclaims := mem_keep_of_eq (congrArg WikiStore.claims hwiki)
  constructor
  · intro page ht
    simpa [ht] using hpages page
  · intro page hpage ht
    have hpage' := ((hpages page).mp ⟨hpage, beq_iff_eq.mpr ht⟩).1
    have howned : db.wiki.OwnedBy tenantId page.id := ⟨page, Table.find_primary hpage, ht⟩
    have howned' : db'.wiki.OwnedBy tenantId page.id := ⟨page, Table.find_primary hpage', ht⟩
    rw [← updatedAt_ofTenant howned, h, updatedAt_ofTenant howned']
  · intro revision
    rw [← WikiStore.owns_iff, ← WikiStore.owns_iff]
    exact mem_keep_of_eq (congrArg WikiStore.revisions hwiki) revision
  · intro link ht
    simpa [ht] using mem_keep_of_eq (congrArg WikiStore.links hwiki) link
  · intro claim ht
    simpa [ht] using hclaims claim
  · intro claim hclaim ht
    have hclaim' := ((hclaims claim).mp ⟨hclaim, beq_iff_eq.mpr ht⟩).1
    have howned : db.wiki.ClaimOf tenantId claim.id := ⟨claim, Table.find_primary hclaim, ht⟩
    have howned' : db'.wiki.ClaimOf tenantId claim.id := ⟨claim, Table.find_primary hclaim', ht⟩
    rw [← claimedAt_ofTenant howned, h, claimedAt_ofTenant howned']
  · intro source
    rw [← WikiStore.ownsClaim_iff, ← WikiStore.ownsClaim_iff]
    exact mem_keep_of_eq (congrArg WikiStore.claimSources hwiki) source
  · intro job ht
    simpa [ht] using mem_keep_of_eq (congrArg WikiStore.compileJobs hwiki) job
  · intro result ht
    simpa [ht] using mem_keep_of_eq (congrArg validationResults h) result

namespace SameTenant

theorem owns_eq (h : SameTenant tenantId db db') (i : ℕ) :
    db.wiki.owns tenantId i = db'.wiki.owns tenantId i := by
  rw [Bool.eq_iff_iff, WikiStore.owns_iff, WikiStore.owns_iff]
  refine exists_congr fun page ↦ and_congr_left fun ht ↦ ?_
  rw [Table.find_eq_some, Table.find_eq_some, h.pages page ht]

theorem ownsClaim_eq (h : SameTenant tenantId db db') (i : ℕ) :
    db.wiki.ownsClaim tenantId i = db'.wiki.ownsClaim tenantId i := by
  rw [Bool.eq_iff_iff, WikiStore.ownsClaim_iff, WikiStore.ownsClaim_iff]
  refine exists_congr fun claim ↦ and_congr_left fun ht ↦ ?_
  rw [Table.find_eq_some, Table.find_eq_some, h.claims claim ht]

/-- **Two databases with the same rows of a tenant have the same part of the tenant.** -/
theorem ofTenant_eq (hn : db.Numbered n) (hm : db'.Numbered m)
    (h : SameTenant tenantId db db') : db.ofTenant tenantId = db'.ofTenant tenantId := by
  have hwiki : db.wiki.ofTenant tenantId = db'.wiki.ofTenant tenantId := by
    rw [WikiStore.ofTenant, WikiStore.ofTenant, WikiStore.mk.injEq]
    refine ⟨keep_eq_of_mem_iff hn.wiki.pages hm.wiki.pages fun page ↦ ?_,
      keep_eq_of_mem_iff hn.wiki.revisions hm.wiki.revisions fun revision ↦ ?_,
      keep_eq_of_mem_iff hn.wiki.links hm.wiki.links fun link ↦ ?_,
      keep_eq_of_mem_iff hn.wiki.claims hm.wiki.claims fun claim ↦ ?_,
      keep_eq_of_mem_iff hn.wiki.claimSources hm.wiki.claimSources fun source ↦ ?_,
      keep_eq_of_mem_iff hn.wiki.compileJobs hm.wiki.compileJobs fun job ↦ ?_⟩
    · exact and_congr_left fun ht ↦ h.pages page (beq_iff_eq.mp ht)
    · rw [WikiStore.owns_iff, WikiStore.owns_iff]
      exact h.revisions revision
    · exact and_congr_left fun ht ↦ h.links link (beq_iff_eq.mp ht)
    · exact and_congr_left fun ht ↦ h.claims claim (beq_iff_eq.mp ht)
    · rw [WikiStore.ownsClaim_iff, WikiStore.ownsClaim_iff]
      exact h.claimSources source
    · exact and_congr_left fun ht ↦ h.compileJobs job (beq_iff_eq.mp ht)
  -- A page outside the view has no time in it, so only the tenant's own matter.
  have hupdated : ∀ i, (if db.wiki.owns tenantId i then db.updatedAt i else 0)
      = if db'.wiki.owns tenantId i then db'.updatedAt i else 0 := by
    intro i
    rw [← h.owns_eq i]
    split
    · rename_i howns
      obtain ⟨page, hpage, ht⟩ := WikiStore.owns_iff.mp howns
      have hi := h.updatedAt page (Table.mem_of_find hpage) ht
      rwa [show page.id = i from Table.primary_of_find hpage] at hi
    · rfl
  have hclaimed : ∀ i, (if db.wiki.ownsClaim tenantId i then db.claimedAt i else 0)
      = if db'.wiki.ownsClaim tenantId i then db'.claimedAt i else 0 := by
    intro i
    rw [← h.ownsClaim_eq i]
    split
    · rename_i howns
      obtain ⟨claim, hclaim, ht⟩ := WikiStore.ownsClaim_iff.mp howns
      have hi := h.claimedAt claim (Table.mem_of_find hclaim) ht
      rwa [show claim.id = i from Table.primary_of_find hclaim] at hi
    · rfl
  rw [WikiDatabase.ofTenant, WikiDatabase.ofTenant, WikiDatabase.mk.injEq]
  exact ⟨hwiki, funext hupdated, funext hclaimed,
    keep_eq_of_mem_iff hn.validationResults hm.validationResults fun result ↦
      and_congr_left fun ht ↦ h.validationResults result (beq_iff_eq.mp ht)⟩

end SameTenant

end WikiDatabase

end KnowledgeAlakazam
