import KnowledgeAlakazam.Wiki.TenantView

/-!
# Tenants do not see each other

An operation that is called for a tenant reads rows of the tenant and writes rows of the tenant.
Most queries say so themselves, by their `tenant_id`; those for revisions and claim sources do
not, and answer for the tenant because the ids they are given come from its pages.

`tenant_noninterference` says it of two reachable databases that have the same rows of a tenant
and any rows of others: an operation for the tenant has the same outcome in both, leaves the same
rows of the tenant, and leaves the rows of the others as they were. The proof is about one
database: every operation is blind to what the view of its tenant leaves out
(`WikiOperation.blind_wiki`, `WikiOperation.blind_database`).
-/

namespace KnowledgeAlakazam

open Program

/-! ## Ids increase -/

section Numbers

variable {n : ℕ} {W : WikiStore}

private theorem numbered_next (hn : W.Numbered n) : W.Numbered (n + 1) :=
  WikiStore.Numbered.mono _ _ _ (Nat.le_succ n) hn

namespace WikiRepository

theorem preserves_createPage (tenantId slug title pageType status : String) :
    Preserves WikiStore.Numbered (createPage tenantId slug title pageType status) := by
  refine Preserves.freshId_statement WikiStore.Numbered.mono fun n W page W' hn h ↦ ?_
  split at h
  · rename_i pages hins
    obtain ⟨-, rfl⟩ := Prod.mk.inj (Except.ok.inj h)
    exact { numbered_next hn with pages := hn.pages.insert hins rfl }
  · cases h

theorem preserves_flushRevision (pageId revisionNo : ℕ) (c : RevisionContent)
    (found : Option WikiRevision) :
    Preserves WikiStore.Numbered (flushRevision pageId revisionNo c found) := by
  cases found with
  | none =>
    refine Preserves.freshId_statement WikiStore.Numbered.mono fun n W revision W' hn h ↦ ?_
    split at h
    · rename_i revisions hins
      obtain ⟨-, rfl⟩ := Prod.mk.inj (Except.ok.inj h)
      exact { numbered_next hn with revisions := hn.revisions.insert hins rfl }
    · cases h
  | some revision =>
    refine Preserves.statement fun n W _ W' hn h ↦ ?_
    obtain ⟨-, rfl⟩ := Prod.mk.inj (Except.ok.inj h)
    exact { hn with revisions := hn.revisions.modify _ _ }

theorem preserves_setCurrentRevision (pageId revisionId : ℕ) :
    Preserves WikiStore.Numbered (setCurrentRevision pageId revisionId) := by
  refine Preserves.statement fun n W _ W' hn h ↦ ?_
  split at h
  · obtain ⟨-, rfl⟩ := Prod.mk.inj (Except.ok.inj h)
    exact { hn with pages := hn.pages.modify _ _ }
  · cases h

theorem preserves_upsertPageRevision (pageId : ℕ) (c : RevisionContent) :
    Preserves WikiStore.Numbered (upsertPageRevision pageId c) :=
  (Preserves.query _).bind fun _ ↦ (Preserves.query _).bind fun _ ↦
    (preserves_flushRevision pageId _ c _).bind fun _ ↦
      (preserves_setCurrentRevision pageId _).bind fun _ ↦ .pure _

theorem preserves_createLink (tenantId : String) (pageId : ℕ) (toSlug : String) :
    Preserves WikiStore.Numbered (createLink tenantId pageId toSlug) := by
  refine Preserves.freshId_statement WikiStore.Numbered.mono fun n W link W' hn h ↦ ?_
  split at h
  · rename_i links hins
    obtain ⟨-, rfl⟩ := Prod.mk.inj (Except.ok.inj h)
    exact { numbered_next hn with links := hn.links.insert hins rfl }
  · cases h

private theorem preserves_dropLinks (tenantId : String) (pageId : ℕ) :
    Preserves WikiStore.Numbered (statement fun w ↦ .ok ((), w.dropLinks tenantId pageId) :
      WikiProgram Unit) := by
  refine Preserves.statement fun n W _ W' hn h ↦ ?_
  obtain ⟨-, rfl⟩ := Prod.mk.inj (Except.ok.inj h)
  exact { hn with links := hn.links.keep _ }

theorem preserves_replaceLinksForPage (tenantId : String) (pageId : ℕ) (toSlugs : List String) :
    Preserves WikiStore.Numbered (replaceLinksForPage tenantId pageId toSlugs) :=
  (preserves_dropLinks tenantId pageId).bind fun _ ↦
    Preserves.mapM' (preserves_createLink tenantId pageId) _

theorem preserves_createClaim (tenantId : String) (pageId revisionId : ℕ) (claimText : List Char)
    (supportStatus : String) (confidence : Option ℤ) :
    Preserves WikiStore.Numbered
      (createClaim tenantId pageId revisionId claimText supportStatus confidence) := by
  refine Preserves.freshId_statement WikiStore.Numbered.mono fun n W claim W' hn h ↦ ?_
  split at h
  · rename_i claims hins
    obtain ⟨-, rfl⟩ := Prod.mk.inj (Except.ok.inj h)
    exact { numbered_next hn with claims := hn.claims.insert hins rfl }
  · cases h

theorem preserves_attachClaimSource (claimId : ℕ) (input : ClaimSourceInput) :
    Preserves WikiStore.Numbered (attachClaimSource claimId input) := by
  refine Preserves.freshId_statement WikiStore.Numbered.mono fun n W source W' hn h ↦ ?_
  split at h
  · rename_i sources hins
    obtain ⟨-, rfl⟩ := Prod.mk.inj (Except.ok.inj h)
    exact { numbered_next hn with claimSources := hn.claimSources.insert hins rfl }
  · cases h

end WikiRepository

namespace WikiService

open WikiRepository

variable (unicode : UnicodeData)

theorem readOnly_requirePage (tenantId slug : String) :
    ReadOnly (requirePage tenantId slug) := by
  refine (ReadOnly.query _).bind fun found ↦ ?_
  cases found with
  | none => exact .raise _
  | some page => exact .pure _

theorem preserves_requirePage (tenantId slug : String) :
    Preserves WikiStore.Numbered (requirePage tenantId slug) :=
  Preserves.readOnly WikiStore.Numbered.mono (readOnly_requirePage tenantId slug)

private theorem preserves_assign_modify (pageId : ℕ) (patch : Patch WikiPage) :
    Preserves WikiStore.Numbered (assign fun w : WikiStore ↦
      { w with pages := w.pages.modify pageId patch } : WikiProgram Unit) :=
  Preserves.assign fun _ _ hn ↦ { hn with pages := hn.pages.modify _ _ }

theorem preserves_preparePage (update : PageUpdate) (slug : String) :
    Preserves WikiStore.Numbered (preparePage update slug) := by
  refine (Preserves.query _).bind fun found ↦ ?_
  cases found with
  | none => exact preserves_createPage _ _ _ _ _
  | some page => exact (preserves_assign_modify _ _).bind fun _ ↦ .pure _

theorem preserves_resolveRevision (page : WikiPage) (tenantId slug : String)
    (revisionNo : Option ℤ) :
    Preserves WikiStore.Numbered (resolveRevision page tenantId slug revisionNo) := by
  cases revisionNo with
  | none =>
    refine (Preserves.query _).bind fun found ↦ ?_
    cases found with
    | none => exact .raise _
    | some revision => exact .pure _
  | some no =>
    refine (Preserves.query _).bind fun revisions ↦ ?_
    split
    · exact .pure _
    · exact .raise _

end WikiService

theorem WikiOperation.preserves_wiki {unicode : UnicodeData} {postgres : PostgresData}
    {time : CallTime} (operation : WikiOperation) {x : WikiProgram WikiAnswer}
    (hx : operation.program unicode postgres time = .inl x) :
    Preserves WikiStore.Numbered x := by
  open WikiRepository WikiService in
  cases operation with
  | createOrUpdatePage update =>
    obtain rfl := Sum.inl.inj hx
    exact .map _ ((Preserves.ofExcept _).bind fun slug ↦ .transaction
      ((preserves_preparePage update slug).bind fun page ↦
        (preserves_upsertPageRevision page.id _).bind fun _ ↦
          (preserves_replaceLinksForPage _ page.id _).bind fun _ ↦ .pure _))
  | publishPage tenantId slug revisionNo =>
    obtain rfl := Sum.inl.inj hx
    exact .map _ ((Preserves.ofExcept _).bind fun slug ↦ .transaction
      ((preserves_requirePage tenantId slug).bind fun page ↦
        (preserves_resolveRevision page tenantId slug revisionNo).bind fun _ ↦
          (preserves_assign_modify _ _).bind fun _ ↦ .pure _))
  | getPage tenantId slug =>
    obtain rfl := Sum.inl.inj hx
    exact .map _ ((Preserves.ofExcept _).bind fun slug ↦
      (preserves_requirePage tenantId slug).bind fun _ ↦ (Preserves.query _).bind fun _ ↦ .pure _)
  | createRevision tenantId slug content =>
    obtain rfl := Sum.inl.inj hx
    exact .map _ ((Preserves.ofExcept _).bind fun slug ↦ .transaction
      ((preserves_requirePage tenantId slug).bind fun page ↦
        (preserves_upsertPageRevision page.id _).bind fun _ ↦
          (preserves_replaceLinksForPage _ page.id _).bind fun _ ↦ .pure _))
  | addClaimWithSources tenantId slug claimText sources supportStatus confidence =>
    obtain rfl := Sum.inl.inj hx
    refine .map _ ((Preserves.ofExcept _).bind fun slug ↦ .transaction
      ((preserves_requirePage tenantId slug).bind fun page ↦
        (Preserves.query _).bind fun found ↦ ?_))
    cases found with
    | none => exact .raise _
    | some revision =>
      exact (preserves_createClaim _ _ _ _ _ _).bind fun claim ↦
        (Preserves.mapM' (preserves_attachClaimSource claim.id) sources).bind fun _ ↦ .pure _
  | rebuildLinksFromMarkdown tenantId slug markdown =>
    obtain rfl := Sum.inl.inj hx
    exact .map _ ((Preserves.ofExcept _).bind fun slug ↦ .transaction
      ((preserves_requirePage tenantId slug).bind fun page ↦
        preserves_replaceLinksForPage _ page.id _))
  | getBacklinks tenantId slug =>
    obtain rfl := Sum.inl.inj hx
    exact .map _ ((Preserves.ofExcept _).bind fun _ ↦ .query _)
  | validatePage validators tenantId slug => cases hx
  | listPageResults tenantId slug => cases hx

/-- An operation draws new ids for its rows, also as a part of another program. -/
theorem preserves_of_operation {unicode : UnicodeData} {α : Type} {f : α → WikiAnswer}
    {x : WikiProgram α} (operation : WikiOperation)
    (hx : operation.program unicode asciiPostgres ⟨0, 0⟩ = .inl (f <$> x)) :
    Preserves WikiStore.Numbered x := by
  have hmap := operation.preserves_wiki hx
  intro s hc hw
  rw [← bind_pure_snd x f s]
  exact hmap s hc hw

end Numbers

/-! ## The operations of `WikiService` are blind -/

/-- Inside a unit of work the program is blind to the rows of other tenants. -/
abbrev BlindFor (tenantId : String) {α : Type} (x : WikiProgram α) (W : WikiStore) : Prop :=
  BlindTx (fun w ↦ w.ofTenant tenantId) WikiStore.Numbered x W

section Blindness

variable {tenantId : String} {W : WikiStore}

namespace WikiRepository

theorem blind_createPage {slug : String} (title pageType status : String) (hw : W.Intact)
    (hnone : W.pageBySlug tenantId slug = none) :
    BlindFor tenantId (createPage tenantId slug title pageType status) W := by
  refine BlindTx.freshId_statement fun n hn ↦ ?_
  have hins : W.pages.insert ⟨n, tenantId, slug, title, pageType, status, none⟩ = some _ :=
    Table.Free.insert ⟨hn.pages.find_eq_none, hnone⟩
  rw [hins, show (W.ofTenant tenantId).pages.insert _ = some _ from
    Table.insert_keep hins (beq_self_eq_true tenantId)]
  exact congrArg (fun w ↦ Except.ok (_, w)) (WikiStore.ofTenant_insertPage hw hins).symm

theorem blind_flushRevision {pageId : ℕ} (c : RevisionContent)
    (howned : W.OwnedBy tenantId pageId) :
    BlindFor tenantId (flushRevision pageId (W.nextRevisionNo pageId) c none) W := by
  refine BlindTx.freshId_statement fun n hn ↦ ?_
  have hins : W.revisions.insert (c.newRevision n pageId (W.nextRevisionNo pageId)) = some _ :=
    Table.Free.insert ⟨hn.revisions.find_eq_none, W.revisionByNo_nextRevisionNo pageId⟩
  rw [hins, show (W.ofTenant tenantId).revisions.insert _ = some _ from
    Table.insert_keep hins (WikiStore.owns_iff.mpr howned)]
  rfl

theorem blind_setCurrentRevision {pageId : ℕ} (revisionId : ℕ)
    (howned : W.OwnedBy tenantId pageId) :
    BlindFor tenantId (setCurrentRevision pageId revisionId) W := by
  refine BlindTx.statement ?_
  rw [WikiStore.find_page_ofTenant howned]
  obtain ⟨page, hpage, -⟩ := howned
  rw [hpage]
  exact congrArg (fun w ↦ Except.ok ((), w))
    (WikiStore.ofTenant_updatePage pageId (setCurrentPatch revisionId)).symm

theorem blind_upsertPageRevision {pageId : ℕ} (c : RevisionContent)
    (howned : W.OwnedBy tenantId pageId) :
    BlindFor tenantId (upsertPageRevision pageId c) W := by
  refine BlindTx.query_bind (WikiStore.nextRevisionNo_ofTenant howned) ?_
  refine BlindTx.query_bind (WikiStore.revisionByNo_ofTenant howned _) ?_
  rw [W.revisionByNo_nextRevisionNo pageId]
  refine (blind_flushRevision c howned).bind (inTx_flushRevision_none W pageId _ c)
    (preserves_flushRevision pageId _ c none) ?_
  rintro revision _ ⟨-, revisions, hins, rfl⟩
  refine (blind_setCurrentRevision (W := { W with revisions := revisions }) revision.id
    howned).bind (R := fun _ _ ↦ True)
    (InTx.statement fun _ _ _ ↦ trivial) (preserves_setCurrentRevision pageId revision.id)
    fun _ _ _ ↦ BlindTx.pure _

theorem blind_createLink (pageId : ℕ) (toSlug : String) :
    BlindFor tenantId (createLink tenantId pageId toSlug) W := by
  refine BlindTx.freshId_statement fun n hn ↦ ?_
  have hins : W.links.insert ⟨n, tenantId, pageId, toSlug, "wikilink"⟩ = some _ :=
    (hn.links.free_of_unique (fun _ ↦ rfl) rfl).insert
  rw [hins, show (W.ofTenant tenantId).links.insert _ = some _ from
    Table.insert_keep hins (beq_self_eq_true tenantId)]
  rfl

theorem blind_replaceLinksForPage (pageId : ℕ) (toSlugs : List String) :
    BlindFor tenantId (replaceLinksForPage tenantId pageId toSlugs) W := by
  refine BlindTx.bind (R := fun _ W' ↦ W.dropLinks tenantId pageId = W') (BlindTx.statement ?_)
    (InTx.statement fun _ _ h ↦ (Prod.mk.inj (Except.ok.inj h)).2)
    (preserves_dropLinks tenantId pageId) ?_
  · exact congrArg (fun w ↦ Except.ok ((), w)) (WikiStore.ofTenant_dropLinks tenantId pageId).symm
  · rintro - _ rfl
    exact BlindTx.mapM' (J := fun _ _ _ ↦ True) (d := [])
      (fun toSlug _ _ _ _ ↦ blind_createLink pageId toSlug)
      (fun _ _ _ _ _ ↦ (InTx.freshId (T := fun _ _ ↦ True) fun _ ↦ trivial).bind fun _ _ _ ↦
        InTx.statement fun _ _ _ ↦ trivial)
      (preserves_createLink tenantId pageId) trivial

theorem blind_createClaim (pageId revisionId : ℕ) (claimText : List Char) (supportStatus : String)
    (confidence : Option ℤ) (hw : W.Intact) :
    BlindFor tenantId
      (createClaim tenantId pageId revisionId claimText supportStatus confidence) W := by
  refine BlindTx.freshId_statement fun n hn ↦ ?_
  have hins : W.claims.insert
      ⟨n, tenantId, pageId, revisionId, claimText, supportStatus, confidence⟩ = some _ :=
    (hn.claims.free_of_unique (fun _ ↦ rfl) rfl).insert
  rw [hins, show (W.ofTenant tenantId).claims.insert _ = some _ from
    Table.insert_keep hins (beq_self_eq_true tenantId)]
  exact congrArg (fun w ↦ Except.ok (_, w)) (WikiStore.ofTenant_insertClaim hw hins).symm

theorem blind_attachClaimSource {claimId : ℕ} (input : ClaimSourceInput)
    (hclaim : W.ClaimOf tenantId claimId) :
    BlindFor tenantId (attachClaimSource claimId input) W := by
  refine BlindTx.freshId_statement fun n hn ↦ ?_
  rw [(hn.claimSources.free_of_unique (fun _ ↦ rfl) rfl).insert,
    show (W.ofTenant tenantId).claimSources.insert _ = some _ from
      Table.insert_keep (hn.claimSources.free_of_unique (fun _ ↦ rfl) rfl).insert
        (WikiStore.ownsClaim_iff.mpr hclaim)]
  rfl

end WikiRepository

namespace WikiService

open WikiRepository

theorem requirePage_blind (slug : String) (s : Session WikiStore PyException) :
    Blind (fun w ↦ w.ofTenant tenantId) (requirePage tenantId slug) s := by
  refine Blind.query_bind (WikiStore.pageBySlug_ofTenant slug) fun s' ↦ ?_
  cases s.working.pageBySlug tenantId slug with
  | none => exact Blind.raise _
  | some page => exact Blind.pure _

theorem blind_requirePage (slug : String) : BlindFor tenantId (requirePage tenantId slug) W :=
  fun _ s _ _ _ ↦ requirePage_blind slug s

theorem blind_preparePage {update : PageUpdate} (slug : String) (hw : W.Intact)
    (ht : update.tenantId = tenantId) : BlindFor tenantId (preparePage update slug) W := by
  subst ht
  refine BlindTx.query_bind (WikiStore.pageBySlug_ofTenant slug) ?_
  cases hpage : W.pageBySlug update.tenantId slug with
  | none => exact blind_createPage _ _ _ hw hpage
  | some page =>
    refine BlindTx.bind (R := fun _ _ ↦ True)
      (BlindTx.assign (WikiStore.ofTenant_updatePage _ _).symm) (InTx.assign trivial)
      (preserves_assign_modify _ _) fun _ _ _ ↦ BlindTx.pure _

theorem blind_resolveRevision {page : WikiPage} {slug : String} (hw : W.Intact)
    (hpage : W.pageBySlug tenantId slug = some page) (revisionNo : Option ℤ) :
    BlindFor tenantId (resolveRevision page tenantId slug revisionNo) W := by
  cases revisionNo with
  | none =>
    refine BlindTx.query_bind (WikiStore.currentRevision_ofTenant hw slug) ?_
    cases W.currentRevision tenantId slug with
    | none => exact BlindTx.raise _
    | some revision => exact BlindTx.pure _
  | some no =>
    refine BlindTx.query_bind
      (WikiStore.pageRevisions_ofTenant (WikiStore.ownedBy_of_pageBySlug hpage)) ?_
    split
    · exact BlindTx.pure _
    · exact BlindTx.raise _

end WikiService

variable {unicode : UnicodeData} {postgres : PostgresData} {time : CallTime}

/-- **Every operation of `WikiService` is blind to the rows of other tenants.** -/
theorem WikiOperation.blind_wiki (hw : W.Intact) (operation : WikiOperation)
    {x : WikiProgram WikiAnswer} (hx : operation.program unicode postgres time = .inl x) :
    BlindOut (fun w ↦ w.ofTenant operation.tenantId) WikiStore.Numbered x W := by
  open WikiRepository WikiService in
  cases operation with
  | createOrUpdatePage update =>
    obtain rfl := Sum.inl.inj hx
    refine .map _ (BlindOut.ofExcept_bind fun slug _ ↦ .transaction ?_)
    refine (blind_preparePage slug hw rfl).bind (inTx_preparePage W update slug)
      (preserves_preparePage update slug) fun page W₁ hprep ↦ ?_
    obtain ⟨-, howned⟩ := hprep.effects
    refine (blind_upsertPageRevision _ howned).bind (inTx_upsertPageRevision W₁ page.id _)
      (preserves_upsertPageRevision page.id _) fun revision W₂ _ ↦ ?_
    exact (blind_replaceLinksForPage page.id _).bind (inTx_replaceLinksForPage W₂ _ page.id _)
      (preserves_replaceLinksForPage _ page.id _) fun _ _ _ ↦ .pure _
  | publishPage tenantId slug revisionNo =>
    obtain rfl := Sum.inl.inj hx
    refine .map _ (BlindOut.ofExcept_bind fun slug _ ↦ .transaction ?_)
    refine (blind_requirePage slug).bind (inTx_requirePage W tenantId slug)
      (preserves_requirePage tenantId slug) ?_
    rintro page _ ⟨hpage, rfl⟩
    refine (blind_resolveRevision hw hpage revisionNo).bind
      (inTx_resolveRevision W hpage revisionNo) (preserves_resolveRevision page tenantId slug _) ?_
    rintro revision _ ⟨-, rfl⟩
    exact BlindTx.bind (R := fun _ _ ↦ True)
      (BlindTx.assign (WikiStore.ofTenant_updatePage _ _).symm) (InTx.assign trivial)
      (preserves_assign_modify _ _) fun _ _ _ ↦ .pure _
  | getPage tenantId slug =>
    obtain rfl := Sum.inl.inj hx
    refine .map _ (BlindOut.ofExcept_bind fun slug _ ↦ ?_)
    have hrequire : BlindOut (fun w ↦ w.ofTenant tenantId) WikiStore.Numbered
        (requirePage tenantId slug) W := fun s _ _ _ ↦ requirePage_blind slug s
    refine hrequire.bind ((readOnly_requirePage tenantId slug).outTx W)
      (preserves_requirePage tenantId slug) ?_
    rintro page _ rfl
    exact BlindOut.query_bind (WikiStore.currentRevision_ofTenant hw slug) (.pure _)
  | createRevision tenantId slug content =>
    obtain rfl := Sum.inl.inj hx
    refine .map _ (BlindOut.ofExcept_bind fun slug _ ↦ .transaction ?_)
    refine (blind_requirePage slug).bind (inTx_requirePage W tenantId slug)
      (preserves_requirePage tenantId slug) ?_
    rintro page _ ⟨hpage, rfl⟩
    refine (blind_upsertPageRevision _ (WikiStore.ownedBy_of_pageBySlug hpage)).bind
      (inTx_upsertPageRevision W page.id _) (preserves_upsertPageRevision page.id _)
      fun revision W₁ _ ↦ ?_
    exact (blind_replaceLinksForPage page.id _).bind (inTx_replaceLinksForPage W₁ _ page.id _)
      (preserves_replaceLinksForPage _ page.id _) fun _ _ _ ↦ .pure _
  | addClaimWithSources tenantId slug claimText sources supportStatus confidence =>
    obtain rfl := Sum.inl.inj hx
    refine .map _ (BlindOut.ofExcept_bind fun slug _ ↦ .transaction ?_)
    refine (blind_requirePage slug).bind (inTx_requirePage W tenantId slug)
      (preserves_requirePage tenantId slug) ?_
    rintro page _ ⟨hpage, rfl⟩
    refine BlindTx.query_bind (WikiStore.currentRevision_ofTenant hw slug) ?_
    cases W.currentRevision tenantId slug with
    | none => exact BlindTx.raise _
    | some revision =>
      refine (blind_createClaim page.id revision.id claimText supportStatus confidence hw).bind
        (inTx_createClaim W tenantId page.id revision.id claimText supportStatus confidence)
        (preserves_createClaim _ _ _ _ _ _) ?_
      rintro claim W₁ ⟨⟨htenant, -, -⟩, hins, -⟩
      have hclaim : W₁.ClaimOf tenantId claim.id :=
        ⟨claim, Table.find_insert_self hins, htenant⟩
      -- the claim is there in every round
      have hround : ∀ (input : ClaimSourceInput) (W₂ : WikiStore), W₂.ClaimOf tenantId claim.id →
          InTx (attachClaimSource claim.id input) W₂ fun _ W' ↦ W'.ClaimOf tenantId claim.id := by
        intro input W₂ hclaim₂
        refine (inTx_attachClaimSource W₂ claim.id input).mono ?_
        rintro source W' ⟨-, -, hstore⟩
        rw [hstore]
        exact hclaim₂
      refine BlindTx.bind (R := fun _ _ ↦ True) (BlindTx.mapM'
        (J := fun _ _ W' ↦ W'.ClaimOf tenantId claim.id) (d := [])
        (fun input _ _ _ h ↦ blind_attachClaimSource input h)
        (fun input _ _ W₂ h ↦ hround input W₂ h)
        (preserves_attachClaimSource claim.id) hclaim)
        ((InTx.mapM' (I := fun _ _ W' ↦ W'.ClaimOf tenantId claim.id)
          (fun input _ _ W₂ h ↦ hround input W₂ h) hclaim).mono fun _ _ _ ↦ trivial)
        (Preserves.mapM' (preserves_attachClaimSource claim.id) _) fun _ _ _ ↦ .pure _
  | rebuildLinksFromMarkdown tenantId slug markdown =>
    obtain rfl := Sum.inl.inj hx
    refine .map _ (BlindOut.ofExcept_bind fun slug _ ↦ .transaction ?_)
    refine (blind_requirePage slug).bind (inTx_requirePage W tenantId slug)
      (preserves_requirePage tenantId slug) ?_
    rintro page _ ⟨-, rfl⟩
    exact blind_replaceLinksForPage page.id _
  | getBacklinks tenantId slug =>
    obtain rfl := Sum.inl.inj hx
    exact .map _ (BlindOut.ofExcept_bind fun slug _ ↦
      .query (WikiStore.backlinks_ofTenant postgres slug))
  | validatePage validators tenantId slug => cases hx
  | listPageResults tenantId slug => cases hx

end Blindness

/-! ## The operations of `WikiValidationService` are blind -/

/-- The validators of the source. -/
inductive ValidatorClass where
  | brokenWikilinks
  | unsupportedClaims
  | stalePage (staleAfterDays clock : ℤ)
  | duplicateSlugTitle

def ValidatorClass.make (unicode : UnicodeData) (postgres : PostgresData) :
    ValidatorClass → WikiValidator
  | brokenWikilinks => brokenWikilinksValidator unicode postgres
  | unsupportedClaims => unsupportedClaimsValidator postgres
  | stalePage staleAfterDays clock => stalePageValidator staleAfterDays clock
  | duplicateSlugTitle => duplicateSlugTitleValidator unicode postgres

/-- If the operation is given validators, these are validators of the source. -/
def WikiOperation.UsesSourceValidators (unicode : UnicodeData) (postgres : PostgresData) :
    WikiOperation → Prop
  | validatePage (some validators) _ _ =>
    ∀ validator ∈ validators, ∃ c : ValidatorClass, validator = c.make unicode postgres
  | _ => True

section Validation

variable {unicode : UnicodeData} {postgres : PostgresData} {time : CallTime} {tenantId : String}
  {db : WikiDatabase}

/-! ### Queries -/

private theorem filter_filter_of_imp {ρ : Type} {p q : ρ → Bool} (h : ∀ r, q r = true → p r = true)
    (rows : List ρ) : (rows.filter p).filter q = rows.filter q := by
  rw [List.filter_filter]
  refine List.filter_congr fun r _ ↦ ?_
  cases hq : q r with
  | true => rw [h r hq, Bool.and_self]
  | false => rw [Bool.false_and]

theorem WikiStore.pagesBySlugs_ofTenant (w : WikiStore) (slugs : List String) :
    (w.ofTenant tenantId).pagesBySlugs postgres tenantId slugs
      = w.pagesBySlugs postgres tenantId slugs := by
  rw [pagesBySlugs, pagesBySlugs, ofTenant, Table.rows_keep,
    filter_filter_of_imp fun page h ↦ (Bool.and_eq_true_iff.mp h).1]

theorem WikiStore.pagesByTitle_ofTenant (w : WikiStore) (title : String) :
    (w.ofTenant tenantId).pagesByTitle unicode postgres tenantId title
      = w.pagesByTitle unicode postgres tenantId title := by
  rw [pagesByTitle, pagesByTitle, ofTenant, Table.rows_keep,
    filter_filter_of_imp fun page h ↦ (Bool.and_eq_true_iff.mp h).1]

namespace WikiDatabase

theorem claimsForRevision_ofTenant (pageId revisionId : ℕ) :
    (db.ofTenant tenantId).claimsForRevision postgres tenantId pageId revisionId
      = db.claimsForRevision postgres tenantId pageId revisionId := by
  have hrows : (db.ofTenant tenantId).wiki.claims.rows.filter (fun claim ↦
      claim.tenantId == tenantId && claim.pageId == pageId && claim.revisionId == revisionId)
      = db.wiki.claims.rows.filter fun claim ↦
        claim.tenantId == tenantId && claim.pageId == pageId && claim.revisionId == revisionId := by
    refine filter_filter_of_imp (fun claim h ↦ ?_) _
    exact (Bool.and_eq_true_iff.mp (Bool.and_eq_true_iff.mp h).1).1
  -- the order is by times, and these are the same for claims of the tenant
  have htime : ∀ claim ∈ db.wiki.claims.rows.filter (fun claim ↦
      claim.tenantId == tenantId && claim.pageId == pageId && claim.revisionId == revisionId),
      (db.ofTenant tenantId).claimedAt claim.id = db.claimedAt claim.id := by
    intro claim hclaim
    obtain ⟨hrow, h⟩ := List.mem_filter.mp hclaim
    refine claimedAt_ofTenant ⟨claim, Table.find_primary hrow, ?_⟩
    exact beq_iff_eq.mp (Bool.and_eq_true_iff.mp (Bool.and_eq_true_iff.mp h).1).1
  rw [claimsForRevision, claimsForRevision, hrows]
  refine (List.map_id _).symm.trans ((List.map_insertionSort _ _ id _ fun a ha b hb ↦ ?_).trans
    (by rw [List.map_id]))
  rw [htime a ha, htime b hb, id, id]

theorem resultsFor_ofTenant (pageId : ℕ) (revisionId : Option ℕ) :
    (db.ofTenant tenantId).resultsFor postgres tenantId pageId revisionId
      = db.resultsFor postgres tenantId pageId revisionId := by
  rw [resultsFor, resultsFor, ofTenant, Table.rows_keep, filter_filter_of_imp fun result h ↦ ?_]
  exact (Bool.and_eq_true_iff.mp (Bool.and_eq_true_iff.mp h).1).1

theorem dropResults_ofTenant (pageId revisionId : ℕ) :
    (db.dropResults tenantId pageId revisionId).ofTenant tenantId
      = (db.ofTenant tenantId).dropResults tenantId pageId revisionId := by
  rw [dropResults, dropResults, ofTenant, ofTenant, Table.keep_keep]

end WikiDatabase

/-! ### Validators -/

/-- In a unit of work the program is blind to the rows of other tenants, the findings included. -/
abbrev DatabaseBlindFor (tenantId : String) {α : Type} (x : DatabaseProgram α)
    (db : WikiDatabase) : Prop :=
  BlindTx (fun db ↦ db.ofTenant tenantId) WikiDatabase.Numbered x db

theorem WikiRepository.blind_listPagesBySlugs (slugs : List String) :
    DatabaseBlindFor tenantId (listPagesBySlugs postgres tenantId slugs) db := by
  unfold listPagesBySlugs
  split
  · exact .pure _
  · exact .query (WikiStore.pagesBySlugs_ofTenant db.wiki slugs)

theorem WikiRepository.preserves_listPagesBySlugs (slugs : List String) :
    Preserves WikiDatabase.Numbered (listPagesBySlugs postgres tenantId slugs) :=
  .readOnly WikiDatabase.Numbered.mono (readOnly_listPagesBySlugs postgres tenantId slugs)

/-- **A validator of the source asks for rows of the tenant of its context.** -/
theorem ValidatorClass.blind (c : ValidatorClass) {context : ValidationContext}
    (ht : context.tenantId = tenantId) :
    DatabaseBlindFor tenantId ((c.make unicode postgres).validate context) db := by
  open WikiRepository in
  subst ht
  cases c with
  | brokenWikilinks =>
    unfold make brokenWikilinksValidator
    dsimp only
    split
    · exact .pure _
    · split
      · exact .pure _
      · exact (blind_listPagesBySlugs _).bind ((readOnly_listPagesBySlugs postgres _ _).inTx db)
          (preserves_listPagesBySlugs _) fun _ _ _ ↦ .pure _
  | unsupportedClaims =>
    exact BlindTx.query_bind (db.claimsForRevision_ofTenant _ _) (.pure _)
  | stalePage staleAfterDays clock =>
    unfold make stalePageValidator
    dsimp only
    split <;> exact .pure _
  | duplicateSlugTitle =>
    refine (blind_listPagesBySlugs _).bind ((readOnly_listPagesBySlugs postgres _ _).inTx db)
      (preserves_listPagesBySlugs _) ?_
    rintro slugMatches _ rfl
    exact BlindTx.query_bind (db.wiki.pagesByTitle_ofTenant _) (.pure _)

namespace WikiValidationService

open WikiRepository

theorem preserves_runValidators (validators : List WikiValidator) (context : ValidationContext) :
    Preserves WikiDatabase.Numbered (runValidators validators context) :=
  .readOnly WikiDatabase.Numbered.mono (readOnly_runValidators validators context)

theorem blind_runValidators {validators : List WikiValidator} {context : ValidationContext}
    (ht : context.tenantId = tenantId)
    (hv : ∀ validator ∈ validators, ∃ c : ValidatorClass, validator = c.make unicode postgres) :
    DatabaseBlindFor tenantId (runValidators validators context) db := by
  refine BlindTx.bind (R := fun _ _ ↦ True) (BlindTx.mapM'
    (J := fun rest _ db' ↦ db = db' ∧ ∀ validator ∈ rest, validator ∈ validators) (d := [])
    ?_ ?_ (fun validator ↦ .readOnly WikiDatabase.Numbered.mono (validator.reads context))
    ⟨rfl, fun _ h ↦ h⟩)
    (((ReadOnly.mapM' (fun validator ↦ validator.reads context) validators).inTx db).mono
      fun _ _ _ ↦ trivial)
    (Preserves.mapM' (fun validator ↦
      .readOnly WikiDatabase.Numbered.mono (validator.reads context)) validators)
    fun _ _ _ ↦ .pure _
  · rintro validator rest done _ ⟨rfl, hrest⟩
    obtain ⟨c, rfl⟩ := hv validator (hrest validator List.mem_cons_self)
    exact c.blind ht
  · rintro validator rest done _ ⟨rfl, hrest⟩
    exact ((validator.reads context).inTx db).mono fun _ _ heq ↦
      ⟨heq, fun v hmem ↦ hrest v (List.mem_cons_of_mem _ hmem)⟩

theorem source_of_mem_validatorsOr (given : Option (List WikiValidator)) (clock : ℤ)
    (h : ∀ validators, given = some validators → ∀ validator ∈ validators,
      ∃ c : ValidatorClass, validator = c.make unicode postgres) :
    ∀ validator ∈ validatorsOr unicode postgres given clock,
      ∃ c : ValidatorClass, validator = c.make unicode postgres := by
  have hdefault : ∀ validator ∈ defaultValidators unicode postgres clock,
      ∃ c : ValidatorClass, validator = c.make unicode postgres := by
    intro validator hmem
    simp only [defaultValidators, List.mem_cons, List.not_mem_nil, or_false] at hmem
    rcases hmem with rfl | rfl | rfl | rfl
    · exact ⟨.brokenWikilinks, rfl⟩
    · exact ⟨.unsupportedClaims, rfl⟩
    · exact ⟨.stalePage 90 clock, rfl⟩
    · exact ⟨.duplicateSlugTitle, rfl⟩
  rcases given with _ | _ | ⟨validator, validators⟩
  · exact hdefault
  · exact hdefault
  · exact h _ rfl

end WikiValidationService

/-! ### Findings -/

/-- The rows of issues, with ids in turn. -/
def resultRows (tenantId : String) (pageId revisionId : ℕ) (now : ℤ) :
    List WikiValidationResultInput → ℕ → List WikiValidationResult
  | [], _ => []
  | input :: inputs, n =>
    input.row tenantId pageId revisionId now n
      :: resultRows tenantId pageId revisionId now inputs (n + 1)

section Findings

variable {pageId revisionId : ℕ} {now : ℤ}

theorem length_resultRows (inputs : List WikiValidationResultInput) (n : ℕ) :
    (resultRows tenantId pageId revisionId now inputs n).length = inputs.length := by
  induction inputs generalizing n with
  | nil => rfl
  | cons input inputs ih => rw [resultRows, List.length_cons, ih, List.length_cons]

theorem ids_resultRows (tenantId : String) (pageId revisionId : ℕ) (now : ℤ)
    (inputs : List WikiValidationResultInput) (n : ℕ) :
    (resultRows tenantId pageId revisionId now inputs n).map Row.primary
      = List.range' n (resultRows tenantId pageId revisionId now inputs n).length := by
  induction inputs generalizing n with
  | nil => rfl
  | cons input inputs ih =>
    rw [resultRows, List.map_cons, ih, List.length_cons, List.range'_succ]
    rfl

theorem tenantId_resultRows (inputs : List WikiValidationResultInput) (n : ℕ) :
    ∀ row ∈ resultRows tenantId pageId revisionId now inputs n, row.tenantId = tenantId := by
  induction inputs generalizing n with
  | nil => exact fun _ h ↦ absurd h (by simp [resultRows])
  | cons input inputs ih =>
    intro row hrow
    rcases List.mem_cons.mp hrow with rfl | hrow
    · rfl
    · exact ih (n + 1) row hrow

namespace WikiRepository

theorem newResults_eq (inputs : List WikiValidationResultInput)
    (s : Session WikiDatabase PyException) :
    inputs.mapM' (newResult tenantId pageId revisionId now) s
      = (.ok (resultRows tenantId pageId revisionId now inputs s.nextId),
        { s with nextId := s.nextId + inputs.length }) := by
  induction inputs generalizing s with
  | nil =>
    rw [List.mapM'_nil]
    rfl
  | cons input inputs ih =>
    have hfirst : newResult tenantId pageId revisionId now input s
        = (.ok (input.row tenantId pageId revisionId now s.nextId),
          { s with nextId := s.nextId + 1 }) := rfl
    have hnext : s.nextId + 1 + inputs.length = s.nextId + (inputs.length + 1) := by omega
    rw [List.mapM'_cons, bind_ok hfirst, bind_ok (ih _), List.length_cons, ← hnext]
    rfl

/-- What `insertResults` does with rows that have the next ids. -/
theorem insertResults_flush (tenantId : String) (pageId revisionId : ℕ) (now : ℤ) {n : ℕ}
    (hn : db.Numbered n) (inputs : List WikiValidationResultInput) :
    ∃ results, results.Numbered (n + inputs.length) ∧
      db.validationResults.insertAll (resultRows tenantId pageId revisionId now inputs n)
        = some results ∧
      (db.ofTenant tenantId).validationResults.insertAll
        (resultRows tenantId pageId revisionId now inputs n)
          = some (results.keep fun result ↦ result.tenantId == tenantId) := by
  obtain ⟨results, hins, hresults⟩ := Table.Numbered.exists_insertAll (fun _ ↦ rfl)
    hn.validationResults (ids_resultRows tenantId pageId revisionId now inputs n)
  rw [length_resultRows] at hresults
  exact ⟨results, hresults, hins, Table.insertAll_keep hins fun row hrow ↦
    beq_iff_eq.mpr (tenantId_resultRows inputs n row hrow)⟩

private theorem insertResults_cons (input : WikiValidationResultInput)
    (inputs : List WikiValidationResultInput) (n : ℕ) :
    insertResults (resultRows tenantId pageId revisionId now (input :: inputs) n)
      = statement fun db ↦ match db.validationResults.insertAll
          (resultRows tenantId pageId revisionId now (input :: inputs) n) with
        | some results => .ok ((), { db with validationResults := results })
        | none => .error (integrityError "wiki_validation_result_pkey") := rfl

theorem insertResults_numbered (tenantId : String) (pageId revisionId : ℕ) (now : ℤ)
    {s : Session WikiDatabase PyException} {n : ℕ} (inputs : List WikiValidationResultInput)
    (hc : s.committed.Numbered s.nextId) (hw : s.working.Numbered n)
    (hle : n + inputs.length = s.nextId) :
    let s' := (insertResults (resultRows tenantId pageId revisionId now inputs n) s).2
    s.nextId ≤ s'.nextId ∧ s'.committed.Numbered s'.nextId ∧ s'.working.Numbered s'.nextId := by
  have hsame : s.working.Numbered s.nextId :=
    WikiDatabase.Numbered.mono _ _ _ (hle ▸ Nat.le_add_right n _) hw
  cases inputs with
  | nil => exact ⟨Nat.le_refl _, hc, hsame⟩
  | cons input inputs =>
    obtain ⟨results, hresults, hins, -⟩ :=
      insertResults_flush tenantId pageId revisionId now hw (input :: inputs)
    rw [insertResults_cons]
    unfold statement
    dsimp only
    split
    · exact ⟨Nat.le_refl _, hc, hsame⟩
    · split
      · rename_i hf
        rw [show s.autobegin.working = s.working from rfl, hins] at hf
        obtain ⟨-, rfl⟩ := Prod.mk.inj (Except.ok.inj hf)
        exact ⟨Nat.le_refl _, hc, hsame.wiki, hle ▸ hresults⟩
      · exact ⟨Nat.le_refl _, hc, hsame⟩

theorem blind_insertResults {s : Session WikiDatabase PyException} {n : ℕ}
    (inputs : List WikiValidationResultInput) (hw : s.working.Numbered n) :
    Blind (fun db ↦ db.ofTenant tenantId)
      (insertResults (resultRows tenantId pageId revisionId now inputs n)) s := by
  cases inputs with
  | nil => exact .pure ()
  | cons input inputs =>
    obtain ⟨results, -, hins, hview⟩ :=
      insertResults_flush tenantId pageId revisionId now hw (input :: inputs)
    rw [insertResults_cons]
    refine Blind.statement ?_
    rw [hins, hview]
    rfl

private theorem preserves_dropResults :
    Preserves WikiDatabase.Numbered (statement fun db ↦
      .ok ((), db.dropResults tenantId pageId revisionId) : DatabaseProgram Unit) := by
  refine Preserves.statement fun n W _ W' hn h ↦ ?_
  obtain ⟨-, rfl⟩ := Prod.mk.inj (Except.ok.inj h)
  exact { hn with validationResults := hn.validationResults.keep _ }

theorem preserves_replaceValidationResults (inputs : List WikiValidationResultInput) :
    Preserves WikiDatabase.Numbered
      (replaceValidationResults tenantId pageId revisionId now inputs) := by
  refine preserves_dropResults.bind fun _ ↦ ?_
  intro s hc hw
  have hle : s.nextId ≤ s.nextId + inputs.length := Nat.le_add_right _ _
  rw [bind_ok (newResults_eq inputs s), bind_pure_snd]
  obtain ⟨hnext, hrest⟩ := insertResults_numbered tenantId pageId revisionId now
    (s := { s with nextId := s.nextId + inputs.length }) inputs
    (WikiDatabase.Numbered.mono _ _ _ hle hc) hw rfl
  exact ⟨hle.trans hnext, hrest⟩

theorem blind_replaceValidationResults (inputs : List WikiValidationResultInput) :
    DatabaseBlindFor tenantId
      (replaceValidationResults tenantId pageId revisionId now inputs) db := by
  refine BlindTx.bind (R := fun _ db' ↦ db.dropResults tenantId pageId revisionId = db')
    (BlindTx.statement ?_) (InTx.statement fun _ _ h ↦ (Prod.mk.inj (Except.ok.inj h)).2)
    preserves_dropResults ?_
  · exact congrArg (fun db ↦ Except.ok ((), db)) (db.dropResults_ofTenant pageId revisionId).symm
  · rintro - _ rfl
    intro S s hs hc hw
    have hdraw : Blind (fun db ↦ db.ofTenant tenantId)
        (inputs.mapM' (newResult tenantId pageId revisionId now)) s := by
      unfold Blind
      rw [newResults_eq, newResults_eq]
      rfl
    refine hdraw.bind fun rows s' hrun ↦ ?_
    rw [newResults_eq] at hrun
    obtain ⟨hrows, rfl⟩ := Prod.mk.inj hrun
    obtain rfl := Except.ok.inj hrows
    exact Blind.bind (blind_insertResults (s := { s with nextId := s.nextId + inputs.length })
      inputs hw) fun _ _ _ ↦ .pure _

end WikiRepository

end Findings

/-! ### Operations -/

namespace WikiValidationService

open WikiRepository

theorem requirePage_blind (slug : String) (s : Session WikiDatabase PyException) :
    Blind (fun db ↦ db.ofTenant tenantId) (requirePage tenantId slug) s := by
  have hfound : ((s.working.ofTenant tenantId).wiki.pageBySlug tenantId slug).map
      (fun page ↦ (page, (s.working.ofTenant tenantId).updatedAt page.id))
      = (s.working.wiki.pageBySlug tenantId slug).map
        fun page ↦ (page, s.working.updatedAt page.id) := by
    rw [show (s.working.ofTenant tenantId).wiki.pageBySlug tenantId slug
      = s.working.wiki.pageBySlug tenantId slug from WikiStore.pageBySlug_ofTenant slug]
    cases hpage : s.working.wiki.pageBySlug tenantId slug with
    | none => rfl
    | some page =>
      rw [Option.map_some, Option.map_some,
        WikiDatabase.updatedAt_ofTenant (WikiStore.ownedBy_of_pageBySlug hpage)]
  refine Blind.query_bind hfound fun s' ↦ ?_
  cases (s.working.wiki.pageBySlug tenantId slug).map fun page ↦
    (page, s.working.updatedAt page.id) with
  | none => exact Blind.raise _
  | some found => exact Blind.pure _

theorem requireCurrentRevision_blind (slug : String) (s : Session WikiDatabase PyException)
    (hw : s.working.wiki.Intact) :
    Blind (fun db ↦ db.ofTenant tenantId) (requireCurrentRevision tenantId slug) s := by
  refine Blind.query_bind (WikiStore.currentRevision_ofTenant hw slug) fun s' ↦ ?_
  cases s.working.wiki.currentRevision tenantId slug with
  | none => exact Blind.raise _
  | some revision => exact Blind.pure _

end WikiValidationService

open WikiRepository WikiValidationService in
theorem WikiOperation.preserves_database (operation : WikiOperation)
    {x : DatabaseProgram WikiAnswer}
    (hx : operation.program unicode postgres time = .inr x) :
    Preserves WikiDatabase.Numbered x := by
  have hread := fun {α : Type} {x : DatabaseProgram α} (h : x.ReadOnly) ↦
    Preserves.readOnly WikiDatabase.Numbered.mono h
  cases operation with
  | validatePage validators tenantId slug =>
    obtain rfl := Sum.inr.inj hx
    exact .map _ ((Preserves.ofExcept _).bind fun slug ↦ .transaction
      ((hread (readOnly_requirePage tenantId slug)).bind fun found ↦
        (hread (readOnly_requireCurrentRevision tenantId slug)).bind fun revision ↦
          (preserves_runValidators _ _).bind fun issues ↦
            (preserves_replaceValidationResults _).bind fun _ ↦ .pure _))
  | listPageResults tenantId slug =>
    obtain rfl := Sum.inr.inj hx
    exact .map _ ((Preserves.ofExcept _).bind fun slug ↦
      (hread (readOnly_requirePage tenantId slug)).bind fun found ↦
        (hread (readOnly_requireCurrentRevision tenantId slug)).bind fun revision ↦
          (Preserves.query _).bind fun _ ↦ .pure _)
  | createOrUpdatePage update => cases hx
  | publishPage tenantId slug revisionNo => cases hx
  | getPage tenantId slug => cases hx
  | createRevision tenantId slug content => cases hx
  | addClaimWithSources tenantId slug claimText sources supportStatus confidence => cases hx
  | rebuildLinksFromMarkdown tenantId slug markdown => cases hx
  | getBacklinks tenantId slug => cases hx

open WikiRepository WikiValidationService in
/-- **Every operation of `WikiValidationService` is blind to the rows of other tenants.** -/
theorem WikiOperation.blind_database (hdb : db.Intact) (operation : WikiOperation)
    (hsource : operation.UsesSourceValidators unicode postgres) {x : DatabaseProgram WikiAnswer}
    (hx : operation.program unicode postgres time = .inr x) :
    BlindOut (fun db ↦ db.ofTenant operation.tenantId) WikiDatabase.Numbered x db := by
  have hread := fun {α : Type} {x : DatabaseProgram α} (h : x.ReadOnly) ↦
    Preserves.readOnly WikiDatabase.Numbered.mono h
  cases operation with
  | validatePage validators tenantId slug =>
    obtain rfl := Sum.inr.inj hx
    refine .map _ (BlindOut.ofExcept_bind fun slug _ ↦ .transaction ?_)
    refine BlindTx.bind (fun _ s _ _ _ ↦ requirePage_blind slug s)
      (inTx_requirePage db tenantId slug) (hread (readOnly_requirePage tenantId slug)) ?_
    rintro ⟨page, updatedAt⟩ _ ⟨-, rfl⟩
    refine BlindTx.bind (fun _ s hs _ _ ↦
      requireCurrentRevision_blind slug s (hs.working ▸ hdb.wiki))
      (inTx_requireCurrentRevision db tenantId slug)
      (hread (readOnly_requireCurrentRevision tenantId slug)) ?_
    rintro revision _ ⟨-, rfl⟩
    -- Every validator that runs is one of the source, given or by default.
    have hvalidators : ∀ validator ∈ validatorsOr unicode postgres validators time.clock,
        ∃ c : ValidatorClass, validator = c.make unicode postgres := by
      refine source_of_mem_validatorsOr validators time.clock fun given hgiven ↦ ?_
      rw [hgiven] at hsource
      exact hsource
    refine BlindTx.bind (blind_runValidators rfl hvalidators)
      ((readOnly_runValidators _ _).inTx db) (preserves_runValidators _ _) ?_
    rintro issues _ rfl
    exact (blind_replaceValidationResults _).bind
      (inTx_replaceValidationResults db tenantId page.id revision.id time.transaction _)
      (preserves_replaceValidationResults _) fun _ _ _ ↦ .pure _
  | listPageResults tenantId slug =>
    obtain rfl := Sum.inr.inj hx
    refine .map _ (BlindOut.ofExcept_bind fun slug _ ↦ ?_)
    refine BlindOut.bind (fun s _ _ _ ↦ requirePage_blind slug s)
      ((readOnly_requirePage tenantId slug).outTx db)
      (hread (readOnly_requirePage tenantId slug)) ?_
    rintro ⟨page, updatedAt⟩ _ rfl
    refine BlindOut.bind (fun s hs _ _ ↦
      requireCurrentRevision_blind slug s (hs.working ▸ hdb.wiki))
      ((readOnly_requireCurrentRevision tenantId slug).outTx db)
      (hread (readOnly_requireCurrentRevision tenantId slug)) ?_
    rintro revision _ rfl
    exact BlindOut.query_bind (db.resultsFor_ofTenant page.id (some revision.id)) (.pure _)
  | createOrUpdatePage update => cases hx
  | publishPage tenantId slug revisionNo => cases hx
  | getPage tenantId slug => cases hx
  | createRevision tenantId slug content => cases hx
  | addClaimWithSources tenantId slug claimText sources supportStatus confidence => cases hx
  | rebuildLinksFromMarkdown tenantId slug markdown => cases hx
  | getBacklinks tenantId slug => cases hx

end Validation

/-! ## Runs -/

section Runs

variable {unicode : UnicodeData} {postgres : PostgresData} {label : OperationLabel}
  {s : DatabaseState}

theorem OperationLabel.numbered (label : OperationLabel) (hs : s.db.Numbered s.nextId) :
    s.nextId ≤ (label.run unicode postgres s).2.nextId ∧
      (label.run unicode postgres s).2.db.Numbered (label.run unicode postgres s).2.nextId := by
  unfold OperationLabel.run
  split
  · rename_i x hx
    obtain ⟨hle, hcommitted, -⟩ := label.operation.preserves_wiki hx
      (Session.start s.db.wiki s.nextId label.outcomes) hs.wiki hs.wiki
    exact ⟨hle, hcommitted, hs.validationResults.mono hle⟩
  · rename_i x hx
    obtain ⟨hle, hcommitted, -⟩ := label.operation.preserves_database hx
      (Session.start s.db s.nextId label.outcomes) hs hs
    exact ⟨hle, hcommitted⟩

/-- In every reachable state the references are intact and ids increase. -/
theorem reachable (unicode : UnicodeData) (postgres : PostgresData)
    (labels : List OperationLabel) :
    (run (DatabaseState.step unicode postgres) .initial labels).db.Intact ∧
      (run (DatabaseState.step unicode postgres) .initial labels).db.Numbered
        (run (DatabaseState.step unicode postgres) .initial labels).nextId := by
  refine run_induction (I := fun s : DatabaseState ↦ s.db.Intact ∧ s.db.Numbered s.nextId) ?_
    ⟨WikiDatabase.Intact.empty, WikiDatabase.Numbered.empty 0⟩ labels
  rintro s label s' ⟨hintact, hnumbered⟩ hstep
  obtain rfl := Option.some.inj hstep
  exact ⟨(label.effect unicode postgres hintact).intact hintact, (label.numbered hnumbered).2⟩

/-- **An operation does to the rows of its tenant what it would do to them alone.** -/
theorem OperationLabel.run_ofTenant (hdb : s.db.Intact) (hn : s.db.Numbered s.nextId)
    (hsource : label.operation.UsesSourceValidators unicode postgres) :
    label.run unicode postgres ⟨s.db.ofTenant label.operation.tenantId, s.nextId⟩
      = ((label.run unicode postgres s).1,
        ⟨(label.run unicode postgres s).2.db.ofTenant label.operation.tenantId,
          (label.run unicode postgres s).2.nextId⟩) := by
  unfold OperationLabel.run
  split
  · rename_i x hx
    have hstart := Session.idle_start (ε := PyException) s.db.wiki s.nextId label.outcomes
    have hblind := label.operation.blind_wiki hdb.wiki hx _ hstart hn.wiki hn.wiki
    have hkeeps : s.db.wiki.Keeps
        (x (Session.start s.db.wiki s.nextId label.outcomes)).2.committed :=
      OutTx.committed ((label.operation.outTx_wiki hdb.wiki hx).mono (fun _ _ h ↦ h.keeps)
        (by rintro _ _ rfl; exact .refl)) hstart
    have hview := congrArg (fun r : Except PyException WikiAnswer × Session WikiStore PyException ↦
      (r.1, DatabaseState.mk ((s.db.ofTenant label.operation.tenantId).stamp
        label.time.transaction r.2.committed) r.2.nextId)) hblind
    exact hview.trans (congrArg (fun db ↦ (_, DatabaseState.mk db _))
      (WikiDatabase.stamp_ofTenant hkeeps).symm)
  · rename_i x hx
    have hblind := label.operation.blind_database hdb hsource hx _
      (Session.idle_start (ε := PyException) s.db s.nextId label.outcomes) hn hn
    exact congrArg (fun r : Except PyException WikiAnswer × Session WikiDatabase PyException ↦
      (r.1, DatabaseState.mk r.2.committed r.2.nextId)) hblind

theorem OperationLabel.sameTenant (label : OperationLabel) (hdb : s.db.Intact) {other : String}
    (hne : other ≠ label.operation.tenantId) :
    s.db.SameTenant other (label.run unicode postgres s).2.db :=
  WikiDatabase.sameTenant_of_ofTenant_eq
    ((label.effect unicode postgres hdb).ofTenant_of_ne hdb hne).symm

end Runs

/-- **Main result.** Two reachable databases have the same rows of a tenant and any rows of
others. An operation for the tenant, with the same ids and at the same time, has the same outcome
in both and leaves the same rows of the tenant; the rows of every other tenant it leaves as they
were. -/
theorem tenant_noninterference (unicode : UnicodeData) (postgres : PostgresData)
    (labels₁ labels₂ : List OperationLabel) (label : OperationLabel)
    (hsource : label.operation.UsesSourceValidators unicode postgres) (nextId : ℕ)
    (h₁ : (run (DatabaseState.step unicode postgres) .initial labels₁).nextId ≤ nextId)
    (h₂ : (run (DatabaseState.step unicode postgres) .initial labels₂).nextId ≤ nextId)
    (hsame : WikiDatabase.SameTenant label.operation.tenantId
      (run (DatabaseState.step unicode postgres) .initial labels₁).db
      (run (DatabaseState.step unicode postgres) .initial labels₂).db) :
    let db₁ := (run (DatabaseState.step unicode postgres) .initial labels₁).db
    let db₂ := (run (DatabaseState.step unicode postgres) .initial labels₂).db
    let r₁ := label.run unicode postgres ⟨db₁, nextId⟩
    let r₂ := label.run unicode postgres ⟨db₂, nextId⟩
    r₁.1 = r₂.1 ∧ WikiDatabase.SameTenant label.operation.tenantId r₁.2.db r₂.2.db ∧
      ∀ other, other ≠ label.operation.tenantId →
        db₁.SameTenant other r₁.2.db ∧ db₂.SameTenant other r₂.2.db := by
  intro db₁ db₂ r₁ r₂
  obtain ⟨hintact₁, hn₁⟩ := reachable unicode postgres labels₁
  obtain ⟨hintact₂, hn₂⟩ := reachable unicode postgres labels₂
  have hn₁ := WikiDatabase.Numbered.mono _ _ _ h₁ hn₁
  have hn₂ := WikiDatabase.Numbered.mono _ _ _ h₂ hn₂
  -- both runs are seen as the run on the rows of the tenant alone
  have hview₁ := OperationLabel.run_ofTenant (s := ⟨db₁, nextId⟩) hintact₁ hn₁ hsource
  have hview₂ := OperationLabel.run_ofTenant (s := ⟨db₂, nextId⟩) hintact₂ hn₂ hsource
  rw [show db₁.ofTenant label.operation.tenantId = db₂.ofTenant label.operation.tenantId from
    hsame.ofTenant_eq hn₁ hn₂, hview₂] at hview₁
  obtain ⟨hanswer, hstate⟩ := Prod.mk.inj hview₁
  refine ⟨hanswer.symm, ?_, fun other hne ↦
    ⟨label.sameTenant (s := ⟨db₁, nextId⟩) hintact₁ hne,
      label.sameTenant (s := ⟨db₂, nextId⟩) hintact₂ hne⟩⟩
  exact WikiDatabase.sameTenant_of_ofTenant_eq (DatabaseState.mk.inj hstate).1.symm

/-! ## Two tenants with a page of the same slug -/

/-- A tenant creates its page `a`. -/
def createPageA (tenantId : String) : OperationLabel where
  operation := .createOrUpdatePage
    { tenantId := tenantId, slug := none, title := "A", pageType := "concept", status := none
      content :=
        { content := "[[b]]".toList, contentFormat := "markdown", contentJson := none
          summary := none, authorType := "human" } }
  time := ⟨0, 0⟩
  outcomes := []

/-- To create its page is the same to `acme` whether or not `globex` has a page `a`. -/
theorem createPageA_noninterference :
    let s := run (DatabaseState.step asciiData asciiPostgres) .initial []
    let s' := run (DatabaseState.step asciiData asciiPostgres) .initial [createPageA "globex"]
    let r := (createPageA "acme").run asciiData asciiPostgres ⟨s.db, s'.nextId⟩
    let r' := (createPageA "acme").run asciiData asciiPostgres ⟨s'.db, s'.nextId⟩
    r.1.isOk = true ∧ r.1 = r'.1 ∧ r.2.db.SameTenant "acme" r'.2.db ∧
      s'.db.SameTenant "globex" r'.2.db := by
  have hs : run (DatabaseState.step asciiData asciiPostgres) .initial [createPageA "globex"]
      = ((createPageA "globex").run asciiData asciiPostgres .initial).2 :=
    rfl
  have hsame : WikiDatabase.SameTenant "acme"
      (run (DatabaseState.step asciiData asciiPostgres) .initial []).db
      (run (DatabaseState.step asciiData asciiPostgres) .initial [createPageA "globex"]).db := by
    rw [hs]
    exact OperationLabel.sameTenant (s := .initial) (createPageA "globex")
      WikiDatabase.Intact.empty (by decide)
  obtain ⟨hanswer, hown, hothers⟩ := tenant_noninterference asciiData asciiPostgres []
    [createPageA "globex"] (createPageA "acme") trivial _ (Nat.zero_le _) (Nat.le_refl _) hsame
  have hne : "globex" ≠ (createPageA "acme").operation.tenantId := by decide
  exact ⟨by decide +kernel, hanswer, hown, (hothers "globex" hne).2⟩

end KnowledgeAlakazam
