import KnowledgeAlakazam.Wiki.TenantView

/-!
# How many statements the wiki's methods take

Nothing that the service's methods write can be refused by the tables: new rows have ids of their
own, a slug is only inserted when it is free, and a revision number is the next one. So whether a
method that finds its page ends normally is decided by the database alone, statement by statement,
and the number of these is known beforehand from the arguments and from which pages there are.
-/

namespace KnowledgeAlakazam

open Program WikiRepository WikiService

variable {tenantId slug : String} {R : ℕ → WikiStore → Prop}

theorem Table.Numbered.exists_insert {ρ κ : Type} [Row ρ ℕ κ] [DecidableEq κ] {t : Table ρ}
    {n : ℕ} (h : t.Numbered n) {r : ρ} (hr : Row.primary r = n)
    (hu : ∀ r' ∈ t.rows, Row.unique r' ≠ Row.unique r) :
    ∃ t', t.insert r = some t' ∧ t'.Numbered (n + 1) :=
  ⟨_, (h.free hr hu).insert, h.insert (h.free hr hu).insert hr⟩

/-! ## The page -/

/-- The next id is free, and the page is there. -/
def Ready (pageId n : ℕ) (w : WikiStore) : Prop :=
  w.Numbered n ∧ (w.pages.find pageId).isSome

theorem takes_createPage (title pageType status : String) :
    Takes Unexpired (Session.Meets fun n w ↦ w.Numbered n ∧ w.pageBySlug tenantId slug = none)
      (createPage tenantId slug title pageType status) 1
      fun page ↦ Session.Meets (Ready page.id) := by
  refine Takes.freshId_statement fun n w ⟨hnum, hnone⟩ ↦ ?_
  obtain ⟨pages, hins, hpages⟩ := hnum.pages.exists_insert
    (r := ⟨n, tenantId, slug, title, pageType, status, none⟩) rfl (Table.lookup_eq_none.mp hnone)
  rw [hins]
  refine ⟨_, _, rfl, ?_, Option.isSome_of_eq_some (Table.find_insert_self hins)⟩
  exact { WikiStore.Numbered.mono _ _ _ (Nat.le_succ n) hnum with pages := hpages }

/-- The lookup, and the `INSERT` if the page is not there. -/
def prepareLength (found : Option WikiPage) : ℕ := if found.isSome then 1 else 2

theorem takes_preparePage (update : PageUpdate) (slug : String) (found : Option WikiPage) :
    Takes Unexpired
      (Session.Meets fun n w ↦ w.Numbered n ∧ w.pageBySlug update.tenantId slug = found)
      (preparePage update slug) (prepareLength found) fun page ↦ Session.Meets (Ready page.id) := by
  have hquery : Takes Unexpired (Session.Meets fun n w ↦ w.Numbered n ∧
      w.pageBySlug update.tenantId slug = found) (getPageBySlug update.tenantId slug) 1
      fun page ↦ Session.Meets fun n w ↦ page = found ∧ w.Numbered n ∧
        w.pageBySlug update.tenantId slug = found :=
    Takes.query fun n w h ↦ ⟨h.2, h⟩
  cases found with
  | none =>
    refine hquery.bind (m := 1) fun page ↦ ?_
    cases page with
    | none => exact (takes_createPage _ _ _).mono (fun s h ↦ h.2) (fun _ _ h ↦ h) fun _ _ h ↦ h
    | some page => exact fun s h ↦ absurd h.1 (by simp)
  | some page =>
    refine hquery.bind (m := 0) fun page' ↦ ?_
    cases page' with
    | none => exact fun s h ↦ absurd h.1 (by simp)
    | some page' =>
      refine Takes.bind (n := 0) (m := 0) (Takes.assign (T := Ready page'.id)
        fun n w ⟨hpage', hnum, hpage⟩ ↦ ?_) fun _ ↦ Takes.pure fun _ h ↦ h
      refine ⟨{ hnum with pages := hnum.pages.modify _ _ }, ?_⟩
      rw [← hpage'] at hpage
      exact Option.isSome_of_eq_some (Table.find_modify_self (Table.find_of_lookup hpage) _)

theorem takes_setCurrentRevision (pageId revisionId : ℕ) :
    Takes Unexpired (Session.Meets (Ready pageId)) (setCurrentRevision pageId revisionId) 1
      fun _ ↦ Session.Meets (Ready pageId) := by
  refine Takes.statement fun n w ⟨hnum, hsome⟩ ↦ ?_
  obtain ⟨page, hpage⟩ := Option.isSome_iff_exists.mp hsome
  rw [hpage]
  refine ⟨_, _, rfl, { hnum with pages := hnum.pages.modify _ _ }, ?_⟩
  exact Option.isSome_of_eq_some (Table.find_modify_self hpage _)

/-- The next number, a lookup under it, the row, and the pointer of the page. -/
theorem takes_upsertPageRevision (pageId : ℕ) (c : RevisionContent) :
    Takes Unexpired (Session.Meets (Ready pageId)) (upsertPageRevision pageId c) 4
      fun _ ↦ Session.Meets (Ready pageId) := by
  refine (Takes.query (T := fun no n w ↦ Ready pageId n w ∧ no = w.nextRevisionNo pageId)
    fun n w h ↦ ⟨h, rfl⟩).bind (m := 3) fun no ↦ ?_
  have hfree : ∀ w : WikiStore, no = w.nextRevisionNo pageId →
      w.revisionByNo pageId no = none := by
    intro w hno
    rw [hno]
    exact w.revisionByNo_nextRevisionNo pageId
  refine (Takes.query (T := fun found n w ↦ Ready pageId n w ∧ found = none ∧
    w.revisionByNo pageId no = none) fun n w ⟨h, hno⟩ ↦ ⟨h, hfree w hno, hfree w hno⟩).bind
      (m := 2) fun found ↦ ?_
  cases found with
  | some revision => exact fun s h ↦ absurd h.2.1 (by simp)
  | none =>
    refine Takes.bind (n := 1) (m := 1) (Takes.freshId_statement
      (T := fun _ ↦ Ready pageId) ?_) fun revision ↦
        (takes_setCurrentRevision pageId revision.id).bind (m := 0) fun _ ↦ Takes.pure fun _ h ↦ h
    rintro n w ⟨⟨hnum, hsome⟩, -, hnone⟩
    obtain ⟨revisions, hins, hrevisions⟩ := hnum.revisions.exists_insert
      (r := c.newRevision n pageId no) rfl (Table.lookup_eq_none.mp hnone)
    rw [hins]
    exact ⟨_, _, rfl, { WikiStore.Numbered.mono _ _ _ (Nat.le_succ n) hnum with
      revisions := hrevisions }, hsome⟩

theorem takes_createLink (tenantId : String) (pageId : ℕ) (toSlug : String) :
    Takes Unexpired (Session.Meets fun n (w : WikiStore) ↦ w.Numbered n)
      (createLink tenantId pageId toSlug) 1 fun _ ↦ Session.Meets fun n w ↦ w.Numbered n := by
  refine Takes.freshId_statement fun n w hnum ↦ ?_
  have hfree := hnum.links.free_of_unique (fun _ ↦ rfl)
    (r := ⟨n, tenantId, pageId, toSlug, "wikilink"⟩) rfl
  rw [hfree.insert]
  exact ⟨_, _, rfl, { WikiStore.Numbered.mono _ _ _ (Nat.le_succ n) hnum with
    links := hnum.links.insert hfree.insert rfl }⟩

/-- The `DELETE`, and a row for each link. -/
theorem takes_replaceLinksForPage (tenantId : String) (pageId : ℕ) (toSlugs : List String) :
    Takes Unexpired (Session.Meets fun n (w : WikiStore) ↦ w.Numbered n)
      (replaceLinksForPage tenantId pageId toSlugs) (1 + (dedupeSlugs toSlugs).length)
      fun _ ↦ Session.Meets fun n w ↦ w.Numbered n := by
  have hlinks := Takes.mapM' (takes_createLink tenantId pageId) (dedupeSlugs toSlugs)
  rw [Nat.mul_one] at hlinks
  exact (Takes.statement (T := fun _ n (w : WikiStore) ↦ w.Numbered n) fun n w hnum ↦
    ⟨_, _, rfl, { hnum with links := hnum.links.keep _ }⟩).bind fun _ ↦ hlinks

variable (unicode : UnicodeData)

/-- The statements of a new revision and its links. -/
def writeLength (c : RevisionContent) : ℕ := 4 + (1 + (dedupeSlugs (linkTargets unicode c)).length)

theorem takes_write (tenantId : String) (page : WikiPage) (c : RevisionContent) :
    Takes Unexpired (Session.Meets (Ready page.id)) (do
      let revision ← upsertPageRevision page.id c
      let _ ← replaceLinksForPage tenantId page.id (linkTargets unicode c)
      return (⟨(setCurrentPatch revision.id).app page, some revision⟩ : WikiPageDetail))
      (writeLength unicode c) fun _ ↦ Session.Meets fun n w ↦ w.Numbered n :=
  (takes_upsertPageRevision page.id c).bind fun _ ↦ ((takes_replaceLinksForPage tenantId page.id
    (linkTargets unicode c)).mono (fun _ h ↦ h.1) (fun _ _ h ↦ h) fun _ _ h ↦ h).bind (m := 0)
      fun _ ↦ Takes.pure fun _ h ↦ h

/-- **`create_or_update_page`**, and its commit. -/
theorem takes_createOrUpdatePage (update : PageUpdate) {slug : String} (found : Option WikiPage)
    (hslug : requireSlug unicode (orElse update.slug update.title) = .ok slug) :
    Takes Discarded (Session.Between fun n S ↦ S.Numbered n ∧
        S.pageBySlug update.tenantId slug = found) (createOrUpdatePage unicode update)
      (prepareLength found + writeLength unicode update.content + 1)
      fun _ ↦ Session.Between fun n S ↦ S.Numbered n :=
  Takes.ofExcept hslug (Takes.transaction ((takes_preparePage update slug found).bind
    fun page ↦ takes_write unicode update.tenantId page update.content))

theorem takes_requirePage (tenantId slug : String) (page : WikiPage)
    (R : ℕ → WikiStore → Prop) :
    Takes Unexpired (Session.Meets fun n w ↦ R n w ∧ w.pageBySlug tenantId slug = some page)
      (requirePage tenantId slug) 1 fun found ↦ Session.Meets fun n w ↦ found = page ∧ R n w ∧
        w.pageBySlug tenantId slug = some page := by
  refine (Takes.query (T := fun found n w ↦ found = some page ∧ R n w ∧
    w.pageBySlug tenantId slug = some page) fun n w h ↦ ⟨h.2, h⟩).bind (m := 0) fun found ↦ ?_
  cases found with
  | none => exact fun s h ↦ absurd h.1 (by simp)
  | some found => exact Takes.pure fun s h ↦ ⟨Option.some.inj h.1, h.2⟩

/-- **`create_revision`**, and its commit. -/
theorem takes_createRevision {address : String} (c : RevisionContent) (page : WikiPage)
    (hslug : requireSlug unicode address = .ok slug) :
    Takes Discarded (Session.Between fun n S ↦ S.Numbered n ∧
        S.pageBySlug tenantId slug = some page) (createRevision unicode tenantId address c)
      (1 + writeLength unicode c + 1) fun _ ↦ Session.Between fun n S ↦ S.Numbered n := by
  refine Takes.ofExcept hslug (Takes.transaction ((takes_requirePage tenantId slug page
    fun n w ↦ w.Numbered n).bind fun found ↦ (takes_write unicode tenantId found c).mono ?_
      (fun _ _ h ↦ h) fun _ _ h ↦ h))
  rintro s ⟨rfl, hnum, hfound⟩
  exact ⟨hnum, Option.isSome_of_eq_some (Table.find_of_lookup hfound)⟩

/-- The revision that is published is read in one statement, whether it has a number or not. -/
theorem takes_resolveRevision (page : WikiPage) (tenantId slug : String) (revisionNo : Option ℤ) :
    Takes Unexpired (Session.Meets fun n w ↦ w.Numbered n ∧
        w.pageBySlug tenantId slug = some page ∧ (w.resolved page revisionNo).isSome)
      (resolveRevision page tenantId slug revisionNo) 1
      fun _ ↦ Session.Meets fun n w ↦ w.Numbered n := by
  cases revisionNo with
  | none =>
    refine (Takes.query (T := fun found n w ↦ w.Numbered n ∧ found.isSome)
      fun n w h ↦ ⟨h.1, ?_⟩).bind (m := 0) fun found ↦ ?_
    · rw [WikiStore.currentRevision, h.2.1]
      exact h.2.2
    · cases found with
      | none => exact fun s h ↦ absurd h.2 Bool.false_ne_true
      | some revision => exact Takes.pure fun _ h ↦ h.1
  | some no =>
    refine (Takes.query (T := fun revisions n (w : WikiStore) ↦ w.Numbered n ∧
      (revisions.find? fun revision ↦ (revision.revisionNo : ℤ) == no).isSome)
      fun n w h ↦ ⟨h.1, h.2.2⟩).bind (m := 0) fun revisions ↦ ?_
    split
    · exact Takes.pure fun _ h ↦ h.1
    · rename_i hnone
      intro s h
      have hsome : (revisions.find? fun revision ↦ (revision.revisionNo : ℤ) == no).isSome := h.2
      rw [hnone] at hsome
      exact absurd hsome Bool.false_ne_true

/-- **`publish_page`**, and its commit, which flushes the page. -/
theorem takes_publishPage {address : String} (revisionNo : Option ℤ) (page : WikiPage)
    (hslug : requireSlug unicode address = .ok slug) :
    Takes Discarded (Session.Between fun n S ↦ (S.Numbered n ∧
        (S.resolved page revisionNo).isSome) ∧ S.pageBySlug tenantId slug = some page)
      (publishPage unicode tenantId address revisionNo) 3
      fun _ ↦ Session.Between fun n S ↦ S.Numbered n := by
  refine Takes.ofExcept hslug (Takes.transaction (n := 2) ((takes_requirePage tenantId slug page
    fun n w ↦ w.Numbered n ∧ (w.resolved page revisionNo).isSome).bind (m := 1) fun found ↦
      ((takes_resolveRevision found tenantId slug revisionNo).mono ?_ (fun _ _ h ↦ h)
        fun _ _ h ↦ h).bind (m := 0) fun revision ↦ Takes.bind (n := 0) (m := 0)
          (Takes.assign (T := fun n (w : WikiStore) ↦ w.Numbered n) fun n w hnum ↦ ?_)
            fun _ ↦ Takes.pure fun _ h ↦ h))
  · rintro s ⟨rfl, ⟨hnum, hsome⟩, hfound⟩
    exact ⟨hnum, hfound, hsome⟩
  · exact { hnum with pages := hnum.pages.modify _ _ }

/-! ## A claim -/

theorem takes_createClaim (tenantId : String) (pageId revisionId : ℕ) (claimText : List Char)
    (supportStatus : String) (confidence : Option ℤ) :
    Takes Unexpired (Session.Meets fun n (w : WikiStore) ↦ w.Numbered n)
      (createClaim tenantId pageId revisionId claimText supportStatus confidence) 1
      fun _ ↦ Session.Meets fun n w ↦ w.Numbered n := by
  refine Takes.freshId_statement fun n w hnum ↦ ?_
  have hfree := hnum.claims.free_of_unique (fun _ ↦ rfl)
    (r := ⟨n, tenantId, pageId, revisionId, claimText, supportStatus, confidence⟩) rfl
  rw [hfree.insert]
  exact ⟨_, _, rfl, { WikiStore.Numbered.mono _ _ _ (Nat.le_succ n) hnum with
    claims := hnum.claims.insert hfree.insert rfl }⟩

theorem takes_attachClaimSource (claimId : ℕ) (input : ClaimSourceInput) :
    Takes Unexpired (Session.Meets fun n (w : WikiStore) ↦ w.Numbered n)
      (attachClaimSource claimId input) 1 fun _ ↦ Session.Meets fun n w ↦ w.Numbered n := by
  refine Takes.freshId_statement fun n w hnum ↦ ?_
  have hfree := hnum.claimSources.free_of_unique (fun _ ↦ rfl)
    (r := ⟨n, claimId, input.sourceId, input.documentUri, input.chunkId, input.entityId,
      input.relationId, input.assetUrl, input.pageNo, input.bbox, input.quote,
      input.locator.getD (.dict [])⟩) rfl
  rw [hfree.insert]
  exact ⟨_, _, rfl, { WikiStore.Numbered.mono _ _ _ (Nat.le_succ n) hnum with
    claimSources := hnum.claimSources.insert hfree.insert rfl }⟩

/-- The page is there, with a current revision. -/
def WikiStore.Shown (w : WikiStore) (tenantId slug : String) : Prop :=
  ∃ page, w.pageBySlug tenantId slug = some page ∧ (w.currentOf page).isSome

/-- The statements of a claim, and its commit: the page, its revision, the claim, its sources. -/
def claimLength (sources : List ClaimSourceInput) : ℕ := 3 + sources.length + 1

/-- **`add_claim_with_sources`**. -/
theorem takes_addClaimWithSources {address : String} (claimText : List Char)
    (sources : List ClaimSourceInput) (supportStatus : String) (confidence : Option ℤ)
    (hslug : requireSlug unicode address = .ok slug) :
    Takes Discarded (Session.Between fun n S ↦ S.Numbered n ∧ S.Shown tenantId slug)
      (addClaimWithSources unicode tenantId address claimText sources supportStatus confidence)
      (claimLength sources) fun _ ↦ Session.Between fun n S ↦ S.Numbered n := by
  refine Takes.ofExcept hslug (Takes.transaction ((Takes.exists_pre (P := fun page ↦
    Session.Meets fun n (w : WikiStore) ↦ (w.Numbered n ∧ (w.currentOf page).isSome) ∧
      w.pageBySlug tenantId slug = some page) fun page ↦ ?_).mono ?_ (fun _ _ h ↦ h)
        fun _ _ h ↦ h))
  swap
  · rintro s ⟨hnum, page, hpage, hcurrent⟩
    exact ⟨page, ⟨hnum, hcurrent⟩, hpage⟩
  rw [show 3 + sources.length = 1 + (1 + (1 + sources.length)) by omega]
  refine (takes_requirePage tenantId slug page fun n w ↦ w.Numbered n ∧
    (w.currentOf page).isSome).bind fun found ↦ ?_
  have hcurrent : Takes Unexpired (Session.Meets fun n w ↦ found = page ∧ (w.Numbered n ∧
      (w.currentOf page).isSome) ∧ w.pageBySlug tenantId slug = some page)
      (getCurrentRevision tenantId slug) 1
      fun revision ↦ Session.Meets fun n w ↦ w.Numbered n ∧ revision.isSome := by
    refine Takes.query fun n w ⟨_, ⟨hnum, hcurrent⟩, hpage⟩ ↦ ⟨hnum, ?_⟩
    rw [WikiStore.currentRevision, hpage]
    exact hcurrent
  refine hcurrent.bind fun revision ↦ ?_
  cases revision with
  | none => exact fun s h ↦ absurd h.2 Bool.false_ne_true
  | some revision =>
    refine ((takes_createClaim tenantId found.id revision.id claimText supportStatus
      confidence).mono (fun _ h ↦ h.1) (fun _ _ h ↦ h) fun _ _ h ↦ h).bind fun claim ↦ ?_
    have hsources := Takes.mapM' (takes_attachClaimSource claim.id) sources
    rw [Nat.mul_one] at hsources
    exact hsources.bind (m := 0) fun _ ↦ Takes.pure fun _ h ↦ h

/-! ## A compile job -/

theorem takes_createCompileJob (tenantId sourceId : String) (targetSlug : Option String)
    (hR : ∀ n S jobs, R n S → jobs.Numbered (n + 1) → R (n + 1) { S with compileJobs := jobs })
    (hnum : ∀ n S, R n S → S.Numbered n) :
    Takes Discarded (Session.Between R)
      (Program.transaction (createCompileJob tenantId sourceId targetSlug)) 2
      fun job ↦ Session.Between fun n S ↦ R n S ∧ (S.compileJobs.find job.id).isSome := by
  refine Takes.transaction (Takes.freshId_statement fun n w h ↦ ?_)
  have hjobs := (hnum n w h).compileJobs
  have hfree := hjobs.free_of_unique (fun _ ↦ rfl)
    (r := (⟨n, tenantId, sourceId, targetSlug, "pending", none⟩ : WikiCompileJob)) rfl
  rw [hfree.insert]
  refine ⟨_, _, rfl, hR n w _ h (hjobs.insert hfree.insert rfl), ?_⟩
  exact Option.isSome_of_eq_some (Table.find_insert_self hfree.insert)

theorem takes_updateCompileJobStatus (jobId : ℕ) (status : String) (error : Option String)
    (hR : ∀ n S patch, R n S → R n { S with compileJobs := S.compileJobs.modify jobId patch }) :
    Takes Discarded (Session.Between fun n S ↦ R n S ∧ (S.compileJobs.find jobId).isSome)
      (Program.transaction (updateCompileJobStatus jobId status error)) 2
      fun job ↦ Session.Between fun n S ↦ job.id = jobId ∧ R n S ∧
        (S.compileJobs.find jobId).isSome := by
  refine Takes.transaction (Takes.statement fun n w ⟨h, hsome⟩ ↦ ?_)
  obtain ⟨row, hrow⟩ := Option.isSome_iff_exists.mp hsome
  rw [hrow]
  refine ⟨_, _, rfl, Table.primary_of_find hrow, hR n w _ h, ?_⟩
  exact Option.isSome_of_eq_some (Table.find_modify_self hrow _)

end KnowledgeAlakazam
