import KnowledgeAlakazam.Wiki.Upserts

/-!
# Runs of concurrent upserts of a page

Of the calls that do not disturb each other one at most is between its reading the largest revision
number and its end, so the committed tables are the ones it began with until it commits itself, and
its commit is when it takes effect.
-/

namespace KnowledgeAlakazam

/-! ## Runs -/

section Runs

variable {n : ℕ} {unicode : UnicodeData} {sameJson : Option PyValue → Option PyValue → Bool}
  {updates : Fin n → PageUpdate} {tenantId slug : String} {newId : ℕ} {s s' : WriteState n}
  {i j : Fin n} {pc : WriterPc} {writes : List WikiWrite}

def ForPage (unicode : UnicodeData) (updates : Fin n → PageUpdate) (tenantId slug : String) :
    Prop :=
  ∀ i, (updates i).tenantId = tenantId ∧
    requireSlug unicode (orElse (updates i).slug (updates i).title) = .ok slug

/-- All calls are where they should be, and one of them at most has read the largest revision
number. As long as there is no page, nobody has drawn an id. -/
structure PagesSound (unicode : UnicodeData) (updates : Fin n → PageUpdate)
    (tenantId slug : String) (newId : ℕ) (s : WriteState n) : Prop where
  writers : WritersSound unicode (fun i ↦ .createOrUpdatePage (updates i)) s
  below : s.store.Below s.nextId
  visible : ∀ i, (s.visible i).Below s.nextId
  stage : ∀ i, (updates i).Stage tenantId slug newId s.store (s.visible i) s.nextId (s.writers i)
  numbering : ∀ i j, (s.writers i).pc.Numbering → (s.writers j).pc.Numbering → i = j
  first : s.store.pageBySlug tenantId slug = none → (∀ i, (s.writers i).pc.page = none) →
    s.nextId = newId

namespace WriteState

theorem upsert_cases (h : s.upsert unicode sameJson updates i = some s') :
    (∃ move, (s.writers i).pc.move unicode sameJson (.createOrUpdatePage (updates i)) (s.visible i)
      s.nextId = some move ∧ (move = .raise ∧ s' = s.fail i ∨ move = .commit ∧ s' = s.commit i)) ∨
    ∃ pc writes, (s.writers i).pc.move unicode sameJson (.createOrUpdatePage (updates i))
      (s.visible i) s.nextId = some (.statement pc writes) ∧ ¬s.Blocked i writes ∧
      ((∀ write ∈ writes, write.Fits (s.visible i)) ∧ s' = s.write i pc writes ∨
        (¬∀ write ∈ writes, write.Fits (s.visible i)) ∧ s' = s.fail i) := by
  unfold upsert step at h
  dsimp only at h
  split at h
  · exact absurd h (by simp)
  · rename_i hmove
    exact Or.inl ⟨_, hmove, Or.inl ⟨rfl, (Option.some.inj h).symm⟩⟩
  · rename_i hmove
    exact Or.inl ⟨_, hmove, Or.inr ⟨rfl, (Option.some.inj h).symm⟩⟩
  · rename_i pc writes hmove
    refine Or.inr ⟨pc, writes, hmove, ?_⟩
    split at h
    · exact absurd h (by simp)
    · rename_i hfree
      refine ⟨hfree, ?_⟩
      split at h
      · rename_i hfits
        exact Or.inl ⟨hfits, (Option.some.inj h).symm⟩
      · rename_i hfits
        exact Or.inr ⟨hfits, (Option.some.inj h).symm⟩

theorem visible_write_self (s : WriteState n) (i : Fin n) (pc : WriterPc)
    (writes : List WikiWrite) : (s.write i pc writes).visible i = (s.visible i).overlay writes := by
  unfold visible write
  dsimp only
  rw [Function.update_self, WikiStore.overlay_append]

theorem visible_write_of_ne (h : j ≠ i) (s : WriteState n) (pc : WriterPc)
    (writes : List WikiWrite) : (s.write i pc writes).visible j = s.visible j := by
  unfold visible write
  dsimp only
  rw [Function.update_of_ne h]

theorem writers_write_self (s : WriteState n) (i : Fin n) (pc : WriterPc)
    (writes : List WikiWrite) :
    (s.write i pc writes).writers i = ⟨pc, (s.writers i).pending ++ writes⟩ :=
  Function.update_self ..

theorem writers_write_of_ne (h : j ≠ i) (s : WriteState n) (pc : WriterPc)
    (writes : List WikiWrite) : (s.write i pc writes).writers j = s.writers j :=
  Function.update_of_ne h ..

theorem writers_commit_self (s : WriteState n) (i : Fin n) :
    (s.commit i).writers i = ⟨.done, []⟩ := Function.update_self ..

theorem writers_commit_of_ne (h : j ≠ i) (s : WriteState n) :
    (s.commit i).writers j = s.writers j := Function.update_of_ne h ..

end WriteState

theorem WriterPc.move_ne_raise {update : PageUpdate} {w : WikiStore} {nextId : ℕ}
    (hslug : requireSlug unicode (orElse update.slug update.title) = .ok slug) :
    pc.move unicode sameJson (.createOrUpdatePage update) w nextId ≠ some .raise := by
  have hrequest : (WriteRequest.createOrUpdatePage update).slug unicode = .ok slug := hslug
  intro h
  cases pc with
  | selectPage =>
    simp only [WriterPc.move, hrequest, Option.some.injEq] at h
    split at h
    · cases h
    · cases h
    · rename_i heq
      cases heq
  | flushRevision page revisionNo found => cases found <;> cases h
  | _ => cases h

/-- Whoever reads the largest revision number begins to number. -/
theorem WriterPc.numbering_of_move {pc' : WriterPc} {update : PageUpdate} {w : WikiStore}
    {nextId : ℕ}
    (h : pc.move unicode sameJson (.createOrUpdatePage update) w nextId
      = some (.statement pc' writes)) (hnumbering : pc'.Numbering) :
    pc.Numbering ∨ ∃ page, pc = .selectMax page := by
  cases pc with
  | selectPage =>
    simp only [WriterPc.move, Option.some.injEq] at h
    repeat' split at h
    all_goals
      cases h
      try exact absurd hnumbering id
  | insertPage | flushPage =>
    obtain ⟨rfl, rfl⟩ := WriterMove.statement.inj (Option.some.inj h)
    exact absurd hnumbering id
  | selectMax page => exact Or.inr ⟨page, rfl⟩
  | selectRevision | flushRevision | flushCurrent | deleteLinks | insertLinks | commit =>
    exact Or.inl trivial
  | done | failed => cases h

theorem WriterPc.page_of_move {pc' : WriterPc} {update : PageUpdate} {w : WikiStore}
    {nextId : ℕ}
    (h : pc.move unicode sameJson (.createOrUpdatePage update) w nextId
      = some (.statement pc' writes)) (hpage : pc'.page = none) :
    pc.page = none ∧ writes = [] := by
  cases pc with
  | selectPage =>
    simp only [WriterPc.move, Option.some.injEq] at h
    repeat' split at h
    all_goals cases h
    all_goals exact ⟨rfl, rfl⟩
  | flushRevision page revisionNo found =>
    cases found <;>
    · obtain ⟨rfl, rfl⟩ := WriterMove.statement.inj (Option.some.inj h)
      cases hpage
  | insertPage | flushPage | selectMax | selectRevision | flushCurrent | deleteLinks
  | insertLinks =>
    obtain ⟨rfl, rfl⟩ := WriterMove.statement.inj (Option.some.inj h)
    cases hpage
  | commit | done | failed => cases h

namespace PagesSound

theorem known (h : PagesSound unicode updates tenantId slug newId s)
    (hcalls : ForPage unicode updates tenantId slug) {page : WikiPage}
    (hpage : (s.writers i).pc.page = some page) :
    Known s.store (s.writers i).pending tenantId slug page.id := by
  obtain ⟨slug', hslug', hknown⟩ := (h.writers.sound i).known page hpage
  obtain rfl : slug = slug' := Except.ok.inj ((hcalls i).2.symm.trans hslug')
  rw [← (hcalls i).1]
  exact hknown

/-- Two calls do not both have the page locked. -/
theorem lock_unique (h : PagesSound unicode updates tenantId slug newId s)
    (hcalls : ForPage unicode updates tenantId slug) {page page' : WikiPage}
    (hpage : (s.writers i).pc.page = some page) (hpage' : (s.writers j).pc.page = some page')
    (hlock : .page page.id ∈ (s.writers i).pending.flatMap WikiWrite.locks)
    (hlock' : .page page'.id ∈ (s.writers j).pending.flatMap WikiWrite.locks) : i = j := by
  by_contra hne
  have hapart := h.writers.apart i j hne
  rcases h.known hcalls hpage with ⟨row, hrow, hid⟩ | ⟨new, rest, hpending, hkey, -, hfits⟩
  · rcases h.known hcalls hpage' with ⟨row', hrow', hid'⟩ | ⟨new', rest', -, hkey', -, hfits'⟩
    · obtain rfl := Option.some.inj (hrow.symm.trans hrow')
      rw [← hid'.symm.trans hid] at hlock
      exact hapart _ hlock hlock'
    · have hnone : s.store.pages.lookup (new'.tenantId, new'.slug) = none := hfits'.2
      rw [hkey'] at hnone
      exact absurd (hnone.symm.trans hrow) (by simp)
  · rcases h.known hcalls hpage' with ⟨row', hrow', -⟩ | ⟨new', rest', hpending', hkey', -, -⟩
    · have hnone : s.store.pages.lookup (new.tenantId, new.slug) = none := hfits.2
      rw [hkey] at hnone
      exact absurd (hnone.symm.trans hrow') (by simp)
    · -- both have inserted the page, so both have its key
      obtain ⟨ht, hs⟩ := Prod.mk.inj (hkey.trans hkey'.symm)
      refine hapart (.pageKey new.tenantId new.slug) ?_ ?_
      · rw [hpending]
        simp [WikiWrite.locks]
      · rw [hpending']
        simp [WikiWrite.locks, ht, hs]

/-- When a call commits, the others have written nothing. -/
theorem pending_of_commit (h : PagesSound unicode updates tenantId slug newId s)
    (hcalls : ForPage unicode updates tenantId slug) {page : WikiPage}
    {found : Option WikiRevision} (hpc : (s.writers i).pc = .commit page found) (hj : j ≠ i) :
    ¬(s.writers j).pc.Numbering ∧ (s.writers j).pending = [] := by
  have hnot : ¬(s.writers j).pc.Numbering := fun hnumbering ↦
    hj (h.numbering j i hnumbering (by rw [hpc]; trivial))
  refine ⟨hnot, ?_⟩
  have hstage := h.stage j
  have hstagei := h.stage i
  unfold PageUpdate.Stage at hstage hstagei
  rw [hpc] at hstagei
  cases hpcj : (s.writers j).pc with
  | selectPage | insertPage | done | failed => exact (h.writers.sound j).fresh (by rw [hpcj]; rfl)
  | flushPage page' =>
    rw [hpcj] at hstage
    exact hstage.1
  | selectMax page' =>
    rw [hpcj] at hstage
    refine hstage.2.2.2.resolve_right fun hlock ↦ hj ?_
    exact h.lock_unique hcalls (by rw [hpcj]; rfl) (by rw [hpc]; rfl) hlock hstagei.2.2
  | selectRevision | flushRevision | flushCurrent | deleteLinks | insertLinks | commit =>
    rw [hpcj] at hnot
    exact absurd trivial hnot

theorem page_eq_none (h : PagesSound unicode updates tenantId slug newId s)
    (hcalls : ForPage unicode updates tenantId slug)
    (hnone : s.store.pageBySlug tenantId slug = none) {update : PageUpdate} {otherSlug : String}
    (hpc : (s.writers i).pc = .insertPage update otherSlug)
    (hmove : (s.writers i).pc.move unicode sameJson (.createOrUpdatePage (updates i))
      (s.visible i) s.nextId = some (.statement pc writes))
    (hfree : ¬s.Blocked i writes) (j : Fin n) : (s.writers j).pc.page = none := by
  by_cases hj : j = i
  · rw [hj, hpc]
    rfl
  cases hpage : (s.writers j).pc.page with
  | none => rfl
  | some page =>
    rcases h.known hcalls hpage with ⟨row, hrow, -⟩ | ⟨new, rest, hpending, hkey, -, -⟩
    · exact absurd (hnone.symm.trans hrow) (by simp)
    · -- the other call has inserted it, so this one would wait
      have hstage := h.stage i
      unfold PageUpdate.Stage at hstage
      rw [hpc] at hstage hmove
      obtain ⟨rfl, rfl⟩ := hstage
      obtain ⟨-, rfl⟩ := WriterMove.statement.inj (Option.some.inj hmove)
      obtain ⟨ht, hs⟩ := Prod.mk.inj hkey
      refine absurd ⟨j, hj, .pageKey tenantId otherSlug, ?_, ?_⟩ hfree
      · simp [WikiWrite.locks, (hcalls i).1]
      · rw [hpending]
        simp [WikiWrite.locks, ht, hs]

/-- What a statement of a call does that is not disturbed. -/
theorem advances (h : PagesSound unicode updates tenantId slug newId s)
    (hcalls : ForPage unicode updates tenantId slug)
    (hguard : s.Undisturbed updates tenantId slug i)
    (hmove : (s.writers i).pc.move unicode sameJson (.createOrUpdatePage (updates i))
      (s.visible i) s.nextId = some (.statement pc writes))
    (hfree : ¬s.Blocked i writes) :
    (updates i).Advances tenantId slug newId s.store (s.writers i).pending s.nextId pc writes := by
  refine PageUpdate.Stage.advances (hcalls i).1 (hcalls i).2 (h.visible i) (h.writers.sound i)
    (h.stage i) (fun other otherSlug hpc ↦ ?_) (fun page found revisionId hpc ↦ ?_) hmove
  · unfold WriteState.Undisturbed at hguard
    rw [hpc] at hguard
    exact ⟨hguard, h.first hguard (h.page_eq_none hcalls hguard hpc hmove hfree)⟩
  · unfold WriteState.Undisturbed at hguard
    rw [hpc] at hguard
    exact hguard

end PagesSound

/-- A step of a call, as seen in what the page says. -/
abbrev WriteState.Takes (updates : Fin n → PageUpdate) (tenantId slug : String) (newId : ℕ)
    (i : Fin n) (s s' : WriteState n) : Prop :=
  TakesEffect (fun s ↦ s.store.reading tenantId slug) (fun s j ↦ (s.writers j).pc = .done)
    (fun j ↦ (updates j).upserted newId) i s s'

theorem WriterPc.ne_done_of_move {pc' : WriterPc} {request : WriteRequest} {w : WikiStore}
    {nextId : ℕ} (h : pc.move unicode sameJson request w nextId = some (.statement pc' writes)) :
    pc' ≠ .done := by
  rintro rfl
  cases pc with
  | selectPage =>
    simp only [WriterPc.move, Option.some.injEq] at h
    repeat' split at h
    all_goals cases h
  | flushRevision page revisionNo found => cases found <;> cases h
  | _ => cases h

theorem PageUpdate.upserted_ne_none {update : PageUpdate} {page : Option PageReading} :
    update.upserted newId page ≠ none := by
  cases page <;> exact Option.some_ne_none _

namespace PagesSound

/-- **One statement** of a call keeps the others where they are. -/
theorem write (h : PagesSound unicode updates tenantId slug newId s)
    (hsound : WritersSound unicode (fun i ↦ .createOrUpdatePage (updates i)) (s.write i pc writes))
    (hguard : s.Undisturbed updates tenantId slug i)
    (hmove : (s.writers i).pc.move unicode sameJson (.createOrUpdatePage (updates i))
      (s.visible i) s.nextId = some (.statement pc writes))
    (hadvances : (updates i).Advances tenantId slug newId s.store (s.writers i).pending s.nextId
      pc writes) :
    PagesSound unicode updates tenantId slug newId (s.write i pc writes) := by
  have hle : s.nextId ≤ s.nextId + writes.length := Nat.le_add_right _ _
  have hpc : ((s.write i pc writes).writers i).pc = pc := by rw [WriteState.writers_write_self]
  -- a call begins to number when no other does
  have halone : pc.Numbering → ∀ j, j ≠ i → ¬(s.writers j).pc.Numbering := by
    intro hnumbering j hj hnumbering'
    rcases WriterPc.numbering_of_move hmove hnumbering with hi | ⟨page, hpage⟩
    · exact hj (h.numbering j i hnumbering' hi)
    · unfold WriteState.Undisturbed at hguard
      rw [hpage] at hguard
      exact hguard j hj hnumbering'
  refine ⟨hsound, h.below.mono hle, fun j ↦ ?_, fun j ↦ ?_, fun j k hj hk ↦ ?_,
    fun hnone hpages ↦ ?_⟩
  · by_cases hj : j = i
    · rw [hj, WriteState.visible_write_self]
      exact ((h.visible i).mono hle).overlay hadvances.within
    · rw [WriteState.visible_write_of_ne hj]
      exact (h.visible j).mono hle
  · by_cases hj : j = i
    · rw [hj, WriteState.visible_write_self, WriteState.writers_write_self]
      exact hadvances.stage
    · rw [WriteState.visible_write_of_ne hj, WriteState.writers_write_of_ne hj]
      exact (h.stage j).mono hle
  · by_cases hji : j = i
    · by_cases hki : k = i
      · rw [hji, hki]
      · rw [hji, hpc] at hj
        rw [WriteState.writers_write_of_ne hki] at hk
        exact absurd hk (halone hj k hki)
    · rw [WriteState.writers_write_of_ne hji] at hj
      by_cases hki : k = i
      · rw [hki, hpc] at hk
        exact absurd hj (halone hk j hji)
      · rw [WriteState.writers_write_of_ne hki] at hk
        exact h.numbering j k hj hk
  · have hi := hpages i
    rw [hpc] at hi
    obtain ⟨hpage, rfl⟩ := WriterPc.page_of_move hmove hi
    refine h.first hnone fun j ↦ ?_
    by_cases hj : j = i
    · rw [hj]
      exact hpage
    · have hpagej := hpages j
      rw [WriteState.writers_write_of_ne hj] at hpagej
      exact hpagej

theorem stage_committed {update : PageUpdate} {W W' : WikiStore} {nextId : ℕ} {writer : Writer}
    (h : update.Stage tenantId slug newId W (W.overlay writer.pending) nextId writer)
    (hpending : writer.pending = []) (hnumbering : ¬writer.pc.Numbering)
    (hknown : ∀ page, writer.pc.page = some page →
      ∃ row, W'.pageBySlug tenantId slug = some row ∧ row.id = page.id) :
    update.Stage tenantId slug newId W' (W'.overlay writer.pending) nextId writer := by
  rw [hpending] at h ⊢
  unfold PageUpdate.Stage at h ⊢
  cases hpc : writer.pc with
  | selectMax page =>
    rw [hpc] at h
    obtain ⟨hpointer, hprepared, -, -⟩ := h
    obtain ⟨row, hrow, hid⟩ := hknown page (by rw [hpc]; rfl)
    have hassigned : update.Assigned page := by
      cases hprepared with
      | created hnone hnext hrow' => exact absurd (hnone.symm.trans hrow') (by simp)
      | found hcurrent hid hrow hid' hstatus hassigned => exact hassigned
    exact ⟨hpointer, .found hrow hid hrow hid (fun _ ↦ rfl) hassigned, rfl, Or.inl hpending⟩
  | selectPage | insertPage | flushPage | done | failed =>
    rw [hpc] at h
    exact h
  | selectRevision | flushRevision | flushCurrent | deleteLinks | insertLinks | commit =>
    rw [hpc] at hnumbering
    exact absurd trivial hnumbering

/-- **The commit** of a call is when it takes effect. -/
theorem commit (h : PagesSound unicode updates tenantId slug newId s)
    (hcalls : ForPage unicode updates tenantId slug)
    (hsound : WritersSound unicode (fun i ↦ .createOrUpdatePage (updates i)) (s.commit i))
    {page : WikiPage} {found : Option WikiRevision} (hpc : (s.writers i).pc = .commit page found) :
    PagesSound unicode updates tenantId slug newId (s.commit i) ∧
      WriteState.Takes updates tenantId slug newId i s (s.commit i) := by
  have hreading : (s.commit i).store.reading tenantId slug
      = (updates i).upserted newId (s.store.reading tenantId slug) := by
    have hstage := h.stage i
    unfold PageUpdate.Stage at hstage
    rw [hpc] at hstage
    exact hstage.2.1
  have hothers : ∀ j, j ≠ i → ¬(s.writers j).pc.Numbering ∧ (s.writers j).pending = [] :=
    fun j hj ↦ h.pending_of_commit hcalls hpc hj
  -- What was seen by the writer that commits is now seen by all: nobody else has anything pending.
  have hvisible : ∀ j, (s.commit i).visible j = s.visible i := by
    intro j
    have hpending : ((s.commit i).writers j).pending = [] := by
      by_cases hj : j = i
      · rw [hj, WriteState.writers_commit_self]
      · rw [WriteState.writers_commit_of_ne hj]
        exact (hothers j hj).2
    unfold WriteState.visible
    rw [hpending]
    rfl
  have hnumbering : ∀ j, ¬((s.commit i).writers j).pc.Numbering := by
    intro j
    by_cases hj : j = i
    · rw [hj, WriteState.writers_commit_self]
      exact id
    · rw [WriteState.writers_commit_of_ne hj]
      exact (hothers j hj).1
  refine ⟨⟨hsound, h.visible i, fun j ↦ ?_, fun j ↦ ?_, fun j _ hj ↦ absurd hj (hnumbering j),
    fun hnone ↦ ?_⟩, .settles ?_ hreading fun j ↦ ?_⟩
  · rw [hvisible j]
    exact h.visible i
  · by_cases hj : j = i
    · rw [hj, WriteState.writers_commit_self]
      trivial
    · have hstage := h.stage j
      rw [WriteState.visible] at hstage ⊢
      rw [WriteState.writers_commit_of_ne hj]
      refine stage_committed hstage (hothers j hj).2 (hothers j hj).1 fun page hpage ↦ ?_
      have hsoundj := hsound.sound j
      rw [WriteState.writers_commit_of_ne hj] at hsoundj
      obtain ⟨slug', hslug', ⟨row, hrow, hid⟩ | ⟨_, _, hcons, -⟩⟩ := hsoundj.known page hpage
      · obtain rfl : slug = slug' := Except.ok.inj ((hcalls j).2.symm.trans hslug')
        rw [← (hcalls j).1]
        exact ⟨row, hrow, hid⟩
      · exact absurd ((hothers j hj).2.symm.trans hcons) (by simp)
  · rw [WikiStore.reading, hnone] at hreading
    exact absurd hreading.symm PageUpdate.upserted_ne_none
  · rw [hpc]
    simp
  · by_cases hj : j = i
    · rw [hj, WriteState.writers_commit_self]
      exact ⟨fun _ ↦ Or.inl rfl, fun _ ↦ rfl⟩
    · rw [WriteState.writers_commit_of_ne hj]
      exact ⟨Or.inr, fun hor ↦ hor.resolve_left hj⟩

/-- **One step** of a call that is not disturbed. -/
theorem step (h : PagesSound unicode updates tenantId slug newId s)
    (hcalls : ForPage unicode updates tenantId slug)
    (hguard : s.Undisturbed updates tenantId slug i)
    (hstep : s.upsert unicode sameJson updates i = some s') :
    PagesSound unicode updates tenantId slug newId s' ∧
      WriteState.Takes updates tenantId slug newId i s s' := by
  have hsound := (WriteState.effect_of_step hstep).writersSound h.writers
  rcases WriteState.upsert_cases hstep with ⟨move, hmove, ⟨rfl, -⟩ | ⟨rfl, rfl⟩⟩ |
    ⟨pc, writes, hmove, hfree, ⟨-, rfl⟩ | ⟨hfits, -⟩⟩
  · exact absurd hmove (WriterPc.move_ne_raise (hcalls i).2)
  · obtain ⟨page, found, hpc⟩ := WriterPc.commit_of_move hmove
    exact h.commit hcalls hsound hpc
  · have hadvances := h.advances hcalls hguard hmove hfree
    refine ⟨h.write hsound hguard hmove hadvances, .stays rfl fun j ↦ ?_⟩
    by_cases hj : j = i
    · have hnot : (s.writers i).pc ≠ .done := by
        intro hdone
        rw [hdone] at hmove
        cases hmove
      have hnot' : pc ≠ .done := WriterPc.ne_done_of_move hmove
      rw [hj, WriteState.writers_write_self]
      exact ⟨fun hdone ↦ absurd hdone hnot', fun hdone ↦ absurd hdone hnot⟩
    · rw [WriteState.writers_write_of_ne hj]
  · exact absurd (h.advances hcalls hguard hmove hfree).fits hfits

theorem ne_failed (h : PagesSound unicode updates tenantId slug newId s) (i : Fin n) :
    (s.writers i).pc ≠ .failed := by
  intro hpc
  have hstage := h.stage i
  unfold PageUpdate.Stage at hstage
  rw [hpc] at hstage
  exact hstage

end PagesSound

/-! ## Progress -/

/-- A call that has not ended and need not wait has a step. -/
theorem WriteState.exists_upsert (unicode : UnicodeData)
    (sameJson : Option PyValue → Option PyValue → Bool) (updates : Fin n → PageUpdate)
    (hdone : (s.writers i).pc ≠ .done) (hfailed : (s.writers i).pc ≠ .failed)
    (hfree : ∀ writes, ¬s.Blocked i writes) :
    ∃ s', s.upsert unicode sameJson updates i = some s' := by
  have hmove : ∃ move, (s.writers i).pc.move unicode sameJson (.createOrUpdatePage (updates i))
      (s.visible i) s.nextId = some move := by
    cases hpc : (s.writers i).pc with
    | flushRevision page revisionNo found => cases found <;> exact ⟨_, rfl⟩
    | done => exact absurd hpc hdone
    | failed => exact absurd hpc hfailed
    | _ => exact ⟨_, rfl⟩
  obtain ⟨move, hmove⟩ := hmove
  unfold upsert step
  dsimp only
  rw [hmove]
  cases move with
  | raise => exact ⟨_, rfl⟩
  | commit => exact ⟨_, rfl⟩
  | statement pc writes =>
    dsimp only
    rw [if_neg (hfree writes)]
    split <;> exact ⟨_, rfl⟩

namespace PagesSound

theorem exists_of_no_writes {next : WriterPc}
    (hmove : (s.writers i).pc.move unicode sameJson (.createOrUpdatePage (updates i))
      (s.visible i) s.nextId = some (.statement next [])) :
    ∃ s', s.upsert unicode sameJson updates i = some s' := by
  unfold WriteState.upsert WriteState.step
  dsimp only
  rw [hmove]
  dsimp only
  rw [if_neg]
  · split <;> exact ⟨_, rfl⟩
  · rintro ⟨j, -, lock, hlock, -⟩
    exact absurd hlock (by simp)

/-- **The calls do not wait for each other for ever.** -/
theorem proceeds (h : PagesSound unicode updates tenantId slug newId s)
    (hstuck : ∀ i, s.upsert unicode sameJson updates i = none) (i : Fin n) :
    (s.writers i).pc = .done := by
  -- whoever has read the page and not yet the largest number has a step
  have hselectMax : ∀ j page, (s.writers j).pc ≠ .selectMax page := by
    intro j page hpc
    have hmove : (s.writers j).pc.move unicode sameJson (.createOrUpdatePage (updates j))
        (s.visible j) s.nextId
          = some (.statement (.selectRevision page ((s.visible j).nextRevisionNo page.id)) []) := by
      rw [hpc]
      rfl
    obtain ⟨s', hs'⟩ := exists_of_no_writes hmove
    exact absurd (hs'.symm.trans (hstuck j)) (by simp)
  have hlocks : ∀ j, ¬(s.writers j).pc.Numbering → (s.writers j).pending = [] := by
    intro j hnot
    have hstage := h.stage j
    unfold PageUpdate.Stage at hstage
    cases hpc : (s.writers j).pc with
    | selectPage | insertPage | done | failed =>
      exact (h.writers.sound j).fresh (by rw [hpc]; rfl)
    | flushPage page =>
      rw [hpc] at hstage
      exact hstage.1
    | selectMax page => exact absurd hpc (hselectMax j page)
    | selectRevision | flushRevision | flushCurrent | deleteLinks | insertLinks | commit =>
      rw [hpc] at hnot
      exact absurd trivial hnot
  have hends : ∀ j, (∀ k, k ≠ j → ¬(s.writers k).pc.Numbering) → (s.writers j).pc = .done := by
    intro j hothers
    by_contra hdone
    obtain ⟨s', hs'⟩ := WriteState.exists_upsert unicode sameJson updates hdone (h.ne_failed j)
      fun writes hblocked ↦ by
        obtain ⟨k, hk, lock, -, hlock⟩ := hblocked
        rw [hlocks k (hothers k hk)] at hlock
        exact absurd hlock (by simp)
    exact absurd (hs'.symm.trans (hstuck j)) (by simp)
  -- so nobody is numbering: such a call would be the only one, and would not wait
  have hnobody : ∀ j, ¬(s.writers j).pc.Numbering := by
    intro j hj
    have hdone := hends j fun k hk hnumbering ↦ hk (h.numbering k j hnumbering hj)
    rw [hdone] at hj
    exact hj
  exact hends i fun k _ ↦ hnobody k

end PagesSound

/-! ## One call after another -/

/-- What a call has found is what its transaction sees. -/
def WriterPc.UpToDate (tenantId slug : String) (w : WikiStore) : WriterPc → Prop
  | insertPage _ _ => w.pageBySlug tenantId slug = none
  | flushPage page => w.pageBySlug tenantId slug = some page
  | selectMax page => w.pageBySlug tenantId slug = some page
  | selectRevision page _ => w.pageBySlug tenantId slug = some page
  | flushRevision page _ _ => w.pageBySlug tenantId slug = some page
  | flushCurrent page _ _ => w.pageBySlug tenantId slug = some page
  | selectPage | deleteLinks _ _ | insertLinks _ _ | commit _ _ | done | failed => True

def WriterPc.rank : WriterPc → ℕ
  | selectPage => 0
  | insertPage _ _ => 1
  | flushPage _ => 1
  | selectMax _ => 2
  | selectRevision _ _ => 3
  | flushRevision _ _ _ => 4
  | flushCurrent _ _ _ => 5
  | deleteLinks _ _ => 6
  | insertLinks _ _ => 7
  | commit _ _ => 8
  | done => 9
  | failed => 9

/-- The next statement of a call that is up to date. -/
theorem WriterPc.UpToDate.move {update : PageUpdate} {w : WikiStore} {nextId : ℕ}
    {pc' : WriterPc} (h : pc.UpToDate tenantId slug w) (hkey : update.tenantId = tenantId)
    (hslug : requireSlug unicode (orElse update.slug update.title) = .ok slug)
    (hinsert : ∀ other otherSlug, pc = .insertPage other otherSlug →
      other = update ∧ otherSlug = slug)
    (hfits : ∀ write ∈ writes, write.Fits w)
    (hmove : pc.move unicode sameJson (.createOrUpdatePage update) w nextId
      = some (.statement pc' writes)) :
    pc'.UpToDate tenantId slug (w.overlay writes) ∧ pc'.rank = pc.rank + 1 := by
  subst hkey
  have hrequest : (WriteRequest.createOrUpdatePage update).slug unicode = .ok slug := hslug
  cases pc with
  | selectPage =>
    simp only [WriterPc.move, hrequest, Option.some.injEq] at hmove
    split at hmove
    · rename_i page hpage
      obtain ⟨rfl, rfl⟩ := WriterMove.statement.inj hmove
      exact ⟨hpage, rfl⟩
    · rename_i other hpage heq
      obtain ⟨rfl, rfl⟩ := WriterMove.statement.inj hmove
      exact ⟨hpage, rfl⟩
    · cases hmove
  | insertPage other otherSlug =>
    obtain ⟨rfl, rfl⟩ := hinsert _ _ rfl
    obtain ⟨rfl, rfl⟩ := WriterMove.statement.inj (Option.some.inj hmove)
    refine ⟨Table.lookup_eq_some.mpr ⟨?_, rfl⟩, rfl⟩
    have hfree : w.pages.Free _ := hfits _ List.mem_cons_self
    change _ ∈ (w.pages.add _).rows
    rw [hfree.rows_add]
    exact List.mem_append_right _ (List.mem_singleton_self _)
  | flushPage page =>
    obtain ⟨rfl, rfl⟩ := WriterMove.statement.inj (Option.some.inj hmove)
    -- put into the row that was read, the fields that differ give the page in memory
    refine ⟨(WikiStore.pageBySlug_flushPage h rfl _).trans (congrArg some ?_), rfl⟩
    have hif : ∀ {α : Type} [DecidableEq α] (a b : α), (if a = b then b else a) = a := by
      intro α _ a b
      split
      · rename_i heq
        exact heq.symm
      · rfl
    simp only [pageDiff, hif]
    rfl
  | selectMax page | selectRevision page revisionNo =>
    obtain ⟨rfl, rfl⟩ := WriterMove.statement.inj (Option.some.inj hmove)
    exact ⟨h, rfl⟩
  | flushRevision page revisionNo found =>
    cases found with
    | none =>
      obtain ⟨rfl, rfl⟩ := WriterMove.statement.inj (Option.some.inj hmove)
      exact ⟨h, rfl⟩
    | some revision =>
      obtain ⟨rfl, rfl⟩ := WriterMove.statement.inj (Option.some.inj hmove)
      unfold flushFound
      split <;> exact ⟨h, rfl⟩
  | flushCurrent page found revisionId | deleteLinks page found | insertLinks page found =>
    obtain ⟨rfl, rfl⟩ := WriterMove.statement.inj (Option.some.inj hmove)
    exact ⟨trivial, rfl⟩
  | commit | done | failed => cases hmove

namespace PagesSound

/-- The calls of a list are done, and the others have not begun. -/
structure Idle (unicode : UnicodeData) (updates : Fin n → PageUpdate) (tenantId slug : String)
    (newId : ℕ) (past : List (Fin n)) (s : WriteState n) : Prop where
  sound : PagesSound unicode updates tenantId slug newId s
  done : ∀ i ∈ past, s.writers i = ⟨.done, []⟩
  fresh : ∀ i, i ∉ past → s.writers i = ⟨.selectPage, []⟩

/-- Next to calls that are done or have not begun, one call is under way; `v` is what the page
said when it began. -/
structure Alone (unicode : UnicodeData) (updates : Fin n → PageUpdate) (tenantId slug : String)
    (newId : ℕ) (past : List (Fin n)) (i : Fin n) (v : Option PageReading) (s : WriteState n) :
    Prop where
  sound : PagesSound unicode updates tenantId slug newId s
  new : i ∉ past
  done : ∀ j ∈ past, s.writers j = ⟨.done, []⟩
  fresh : ∀ j, j ≠ i → j ∉ past → s.writers j = ⟨.selectPage, []⟩
  found : (s.writers i).pc.UpToDate tenantId slug (s.visible i)
  effect : (s.writers i).pc ≠ .done ∧ s.store.reading tenantId slug = v ∨
    (s.writers i).pc = .done ∧ s.store.reading tenantId slug = (updates i).upserted newId v

theorem Alone.idle {past : List (Fin n)} {v : Option PageReading}
    (h : Alone unicode updates tenantId slug newId past i v s) (hj : j ≠ i) :
    ¬(s.writers j).pc.Numbering ∧ (s.writers j).pending = [] := by
  by_cases hmem : j ∈ past
  · rw [h.done j hmem]
    exact ⟨id, rfl⟩
  · rw [h.fresh j hj hmem]
    exact ⟨id, rfl⟩

theorem Alone.undisturbed {past : List (Fin n)} {v : Option PageReading}
    (h : Alone unicode updates tenantId slug newId past i v s) :
    s.Undisturbed updates tenantId slug i := by
  have hfound := h.found
  unfold WriteState.Undisturbed
  split
  · rename_i hpc
    have hpending : (s.writers i).pending = [] :=
      (h.sound.writers.sound i).fresh (by rw [hpc]; rfl)
    rw [hpc, WriteState.visible, hpending] at hfound
    exact hfound
  · exact fun j hj ↦ (h.idle hj).1
  · rename_i hpc
    rw [hpc] at hfound
    intro row hrow
    obtain rfl := Option.some.inj (hfound.symm.trans hrow)
    exact ⟨rfl, rfl, fun _ ↦ rfl⟩
  · trivial

/-- A step of a call that is under way alone. -/
theorem Alone.step (sameJson : Option PyValue → Option PyValue → Bool)
    (hcalls : ForPage unicode updates tenantId slug) {past : List (Fin n)}
    {v : Option PageReading} (h : Alone unicode updates tenantId slug newId past i v s)
    (hrank : (s.writers i).pc.rank < 9) :
    ∃ s', s.upsert unicode sameJson updates i = some s' ∧
      Alone unicode updates tenantId slug newId past i v s' ∧
      (s'.writers i).pc.rank = (s.writers i).pc.rank + 1 := by
  -- Nobody else is in a transaction, so no lock is held.
  have hfree : ∀ writes, ¬s.Blocked i writes := by
    rintro writes ⟨j, hj, lock, -, hlock⟩
    rw [(h.idle hj).2] at hlock
    exact absurd hlock (by simp)
  have hdone : (s.writers i).pc ≠ .done := by
    intro hpc
    rw [hpc] at hrank
    exact absurd hrank (by decide)
  obtain ⟨s', hs'⟩ := WriteState.exists_upsert unicode sameJson updates hdone (h.sound.ne_failed i)
    hfree
  obtain ⟨hsound, htakes⟩ := h.sound.step hcalls h.undisturbed hs'
  have heffect : (s'.writers i).pc ≠ .done ∧ s'.store.reading tenantId slug = v ∨
      (s'.writers i).pc = .done ∧
        s'.store.reading tenantId slug = (updates i).upserted newId v := by
    cases htakes with
    | stays hview hsettled =>
      exact h.effect.imp (fun he ↦ ⟨fun hs ↦ he.1 ((hsettled i).mp hs), hview.trans he.2⟩)
        fun he ↦ ⟨(hsettled i).mpr he.1, hview.trans he.2⟩
    | settles hi hview hsettled =>
      obtain ⟨-, hrow⟩ | ⟨hs, -⟩ := h.effect
      · exact Or.inr ⟨(hsettled i).mpr (Or.inl rfl), hrow ▸ hview⟩
      · exact absurd hs hi
  have hne : ∀ j ∈ past, j ≠ i := fun j hj hji ↦ h.new (hji ▸ hj)
  refine ⟨s', hs', ?_⟩
  -- A step raises, commits or sends a statement; that it raises, or that the statement does not
  -- fit, is ruled out.
  rcases WriteState.upsert_cases hs' with ⟨move, hmove, ⟨rfl, -⟩ | ⟨rfl, rfl⟩⟩ |
    ⟨pc, writes, hmove, -, ⟨hfits, rfl⟩ | ⟨hfits, -⟩⟩
  · exact absurd hmove (WriterPc.move_ne_raise (hcalls i).2)
  · obtain ⟨page, found, hpc⟩ := WriterPc.commit_of_move hmove
    refine ⟨⟨hsound, h.new, fun j hj ↦ ?_, fun j hji hj ↦ ?_, ?_, heffect⟩, ?_⟩
    · rw [WriteState.writers_commit_of_ne (hne j hj)]
      exact h.done j hj
    · rw [WriteState.writers_commit_of_ne hji]
      exact h.fresh j hji hj
    · rw [WriteState.writers_commit_self]
      trivial
    · rw [WriteState.writers_commit_self, hpc]
      rfl
  · have hinsert : ∀ other otherSlug, (s.writers i).pc = .insertPage other otherSlug →
        other = updates i ∧ otherSlug = slug := by
      intro other otherSlug hpc
      have hstage := h.sound.stage i
      unfold PageUpdate.Stage at hstage
      rw [hpc] at hstage
      exact hstage
    obtain ⟨hfound, hrank'⟩ := h.found.move (hcalls i).1 (hcalls i).2 hinsert hfits hmove
    refine ⟨⟨hsound, h.new, fun j hj ↦ ?_, fun j hji hj ↦ ?_, ?_, heffect⟩, ?_⟩
    · rw [WriteState.writers_write_of_ne (hne j hj)]
      exact h.done j hj
    · rw [WriteState.writers_write_of_ne hji]
      exact h.fresh j hji hj
    · rw [WriteState.writers_write_self, WriteState.visible_write_self]
      exact hfound
    · rw [WriteState.writers_write_self]
      exact hrank'
  · exact absurd (h.sound.advances hcalls h.undisturbed hmove (hfree writes)).fits hfits

theorem Idle.run_replicate (hcalls : ForPage unicode updates tenantId slug) {past : List (Fin n)}
    (h : Idle unicode updates tenantId slug newId past s) (hi : i ∉ past) :
    let s' := run (WriteState.upsert unicode sameJson updates) s (List.replicate 9 i)
    Idle unicode updates tenantId slug newId (past ++ [i]) s' ∧
      s'.store.reading tenantId slug
        = (updates i).upserted newId (s.store.reading tenantId slug) := by
  have hwriter := h.fresh i hi
  have halone : Alone unicode updates tenantId slug newId past i (s.store.reading tenantId slug)
      s := by
    refine ⟨h.sound, hi, h.done, fun j _ hj ↦ h.fresh j hj, ?_, Or.inl ⟨?_, rfl⟩⟩
    · rw [hwriter]
      trivial
    · rw [hwriter]
      simp
  have hrank : (s.writers i).pc.rank = 0 := by
    rw [hwriter]
    rfl
  -- An upsert takes nine steps, and alone it gets through all of them.
  obtain ⟨hend, hnine⟩ := KnowledgeAlakazam.run_replicate
    (I := Alone unicode updates tenantId slug newId past i (s.store.reading tenantId slug))
    (r := fun s ↦ (s.writers i).pc.rank) (k := 9) (fun s h hlt ↦ h.step sameJson hcalls hlt)
    (m := 9) halone (by rw [hrank])
  intro s'
  have hdone : s'.writers i = ⟨.done, []⟩ := by
    have hnine : (s'.writers i).pc.rank = 9 := by rw [hnine, hrank]
    have hfailed := hend.sound.ne_failed i
    change (s'.writers i).pc ≠ _ at hfailed
    have hpc : (s'.writers i).pc = .done := by
      cases hpc : (s'.writers i).pc with
      | done => rfl
      | failed => exact absurd hpc hfailed
      | _ =>
        rw [hpc] at hnine
        cases hnine
    have hpending : (s'.writers i).pending = [] :=
      (hend.sound.writers.sound i).fresh (by change (s'.writers i).pc.page = none; rw [hpc]; rfl)
    exact congrArg₂ Writer.mk hpc hpending
  refine ⟨⟨hend.sound, fun j hj ↦ ?_, fun j hj ↦ ?_⟩, ?_⟩
  · rcases List.mem_append.mp hj with hj | hj
    · exact hend.done j hj
    · rw [List.mem_singleton.mp hj]
      exact hdone
  · rw [List.mem_append, List.mem_singleton, not_or] at hj
    exact hend.fresh j hj.2 hj.1
  · obtain ⟨hs, -⟩ | ⟨-, hrow⟩ := hend.effect
    · refine absurd ?_ hs
      change (s'.writers i).pc = _
      rw [hdone]
    · exact hrow

theorem initial (unicode : UnicodeData) (updates : Fin n → PageUpdate) (tenantId slug : String)
    {store : WikiStore} (hbelow : store.Below newId) :
    PagesSound unicode updates tenantId slug newId (.initial store newId) where
  writers := writersSound_initial unicode _ store newId
  below := hbelow
  visible _ := hbelow
  stage _ := trivial
  numbering _ _ h := absurd h id
  first _ _ := rfl

end PagesSound

/-- **Main result.** In every run in which no call of `create_or_update_page` disturbs another, no
call raises, none waits for ever, and when all are done there is one page with the slug: it says
what it says when the calls are executed one after another, in some order. -/
theorem createOrUpdatePage_upserted (unicode : UnicodeData)
    (sameJson : Option PyValue → Option PyValue → Bool) (updates : Fin n → PageUpdate)
    (tenantId slug : String) (hcalls : ForPage unicode updates tenantId slug)
    (store : WikiStore) (nextId : ℕ) (hbelow : store.Below nextId) (labels : List (Fin n))
    (hguard : ∀ t ∈ trace (WriteState.upsert unicode sameJson updates) (.initial store nextId)
      labels, t.pre.Undisturbed updates tenantId slug t.label) :
    WriteState.Upserted unicode sameJson updates tenantId slug (.initial store nextId)
      (run (WriteState.upsert unicode sameJson updates) (.initial store nextId) labels) := by
  have hinitial := PagesSound.initial unicode updates tenantId slug hbelow
  obtain ⟨hsound, hlinear⟩ := linearized_run
    (fun s i s' h hguard hstep ↦ h.step hcalls hguard hstep) hinitial
    (fun i h ↦ by cases h) hguard
  refine ⟨?_, fun hn hdone ↦ ?_⟩
  · refine hlinear.serializable (J := PagesSound.Idle unicode updates tenantId slug nextId)
      hsound.ne_failed hsound.proceeds (fun i hdone ↦ hdone) (fun past i s h hi ↦ ?_)
      (fun past i s h hi ↦ h.run_replicate hcalls hi)
      ⟨hinitial, fun i hi ↦ absurd hi (by simp), fun i _ ↦ rfl⟩
    rw [h.done i hi]
  · obtain ⟨reading, hreading⟩ := Option.ne_none_iff_exists'.mp (hlinear.of_settled
      (P := (· ≠ none)) (fun _ _ ↦ PageUpdate.upserted_ne_none) (hdone ⟨0, hn⟩))
    obtain ⟨page, hpage, -⟩ := Option.map_eq_some_iff.mp hreading
    exact ⟨page, Table.lookup_eq_some.mp hpage, fun other hother ↦
      Option.some.inj ((Table.lookup_eq_some.mpr hother).symm.trans hpage)⟩

end Runs

/-! ## Both upserts -/

/-- **Main result.** For any number of calls of `upsert_job` for one tenant and source, and for
any number of calls of `create_or_update_page` for one tenant and slug: in every run in which no
call disturbs another, the calls are serializable, and when all are done there is one row for the
key. -/
theorem upserts_serializable {n m : ℕ} (tenantId sourceId : String)
    (requests : Fin n → UpsertRequest) (jobs : IngestJobs) (jobId : ℕ)
    (hfresh : jobs.find jobId = none) (jobLabels : List (Fin n))
    (hjobs : ∀ t ∈ trace (UpsertState.step tenantId sourceId requests) (.initial jobs jobId)
      jobLabels, t.pre.Undisturbed tenantId sourceId requests t.label)
    (unicode : UnicodeData) (sameJson : Option PyValue → Option PyValue → Bool)
    (updates : Fin m → PageUpdate) (owner slug : String)
    (hcalls : ForPage unicode updates owner slug) (store : WikiStore) (nextId : ℕ)
    (hbelow : store.Below nextId) (pageLabels : List (Fin m))
    (hpages : ∀ t ∈ trace (WriteState.upsert unicode sameJson updates) (.initial store nextId)
      pageLabels, t.pre.Undisturbed updates owner slug t.label) :
    UpsertState.Upserted tenantId sourceId requests (.initial jobs jobId)
        (run (UpsertState.step tenantId sourceId requests) (.initial jobs jobId) jobLabels) ∧
      WriteState.Upserted unicode sameJson updates owner slug (.initial store nextId)
        (run (WriteState.upsert unicode sameJson updates) (.initial store nextId) pageLabels) :=
  ⟨upsertJob_upserted tenantId sourceId requests jobs jobId hfresh jobLabels hjobs,
    createOrUpdatePage_upserted unicode sameJson updates owner slug hcalls store nextId hbelow
      pageLabels hpages⟩

def documentUploads : Fin 3 → UpsertRequest
  | 0 => ⟨.withDefaults, "raw", "acme/doc/a.pdf", .pending, none, 0⟩
  | 1 => ⟨.withDefaults, "raw", "acme/doc/b.pdf", .pending, none, 1⟩
  | 2 => ⟨.withDefaults, "raw", "acme/doc/c.pdf", .pending, none, 2⟩

def pageUpdates : Fin 3 → PageUpdate
  | 0 => ⟨"acme", "A", some "a", "concept", none, ⟨"one".toList, "markdown", none, none, "agent"⟩⟩
  | 1 => ⟨"acme", "B", some "a", "concept", none, ⟨"two".toList, "markdown", none, none, "agent"⟩⟩
  | 2 =>
    ⟨"acme", "C", some "a", "concept", none, ⟨"three".toList, "markdown", none, none, "agent"⟩⟩

/-- Two calls that find nothing both insert, and the second `INSERT` raises. -/
theorem first_upserts_collide :
    ¬UpsertState.Upserted "acme" "doc" documentUploads (.initial .empty 0)
      (run (UpsertState.step "acme" "doc" documentUploads) (.initial .empty 0)
        [0, 1, 0, 0, 1]) ∧
    ¬WriteState.Upserted asciiData sameAbsent pageUpdates "acme" "a" (.initial .empty 0)
      (run (WriteState.upsert asciiData sameAbsent pageUpdates) (.initial .empty 0)
        ([0, 1] ++ List.replicate 8 0 ++ [1])) := by
  refine ⟨fun h ↦ h.serializable.completes 1 ?_, fun h ↦ h.serializable.completes 1 ?_⟩
  · decide +kernel
  · decide +kernel

/-- A call makes the row or the page, and two that have read it at the same time update it, the
second when the first has committed. -/
theorem later_upserts_serializable :
    UpsertState.Upserted "acme" "doc" documentUploads (.initial .empty 0)
      (run (UpsertState.step "acme" "doc" documentUploads) (.initial .empty 0)
        [0, 0, 0, 1, 2, 1, 1, 2, 2]) ∧
    WriteState.Upserted asciiData sameAbsent pageUpdates "acme" "a" (.initial .empty 0)
      (run (WriteState.upsert asciiData sameAbsent pageUpdates) (.initial .empty 0)
        (List.replicate 9 0 ++ [1, 2] ++ List.replicate 8 1 ++ List.replicate 8 2)) := by
  have hbelow : WikiStore.empty.Below 0 :=
    ⟨fun _ h ↦ absurd h (by simp [WikiStore.empty, Table.empty]),
      fun _ h ↦ absurd h (by simp [WikiStore.empty, Table.empty]),
      fun _ h ↦ absurd h (by simp [WikiStore.empty, Table.empty]),
      fun _ h ↦ absurd h (by simp [WikiStore.empty, Table.empty])⟩
  have hcalls : ForPage asciiData pageUpdates "acme" "a" := by
    unfold ForPage
    decide +kernel
  exact upserts_serializable "acme" "doc" documentUploads .empty 0 rfl _ (by decide +kernel)
    asciiData sameAbsent pageUpdates "acme" "a" hcalls .empty 0 hbelow _ (by decide +kernel)

end KnowledgeAlakazam
