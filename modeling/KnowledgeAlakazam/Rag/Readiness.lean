import KnowledgeAlakazam.Rag.Lifecycle

/-!
# When a runtime can be asked

`initialize` may break off anywhere and be called again on what the last call left, and `shutdown`
may come in between. A runtime that says it is initialized can be asked all the same: its
RAG-Anything object is the one that the last call built, on the LightRAG object that it built,
with both caches, and the storages are open (`Sound.step`).

The other result is a bound. A runtime builds one LightRAG object, and another one only after a
call of `initialize` has failed or a `shutdown` has returned (`built_step`).
-/

namespace KnowledgeAlakazam

/-- `LightRAG(...)` has returned. -/
def InitStep.afterBuild : InitStep → Bool
  | applyEnvironment => false
  | importPackages => false
  | makeDirectories => false
  | modelFunctions => false
  | buildLightRAG => false
  | _ => true

/-- After the step an object may have to be built again. -/
def RuntimeLabel.restarts : RuntimeLabel → Bool
  | raises _ => true
  | ensured (some ⟨true, _⟩) => false
  | ensured _ => true
  | shutdown none => true
  | _ => false

namespace RAGRuntime

variable {p : RAGPackages} {s s' : RAGRuntime} {label : RuntimeLabel}

/-- The runtime can be asked: RAG-Anything stands on the LightRAG object of the runtime, whose
storages are open, and has its caches. -/
structure ReadyFor (s : RAGRuntime) (i : ℕ) : Prop where
  lightrag : s.lightrag = some i
  ragAnything : s.ragAnything = some ⟨i, true, true⟩
  isOpen : s.Open i

/-- What is there when `initialize` comes to an operation. -/
def Reached (s : RAGRuntime) : InitStep → Prop
  | .openStorages => ∃ i, s.lightrag = some i ∧ i ∉ s.finalized
  | .buildConfig => ∃ i, s.lightrag = some i ∧ s.Open i
  | .buildRAGAnything => ∃ i, s.lightrag = some i ∧ s.Open i
  | .installParser => ∃ i a b, s.lightrag = some i ∧ s.Open i ∧ s.ragAnything = some ⟨i, a, b⟩
  | .importCache => ∃ i a b, s.lightrag = some i ∧ s.Open i ∧ s.ragAnything = some ⟨i, a, b⟩
  | .installParseCache => ∃ i a b, s.lightrag = some i ∧ s.Open i ∧ s.ragAnything = some ⟨i, a, b⟩
  | .installStatusCache => ∃ i b, s.lightrag = some i ∧ s.Open i ∧ s.ragAnything = some ⟨i, true, b⟩
  | .ensure => ∃ i, s.ReadyFor i
  | _ => True

/-- Every object that the runtime knows of has been built. -/
def Numbered (s : RAGRuntime) : Prop :=
  ∀ i, i ∈ s.finalized ∨ s.lightrag = some i ∨ s.ragAnything.map RAGAnything.lightrag = some i →
    i < s.created

/-- The invariant: the flag is true of runtimes that can be asked only. -/
structure Sound (s : RAGRuntime) : Prop where
  doing : ∀ at_, s.doing = some at_ → s.initialized = false ∧ s.Reached at_
  ready : s.initialized = true → ∃ i, s.ReadyFor i
  numbered : s.Numbered

theorem sound_start : Sound start where
  doing _ h := absurd h (Option.some_ne_none _).symm
  ready h := absurd h Bool.false_ne_true
  numbered i h := by simp [start] at h

/-! ## One operation -/

theorem Numbered.goto (hn : s.Numbered) (hinit : s.initialized = false) {at_ : InitStep}
    (h : (s.goto at_).Reached at_) : (s.goto at_).Sound where
  doing _ heq := Option.some.inj heq ▸ ⟨hinit, h⟩
  ready h := absurd (hinit.symm.trans h) Bool.false_ne_true
  numbered := hn

theorem Numbered.succeed (hn : s.Numbered) {i : ℕ} (h : s.ReadyFor i) : s.succeed.Sound where
  doing _ h := absurd h (Option.some_ne_none _).symm
  ready _ := ⟨i, h.lightrag, h.ragAnything, h.isOpen⟩
  numbered := hn

theorem Sound.fail (hs : s.Sound) (e : PyException) : (s.fail e).Sound where
  doing _ h := absurd h (Option.some_ne_none _).symm
  ready h := by
    obtain ⟨i, hready⟩ := hs.ready h
    exact ⟨i, hready.lightrag, hready.ragAnything, hready.isOpen⟩
  numbered := hs.numbered

/-- The loop over the caches goes on with an object that stands on open storages. -/
theorem Sound.nextCache (hs : s.Sound) (hinit : s.initialized = false) {i : ℕ}
    (hi : s.lightrag = some i) (hopen : s.Open i) (a b : Bool) :
    (s.nextCache p ⟨i, a, b⟩).Sound := by
  have hn : Numbered { s with ragAnything := some ⟨i, a, b⟩ } := by
    rintro j (hj | hj | hj)
    · exact hs.numbered j (.inl hj)
    · exact hs.numbered j (.inr (.inl hj))
    · exact hs.numbered j (.inr (.inl (hi.trans hj)))
  rw [RAGRuntime.nextCache]
  cases a with
  | false => exact hn.goto hinit ⟨i, _, _, hi, hopen, rfl⟩
  | true =>
    cases b with
    | false => exact hn.goto hinit ⟨i, _, hi, hopen, rfl⟩
    | true =>
      have hready : ReadyFor { s with ragAnything := some ⟨i, true, true⟩ } i := ⟨hi, rfl, hopen⟩
      simp only [Bool.true_eq_false, if_false, afterCaches]
      split
      · exact hn.goto hinit ⟨i, hi, rfl, hopen⟩
      · exact hn.succeed hready

theorem Sound.returned (hs : s.Sound) {at_ : InitStep} (hdoing : s.doing = some at_)
    (h : s.returned p at_ = some s') : s'.Sound := by
  obtain ⟨hinit, hreached⟩ := hs.doing at_ hdoing
  have hgoto : ∀ at', (s.goto at').Reached at' → s' = s.goto at' → s'.Sound :=
    fun at' hreached heq ↦ heq ▸ hs.numbered.goto hinit hreached
  cases at_ with
  | applyEnvironment => exact hgoto .importPackages trivial (Option.some.inj h).symm
  | importPackages => exact hgoto .makeDirectories trivial (Option.some.inj h).symm
  | makeDirectories => exact hgoto .modelFunctions trivial (Option.some.inj h).symm
  | modelFunctions => exact hgoto .buildLightRAG trivial (Option.some.inj h).symm
  -- A new object: its number was not used before, so it is not among the closed ones.
  | buildLightRAG =>
    obtain rfl := Option.some.inj h
    have hfresh : s.created ∉ s.finalized := fun hmem ↦
      absurd (hs.numbered _ (.inl hmem)) (Nat.lt_irrefl _)
    refine ⟨fun _ heq ↦ Option.some.inj heq ▸ ⟨hinit, s.created, rfl, hfresh⟩,
      fun h ↦ absurd (hinit.symm.trans h) Bool.false_ne_true, ?_⟩
    rintro i (hi | hi | hi)
    · exact Nat.lt_succ_of_lt (hs.numbered i (.inl hi))
    · rw [← Option.some.inj hi]
      exact Nat.lt_succ_self _
    · exact Nat.lt_succ_of_lt (hs.numbered i (.inr (.inr hi)))
  | openStorages =>
    obtain ⟨i, hi, rfl⟩ := Option.map_eq_some_iff.mp h
    obtain ⟨j, hj, hfresh⟩ := hreached
    obtain rfl := Option.some.inj (hi.symm.trans hj)
    exact ⟨fun _ heq ↦ Option.some.inj heq ▸ ⟨hinit, i, hi, List.mem_cons_self, hfresh⟩,
      fun h ↦ absurd (hinit.symm.trans h) Bool.false_ne_true, hs.numbered⟩
  | buildConfig => exact hgoto .buildRAGAnything hreached (Option.some.inj h).symm
  | buildRAGAnything => exact absurd h (by simp [RAGRuntime.returned])
  | installParser => exact hgoto .importCache hreached (Option.some.inj h).symm
  | importCache =>
    obtain ⟨r, hr, rfl⟩ := Option.map_eq_some_iff.mp h
    obtain ⟨i, a, b, hi, hopen, hrag⟩ := hreached
    obtain rfl := Option.some.inj (hr.symm.trans hrag)
    exact hs.nextCache hinit hi hopen a b
  | installParseCache =>
    obtain ⟨r, hr, rfl⟩ := Option.map_eq_some_iff.mp h
    obtain ⟨i, a, b, hi, hopen, hrag⟩ := hreached
    obtain rfl := Option.some.inj (hr.symm.trans hrag)
    exact hs.nextCache hinit hi hopen true b
  | installStatusCache =>
    obtain ⟨r, hr, rfl⟩ := Option.map_eq_some_iff.mp h
    obtain ⟨i, b, hi, hopen, hrag⟩ := hreached
    obtain rfl := Option.some.inj (hr.symm.trans hrag)
    exact hs.nextCache hinit hi hopen true true
  | ensure => exact absurd h (by simp [RAGRuntime.returned])

theorem Numbered.target_lt (hn : s.Numbered) {i : ℕ} (h : s.target p = some i) :
    i < s.created := by
  rw [target_eq] at h
  split at h
  · rename_i j hj
    split at h
    · exact hn i (.inr (.inr (hj.trans h)))
    · split at h
      · exact hn i (.inr (.inl h))
      · exact absurd h (Option.some_ne_none _).symm
  · split at h
    · exact hn i (.inr (.inl h))
    · exact absurd h (Option.some_ne_none _).symm

theorem Sound.shutDown (hs : s.Sound) (hdoing : s.doing = none) {failure : Option PyException}
    (h : s.shutDown p failure = some s') : s'.Sound := by
  have hidle : ∀ at_, s.doing ≠ some at_ := fun at_ heq ↦
    absurd (hdoing.symm.trans heq) (Option.some_ne_none _).symm
  unfold RAGRuntime.shutDown at h
  split at h
  · obtain rfl := Option.some.inj h
    refine ⟨fun at_ heq ↦ absurd heq (hidle at_), fun h ↦ absurd h Bool.false_ne_true, ?_⟩
    rintro i (hi | hi | hi)
    · rcases List.mem_append.mp hi with hi | hi
      · exact hs.numbered.target_lt (Option.mem_toList.mp hi)
      · exact hs.numbered i (.inl hi)
    · exact absurd hi (Option.some_ne_none _).symm
    · exact absurd hi (Option.some_ne_none _).symm
  · obtain rfl := Option.some.inj h
    refine ⟨fun at_ heq ↦ absurd heq (hidle at_), fun h ↦ ?_, hs.numbered⟩
    obtain ⟨i, hready⟩ := hs.ready h
    exact ⟨i, hready.lightrag, hready.ragAnything, hready.isOpen⟩
  · exact absurd h (Option.some_ne_none _).symm

theorem Sound.beginInitialize (hs : s.Sound) (hdoing : s.doing = none) :
    (s.beginInitialize p).Sound := by
  have hsame : ∀ outcome, Sound { s with outcome := outcome } := fun outcome ↦
    { doing := fun at_ heq ↦ absurd (hdoing.symm.trans heq) (Option.some_ne_none _).symm
      ready := fun h ↦ by
        obtain ⟨i, hready⟩ := hs.ready h
        exact ⟨i, hready.lightrag, hready.ragAnything, hready.isOpen⟩
      numbered := hs.numbered }
  rw [RAGRuntime.beginInitialize]
  split
  · exact hsame _
  · split
    · exact hsame _
    · rename_i hinit
      exact hs.numbered.goto (Bool.not_eq_true _ ▸ hinit) trivial

/-- **Every step keeps the flag true.** -/
theorem Sound.step (hs : s.Sound) (h : RAGRuntime.step p s label = some s') : s'.Sound := by
  unfold RAGRuntime.step at h
  split at h
  · obtain rfl := Option.some.inj h
    exact hs.beginInitialize ‹_›
  · exact hs.shutDown ‹_› h
  · exact hs.returned ‹_› h
  · obtain ⟨i, hi, rfl⟩ := Option.map_eq_some_iff.mp h
    obtain ⟨hinit, j, hj, hopen⟩ := hs.doing _ ‹_›
    obtain rfl := Option.some.inj (hi.symm.trans hj)
    refine ⟨fun _ heq ↦ Option.some.inj heq ▸ ⟨hinit, i, _, _, hi, hopen, rfl⟩,
      fun h ↦ absurd (hinit.symm.trans h) Bool.false_ne_true, ?_⟩
    rintro j (hj | hj | hj)
    · exact hs.numbered j (.inl hj)
    · exact hs.numbered j (.inr (.inl hj))
    · exact hs.numbered j (.inr (.inl (hi.trans hj)))
  · obtain rfl := Option.some.inj h
    obtain ⟨-, i, hready⟩ := hs.doing _ ‹_›
    unfold RAGRuntime.checkEnsured
    split
    · exact hs.numbered.succeed hready
    · exact hs.fail _
    · exact hs.fail _
  · obtain rfl := Option.some.inj h
    exact hs.fail _
  · exact absurd h (Option.some_ne_none _).symm

/-! ## How a call goes on -/

/-- The steps, by where they take the call of `initialize`. -/
inductive Progress (s : RAGRuntime) : RuntimeLabel → RAGRuntime → Prop
  | begins {label : RuntimeLabel} {s' : RAGRuntime} (hdoing : s.doing = none)
      (hinit : s.initialized = false) (hdoing' : s'.doing = some .applyEnvironment)
      (hcreated : s'.created = s.created) : Progress s label s'
  | goes {label : RuntimeLabel} {s' : RAGRuntime} {at_ at' : InitStep} (hdoing : s.doing = some at_)
      (hdoing' : s'.doing = some at') (hbuilt : at'.afterBuild = at_.afterBuild)
      (hcreated : s'.created = s.created) : Progress s label s'
  | builds {label : RuntimeLabel} {s' : RAGRuntime} (hdoing : s.doing = some .buildLightRAG)
      (hdoing' : s'.doing = some .openStorages) (hcreated : s'.created = s.created + 1) :
      Progress s label s'
  | succeeds {label : RuntimeLabel} {s' : RAGRuntime}
      (hbuilt : s.initialized = true ∨ s.doing.any InitStep.afterBuild = true)
      (hdoing' : s'.doing = none) (hinit' : s'.initialized = true)
      (houtcome : s'.outcome = some (.ok ())) (hcreated : s'.created = s.created) :
      Progress s label s'
  | fails {label : RuntimeLabel} {s' : RAGRuntime} {e : PyException}
      (hlabel : label.restarts = true ∨ s.doing = none ∧ s'.initialized = s.initialized)
      (hdoing' : s'.doing = none) (houtcome : s'.outcome = some (.error e))
      (hcreated : s'.created = s.created) : Progress s label s'
  | shutDown {s' : RAGRuntime} (hdoing' : s'.doing = none) (hcreated : s'.created = s.created) :
      Progress s (.shutdown none) s'

theorem progress_nextCache {at_ : InitStep} (hdoing : s.doing = some at_)
    (hbuilt : at_.afterBuild = true) (r : RAGAnything) :
    Progress s label (s.nextCache p r) := by
  have hsome : s.initialized = true ∨ s.doing.any InitStep.afterBuild = true := by
    rw [hdoing]
    exact .inr hbuilt
  rw [RAGRuntime.nextCache]
  split
  · exact .goes hdoing rfl hbuilt.symm rfl
  · split
    · exact .goes hdoing rfl hbuilt.symm rfl
    · rw [afterCaches]
      split
      · exact .goes hdoing rfl hbuilt.symm rfl
      · exact .succeeds hsome rfl rfl rfl rfl

theorem progress_returned {at_ : InitStep} (hdoing : s.doing = some at_)
    (h : s.returned p at_ = some s') : Progress s label s' := by
  have hgoto : ∀ at', at'.afterBuild = at_.afterBuild → s' = s.goto at' → Progress s label s' := by
    rintro at' hbuilt rfl
    exact .goes hdoing rfl hbuilt rfl
  cases at_ with
  | applyEnvironment => exact hgoto .importPackages rfl (Option.some.inj h).symm
  | importPackages => exact hgoto .makeDirectories rfl (Option.some.inj h).symm
  | makeDirectories => exact hgoto .modelFunctions rfl (Option.some.inj h).symm
  | modelFunctions => exact hgoto .buildLightRAG rfl (Option.some.inj h).symm
  | buildLightRAG =>
    obtain rfl := Option.some.inj h
    exact .builds hdoing rfl rfl
  | openStorages =>
    obtain ⟨i, -, rfl⟩ := Option.map_eq_some_iff.mp h
    exact .goes hdoing rfl rfl rfl
  | buildConfig => exact hgoto .buildRAGAnything rfl (Option.some.inj h).symm
  | buildRAGAnything => exact absurd h (by simp [RAGRuntime.returned])
  | installParser => exact hgoto .importCache rfl (Option.some.inj h).symm
  | importCache =>
    obtain ⟨r, -, rfl⟩ := Option.map_eq_some_iff.mp h
    exact progress_nextCache hdoing rfl r
  | installParseCache =>
    obtain ⟨r, -, rfl⟩ := Option.map_eq_some_iff.mp h
    exact progress_nextCache hdoing rfl _
  | installStatusCache =>
    obtain ⟨r, -, rfl⟩ := Option.map_eq_some_iff.mp h
    exact progress_nextCache hdoing rfl _
  | ensure => exact absurd h (by simp [RAGRuntime.returned])

theorem progress_of_step (h : RAGRuntime.step p s label = some s') : Progress s label s' := by
  unfold RAGRuntime.step at h
  split at h
  · rename_i hdoing
    obtain rfl := Option.some.inj h
    rw [RAGRuntime.beginInitialize]
    split
    · exact .fails (.inr ⟨hdoing, rfl⟩) hdoing rfl rfl
    · split
      · rename_i hinit
        exact .succeeds (.inl hinit) hdoing hinit rfl rfl
      · rename_i hinit
        exact .begins hdoing (Bool.not_eq_true _ ▸ hinit) rfl rfl
  · rename_i hdoing
    unfold RAGRuntime.shutDown at h
    split at h
    · obtain rfl := Option.some.inj h
      exact .shutDown hdoing rfl
    · obtain rfl := Option.some.inj h
      exact .fails (.inr ⟨hdoing, rfl⟩) hdoing rfl rfl
    · exact absurd h (Option.some_ne_none _).symm
  · exact progress_returned ‹_› h
  · rename_i hdoing
    obtain ⟨i, -, rfl⟩ := Option.map_eq_some_iff.mp h
    exact .goes hdoing rfl rfl rfl
  · rename_i hdoing
    obtain rfl := Option.some.inj h
    unfold RAGRuntime.checkEnsured
    split
    · refine .succeeds ?_ rfl rfl rfl rfl
      rw [hdoing]
      exact .inr rfl
    · exact .fails (.inl rfl) rfl rfl rfl
    · exact .fails (.inl rfl) rfl rfl rfl
  · obtain rfl := Option.some.inj h
    exact .fails (.inl rfl) rfl rfl rfl
  · exact absurd h (Option.some_ne_none _).symm

theorem ends_of_step (h : RAGRuntime.step p s label = some s')
    (hlabel : ∀ failure, label ≠ .shutdown failure) (hdoing : s'.doing = none) :
    (∃ e, s'.outcome = some (.error e)) ∨ s'.outcome = some (.ok ()) ∧ s'.initialized = true := by
  cases progress_of_step h with
  | begins _ _ hdoing' => exact absurd (hdoing.symm.trans hdoing') (Option.some_ne_none _).symm
  | goes _ hdoing' => exact absurd (hdoing.symm.trans hdoing') (Option.some_ne_none _).symm
  | builds _ hdoing' => exact absurd (hdoing.symm.trans hdoing') (Option.some_ne_none _).symm
  | succeeds hbuilt hdoing' hinit' houtcome => exact .inr ⟨houtcome, hinit'⟩
  | fails hlabel hdoing' houtcome => exact .inl ⟨_, houtcome⟩
  | shutDown => exact absurd rfl (hlabel none)

/-- While `initialize` holds the lock nobody shuts the runtime down. -/
theorem step_shutdown (h : s.doing ≠ none) (failure : Option PyException) :
    RAGRuntime.step p s (.shutdown failure) = none := by
  cases hdoing : s.doing with
  | none => exact absurd hdoing h
  | some at_ =>
    unfold RAGRuntime.step
    rw [hdoing]

/-! ## How many objects are built -/

/-- The object that is still to be built. -/
def toBuild (s : RAGRuntime) : ℕ :=
  if s.initialized = true ∨ s.doing.any InitStep.afterBuild = true then 0 else 1

theorem toBuild_le (s : RAGRuntime) : s.toBuild ≤ 1 := by
  rw [toBuild]
  split <;> decide

theorem toBuild_eq_of_doing {at_ : InitStep} (hinit : s.initialized = false)
    (hdoing : s.doing = some at_) : s.toBuild = if at_.afterBuild = true then 0 else 1 := by
  simp only [toBuild, hinit, hdoing, Option.any_some, Bool.false_eq_true, false_or]

theorem created_le_of_step (h : RAGRuntime.step p s label = some s') : s.created ≤ s'.created := by
  cases progress_of_step h with
  | begins _ _ _ hcreated => exact Nat.le_of_eq hcreated.symm
  | goes _ _ _ hcreated => exact Nat.le_of_eq hcreated.symm
  | builds _ _ hcreated => exact hcreated ▸ Nat.le_succ _
  | succeeds _ _ _ _ hcreated => exact Nat.le_of_eq hcreated.symm
  | fails _ _ _ hcreated => exact Nat.le_of_eq hcreated.symm
  | shutDown _ hcreated => exact Nat.le_of_eq hcreated.symm

/-- **Another object is built only after a restart.** -/
theorem built_step (hs : s.Sound) (h : RAGRuntime.step p s label = some s') :
    s'.created + s'.toBuild ≤ s.created + s.toBuild + if label.restarts = true then 1 else 0 := by
  have hs' := hs.step h
  have hle := toBuild_le s'
  cases progress_of_step h with
  | begins hdoing hinit hdoing' hcreated =>
    have hbuild : s.toBuild = 1 := by
      simp only [toBuild, hinit, hdoing, Option.any_none, Bool.false_eq_true, or_self, if_false]
    omega
  | goes hdoing hdoing' hbuilt hcreated =>
    rw [toBuild_eq_of_doing (hs.doing _ hdoing).1 hdoing,
      toBuild_eq_of_doing (hs'.doing _ hdoing').1 hdoing', hbuilt, hcreated]
    exact Nat.le_add_right _ _
  | builds hdoing hdoing' hcreated =>
    rw [toBuild_eq_of_doing (hs.doing _ hdoing).1 hdoing,
      toBuild_eq_of_doing (hs'.doing _ hdoing').1 hdoing', hcreated]
    exact Nat.le_add_right _ _
  | succeeds hbuilt hdoing' hinit' houtcome hcreated =>
    have hdone : s'.toBuild = 0 := if_pos (.inl hinit')
    omega
  | fails hlabel hdoing' houtcome hcreated =>
    rcases hlabel with hlabel | ⟨hdoing, hinit⟩
    · rw [if_pos hlabel]
      omega
    · rw [toBuild, toBuild, hdoing, hdoing', hinit, hcreated]
      exact Nat.le_add_right _ _
  | shutDown hdoing' hcreated =>
    have hcost : (if (RuntimeLabel.shutdown none).restarts = true then 1 else 0) = 1 := rfl
    omega

end RAGRuntime

end KnowledgeAlakazam
