import KnowledgeAlakazam.Core.PyValue
import KnowledgeAlakazam.Core.Transition

/-!
# The lifecycle of a RAG runtime

A runtime is initialized when it is first needed, and again after every failure. The calls take a
lock, so a run is a sequence of calls; a step takes the holder of the lock past one operation that
may raise. The LightRAG objects are numbered in the order of their construction. Two ghosts record
which of them had their storages opened and finalized.

`initialize` keeps a partially built object in its fields when it fails, and builds a new one when
it is called again. What `shutdown` finalizes is one object only, so the storages of the other one
stay open for good (`Lost.step`). The main result says which runs this concerns: no storage leaks
as long as no call builds an object on top of one that `shutdown` would then miss.
-/

namespace KnowledgeAlakazam

/-! ## The objects -/

/-- A `RAGAnything`: the LightRAG object it was built on, and which caches it has. -/
structure RAGAnything where
  lightrag : ℕ
  parseCache : Bool
  multimodalStatusCache : Bool
deriving DecidableEq

/-- The setting that is read, and which methods the installed packages have. -/
structure RAGPackages where
  /-- `settings.rag_runtime_disabled`. -/
  disabled : Bool
  /-- `hasattr(self.rag_anything, "finalize_storages")`. -/
  ragAnythingFinalizes : Bool
  /-- `hasattr(self.lightrag, "finalize_storages")`. -/
  lightragFinalizes : Bool
  /-- `callable(self.rag_anything._ensure_lightrag_initialized)`. -/
  ensures : Bool

/-- The operation of `initialize` that comes next. -/
inductive InitStep where
  | applyEnvironment
  | importPackages
  | makeDirectories
  | modelFunctions
  /-- `LightRAG(...)`. -/
  | buildLightRAG
  /-- `self.lightrag.initialize_storages()`. -/
  | openStorages
  | buildConfig
  /-- `RAGAnything(...)`. -/
  | buildRAGAnything
  | installParser
  /-- The import in `_install_raganything_auxiliary_caches`. -/
  | importCache
  | installParseCache
  | installStatusCache
  /-- `_ensure_lightrag_initialized()`. -/
  | ensure
deriving DecidableEq

/-- The exception that leaves `initialize` when an operation raises one. -/
def InitStep.failure (at_ : InitStep) (e : PyException) : PyException :=
  if at_ = .importPackages ∧
      (e.className = "ImportError" ∨ e.className = "ModuleNotFoundError") then
    ⟨"RAGRuntimeUnavailableError",
      "RAG runtime packages are not installed. Run `uv sync --extra rag`."⟩
  else e

/-- The result of `_ensure_lightrag_initialized`, unless it is empty. -/
structure EnsureResult where
  success : Bool
  error : Option String
deriving DecidableEq

/-- A runtime. Ghosts: how many LightRAG objects were built, whose storages were opened, and which
were finalized. -/
structure RAGRuntime where
  lightrag : Option ℕ
  ragAnything : Option RAGAnything
  initialized : Bool
  /-- The call of `initialize` that holds the lock. -/
  doing : Option InitStep
  /-- How the last call ended. -/
  outcome : Option (Except PyException Unit)
  created : ℕ
  opened : List ℕ
  finalized : List ℕ

/-- Who moves: a call begins, or the operation that `initialize` is at ends. -/
inductive RuntimeLabel where
  | initializeCall
  | returns
  /-- `RAGAnything(...)` returns an object that has these caches. -/
  | builds (parseCache multimodalStatusCache : Bool)
  /-- `_ensure_lightrag_initialized` returns. -/
  | ensured (result : Option EnsureResult)
  | raises (e : PyException)
  /-- A call of `shutdown`; the failure is that of `finalize_storages`. -/
  | shutdown (failure : Option PyException)
deriving DecidableEq

namespace RAGRuntime

variable (p : RAGPackages) (s : RAGRuntime)

/-- `__init__`. -/
def start : RAGRuntime := ⟨none, none, false, none, none, 0, [], []⟩

/-! ## The steps -/

/-- `initialize` goes on. -/
def goto (at_ : InitStep) : RAGRuntime := { s with doing := some at_ }

/-- `initialize` raises. -/
def fail (e : PyException) : RAGRuntime := { s with doing := none, outcome := some (.error e) }

/-- `initialize` comes to its end. -/
def succeed : RAGRuntime :=
  { s with initialized := true, doing := none, outcome := some (.ok ()) }

/-- What follows the auxiliary caches. -/
def afterCaches : RAGRuntime := if p.ensures then s.goto .ensure else s.succeed

/-- The loop of `_install_raganything_auxiliary_caches`: a cache that is there is skipped. -/
def nextCache (r : RAGAnything) : RAGRuntime :=
  let s := { s with ragAnything := some r }
  if r.parseCache = false then s.goto .installParseCache
  else if r.multimodalStatusCache = false then s.goto .installStatusCache
  else s.afterCaches p

/-- An operation of `initialize` returns. -/
def returned : InitStep → Option RAGRuntime
  | .applyEnvironment => some (s.goto .importPackages)
  | .importPackages => some (s.goto .makeDirectories)
  | .makeDirectories => some (s.goto .modelFunctions)
  | .modelFunctions => some (s.goto .buildLightRAG)
  | .buildLightRAG =>
    some { s with
      lightrag := some s.created
      created := s.created + 1
      doing := some .openStorages }
  | .openStorages => s.lightrag.map fun i ↦
      { s with opened := i :: s.opened, doing := some .buildConfig }
  | .buildConfig => some (s.goto .buildRAGAnything)
  | .installParser => some (s.goto .importCache)
  | .importCache => s.ragAnything.map fun r ↦ s.nextCache p r
  | .installParseCache => s.ragAnything.map fun r ↦ s.nextCache p { r with parseCache := true }
  | .installStatusCache =>
    s.ragAnything.map fun r ↦ s.nextCache p { r with multimodalStatusCache := true }
  -- these two return something
  | .buildRAGAnything => none
  | .ensure => none

/-- The test of the result of `_ensure_lightrag_initialized`. -/
def checkEnsured (result : Option EnsureResult) : RAGRuntime :=
  match result with
  | some ⟨true, _⟩ => s.succeed
  | some ⟨false, error⟩ => s.fail ⟨"RAGRuntimeUnavailableError",
      "RAG-Anything initialization failed: " ++ error.getD "unknown error"⟩
  | none => s.fail ⟨"RAGRuntimeUnavailableError",
      "RAG-Anything initialization failed: unknown error"⟩

/-- The LightRAG object that `shutdown` finalizes, itself or through the RAG-Anything object. -/
def target : Option ℕ :=
  match s.ragAnything with
  | some r =>
    if p.ragAnythingFinalizes then some r.lightrag
    else if p.lightragFinalizes then s.lightrag else none
  | none => if p.lightragFinalizes then s.lightrag else none

/-- `shutdown`. -/
def shutDown (failure : Option PyException) : Option RAGRuntime :=
  match failure, s.target p with
  | none, target => some { s with
      lightrag := none
      ragAnything := none
      initialized := false
      outcome := some (.ok ())
      finalized := target.toList ++ s.finalized }
  | some e, some _ => some { s with outcome := some (.error e) }
  -- nothing that could raise is called
  | some _, none => none

/-- `initialize`, up to its first operation. -/
def beginInitialize : RAGRuntime :=
  if p.disabled then
    { s with outcome := some (.error ⟨"RAGRuntimeDisabledError",
        "RAG runtime is disabled by RAG_RUNTIME_DISABLED=true"⟩) }
  else if s.initialized then { s with outcome := some (.ok ()) }
  else s.goto .applyEnvironment

def step (s : RAGRuntime) (label : RuntimeLabel) : Option RAGRuntime :=
  match s.doing, label with
  | none, .initializeCall => some (s.beginInitialize p)
  | none, .shutdown failure => s.shutDown p failure
  | some at_, .returns => s.returned p at_
  | some .buildRAGAnything, .builds parseCache multimodalStatusCache => s.lightrag.map fun i ↦
      { s with
        ragAnything := some ⟨i, parseCache, multimodalStatusCache⟩
        doing := some .installParser }
  | some .ensure, .ensured result => some (s.checkEnsured result)
  | some at_, .raises e => some (s.fail (at_.failure e))
  | _, _ => none

/-! ## Leaks -/

/-- The storages of an object are open: `initialize_storages()` returned, and they were not
finalized since. -/
def Open (i : ℕ) : Prop := i ∈ s.opened ∧ i ∉ s.finalized

instance (i : ℕ) : Decidable (s.Open i) := inferInstanceAs (Decidable (_ ∧ _))

/-- What there is to demand of a step: after a `shutdown` that returns no storage is open, and at
any time at most one is. -/
structure NoLeak (t : Transition RAGRuntime RuntimeLabel) : Prop where
  shutdown : t.label = .shutdown none → ∀ i, ¬ t.post.Open i
  unique : ∀ i j, t.post.Open i → t.post.Open j → i = j

/-- The object is the one under the RAG-Anything object, which can finalize it. -/
def Held (i : ℕ) : Prop :=
  p.ragAnythingFinalizes = true ∧ s.ragAnything.map RAGAnything.lightrag = some i

instance (i : ℕ) : Decidable (s.Held p i) := inferInstanceAs (Decidable (_ ∧ _))

/-- The guard: a LightRAG object is built only if every open one is under the RAG-Anything object,
and storages are opened only if none are open. -/
structure Guarded (t : Transition RAGRuntime RuntimeLabel) : Prop where
  build : t.pre.doing = some .buildLightRAG → t.label = .returns →
    ∀ i, t.pre.Open i → t.pre.Held p i
  openStorages : t.pre.doing = some .openStorages → t.label = .returns → ∀ i, ¬ t.pre.Open i

theorem forall_open_iff {P : ℕ → Prop} {s : RAGRuntime} :
    (∀ i, s.Open i → P i) ↔ ∀ i ∈ s.opened, i ∉ s.finalized → P i :=
  ⟨fun h i hi hf ↦ h i ⟨hi, hf⟩, fun h i hi ↦ h i hi.1 hi.2⟩

instance (t : Transition RAGRuntime RuntimeLabel) : Decidable (Guarded p t) :=
  decidable_of_iff
    ((t.pre.doing = some .buildLightRAG → t.label = .returns →
        ∀ i ∈ t.pre.opened, i ∉ t.pre.finalized → t.pre.Held p i) ∧
      (t.pre.doing = some .openStorages → t.label = .returns →
        ∀ i ∈ t.pre.opened, i ∉ t.pre.finalized → False))
    ⟨fun h ↦ ⟨fun hd hl ↦ forall_open_iff.mpr (h.1 hd hl),
      fun hd hl ↦ forall_open_iff.mpr (h.2 hd hl)⟩,
    fun h ↦ ⟨fun hd hl ↦ forall_open_iff.mp (h.build hd hl),
      fun hd hl ↦ forall_open_iff.mp (h.openStorages hd hl)⟩⟩

/-! ## What a step does -/

/-- `initialize` is past the opening of the storages. -/
def Late : Option InitStep → Prop
  | some .buildConfig => True
  | some .buildRAGAnything => True
  | some .installParser => True
  | some .importCache => True
  | some .installParseCache => True
  | some .installStatusCache => True
  | some .ensure => True
  | _ => False

variable {p s}

/-- The objects of two states are the same. -/
structure SameObjects (s s' : RAGRuntime) : Prop where
  lightrag : s'.lightrag = s.lightrag
  ragAnything : s'.ragAnything.map RAGAnything.lightrag = s.ragAnything.map RAGAnything.lightrag
  created : s'.created = s.created
  opened : s'.opened = s.opened
  finalized : s'.finalized = s.finalized
  late : Late s'.doing → Late s.doing
  doing : s'.doing ≠ some .openStorages

/-- The steps, by what they do to the objects. -/
inductive Effect (p : RAGPackages) (s : RAGRuntime) : RuntimeLabel → RAGRuntime → Prop
  | same {label : RuntimeLabel} {s' : RAGRuntime} (h : SameObjects s s')
      (hlabel : label ≠ .shutdown none) : Effect p s label s'
  | build (hdoing : s.doing = some .buildLightRAG) : Effect p s .returns
      { s with lightrag := some s.created, created := s.created + 1, doing := some .openStorages }
  | openStorages {i : ℕ} (hdoing : s.doing = some .openStorages) (hi : s.lightrag = some i) :
      Effect p s .returns { s with opened := i :: s.opened, doing := some .buildConfig }
  | buildRAGAnything {i : ℕ} {a b : Bool} (hdoing : s.doing = some .buildRAGAnything)
      (hi : s.lightrag = some i) : Effect p s (.builds a b)
        { s with ragAnything := some ⟨i, a, b⟩, doing := some .installParser }
  | shutdown (hdoing : s.doing = none) : Effect p s (.shutdown none)
      { s with
        lightrag := none
        ragAnything := none
        initialized := false
        outcome := some (.ok ())
        finalized := (s.target p).toList ++ s.finalized }

theorem sameObjects_goto {at_ at' : InitStep} (h : s.doing = some at_)
    (hlate : Late (some at') → Late (some at_)) (hne : at' ≠ .openStorages) :
    SameObjects s (s.goto at') :=
  ⟨rfl, rfl, rfl, rfl, rfl, fun hl ↦ h ▸ hlate hl, fun heq ↦ hne (Option.some.inj heq)⟩

theorem sameObjects_fail (s : RAGRuntime) (e : PyException) : SameObjects s (s.fail e) :=
  ⟨rfl, rfl, rfl, rfl, rfl, fun hl ↦ hl.elim, fun heq ↦ absurd heq (by simp [fail])⟩

theorem sameObjects_succeed (s : RAGRuntime) : SameObjects s s.succeed :=
  ⟨rfl, rfl, rfl, rfl, rfl, fun hl ↦ hl.elim, fun heq ↦ absurd heq (by simp [succeed])⟩

theorem sameObjects_checkEnsured (s : RAGRuntime) (result : Option EnsureResult) :
    SameObjects s (s.checkEnsured result) := by
  unfold checkEnsured
  split
  · exact sameObjects_succeed s
  · exact sameObjects_fail s _
  · exact sameObjects_fail s _

theorem sameObjects_nextCache {r r' : RAGAnything} (hr : s.ragAnything = some r)
    (heq : r'.lightrag = r.lightrag) (hlate : Late s.doing) :
    SameObjects s (s.nextCache p r') := by
  have hrag : (some r').map RAGAnything.lightrag = s.ragAnything.map RAGAnything.lightrag := by
    rw [hr, Option.map_some, Option.map_some, heq]
  rw [nextCache]
  split
  · exact ⟨rfl, hrag, rfl, rfl, rfl, fun _ ↦ hlate, fun h ↦ absurd h (by simp [goto])⟩
  · split
    · exact ⟨rfl, hrag, rfl, rfl, rfl, fun _ ↦ hlate, fun h ↦ absurd h (by simp [goto])⟩
    · rw [afterCaches]
      split
      · exact ⟨rfl, hrag, rfl, rfl, rfl, fun _ ↦ hlate, fun h ↦ absurd h (by simp [goto])⟩
      · exact ⟨rfl, hrag, rfl, rfl, rfl, fun hl ↦ hl.elim, fun h ↦ absurd h (by simp [succeed])⟩

theorem sameObjects_beginInitialize (h : s.doing = none) :
    SameObjects s (s.beginInitialize p) := by
  rw [beginInitialize]
  split
  · exact ⟨rfl, rfl, rfl, rfl, rfl, id, by simp [h]⟩
  · split
    · exact ⟨rfl, rfl, rfl, rfl, rfl, id, by simp [h]⟩
    · exact ⟨rfl, rfl, rfl, rfl, rfl, fun hl ↦ hl.elim, by simp [goto]⟩

theorem effect_returned {at_ : InitStep} {s' : RAGRuntime} (hdoing : s.doing = some at_)
    (h : s.returned p at_ = some s') : Effect p s .returns s' := by
  have hgoto : ∀ at' : InitStep, (Late (some at') → Late (some at_)) → at' ≠ .openStorages →
      s' = s.goto at' → Effect p s .returns s' := fun at' hlate hne heq ↦
    .same (heq ▸ sameObjects_goto hdoing hlate hne) (by simp)
  cases at_ with
  | applyEnvironment => exact hgoto .importPackages False.elim (by simp) (Option.some.inj h).symm
  | importPackages => exact hgoto .makeDirectories False.elim (by simp) (Option.some.inj h).symm
  | makeDirectories => exact hgoto .modelFunctions False.elim (by simp) (Option.some.inj h).symm
  | modelFunctions => exact hgoto .buildLightRAG False.elim (by simp) (Option.some.inj h).symm
  | buildLightRAG =>
    obtain rfl := Option.some.inj h
    exact .build hdoing
  | openStorages =>
    obtain ⟨i, hi, rfl⟩ := Option.map_eq_some_iff.mp h
    exact .openStorages hdoing hi
  | buildConfig => exact hgoto _ (fun _ ↦ trivial) (by simp) (Option.some.inj h).symm
  | buildRAGAnything => exact absurd h (by simp [returned])
  | installParser => exact hgoto _ (fun _ ↦ trivial) (by simp) (Option.some.inj h).symm
  | importCache =>
    obtain ⟨r, hr, rfl⟩ := Option.map_eq_some_iff.mp h
    exact .same (sameObjects_nextCache hr rfl (hdoing ▸ trivial)) (by simp)
  | installParseCache =>
    obtain ⟨r, hr, rfl⟩ := Option.map_eq_some_iff.mp h
    exact .same (sameObjects_nextCache hr rfl (hdoing ▸ trivial)) (by simp)
  | installStatusCache =>
    obtain ⟨r, hr, rfl⟩ := Option.map_eq_some_iff.mp h
    exact .same (sameObjects_nextCache hr rfl (hdoing ▸ trivial)) (by simp)
  | ensure => exact absurd h (by simp [returned])

theorem effect_shutDown {failure : Option PyException} {s' : RAGRuntime} (hdoing : s.doing = none)
    (h : s.shutDown p failure = some s') : Effect p s (.shutdown failure) s' := by
  unfold shutDown at h
  split at h
  · obtain rfl := Option.some.inj h
    exact .shutdown hdoing
  · obtain rfl := Option.some.inj h
    exact .same ⟨rfl, rfl, rfl, rfl, rfl, id, by simp [hdoing]⟩ (by simp)
  · exact absurd h (by simp)

theorem step_returns {at_ : InitStep} (hdoing : s.doing = some at_) :
    step p s .returns = s.returned p at_ := by
  unfold step
  rw [hdoing]

theorem effect_of_step {label : RuntimeLabel} {s' : RAGRuntime} (h : step p s label = some s') :
    Effect p s label s' := by
  unfold step at h
  split at h
  · rename_i hdoing
    obtain rfl := Option.some.inj h
    exact .same (sameObjects_beginInitialize hdoing) (by simp)
  · exact effect_shutDown ‹_› h
  · exact effect_returned ‹_› h
  · obtain ⟨i, hi, rfl⟩ := Option.map_eq_some_iff.mp h
    exact .buildRAGAnything ‹_› hi
  · obtain rfl := Option.some.inj h
    exact .same (sameObjects_checkEnsured s _) (by simp)
  · obtain rfl := Option.some.inj h
    exact .same (sameObjects_fail s _) (by simp)
  · exact absurd h (by simp)

/-! ## The invariant -/

theorem target_eq (p : RAGPackages) (s : RAGRuntime) :
    s.target p = match s.ragAnything.map RAGAnything.lightrag with
      | some i => if p.ragAnythingFinalizes then some i
        else if p.lightragFinalizes then s.lightrag else none
      | none => if p.lightragFinalizes then s.lightrag else none := by
  rw [target]
  cases s.ragAnything with
  | none => rfl
  | some r => rfl

theorem Held.target_eq {i : ℕ} (h : s.Held p i) : s.target p = some i := by
  rw [RAGRuntime.target_eq, h.2]
  exact if_pos h.1

theorem target_of_none (hp : p.lightragFinalizes = true) (h : s.ragAnything = none) :
    s.target p = s.lightrag := by
  rw [target_eq, h]
  exact if_pos hp

theorem target_of_eq (hp : p.lightragFinalizes = true) {i : ℕ}
    (h : s.ragAnything.map RAGAnything.lightrag = some i) (hl : s.lightrag = some i) :
    s.target p = some i := by
  rw [target_eq, h]
  dsimp only
  rw [if_pos hp, hl, ite_self]

/-- `shutdown` finalizes the open storages, and the fields are about objects that are open. -/
structure Inv (p : RAGPackages) (s : RAGRuntime) : Prop where
  target : ∀ i, s.Open i → s.target p = some i
  held : ∀ i, s.ragAnything.map RAGAnything.lightrag = some i → s.Open i
  late : Late s.doing → ∃ i, s.lightrag = some i ∧ s.Open i
  fresh : s.doing = some .openStorages →
    ∃ i, s.lightrag = some i ∧ i ∉ s.opened ∧ i ∉ s.finalized
  lt_created : ∀ i, i ∈ s.opened ∨ i ∈ s.finalized ∨ s.lightrag = some i → i < s.created

theorem inv_start (p : RAGPackages) : Inv p start where
  target i h := absurd h.1 (by simp [start])
  held i h := absurd h (by simp [start])
  late h := h.elim
  fresh h := absurd h (by simp [start])
  lt_created i h := by simp [start] at h

theorem SameObjects.open_iff {s' : RAGRuntime} (h : SameObjects s s') (i : ℕ) :
    s'.Open i ↔ s.Open i := by
  rw [Open, Open, h.opened, h.finalized]

theorem SameObjects.target_eq {s' : RAGRuntime} (h : SameObjects s s') :
    s'.target p = s.target p := by
  rw [RAGRuntime.target_eq, RAGRuntime.target_eq, h.ragAnything, h.lightrag]

theorem SameObjects.inv {s' : RAGRuntime} (h : SameObjects s s') (hs : Inv p s) : Inv p s' where
  target i hi := by
    rw [h.target_eq]
    exact hs.target i ((h.open_iff i).mp hi)
  held i hi := (h.open_iff i).mpr (hs.held i (h.ragAnything ▸ hi))
  late hl := by
    obtain ⟨i, hi, hopen⟩ := hs.late (h.late hl)
    exact ⟨i, h.lightrag.trans hi, (h.open_iff i).mpr hopen⟩
  fresh hd := absurd hd h.doing
  lt_created i hi := by
    rw [h.opened, h.finalized, h.lightrag] at hi
    rw [h.created]
    exact hs.lt_created i hi

/-- Under the invariant an object is open only if nothing else is. -/
theorem Inv.unique (hs : Inv p s) {i j : ℕ} (hi : s.Open i) (hj : s.Open j) : i = j :=
  Option.some.inj ((hs.target i hi).symm.trans (hs.target j hj))

variable (hp : p.lightragFinalizes = true)

theorem inv_build (hs : Inv p s) (hguard : ∀ i, s.Open i → s.Held p i) :
    Inv p { s with
      lightrag := some s.created, created := s.created + 1, doing := some .openStorages } where
  target i hi := Held.target_eq (s := { s with
    lightrag := some s.created, created := s.created + 1, doing := some .openStorages })
    (hguard i hi)
  held := hs.held
  late h := h.elim
  fresh _ := ⟨s.created, rfl,
    fun hmem ↦ absurd (hs.lt_created _ (Or.inl hmem)) (Nat.lt_irrefl _),
    fun hmem ↦ absurd (hs.lt_created _ (Or.inr (Or.inl hmem))) (Nat.lt_irrefl _)⟩
  lt_created i hi := by
    rcases hi with hi | hi | hi
    · exact Nat.lt_succ_of_lt (hs.lt_created i (Or.inl hi))
    · exact Nat.lt_succ_of_lt (hs.lt_created i (Or.inr (Or.inl hi)))
    · rw [← Option.some.inj hi]
      exact Nat.lt_succ_self _

include hp in
theorem inv_openStorages (hs : Inv p s) (hdoing : s.doing = some .openStorages) {i : ℕ}
    (hi : s.lightrag = some i) (hguard : ∀ j, ¬ s.Open j) :
    Inv p { s with opened := i :: s.opened, doing := some .buildConfig } := by
  obtain ⟨i', hi', -, hfresh⟩ := hs.fresh hdoing
  obtain rfl := Option.some.inj (hi.symm.trans hi')
  -- a RAG-Anything object would be about an open object
  have hnone : s.ragAnything = none := by
    cases hrag : s.ragAnything with
    | none => rfl
    | some r => exact absurd (hs.held r.lightrag (by rw [hrag]; rfl)) (hguard _)
  have hopen : ∀ j, RAGRuntime.Open
      { s with opened := i :: s.opened, doing := some .buildConfig } j → j = i := by
    rintro j ⟨hmem, hnot⟩
    rcases List.mem_cons.mp hmem with heq | hmem
    · exact heq
    · exact absurd ⟨hmem, hnot⟩ (hguard j)
  exact
    { target := fun j hj ↦ by
        rw [hopen j hj]
        exact (target_of_none hp hnone).trans hi
      held := fun j hj ↦ by
        have hrag : s.ragAnything.map RAGAnything.lightrag = some j := hj
        rw [hnone] at hrag
        exact absurd hrag (by simp)
      late := fun _ ↦ ⟨i, hi, List.mem_cons_self, hfresh⟩
      fresh := fun h ↦ absurd h (by simp)
      lt_created := fun j hj ↦ by
        rcases hj with hj | hj
        · rcases List.mem_cons.mp hj with rfl | hj
          · exact hs.lt_created j (Or.inr (Or.inr hi))
          · exact hs.lt_created j (Or.inl hj)
        · exact hs.lt_created j (Or.inr hj) }

include hp in
theorem inv_buildRAGAnything (hs : Inv p s) (hdoing : s.doing = some .buildRAGAnything) {i : ℕ}
    (hi : s.lightrag = some i) (a b : Bool) :
    Inv p { s with ragAnything := some ⟨i, a, b⟩, doing := some .installParser } := by
  obtain ⟨i', hi', hopen⟩ := hs.late (by rw [hdoing]; trivial)
  obtain rfl := Option.some.inj (hi.symm.trans hi')
  exact
    { target := fun j hj ↦ by
        rw [hs.unique hj hopen]
        exact target_of_eq hp rfl hi
      held := fun j hj ↦ Option.some.inj hj ▸ hopen
      late := fun _ ↦ ⟨i, hi, hopen⟩
      fresh := fun h ↦ absurd h (by simp)
      lt_created := hs.lt_created }

theorem not_open_shutdown (hs : Inv p s) (i : ℕ) :
    ¬ RAGRuntime.Open { s with
        lightrag := none
        ragAnything := none
        initialized := false
        outcome := some (.ok ())
        finalized := (s.target p).toList ++ s.finalized } i := by
  rintro ⟨hmem, hnot⟩
  have hopen : s.Open i := ⟨hmem, fun h ↦ hnot (List.mem_append_right _ h)⟩
  exact hnot (List.mem_append_left _ (by rw [hs.target i hopen]; simp))

theorem Inv.target_lt_created (hs : Inv p s) {i : ℕ} (h : s.target p = some i) :
    i < s.created := by
  rw [target_eq] at h
  split at h
  · rename_i j hj
    split at h
    · rw [← Option.some.inj h]
      exact hs.lt_created j (Or.inl (hs.held j hj).1)
    · split at h
      · exact hs.lt_created i (Or.inr (Or.inr h))
      · exact absurd h (by simp)
  · split at h
    · exact hs.lt_created i (Or.inr (Or.inr h))
    · exact absurd h (by simp)

theorem inv_shutdown (hs : Inv p s) (hdoing : s.doing = none) :
    Inv p { s with
      lightrag := none
      ragAnything := none
      initialized := false
      outcome := some (.ok ())
      finalized := (s.target p).toList ++ s.finalized } where
  target i hi := absurd hi (not_open_shutdown hs i)
  held i hi := absurd hi (by simp)
  late h := by rw [hdoing] at h; exact h.elim
  fresh h := absurd (hdoing ▸ h) (by simp)
  lt_created i hi := by
    rcases hi with hi | hi | hi
    · exact hs.lt_created i (Or.inl hi)
    · rcases List.mem_append.mp hi with hi | hi
      · exact hs.target_lt_created (Option.mem_toList.mp hi)
      · exact hs.lt_created i (Or.inr (Or.inl hi))
    · exact absurd hi (by simp)

include hp in
/-- A step that meets the guard keeps the invariant. -/
theorem inv_step {label : RuntimeLabel} {s' : RAGRuntime} (hs : Inv p s)
    (hguard : Guarded p ⟨s, label, s'⟩) (h : step p s label = some s') : Inv p s' := by
  cases effect_of_step h with
  | same hsame _ => exact hsame.inv hs
  | build hdoing => exact inv_build hs (hguard.build hdoing rfl)
  | openStorages hdoing hi =>
    exact inv_openStorages hp hs hdoing hi (hguard.openStorages hdoing rfl)
  | buildRAGAnything hdoing hi => exact inv_buildRAGAnything hp hs hdoing hi _ _
  | shutdown hdoing => exact inv_shutdown hs hdoing

theorem noLeak_of_inv {label : RuntimeLabel} {s' : RAGRuntime} (hs : Inv p s) (hs' : Inv p s')
    (h : step p s label = some s') : NoLeak ⟨s, label, s'⟩ where
  shutdown hlabel := by
    obtain rfl : label = .shutdown none := hlabel
    cases effect_of_step h with
    | same _ hne => exact absurd rfl hne
    | shutdown hdoing => exact not_open_shutdown hs
  unique _ _ hi hj := hs'.unique hi hj

/-! ## A leak is for good -/

/-- The storages of the object are open, and no field leads to a `finalize_storages` of it. -/
structure Lost (p : RAGPackages) (s : RAGRuntime) (i : ℕ) : Prop where
  isOpen : s.Open i
  lightrag : s.lightrag ≠ some i
  held : ¬ s.Held p i
  lt_created : i < s.created

theorem Lost.target_ne {i : ℕ} (h : Lost p s i) : s.target p ≠ some i := by
  rw [target_eq]
  split
  · rename_i j hj
    split
    · rename_i hfinalizes
      exact fun heq ↦ h.held ⟨hfinalizes, hj.trans heq⟩
    · split
      · exact h.lightrag
      · simp
  · split
    · exact h.lightrag
    · simp

/-- **Nothing finds the object again**: new objects have new numbers. -/
theorem Lost.step {i : ℕ} (hs : Lost p s i) {label : RuntimeLabel} {s' : RAGRuntime}
    (h : RAGRuntime.step p s label = some s') : Lost p s' i := by
  cases effect_of_step h with
  | same hsame _ =>
    exact
      { isOpen := (hsame.open_iff i).mpr hs.isOpen
        lightrag := hsame.lightrag ▸ hs.lightrag
        held := fun hheld ↦ hs.held ⟨hheld.1, hsame.ragAnything ▸ hheld.2⟩
        lt_created := hsame.created ▸ hs.lt_created }
  | build hdoing =>
    exact
      { isOpen := hs.isOpen
        lightrag := fun heq ↦ absurd hs.lt_created
          (by rw [← Option.some.inj heq]; exact Nat.lt_irrefl _)
        held := hs.held
        lt_created := Nat.lt_succ_of_lt hs.lt_created }
  | openStorages hdoing hj =>
    exact ⟨⟨List.mem_cons_of_mem _ hs.isOpen.1, hs.isOpen.2⟩, hs.lightrag, hs.held, hs.lt_created⟩
  | buildRAGAnything hdoing hj =>
    exact
      { isOpen := hs.isOpen
        lightrag := hs.lightrag
        held := fun hheld ↦ hs.lightrag (hj.trans hheld.2)
        lt_created := hs.lt_created }
  | shutdown hdoing =>
    refine ⟨⟨hs.isOpen.1, fun hmem ↦ ?_⟩, by simp, fun hheld ↦ absurd hheld.2 (by simp),
      hs.lt_created⟩
    rcases List.mem_append.mp hmem with hmem | hmem
    · exact hs.target_ne (Option.mem_toList.mp hmem)
    · exact hs.isOpen.2 hmem

/-- The last step of the run is a `shutdown` that returns. -/
def EndsWithShutdown (ts : List (Transition RAGRuntime RuntimeLabel)) : Prop :=
  ∃ t ∈ ts.getLast?, t.label = .shutdown none

/-- Once an object is lost, the run leaks when it is shut down. -/
theorem Lost.exists_leak {i : ℕ} (hs : Lost p s i) {labels : List RuntimeLabel}
    (hend : EndsWithShutdown (trace (RAGRuntime.step p) s labels)) :
    ∃ t ∈ trace (RAGRuntime.step p) s labels, ¬ NoLeak t := by
  obtain ⟨t, ht, hlabel⟩ := hend
  have hmem := List.mem_of_getLast? ht
  have hlost := trace_invariant (I := fun s ↦ Lost p s i) (fun s a s' hs h ↦ hs.step h) hs labels
    t hmem
  exact ⟨t, hmem, fun hleak ↦ hleak.shutdown hlabel i hlost.2.2.isOpen⟩

/-- Building an object loses the open one that is not held. -/
theorem lost_build (hs : Inv p s) {i : ℕ} (hopen : s.Open i) (hheld : ¬ s.Held p i) :
    Lost p { s with
      lightrag := some s.created, created := s.created + 1, doing := some .openStorages } i where
  isOpen := hopen
  lightrag heq := absurd (hs.lt_created i (Or.inl hopen.1))
    (by rw [← Option.some.inj heq]; exact Nat.lt_irrefl _)
  held := hheld
  lt_created := Nat.lt_succ_of_lt (hs.lt_created i (Or.inl hopen.1))

theorem leak_openStorages {i j : ℕ} {label : RuntimeLabel} (hi : i ∉ s.finalized) (hj : s.Open j)
    (hne : i ∉ s.opened) : ¬ NoLeak ⟨s, label, { s with
      opened := i :: s.opened, doing := some .buildConfig }⟩ := fun hleak ↦ by
  obtain rfl : j = i := hleak.unique j i ⟨List.mem_cons_of_mem _ hj.1, hj.2⟩
    ⟨List.mem_cons_self, hi⟩
  exact hne hj.1

/-- A step that does not meet the guard leaks at once, or loses an object. -/
theorem leak_or_lost (hs : Inv p s) {label : RuntimeLabel} {s' : RAGRuntime}
    (h : step p s label = some s') (hguard : ¬ Guarded p ⟨s, label, s'⟩) :
    ¬ NoLeak ⟨s, label, s'⟩ ∨ ∃ i, Lost p s' i := by
  by_cases hbuild : s.doing = some .buildLightRAG ∧ label = .returns
  · obtain ⟨hdoing, rfl⟩ := hbuild
    have hnot : ∃ i, s.Open i ∧ ¬ s.Held p i := by
      by_contra hall
      refine hguard ⟨fun _ _ i hopen ↦ ?_, fun h' ↦ absurd (hdoing.symm.trans h') (by simp)⟩
      by_contra hheld
      exact hall ⟨i, hopen, hheld⟩
    obtain ⟨i, hopen, hheld⟩ := hnot
    rw [step_returns hdoing] at h
    obtain rfl := Option.some.inj h
    exact Or.inr ⟨i, lost_build hs hopen hheld⟩
  · by_cases hopening : s.doing = some .openStorages ∧ label = .returns
    · obtain ⟨hdoing, rfl⟩ := hopening
      have hsome : ∃ j, s.Open j := by
        by_contra hall
        exact hguard ⟨fun h' ↦ absurd (hdoing.symm.trans h') (by simp),
          fun _ _ j hj ↦ hall ⟨j, hj⟩⟩
      obtain ⟨j, hj⟩ := hsome
      obtain ⟨i, hi, hne, hfresh⟩ := hs.fresh hdoing
      rw [step_returns hdoing] at h
      obtain ⟨i', hi', rfl⟩ := Option.map_eq_some_iff.mp h
      obtain rfl := Option.some.inj (hi.symm.trans hi')
      exact Or.inl (leak_openStorages hfresh hj hne)
    · exact absurd ⟨fun hd hl ↦ absurd ⟨hd, hl⟩ hbuild, fun hd hl ↦ absurd ⟨hd, hl⟩ hopening⟩ hguard

/-! ## Runs -/

include hp in
theorem guarded_of_noLeak (hs : Inv p s) {labels : List RuntimeLabel}
    (hend : EndsWithShutdown (trace (step p) s labels))
    (hleak : ∀ t ∈ trace (step p) s labels, NoLeak t) :
    ∀ t ∈ trace (step p) s labels, Guarded p t := by
  induction labels generalizing s with
  | nil => exact fun t ht ↦ absurd ht (by simp)
  | cons label labels ih =>
    cases hstep : step p s label with
    | none =>
      rw [trace_cons_of_none hstep] at hend hleak ⊢
      exact ih hs hend hleak
    | some s' =>
      rw [trace_cons_of_some hstep] at hend hleak ⊢
      have hrest : trace (step p) s' labels = [] ∨ EndsWithShutdown (trace (step p) s' labels) := by
        by_cases hnil : trace (step p) s' labels = []
        · exact Or.inl hnil
        · rw [EndsWithShutdown, List.getLast?_cons_of_ne_nil hnil] at hend
          exact Or.inr hend
      -- A step against the guard leaks at once or loses an object, and a lost object leaks at the
      -- shutdown with which the run ends.
      have hguard : Guarded p ⟨s, label, s'⟩ := by
        by_contra hnot
        rcases leak_or_lost hs hstep hnot with hnow | ⟨i, hlost⟩
        · exact hnow (hleak _ List.mem_cons_self)
        · rcases hrest with hnil | hrest
          · obtain ⟨t, ht, hlabel⟩ := hend
            rw [hnil] at ht
            obtain rfl := Option.some.inj ht
            exact (hleak _ List.mem_cons_self).shutdown hlabel i hlost.isOpen
          · obtain ⟨t, ht, hnoLeak⟩ := hlost.exists_leak hrest
            exact hnoLeak (hleak t (List.mem_cons_of_mem _ ht))
      intro t ht
      rcases List.mem_cons.mp ht with rfl | ht
      · exact hguard
      · rcases hrest with hnil | hrest
        · exact absurd (hnil ▸ ht) (by simp)
        · exact ih (inv_step hp hs hguard hstep) hrest
            (fun t' ht' ↦ hleak t' (List.mem_cons_of_mem _ ht')) t ht

end RAGRuntime

/-- **Main result.** In a run all of whose steps meet the guard no storage leaks, and a run that is
shut down at its end leaks nothing only if all of its steps meet the guard. -/
theorem ragRuntime_noLeak {p : RAGPackages} (hp : p.lightragFinalizes = true)
    (labels : List RuntimeLabel) :
    ((∀ t ∈ trace (RAGRuntime.step p) .start labels, RAGRuntime.Guarded p t) →
      ∀ t ∈ trace (RAGRuntime.step p) .start labels, RAGRuntime.NoLeak t) ∧
    (RAGRuntime.EndsWithShutdown (trace (RAGRuntime.step p) .start labels) →
      (∀ t ∈ trace (RAGRuntime.step p) .start labels, RAGRuntime.NoLeak t) →
      ∀ t ∈ trace (RAGRuntime.step p) .start labels, RAGRuntime.Guarded p t) := by
  constructor
  · intro hguard t ht
    have hrun := guarded_trace_invariant (I := RAGRuntime.Inv p)
      (fun s a s' hs hg h ↦ RAGRuntime.inv_step hp hs hg h) (RAGRuntime.inv_start p) hguard t ht
    exact RAGRuntime.noLeak_of_inv hrun.1 hrun.2.2 hrun.2.1
  · exact RAGRuntime.guarded_of_noLeak hp (RAGRuntime.inv_start p)

/-- Packages with all methods, and the runtime enabled. -/
def fullPackages : RAGPackages := ⟨false, true, true, true⟩

/-- A call of `initialize` that comes to the end of `initialize_storages()`. -/
def openingCall : List RuntimeLabel :=
  [.initializeCall, .returns, .returns, .returns, .returns, .returns, .returns]

/-- The rest of the call, up to the check of RAG-Anything. -/
def buildingCall : List RuntimeLabel :=
  [.returns, .builds false false, .returns, .returns, .returns, .returns]

def packageError : PyException := ⟨"RuntimeError", "no connection"⟩

/-- A call that fails before anything is open, one that succeeds, and a `shutdown`. -/
def cleanLabels : List RuntimeLabel :=
  [.initializeCall, .returns, .raises packageError] ++ openingCall ++ buildingCall ++
    [.ensured (some ⟨true, none⟩), .shutdown none]

/-- The run leaks nothing. -/
theorem clean_noLeak :
    RAGRuntime.EndsWithShutdown (trace (RAGRuntime.step fullPackages) .start cleanLabels) ∧
      ¬ ∃ t ∈ trace (RAGRuntime.step fullPackages) .start cleanLabels, ¬ RAGRuntime.NoLeak t := by
  constructor
  · exact ⟨_, rfl, rfl⟩
  · rintro ⟨t, ht, hleak⟩
    exact hleak ((ragRuntime_noLeak (p := fullPackages) rfl cleanLabels).1 (by decide) t ht)

/-- The configuration of RAG-Anything fails once, and the next call succeeds. -/
def leakingLabels : List RuntimeLabel :=
  openingCall ++ [.raises packageError] ++ openingCall ++ buildingCall ++
    [.ensured (some ⟨true, none⟩), .shutdown none]

/-- The storages of the first object are open at the same time as those of the second, and after
the `shutdown`. -/
theorem leaking_run :
    (∃ t ∈ trace (RAGRuntime.step fullPackages) .start leakingLabels,
      t.post.Open 0 ∧ t.post.Open 1) ∧
    (∃ t ∈ trace (RAGRuntime.step fullPackages) .start leakingLabels,
      t.label = .shutdown none ∧ t.post.Open 0) ∧
    ¬ ∀ t ∈ trace (RAGRuntime.step fullPackages) .start leakingLabels, RAGRuntime.NoLeak t := by
  have hshutdown : ∃ t ∈ trace (RAGRuntime.step fullPackages) .start leakingLabels,
      t.label = .shutdown none ∧ t.post.Open 0 := by decide
  refine ⟨by decide, hshutdown, fun hall ↦ ?_⟩
  obtain ⟨t, ht, hlabel, hopen⟩ := hshutdown
  exact (hall t ht).shutdown hlabel 0 hopen

end KnowledgeAlakazam
