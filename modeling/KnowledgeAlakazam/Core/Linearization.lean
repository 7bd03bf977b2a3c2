import KnowledgeAlakazam.Core.Transition
import Mathlib.Data.List.Nodup

/-!
# Calls that take effect one at a time

Several calls share a state, and each of them takes several steps. A call *takes effect* in one of
its steps when that step does to the view of the state what the whole call is for, and its other
steps leave the view alone. If every call does, then the view is at any time what the calls that
have taken effect would have made of it one after another, in the order in which they did.

The second half is about the runs in which the calls do come one after another, all steps of one
before the first of the next.
-/

namespace KnowledgeAlakazam

universe u v w

variable {σ : Type u} {ι : Type v} {V : Type w}

/-- What a list of calls makes of a value, one after another. -/
def inTurn (act : ι → V → V) (order : List ι) (v : V) : V := order.foldl (fun v i ↦ act i v) v

theorem inTurn_concat (act : ι → V → V) (order : List ι) (i : ι) (v : V) :
    inTurn act (order ++ [i]) v = act i (inTurn act order v) := by
  rw [inTurn, List.foldl_append]
  rfl

/-- The calls that have taken effect did so one after another. -/
def Linearized (act : ι → V → V) (settled : ι → Prop) (v₀ v : V) : Prop :=
  ∃ order : List ι, order.Nodup ∧ (∀ i, i ∈ order ↔ settled i) ∧ inTurn act order v₀ = v

/-- A step of a call: the view stays, or the call takes effect. -/
inductive TakesEffect (view : σ → V) (settled : σ → ι → Prop) (act : ι → V → V) (i : ι)
    (s s' : σ) : Prop
  | stays (hview : view s' = view s) (hsettled : ∀ j, settled s' j ↔ settled s j)
  | settles (hi : ¬settled s i) (hview : view s' = act i (view s))
    (hsettled : ∀ j, settled s' j ↔ j = i ∨ settled s j)

section Rules

variable {act : ι → V → V} {view : σ → V} {settled : σ → ι → Prop} {s s' : σ} {i : ι} {v₀ : V}

/-- **One step** of a call. -/
theorem Linearized.step (h : Linearized act (settled s) v₀ (view s))
    (hstep : TakesEffect view settled act i s s') :
    Linearized act (settled s') v₀ (view s') := by
  obtain ⟨order, hnodup, hmem, hview₀⟩ := h
  cases hstep with
  | stays hview hsettled =>
    exact ⟨order, hnodup, fun j ↦ (hmem j).trans (hsettled j).symm, hview₀.trans hview.symm⟩
  | settles hi hview hsettled =>
    have hnew : i ∉ order := fun hin ↦ hi ((hmem i).mp hin)
    refine ⟨order ++ [i], ?_, fun j ↦ ?_, ?_⟩
    · rw [List.nodup_append]
      refine ⟨hnodup, List.nodup_singleton i, fun a ha b hb ↦ ?_⟩
      rw [List.mem_singleton.mp hb]
      rintro rfl
      exact hnew ha
    · rw [hsettled, List.mem_append, List.mem_singleton, hmem, or_comm]
    · rw [inTurn_concat, hview₀, hview]

variable {step : σ → ι → Option σ} {I : σ → Prop} {G : Transition σ ι → Prop}

/-- **The rule for guarded runs.** If every guarded step of a call leaves the view or takes
effect, then at the end of a guarded run the calls have taken effect one after another. -/
theorem linearized_run
    (hstep : ∀ s i s', I s → G ⟨s, i, s'⟩ → step s i = some s' →
      I s' ∧ TakesEffect view settled act i s s')
    (h₀ : I s) (hnone : ∀ i, ¬settled s i) {labels : List ι}
    (hG : ∀ t ∈ trace step s labels, G t) :
    I (run step s labels) ∧
      Linearized act (settled (run step s labels)) (view s) (view (run step s labels)) := by
  refine guarded_run_induction
    (I := fun s' ↦ I s' ∧ Linearized act (settled s') (view s) (view s')) ?_ ⟨h₀, ?_⟩ hG
  · rintro s₁ i s₂ ⟨hI, hlinear⟩ hg h
    obtain ⟨hI', heffect⟩ := hstep s₁ i s₂ hI hg h
    exact ⟨hI', hlinear.step heffect⟩
  · exact ⟨[], List.nodup_nil, fun i ↦ ⟨fun h ↦ absurd h (by simp), fun h ↦ absurd h (hnone i)⟩,
      rfl⟩

end Rules

/-! ## One call after another -/

section OneByOne

variable {step : σ → ι → Option σ} {s : σ}

theorem run_append (as bs : List ι) :
    run step s (as ++ bs) = run step (run step s as) bs := by
  induction as generalizing s with
  | nil => rfl
  | cons a as ih =>
    rw [List.cons_append]
    cases ha : step s a with
    | none => rw [run_cons_of_none ha, run_cons_of_none ha, ih]
    | some s' => rw [run_cons_of_some ha, run_cons_of_some ha, ih]

/-- A call that can go on until it has taken `k` steps takes them. -/
theorem run_replicate {I : σ → Prop} {r : σ → ℕ} {i : ι} {k : ℕ}
    (hstep : ∀ s, I s → r s < k → ∃ s', step s i = some s' ∧ I s' ∧ r s' = r s + 1)
    {m : ℕ} (h : I s) (hm : r s + m ≤ k) :
    I (run step s (List.replicate m i)) ∧
      r (run step s (List.replicate m i)) = r s + m := by
  induction m generalizing s with
  | zero => exact ⟨h, rfl⟩
  | succ m ih =>
    obtain ⟨s', hs', hI, hr⟩ := hstep s h (by omega)
    rw [List.replicate_succ, run_cons_of_some hs']
    obtain ⟨hend, htop⟩ := ih hI (by omega)
    exact ⟨hend, by omega⟩

/-- The calls of a list one after another, with `k` steps each. -/
def oneByOne (k : ℕ) (order : List ι) : List ι := order.flatMap (List.replicate k)

/-- **The rule for serial runs.** If a call on its own takes effect, then calls that come one after
another do. -/
theorem serial_run {act : ι → V → V} {π : σ → V} {k : ℕ} {J : List ι → σ → Prop}
    (halone : ∀ past i s, J past s → i ∉ past →
      J (past ++ [i]) (run step s (List.replicate k i)) ∧
        π (run step s (List.replicate k i)) = act i (π s))
    (h : J [] s) {order : List ι} (hnodup : order.Nodup) :
    J order (run step s (oneByOne k order)) ∧
      π (run step s (oneByOne k order)) = inTurn act order (π s) := by
  suffices hrun : ∀ past : List ι, (past ++ order).Nodup → J past s →
      J (past ++ order) (run step s (oneByOne k order)) ∧
        π (run step s (oneByOne k order)) = inTurn act order (π s) from
    hrun [] hnodup h
  clear hnodup h
  induction order generalizing s with
  | nil =>
    intro past _ hidle
    rw [List.append_nil]
    exact ⟨hidle, rfl⟩
  | cons i order ih =>
    intro past hnodup hidle
    have hi : i ∉ past := fun hmem ↦
      (List.nodup_append.mp hnodup).2.2 i hmem i List.mem_cons_self rfl
    have hassoc : past ++ i :: order = (past ++ [i]) ++ order := by
      rw [List.append_assoc, List.singleton_append]
    obtain ⟨hidle', hview⟩ := halone past i s hidle hi
    obtain ⟨hend, hrest⟩ := ih (past ++ [i]) (hassoc ▸ hnodup) hidle'
    rw [oneByOne, List.flatMap_cons, run_append, hassoc]
    exact ⟨hend, hrest.trans (congrArg (inTurn act order) hview)⟩

/-- What is asked of calls that run next to each other, in a state of a run from `s₀`. -/
structure Serializable (step : σ → ι → Option σ) (failed done : σ → ι → Prop) (view : σ → V)
    (k : ℕ) (s₀ s : σ) : Prop where
  /-- No call raises. -/
  completes : ∀ i, ¬failed s i
  /-- The calls do not wait for each other for ever. -/
  proceeds : (∀ i, step s i = none) → ∀ i, done s i
  /-- When all are done, the view is what they leave when they are executed one after another, in
  some order. -/
  serial : (∀ i, done s i) → ∃ order : List ι, order.Nodup ∧ (∀ i, i ∈ order) ∧
    (∀ i, done (run step s₀ (oneByOne k order)) i) ∧
      view s = view (run step s₀ (oneByOne k order))

/-- **From linearization points to serial runs.** -/
theorem Linearized.serializable {act : ι → V → V} {settled : ι → Prop}
    {failed finished : σ → ι → Prop} {π : σ → V} {k : ℕ} {J : List ι → σ → Prop} {s₀ : σ}
    (h : Linearized act settled (π s₀) (π s)) (hcompletes : ∀ i, ¬failed s i)
    (hproceeds : (∀ i, step s i = none) → ∀ i, finished s i)
    (hsettled : ∀ i, finished s i → settled i)
    (hfinished : ∀ past i s, J past s → i ∈ past → finished s i)
    (halone : ∀ past i s, J past s → i ∉ past →
      J (past ++ [i]) (run step s (List.replicate k i)) ∧
        π (run step s (List.replicate k i)) = act i (π s))
    (h₀ : J [] s₀) : Serializable step failed finished π k s₀ s := by
  refine ⟨hcompletes, hproceeds, fun hdone ↦ ?_⟩
  obtain ⟨order, hnodup, hmem, hview⟩ := h
  have hall : ∀ i, i ∈ order := fun i ↦ (hmem i).mpr (hsettled i (hdone i))
  obtain ⟨hend, hserial⟩ := serial_run halone h₀ hnodup
  exact ⟨order, hnodup, hall, fun i ↦ hfinished order i _ hend (hall i),
    hview.symm.trans hserial.symm⟩

/-- If any call changes the view to one that satisfies a property, it does once one is done. -/
theorem Linearized.of_settled {act : ι → V → V} {settled : ι → Prop} {v₀ v : V} {P : V → Prop}
    (h : Linearized act settled v₀ v) (hact : ∀ i v, P (act i v)) {i : ι} (hi : settled i) :
    P v := by
  obtain ⟨order, -, hmem, rfl⟩ := h
  obtain ⟨past, j, rfl⟩ := (List.eq_nil_or_concat order).resolve_left fun hnil ↦
    absurd ((hmem i).mpr hi) (by rw [hnil]; simp)
  rw [List.concat_eq_append, inTurn_concat]
  exact hact j _

end OneByOne

end KnowledgeAlakazam
