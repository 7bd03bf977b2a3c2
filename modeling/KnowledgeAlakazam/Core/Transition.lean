import Mathlib.Data.List.Basic
import Mathlib.Tactic.Common

/-!
# Runs of a labelled step function

A concurrent program is modelled as a partial step function `step : σ → α → Option σ`: the label
says which actor moves and with which outcome of its environment, and `none` says that the actor
cannot make that move now. A run is fed a list of labels and skips the ones that are not enabled,
so every list of labels denotes exactly one run and every interleaving is denoted by some list.

The transitions of a run are listed by `trace`. Safety properties are statements about all of
them, and the two ways to prove one are `run_induction`, for a property of states, and
`trace_invariant`, for a property of transitions under an invariant. A run whose transitions all
meet a guard has its own versions, since many laws of real programs hold only while some
bad-luck interleaving is avoided. Where a law depends on the order of the transitions themselves,
`Since` says what happened last and `split_invariant` carries it along.
-/

namespace KnowledgeAlakazam

universe u v

/-- One transition of a run: the state before it, its label, and the state after it. -/
structure Transition (σ : Type u) (α : Type v) where
  /-- The state in which the label was taken. -/
  pre : σ
  /-- Who moved, and with which outcome. -/
  label : α
  /-- The state the move led to. -/
  post : σ

variable {σ : Type u} {α : Type v}

/-- The state after a list of labels, where a label that is not enabled is skipped. -/
def run (step : σ → α → Option σ) : σ → List α → σ
  | s, [] => s
  | s, a :: as => match step s a with
    | some s' => run step s' as
    | none => run step s as

/-- The transitions a list of labels gives rise to, in order. -/
def trace (step : σ → α → Option σ) : σ → List α → List (Transition σ α)
  | _, [] => []
  | s, a :: as => match step s a with
    | some s' => ⟨s, a, s'⟩ :: trace step s' as
    | none => trace step s as

variable {step : σ → α → Option σ}

@[simp] theorem trace_nil (s : σ) : trace step s [] = [] := rfl

theorem run_cons_of_some {s s' : σ} {a : α} (h : step s a = some s') (as : List α) :
    run step s (a :: as) = run step s' as := by
  rw [run, h]

theorem run_cons_of_none {s : σ} {a : α} (h : step s a = none) (as : List α) :
    run step s (a :: as) = run step s as := by
  rw [run, h]

theorem trace_cons_of_some {s s' : σ} {a : α} (h : step s a = some s') (as : List α) :
    trace step s (a :: as) = ⟨s, a, s'⟩ :: trace step s' as := by
  rw [trace, h]

theorem trace_cons_of_none {s : σ} {a : α} (h : step s a = none) (as : List α) :
    trace step s (a :: as) = trace step s as := by
  rw [trace, h]

theorem label_mem_of_mem_trace {s : σ} {as : List α} {t : Transition σ α}
    (ht : t ∈ trace step s as) : t.label ∈ as := by
  induction as generalizing s with
  | nil => exact absurd ht (by simp)
  | cons a as ih =>
    cases ha : step s a with
    | none =>
      rw [trace_cons_of_none ha] at ht
      exact List.mem_cons_of_mem a (ih ht)
    | some s' =>
      rw [trace_cons_of_some ha] at ht
      rcases List.mem_cons.mp ht with rfl | ht
      · exact List.mem_cons_self
      · exact List.mem_cons_of_mem a (ih ht)

/-! ## The invariant rules -/

/-- **The rule for guarded runs.** An invariant that every guarded transition keeps holds at both
ends of every transition of a run all of whose transitions meet the guard. -/
theorem guarded_trace_invariant {I : σ → Prop} {G : Transition σ α → Prop}
    (hstep : ∀ s a s', I s → G ⟨s, a, s'⟩ → step s a = some s' → I s') {s : σ} (h₀ : I s)
    {as : List α} (hG : ∀ t ∈ trace step s as, G t) :
    ∀ t ∈ trace step s as, I t.pre ∧ step t.pre t.label = some t.post ∧ I t.post := by
  induction as generalizing s with
  | nil => intro t ht; exact absurd ht (by simp)
  | cons a as ih =>
    cases ha : step s a with
    | none =>
      rw [trace_cons_of_none ha] at hG ⊢
      exact ih h₀ hG
    | some s' =>
      rw [trace_cons_of_some ha] at hG ⊢
      have hI' : I s' := hstep s a s' h₀ (hG _ List.mem_cons_self) ha
      intro t ht
      rcases List.mem_cons.mp ht with rfl | ht
      · exact ⟨h₀, ha, hI'⟩
      · exact ih hI' (fun t' ht' ↦ hG t' (List.mem_cons_of_mem _ ht')) t ht

/-- What holds at the start of a run and after each of its transitions holds before each of them. -/
theorem pre_of_post {I : σ → Prop} {s : σ} (h₀ : I s) {as : List α}
    (hpost : ∀ t ∈ trace step s as, I t.post) : ∀ t ∈ trace step s as, I t.pre := by
  induction as generalizing s with
  | nil => intro t ht; exact absurd ht (by simp)
  | cons a as ih =>
    cases ha : step s a with
    | none =>
      rw [trace_cons_of_none ha] at hpost ⊢
      exact ih h₀ hpost
    | some s' =>
      rw [trace_cons_of_some ha] at hpost ⊢
      intro t ht
      rcases List.mem_cons.mp ht with rfl | ht
      · exact h₀
      · exact ih (hpost _ List.mem_cons_self)
          (fun t' ht' ↦ hpost t' (List.mem_cons_of_mem _ ht')) t ht

theorem guarded_run_induction {I : σ → Prop} {G : Transition σ α → Prop}
    (hstep : ∀ s a s', I s → G ⟨s, a, s'⟩ → step s a = some s' → I s') {s : σ} (h₀ : I s)
    {as : List α} (hG : ∀ t ∈ trace step s as, G t) : I (run step s as) := by
  induction as generalizing s with
  | nil => exact h₀
  | cons a as ih =>
    cases ha : step s a with
    | none =>
      rw [trace_cons_of_none ha] at hG
      rw [run_cons_of_none ha]
      exact ih h₀ hG
    | some s' =>
      rw [trace_cons_of_some ha] at hG
      rw [run_cons_of_some ha]
      exact ih (hstep s a s' h₀ (hG _ List.mem_cons_self) ha)
        fun t ht ↦ hG t (List.mem_cons_of_mem _ ht)

theorem trace_invariant {I : σ → Prop}
    (hstep : ∀ s a s', I s → step s a = some s' → I s') {s : σ} (h₀ : I s) (as : List α) :
    ∀ t ∈ trace step s as, I t.pre ∧ step t.pre t.label = some t.post ∧ I t.post :=
  guarded_trace_invariant (G := fun _ ↦ True) (fun s a s' hI _ ↦ hstep s a s' hI) h₀
    fun _ _ ↦ trivial

theorem run_induction {I : σ → Prop}
    (hstep : ∀ s a s', I s → step s a = some s' → I s') {s : σ} (h₀ : I s) (as : List α) :
    I (run step s as) :=
  guarded_run_induction (G := fun _ ↦ True) (fun s a s' hI _ ↦ hstep s a s' hI) h₀
    fun _ _ ↦ trivial

/-- What every guarded transition keeps holds at the end of a guarded run, if it holds after one of
its transitions. -/
theorem guarded_run_of_post {I : σ → Prop} {G : Transition σ α → Prop}
    (hstep : ∀ s a s', I s → G ⟨s, a, s'⟩ → step s a = some s' → I s') {s : σ} {as : List α}
    (hG : ∀ t ∈ trace step s as, G t) : ∀ t ∈ trace step s as, I t.post → I (run step s as) := by
  induction as generalizing s with
  | nil => intro t ht; exact absurd ht (by simp)
  | cons a as ih =>
    cases ha : step s a with
    | none =>
      rw [trace_cons_of_none ha] at hG ⊢
      rw [run_cons_of_none ha]
      exact ih hG
    | some s' =>
      rw [trace_cons_of_some ha] at hG ⊢
      rw [run_cons_of_some ha]
      have hrest : ∀ t ∈ trace step s' as, G t := fun t ht ↦ hG t (List.mem_cons_of_mem _ ht)
      intro t ht hpost
      rcases List.mem_cons.mp ht with rfl | ht
      · exact guarded_run_induction hstep hpost hrest
      · exact ih hrest t ht hpost

/-- **The rule for runs with a past.** An invariant that relates a state to the transitions that
led to it, and that every transition keeps, holds before each transition of every run. -/
theorem split_invariant {I : List (Transition σ α) → σ → Prop}
    (hstep : ∀ past s a s', I past s → step s a = some s' → I (past ++ [⟨s, a, s'⟩]) s')
    {s : σ} {past₀ : List (Transition σ α)} (h₀ : I past₀ s) (as : List α) :
    ∀ past t rest, trace step s as = past ++ t :: rest → I (past₀ ++ past) t.pre := by
  induction as generalizing s past₀ with
  | nil => intro past t rest h; exact absurd h (by simp)
  | cons a as ih =>
    cases ha : step s a with
    | none =>
      rw [trace_cons_of_none ha]
      exact ih h₀
    | some s' =>
      rw [trace_cons_of_some ha]
      intro past t rest h
      rcases List.cons_eq_append_iff.mp h with ⟨rfl, ht⟩ | ⟨past', rfl, hrest⟩
      · obtain ⟨rfl, -⟩ := List.cons_eq_cons.mp ht
        rwa [List.append_nil]
      · rw [List.append_cons]
        exact ih (hstep past₀ s a s' h₀ ha) past' t rest hrest

/-! ## What happened since -/

/-- The last thing that happened was `P`, up to things that meet `Q`. -/
def Since {τ : Type u} (P Q : τ → Prop) (past : List τ) : Prop :=
  ∃ before t after, past = before ++ t :: after ∧ P t ∧ ∀ u ∈ after, Q u

@[simp] theorem not_since_nil {τ : Type u} {P Q : τ → Prop} : ¬ Since P Q [] := by
  rintro ⟨before, t, after, h, -⟩
  exact absurd h (by simp)

theorem since_concat {τ : Type u} {P Q : τ → Prop} {past : List τ} {t : τ} :
    Since P Q (past ++ [t]) ↔ P t ∨ Since P Q past ∧ Q t := by
  constructor
  · rintro ⟨before, u, after, h, hP, hQ⟩
    rcases List.eq_nil_or_concat after with rfl | ⟨after', v, rfl⟩
    · obtain ⟨-, hu⟩ := List.append_inj' h rfl
      exact .inl (List.singleton_inj.mp hu ▸ hP)
    · rw [List.concat_eq_append, ← List.cons_append, ← List.append_assoc] at h
      obtain ⟨rfl, hv⟩ := List.append_inj' h rfl
      obtain rfl := List.singleton_inj.mp hv
      exact .inr ⟨⟨before, u, after', rfl, hP, fun w hw ↦ hQ w (by simp [hw])⟩,
        hQ t (by simp)⟩
  · rintro (hP | ⟨⟨before, u, after, rfl, hP, hQ⟩, ht⟩)
    · exact ⟨past, t, [], rfl, hP, by simp⟩
    · refine ⟨before, u, after ++ [t], by simp, hP, fun w hw ↦ ?_⟩
      rcases List.mem_append.mp hw with hw | hw
      · exact hQ w hw
      · exact List.mem_singleton.mp hw ▸ ht

/-- **The rule for potentials.** A quantity that only some transitions increase, and these by one,
is at the end of a run at most the number of these transitions above what it was. -/
theorem run_le_add_countP {I : σ → Prop} {f : σ → ℕ} {p : Transition σ α → Bool}
    (hstep : ∀ s a s', I s → step s a = some s' →
      I s' ∧ f s' ≤ f s + if p ⟨s, a, s'⟩ = true then 1 else 0) {s : σ} (h₀ : I s) (as : List α) :
    f (run step s as) ≤ f s + (trace step s as).countP p := by
  induction as generalizing s with
  | nil => exact Nat.le_add_right _ _
  | cons a as ih =>
    cases ha : step s a with
    | none =>
      rw [run_cons_of_none ha, trace_cons_of_none ha]
      exact ih h₀
    | some s' =>
      obtain ⟨hI, hle⟩ := hstep s a s' h₀ ha
      have hrest := ih hI
      rw [run_cons_of_some ha, trace_cons_of_some ha, List.countP_cons]
      omega

end KnowledgeAlakazam
