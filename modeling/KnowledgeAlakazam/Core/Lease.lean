import Mathlib.Algebra.Order.Monoid.Defs
import Mathlib.Data.List.Basic
import Mathlib.Tactic.Common

/-!
# Leased tasks with a retry budget

A task is opened with a budget of attempts, acquired by owners, kept alive by renewals, and
closed by whoever finishes it. An owner whose last sign of life is older than the lease may be
replaced, until the budget is used up; then the task is closed as expired. A *seizure* takes the
task without asking for any of this.

Nothing here refers to how the state of a task is stored. A task is its history, newest event
first, and everything else (who holds it, how many attempts it took, who opened it) is a function
of the history. `Legal` says which event may come next, and `Lawful` that every event of a history
was legal when it happened. A program implements the discipline if what it stores agrees with a
lawful history; the laws below then hold of it.

## Tenures

The acquisitions and seizures of a task are its tenures, and an owner that took the task in its
`n`-th tenure *stands* (`Stands`) as long as whoever took the task last either is somebody else or
did so in tenure `n`. That is what an owner who takes one task at a time knows about a task it
once took, and it is enough to conclude from "I hold it" that nobody took it since.

## Punctual owners

An owner that gives a sign of life in every period *renews on time* (`RenewsOnTime`). Then its
last sign of life is at most a period old, and a lease longer than the period does not run out.
-/

namespace KnowledgeAlakazam

/-- What can happen to a task. `ω` identifies owners, `τ` is time. -/
inductive LeaseEvent (ω τ : Type) where
  /-- The task is put up for acquisition, with a fresh budget of attempts. -/
  | opened (who : ω) (budget : ℕ)
  /-- An owner takes the task under a lease. -/
  | acquired (who : ω) (time lease : τ)
  /-- Somebody takes the task regardless of its state. -/
  | seized (who : ω) (time : τ)
  /-- The owner gives a sign of life. -/
  | renewed (time : τ)
  /-- The lease of the owner ran out, and so did the budget. -/
  | expired (time lease : τ)
  /-- The task is declared finished. -/
  | closed (who : ω)
deriving DecidableEq

inductive LeasePhase (ω τ : Type) where
  /-- The task was never opened. -/
  | absent
  /-- The task is up for acquisition. -/
  | waiting
  /-- The task is held by an owner whose last sign of life was at `beat`. -/
  | held (who : ω) (beat : τ)
  /-- The task is finished. -/
  | closed
deriving DecidableEq

variable {ω τ : Type}

namespace LeaseEvent

/-- The event takes the task, with or without a lease. -/
def Takes : LeaseEvent ω τ → Prop
  | acquired _ _ _ => True
  | seized _ _ => True
  | _ => False

/-- The event ends the current opening of the task. -/
def Ends : LeaseEvent ω τ → Prop
  | expired _ _ => True
  | closed _ => True
  | _ => False

/-- The event takes the task without a lease. -/
def Seizes : LeaseEvent ω τ → Prop
  | seized _ _ => True
  | _ => False

/-- The event puts the task up for acquisition. -/
def Opens : LeaseEvent ω τ → Prop
  | opened _ _ => True
  | _ => False

end LeaseEvent

/-! ## Reading a history -/

/-- A history, newest event first. -/
abbrev LeaseHistory (ω τ : Type) := List (LeaseEvent ω τ)

namespace LeaseHistory

def phase : LeaseHistory ω τ → LeasePhase ω τ
  | [] => .absent
  | .opened _ _ :: _ => .waiting
  | .acquired who time _ :: _ => .held who time
  | .seized who time :: _ => .held who time
  | .renewed time :: h => match phase h with
    | .held who _ => .held who time
    | p => p
  | .expired _ _ :: _ => .closed
  | .closed _ :: _ => .closed

/-- How often the task was taken since it was last opened. -/
def attempts : LeaseHistory ω τ → ℕ
  | [] => 0
  | .opened _ _ :: _ => 0
  | .acquired _ _ _ :: h => attempts h + 1
  | .seized _ _ :: h => attempts h + 1
  | .renewed _ :: h => attempts h
  | .expired _ _ :: h => attempts h
  | .closed _ :: h => attempts h

/-- The budget the task was last opened with. -/
def budget : LeaseHistory ω τ → ℕ
  | [] => 0
  | .opened _ b :: _ => b
  | _ :: h => budget h

/-- Who last opened the task. -/
def opener : LeaseHistory ω τ → Option ω
  | [] => none
  | .opened who _ :: _ => some who
  | _ :: h => opener h

/-- The last sign of life recorded for the task. -/
def lastBeat : LeaseHistory ω τ → Option τ
  | [] => none
  | .acquired _ time _ :: _ => some time
  | .seized _ time :: _ => some time
  | .renewed time :: _ => some time
  | .opened _ _ :: h => lastBeat h
  | .expired _ _ :: h => lastBeat h
  | .closed _ :: h => lastBeat h

/-- Who took the task last. -/
def taker : LeaseHistory ω τ → Option ω
  | [] => none
  | .acquired who _ _ :: _ => some who
  | .seized who _ :: _ => some who
  | .opened _ _ :: h => taker h
  | .renewed _ :: h => taker h
  | .expired _ _ :: h => taker h
  | .closed _ :: h => taker h

/-- How often the task was ever taken. -/
def tenure : LeaseHistory ω τ → ℕ
  | [] => 0
  | .acquired _ _ _ :: h => tenure h + 1
  | .seized _ _ :: h => tenure h + 1
  | .opened _ _ :: h => tenure h
  | .renewed _ :: h => tenure h
  | .expired _ _ :: h => tenure h
  | .closed _ :: h => tenure h

theorem lastBeat_of_held {h : LeaseHistory ω τ} {who : ω} {beat : τ}
    (hp : phase h = .held who beat) : lastBeat h = some beat := by
  cases h with
  | nil => exact absurd hp (by simp [phase])
  | cons e h =>
    cases e with
    | acquired o t l => simp_all [phase, lastBeat]
    | seized o t => simp_all [phase, lastBeat]
    | renewed t =>
      cases hh : phase h <;> simp_all [phase, lastBeat]
    | opened o b => exact absurd hp (by simp [phase])
    | expired t l => exact absurd hp (by simp [phase])
    | closed o => exact absurd hp (by simp [phase])

theorem taker_of_held {h : LeaseHistory ω τ} {who : ω} {beat : τ}
    (hp : phase h = .held who beat) : taker h = some who := by
  induction h generalizing beat with
  | nil => exact absurd hp (by simp [phase])
  | cons e h ih =>
    cases e with
    | acquired o t l => simp_all [phase, taker]
    | seized o t => simp_all [phase, taker]
    | renewed t =>
      cases hh : phase h with
      | held o b =>
        rw [phase, hh] at hp
        have hwho : o = who := (LeasePhase.held.inj hp).1
        exact ih (hwho ▸ hh)
      | absent => simp_all [phase]
      | waiting => simp_all [phase]
      | closed => simp_all [phase]
    | opened o b => exact absurd hp (by simp [phase])
    | expired t l => exact absurd hp (by simp [phase])
    | closed o => exact absurd hp (by simp [phase])

/-! ## Legal events and lawful histories -/

section Law

variable [Add τ] [LE τ]

/-- The task is held, and the last sign of life of its owner is older than the lease. -/
def Stale (h : LeaseHistory ω τ) (time lease : τ) : Prop :=
  ∃ who beat, phase h = .held who beat ∧ beat + lease ≤ time

/-- The event may come next. -/
def Legal (h : LeaseHistory ω τ) : LeaseEvent ω τ → Prop
  | .opened _ b => 1 ≤ b
  | .acquired _ time lease => (phase h = .waiting ∨ Stale h time lease) ∧ attempts h < budget h
  | .seized _ _ => h ≠ []
  | .renewed _ => ∃ who beat, phase h = .held who beat
  | .expired time lease => Stale h time lease ∧ budget h ≤ attempts h
  | .closed _ => h ≠ []

/-- Every event of the history was legal when it happened. -/
def Lawful : LeaseHistory ω τ → Prop
  | [] => True
  | e :: h => Legal h e ∧ Lawful h

theorem Lawful.suffix (newer : LeaseHistory ω τ) {older : LeaseHistory ω τ}
    (h : Lawful (newer ++ older)) : Lawful older := by
  induction newer with
  | nil => exact h
  | cons e newer ih => exact ih h.2

theorem Lawful.legal {newer older : LeaseHistory ω τ} {e : LeaseEvent ω τ}
    (h : Lawful (newer ++ e :: older)) : Legal older e :=
  (h.suffix newer).1

/-- A task up for acquisition has used none of its budget. -/
theorem Lawful.attempts_of_waiting {h : LeaseHistory ω τ} (hl : Lawful h)
    (hp : phase h = .waiting) : attempts h = 0 ∧ 1 ≤ budget h := by
  cases h with
  | nil => exact absurd hp (by simp [phase])
  | cons e h =>
    cases e with
    | opened o b => exact ⟨rfl, hl.1⟩
    | renewed t =>
      obtain ⟨who, beat, hb⟩ := hl.1
      exact absurd hp (by simp [phase, hb])
    | acquired o t l => exact absurd hp (by simp [phase])
    | seized o t => exact absurd hp (by simp [phase])
    | expired t l => exact absurd hp (by simp [phase])
    | closed o => exact absurd hp (by simp [phase])

theorem Lawful.attempts_of_held {h : LeaseHistory ω τ} (hl : Lawful h) {who : ω} {beat : τ}
    (hp : phase h = .held who beat) : 1 ≤ attempts h := by
  induction h generalizing beat with
  | nil => exact absurd hp (by simp [phase])
  | cons e h ih =>
    cases e with
    | acquired o t l => exact Nat.le_add_left 1 _
    | seized o t => exact Nat.le_add_left 1 _
    | renewed t =>
      obtain ⟨o, b, hb⟩ := hl.1
      rw [phase, hb] at hp
      have ho : o = who := (LeasePhase.held.inj hp).1
      exact ih hl.2 (ho ▸ hb)
    | opened o b => exact absurd hp (by simp [phase])
    | expired t l => exact absurd hp (by simp [phase])
    | closed o => exact absurd hp (by simp [phase])

/-- **The budget is kept** by every lawful history in which nobody seizes the task. -/
theorem Lawful.attempts_le_budget {h : LeaseHistory ω τ} (hl : Lawful h)
    (hs : ∀ e ∈ h, ¬ e.Seizes) : attempts h ≤ budget h := by
  induction h with
  | nil => exact Nat.le_refl 0
  | cons e h ih =>
    have ih' := ih hl.2 fun e he ↦ hs e (List.mem_cons_of_mem _ he)
    cases e with
    | opened o b => exact Nat.zero_le _
    | acquired o t l => exact hl.1.2
    | seized o t => exact absurd trivial (hs _ List.mem_cons_self)
    | renewed t => exact ih'
    | expired t l => exact ih'
    | closed o => exact ih'

/-- **Leases are exclusive.** Whoever acquires a held task does so a full lease after the last
sign of life recorded for it. -/
theorem Lawful.acquired_of_held {newer older : LeaseHistory ω τ} {who holder : ω}
    {time lease beat : τ} (hl : Lawful (newer ++ .acquired who time lease :: older))
    (hp : phase older = .held holder beat) :
    ∃ b, lastBeat older = some b ∧ b + lease ≤ time := by
  rcases hl.legal.1 with hw | ⟨o, b, hb, hle⟩
  · exact absurd (hw.symm.trans hp) (by simp)
  · exact ⟨b, lastBeat_of_held hb, hle⟩

/-- **Expiry is exact.** A task expires only after its whole budget was used, and only a full
lease after the last sign of life recorded for it. -/
theorem Lawful.expired_exact {newer older : LeaseHistory ω τ} {time lease : τ}
    (hl : Lawful (newer ++ .expired time lease :: older)) (hs : ∀ e ∈ older, ¬ e.Seizes) :
    attempts older = budget older ∧ ∃ b, lastBeat older = some b ∧ b + lease ≤ time := by
  obtain ⟨⟨o, b, hb, hle⟩, hbudget⟩ := hl.legal
  have hlo : Lawful older := (hl.suffix newer).2
  exact ⟨Nat.le_antisymm (hlo.attempts_le_budget hs) hbudget, b, lastBeat_of_held hb, hle⟩

/-- A finished task stays finished until it is opened again. -/
theorem Lawful.phase_closed {between older : LeaseHistory ω τ} {e : LeaseEvent ω τ}
    (hl : Lawful (between ++ e :: older)) (he : e.Ends)
    (hs : ∀ x ∈ between, ¬ x.Seizes) (ho : ∀ x ∈ between, ¬ x.Opens) :
    phase (between ++ e :: older) = .closed := by
  induction between with
  | nil => cases e <;> first | rfl | exact absurd he (by simp [LeaseEvent.Ends])
  | cons x between ih =>
    have hc := ih hl.2 (fun y hy ↦ hs y (List.mem_cons_of_mem _ hy))
      fun y hy ↦ ho y (List.mem_cons_of_mem _ hy)
    have hx : Legal (between ++ e :: older) x := hl.1
    cases x with
    | opened o b => exact absurd trivial (ho _ List.mem_cons_self)
    | acquired o t l =>
      rcases hx.1 with hw | ⟨_, _, hb, _⟩
      · exact absurd (hw.symm.trans hc) (by simp)
      · exact absurd (hb.symm.trans hc) (by simp)
    | seized o t => exact absurd trivial (hs _ List.mem_cons_self)
    | renewed t =>
      obtain ⟨_, _, hb⟩ := hx
      exact absurd (hb.symm.trans hc) (by simp)
    | expired t l => rfl
    | closed o => rfl

/-- **A finished task is not taken before it is opened again.** -/
theorem Lawful.opened_between {newer between older : LeaseHistory ω τ} {e : LeaseEvent ω τ}
    {who : ω} {time lease : τ}
    (hl : Lawful (newer ++ .acquired who time lease :: (between ++ e :: older)))
    (he : e.Ends) (hs : ∀ x ∈ between, ¬ x.Seizes) : ∃ x ∈ between, x.Opens := by
  by_contra hno
  have ho : ∀ x ∈ between, ¬ x.Opens := fun x hx hop ↦ hno ⟨x, hx, hop⟩
  have hc := Lawful.phase_closed (hl.suffix newer).2 he hs ho
  rcases hl.legal.1 with hw | ⟨_, _, hb, _⟩
  · exact absurd (hw.symm.trans hc) (by simp)
  · exact absurd (hb.symm.trans hc) (by simp)

end Law

/-! ## Tenures -/

/-- An owner that took the task in its `n`-th tenure: whoever took it last is either somebody
else, or this owner in this tenure. -/
structure Stands (h : LeaseHistory ω τ) (who : ω) (n : ℕ) : Prop where
  /-- The tenure is one of the task's. -/
  le : n ≤ tenure h
  /-- The owner was last only if its tenure is the last. -/
  eq_of_taker : taker h = some who → n = tenure h

theorem stands_tenure (h : LeaseHistory ω τ) (who : ω) : Stands h who (tenure h) :=
  ⟨Nat.le_refl _, fun _ ↦ rfl⟩

/-- The tenures of earlier openings stay earlier. -/
theorem add_attempts_le_tenure_append {m : ℕ} {h : LeaseHistory ω τ}
    (hm : m + attempts h ≤ tenure h) (newer : LeaseHistory ω τ) :
    m + attempts (newer ++ h) ≤ tenure (newer ++ h) := by
  induction newer with
  | nil => exact hm
  | cons e newer ih =>
    rw [List.cons_append]
    cases e <;> simp only [attempts, tenure] <;> omega

theorem tenure_cons_of_not_takes {e : LeaseEvent ω τ} (he : ¬ e.Takes) (h : LeaseHistory ω τ) :
    tenure (e :: h) = tenure h := by
  cases e <;> simp_all [tenure, LeaseEvent.Takes]

theorem taker_cons_of_not_takes {e : LeaseEvent ω τ} (he : ¬ e.Takes) (h : LeaseHistory ω τ) :
    taker (e :: h) = taker h := by
  cases e <;> simp_all [taker, LeaseEvent.Takes]

end LeaseHistory

/-! ## Renewing on time -/

/-- The last sign of life was at `beat`, the next one is due at `due`, at most a period later, and
it is not late. -/
structure RenewsOnTime [Add τ] [LE τ] (period beat due now : τ) : Prop where
  now_le : now ≤ due
  due_le : due ≤ beat + period

namespace RenewsOnTime

variable {period lease beat due now later : τ}

theorem wait [Add τ] [LE τ] (h : RenewsOnTime period beat due now) (hle : later ≤ due) :
    RenewsOnTime period beat due later :=
  ⟨hle, h.due_le⟩

variable [AddCommMonoid τ] [PartialOrder τ] [IsOrderedCancelAddMonoid τ]

theorem renew (hperiod : 0 ≤ period) (now : τ) : RenewsOnTime period now (now + period) now :=
  ⟨le_add_of_nonneg_right hperiod, le_refl _⟩

theorem mono (h : RenewsOnTime period beat due now) {beat' : τ} (hle : beat ≤ beat') :
    RenewsOnTime period beat' due now :=
  ⟨h.now_le, h.due_le.trans (add_le_add_left hle period)⟩

/-- **A lease longer than the period does not run out.** -/
theorem not_lapsed (h : RenewsOnTime period beat due now) (hlt : period < lease) :
    ¬ beat + lease ≤ now := by
  intro hlapsed
  have hbeat : now ≤ beat + period := h.now_le.trans h.due_le
  exact absurd (lt_of_le_of_lt hbeat (add_lt_add_right hlt beat)) (not_lt_of_ge hlapsed)

end RenewsOnTime

end KnowledgeAlakazam
