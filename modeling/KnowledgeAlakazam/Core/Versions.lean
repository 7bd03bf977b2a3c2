import Mathlib.Data.List.Basic
import Mathlib.Tactic.Common

/-!
# Documents with versions

A document is all that it ever said, as versions numbered from one, and the number of the version
that its readers see. Two things can happen to it: a version is added, and shown from then on, or
an earlier version is shown again. No version is ever changed or taken away, so what a number
stands for stays what it is (`Extends`), and what is shown is always one of the versions.
-/

namespace KnowledgeAlakazam

universe u

@[ext] structure Versions (ν : Type u) where
  /-- What it said, oldest first. -/
  all : List ν
  /-- The number of the version that is shown. -/
  current : Option ℕ
  /-- It is the number of a version. -/
  current_mem : ∀ no ∈ current, 1 ≤ no ∧ no ≤ all.length

namespace Versions

variable {ν : Type u}

def empty : Versions ν := ⟨[], none, fun _ h ↦ nomatch h⟩

def add (d : Versions ν) (v : ν) : Versions ν where
  all := d.all ++ [v]
  current := some (d.all.length + 1)
  current_mem no h := by
    rw [← Option.some.inj h, List.length_append, List.length_singleton]
    exact ⟨Nat.le_add_left 1 _, Nat.le_refl _⟩

/-- A version is shown, if there is one with the number. -/
def publish (d : Versions ν) (no : ℕ) : Option (Versions ν) :=
  if h : 1 ≤ no ∧ no ≤ d.all.length then
    some ⟨d.all, some no, fun _ heq ↦ Option.some.inj heq ▸ h⟩
  else none

def version (d : Versions ν) : ℕ → Option ν
  | 0 => none
  | no + 1 => d.all[no]?

def numbered (d : Versions ν) : List (ℕ × ν) := (d.all.zipIdx 1).map Prod.swap

/-- What readers see: the version, with its number. -/
def shown (d : Versions ν) : Option (ℕ × ν) :=
  d.current.bind fun no ↦ (d.version no).map fun v ↦ (no, v)

/-- What was said by `d` is said by `d'`, under the same numbers. -/
def Extends (d d' : Versions ν) : Prop := d.all <+: d'.all

variable {d d' : Versions ν} {no : ℕ} {v : ν}

theorem version_eq_some : d.version no = some v ↔ (no, v) ∈ d.numbered := by
  rw [numbered, List.mem_map]
  cases no with
  | zero =>
    refine ⟨fun h ↦ (nomatch h), fun ⟨⟨v', i⟩, hmem, heq⟩ ↦ ?_⟩
    have hle := List.le_snd_of_mem_zipIdx hmem
    exact absurd hle (by rw [(Prod.mk.inj heq).1]; decide)
  | succ no =>
    constructor
    · intro h
      refine ⟨(v, no + 1), ?_, rfl⟩
      rw [List.mk_mem_zipIdx_iff_le_and_getElem?_sub]
      exact ⟨Nat.le_add_left 1 no, h⟩
    · rintro ⟨⟨v', i⟩, hmem, heq⟩
      obtain ⟨rfl, rfl⟩ := Prod.mk.inj heq
      exact (List.mk_mem_zipIdx_iff_le_and_getElem?_sub.mp hmem).2

theorem isSome_version : (d.version no).isSome ↔ 1 ≤ no ∧ no ≤ d.all.length := by
  cases no with
  | zero => simp [version]
  | succ no =>
    have hsome : (d.all[no]?).isSome ↔ no < d.all.length := by simp
    exact hsome.trans ⟨fun h ↦ ⟨Nat.le_add_left 1 no, h⟩, fun h ↦ h.2⟩

theorem numbered_add (d : Versions ν) (v : ν) :
    (d.add v).numbered = d.numbered ++ [(d.all.length + 1, v)] := by
  calc (d.add v).numbered = ((d.all ++ [v]).zipIdx 1).map Prod.swap := rfl
    _ = (d.all.zipIdx 1).map Prod.swap ++ ([v].zipIdx (1 + d.all.length)).map Prod.swap := by
        rw [List.zipIdx_append, List.map_append]
    _ = d.numbered ++ [(d.all.length + 1, v)] := by
        rw [Nat.add_comm 1]
        rfl

@[simp] theorem version_add_self (d : Versions ν) (v : ν) :
    (d.add v).version (d.all.length + 1) = some v := by
  rw [version, add, List.getElem?_concat_length]

@[simp] theorem shown_add (d : Versions ν) (v : ν) :
    (d.add v).shown = some (d.all.length + 1, v) := by
  rw [shown, show (d.add v).current = some (d.all.length + 1) from rfl, Option.bind_some,
    version_add_self, Option.map_some]

theorem publish_eq_some : d.publish no = some d' ↔
    (1 ≤ no ∧ no ≤ d.all.length) ∧ d'.all = d.all ∧ d'.current = some no := by
  rw [publish]
  split
  · rename_i h
    rw [Option.some.injEq]
    refine ⟨fun heq ↦ heq ▸ ⟨h, rfl, rfl⟩, fun heq ↦ ?_⟩
    exact Versions.ext heq.2.1.symm heq.2.2.symm
  · rename_i h
    exact ⟨fun heq ↦ absurd heq (Option.some_ne_none d').symm, fun heq ↦ absurd heq.1 h⟩

theorem shown_of_publish (h : d.publish no = some d') :
    d'.shown = (d.version no).map fun v ↦ (no, v) := by
  obtain ⟨-, hall, hcurrent⟩ := publish_eq_some.mp h
  have hversion : d'.version no = d.version no := by
    cases no with
    | zero => rfl
    | succ no => rw [version, version, hall]
  rw [shown, hcurrent, Option.bind_some, hversion]

/-! ## What stays -/

namespace Extends

theorem refl (d : Versions ν) : Extends d d := List.prefix_rfl

theorem trans {d'' : Versions ν} (h : Extends d d') (h' : Extends d' d'') : Extends d d'' :=
  List.IsPrefix.trans h h'

theorem add (d : Versions ν) (v : ν) : Extends d (d.add v) := List.prefix_append _ _

theorem publish (h : d.publish no = some d') : Extends d d' := by
  have hall := (publish_eq_some.mp h).2.1
  exact ⟨[], (List.append_nil _).trans hall.symm⟩

/-- **No version is lost.** -/
theorem version (h : Extends d d') (hv : d.version no = some v) : d'.version no = some v := by
  cases no with
  | zero => exact hv
  | succ no =>
    obtain ⟨more, hmore⟩ := h
    have hlt : no < d.all.length := (List.getElem?_eq_some_iff.mp hv).1
    rw [Versions.version, ← hmore, List.getElem?_append_left hlt]
    exact hv

end Extends

end Versions

end KnowledgeAlakazam
