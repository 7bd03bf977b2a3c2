import Mathlib.Data.List.Nodup
import Mathlib.Tactic.Common

/-!
# Tables with a primary and a unique key

A table is a list of rows in insertion order, together with the proof that no two rows share the
primary key and no two rows share the unique key. The two constraints are part of the type, so an
`INSERT` that would violate one of them has no result, exactly as the database rejects it, and no
later proof has to re-establish uniqueness.

An `UPDATE` is a `Patch`: a function on rows together with the proof that it leaves both keys
alone. Everything a proof needs about a table is phrased through `find`, the row stored under a
primary key; the two lemmas `find_modify` and `find_insert` say what a write does to it.
-/

namespace KnowledgeAlakazam

/-- A row type with a primary key in `ι` and a unique key in `κ`. A table without a unique
constraint of its own uses the primary key twice. -/
class Row (ρ : Type) (ι κ : outParam Type) where
  /-- The primary key. -/
  primary : ρ → ι
  /-- The unique key. -/
  unique : ρ → κ

/-- A table: rows in insertion order, with both constraints. -/
structure Table (ρ : Type) {ι κ : Type} [Row ρ ι κ] where
  /-- The rows, oldest first. -/
  rows : List ρ
  /-- The primary keys are distinct. -/
  primary_nodup : (rows.map Row.primary).Nodup
  /-- The unique keys are distinct. -/
  unique_nodup : (rows.map Row.unique).Nodup

/-- An update of a row that leaves both keys alone. -/
structure Patch (ρ : Type) {ι κ : Type} [Row ρ ι κ] where
  /-- The new row. -/
  app : ρ → ρ
  /-- The primary key stays. -/
  primary_app : ∀ r, Row.primary (app r) = Row.primary r
  /-- The unique key stays. -/
  unique_app : ∀ r, Row.unique (app r) = Row.unique r

namespace Table

variable {ρ ι κ : Type} [Row ρ ι κ]

def empty : Table ρ := ⟨[], List.nodup_nil, List.nodup_nil⟩

section Keys

variable [DecidableEq ι] [DecidableEq κ]

/-- `SELECT` by primary key. -/
def find (t : Table ρ) (i : ι) : Option ρ := t.rows.find? fun r ↦ decide (Row.primary r = i)

/-- `SELECT` by unique key. -/
def lookup (t : Table ρ) (k : κ) : Option ρ := t.rows.find? fun r ↦ decide (Row.unique r = k)

/-- `INSERT`: no result when a row with one of the keys exists. -/
def insert (t : Table ρ) (r : ρ) : Option (Table ρ) :=
  if h : Row.primary r ∉ t.rows.map Row.primary ∧ Row.unique r ∉ t.rows.map Row.unique then
    some
      { rows := t.rows ++ [r]
        primary_nodup := by
          rw [List.map_append, List.map_singleton]
          exact List.nodup_append.mpr ⟨t.primary_nodup, List.nodup_singleton _,
            fun a ha b hb hab ↦ h.1 (by rw [← List.mem_singleton.mp hb, ← hab]; exact ha)⟩
        unique_nodup := by
          rw [List.map_append, List.map_singleton]
          exact List.nodup_append.mpr ⟨t.unique_nodup, List.nodup_singleton _,
            fun a ha b hb hab ↦ h.2 (by rw [← List.mem_singleton.mp hb, ← hab]; exact ha)⟩ }
  else none

/-- `UPDATE` of the row with a primary key. -/
def modify (t : Table ρ) (i : ι) (p : Patch ρ) : Table ρ where
  rows := t.rows.map fun r ↦ if Row.primary r = i then p.app r else r
  primary_nodup := by
    rw [List.map_map, show (Row.primary ∘ fun r ↦ if Row.primary r = i then p.app r else r)
      = (Row.primary : ρ → ι) from funext fun r ↦ by
        rw [Function.comp_apply, apply_ite Row.primary, p.primary_app, ite_self]]
    exact t.primary_nodup
  unique_nodup := by
    rw [List.map_map, show (Row.unique ∘ fun r ↦ if Row.primary r = i then p.app r else r)
      = (Row.unique : ρ → κ) from funext fun r ↦ by
        rw [Function.comp_apply, apply_ite Row.unique, p.unique_app, ite_self]]
    exact t.unique_nodup

end Keys

/-- `DELETE` of the rows that do not satisfy a condition. -/
def keep (t : Table ρ) (p : ρ → Bool) : Table ρ where
  rows := t.rows.filter p
  primary_nodup := t.primary_nodup.sublist (List.filter_sublist.map _)
  unique_nodup := t.unique_nodup.sublist (List.filter_sublist.map _)

@[simp] theorem rows_keep (t : Table ρ) (p : ρ → Bool) : (t.keep p).rows = t.rows.filter p := rfl

/-! ## Reading -/

private theorem find?_key_eq_some {δ : Type} [DecidableEq δ] {f : ρ → δ} {l : List ρ}
    (hl : (l.map f).Nodup) {d : δ} {r : ρ} :
    (l.find? fun x ↦ decide (f x = d)) = some r ↔ r ∈ l ∧ f r = d := by
  constructor
  · intro h
    exact ⟨List.mem_of_find?_eq_some h, by simpa using List.find?_some h⟩
  · rintro ⟨hr, rfl⟩
    cases h : l.find? fun x ↦ decide (f x = f r) with
    | none => exact absurd (List.find?_eq_none.mp h r hr) (by simp)
    | some r' =>
      have hkey : f r' = f r := by simpa using List.find?_some h
      rw [List.inj_on_of_nodup_map hl (List.mem_of_find?_eq_some h) hr hkey]

theorem eq_of_unique {t : Table ρ} {r r' : ρ} (h : r ∈ t.rows) (h' : r' ∈ t.rows)
    (hk : Row.unique r = Row.unique r') : r = r' :=
  List.inj_on_of_nodup_map t.unique_nodup h h' hk

theorem eq_of_primary {t : Table ρ} {r r' : ρ} (h : r ∈ t.rows) (h' : r' ∈ t.rows)
    (hp : Row.primary r = Row.primary r') : r = r' :=
  List.inj_on_of_nodup_map t.primary_nodup h h' hp

section Find

variable [DecidableEq ι]

theorem find_eq_some {t : Table ρ} {i : ι} {r : ρ} :
    t.find i = some r ↔ r ∈ t.rows ∧ Row.primary r = i :=
  find?_key_eq_some t.primary_nodup

theorem find_eq_none {t : Table ρ} {i : ι} :
    t.find i = none ↔ ∀ r ∈ t.rows, Row.primary r ≠ i := by
  simp [find, List.find?_eq_none]

theorem find_primary {t : Table ρ} {r : ρ} (h : r ∈ t.rows) : t.find (Row.primary r) = some r :=
  find_eq_some.mpr ⟨h, rfl⟩

theorem mem_of_find {t : Table ρ} {i : ι} {r : ρ} (h : t.find i = some r) : r ∈ t.rows :=
  (find_eq_some.mp h).1

theorem primary_of_find {t : Table ρ} {i : ι} {r : ρ} (h : t.find i = some r) :
    Row.primary r = i := (find_eq_some.mp h).2

@[simp] theorem find_empty (i : ι) : (empty : Table ρ).find i = none := rfl

/-! ## Updating -/

@[simp] theorem rows_modify (t : Table ρ) (i : ι) (p : Patch ρ) :
    (t.modify i p).rows = t.rows.map fun r ↦ if Row.primary r = i then p.app r else r := rfl

theorem find_modify (t : Table ρ) (i j : ι) (p : Patch ρ) :
    (t.modify i p).find j = if j = i then (t.find j).map p.app else t.find j := by
  have hkey : ∀ r : ρ, Row.primary (if Row.primary r = i then p.app r else r)
      = Row.primary r := fun r ↦ by rw [apply_ite Row.primary, p.primary_app, ite_self]
  rw [find, rows_modify, List.find?_map,
    show ((fun r ↦ decide (Row.primary r = j)) ∘
      fun r ↦ if Row.primary r = i then p.app r else r) = fun r ↦ decide (Row.primary r = j) from
      funext fun r ↦ by rw [Function.comp_apply, hkey], ← find]
  cases h : t.find j with
  | none => simp
  | some r =>
    rw [Option.map_some, Option.map_some, primary_of_find h, apply_ite some]

theorem mem_modify {t : Table ρ} {i : ι} {p : Patch ρ} {r' : ρ} (h : r' ∈ (t.modify i p).rows) :
    ∃ r ∈ t.rows, r' = r ∨ r' = p.app r := by
  rw [rows_modify] at h
  obtain ⟨r, hr, rfl⟩ := List.mem_map.mp h
  refine ⟨r, hr, ?_⟩
  split
  · exact Or.inr rfl
  · exact Or.inl rfl

theorem find_modify_self {t : Table ρ} {i : ι} {r : ρ} (h : t.find i = some r) (p : Patch ρ) :
    (t.modify i p).find i = some (p.app r) := by
  rw [find_modify, if_pos rfl, h, Option.map_some]

theorem find_modify_of_ne {t : Table ρ} {i j : ι} (h : j ≠ i) (p : Patch ρ) :
    (t.modify i p).find j = t.find j := by
  rw [find_modify, if_neg h]

/-- An update of the last row leaves the others alone. -/
theorem rows_modify_last {t : Table ρ} {rows : List ρ} {r : ρ} (h : t.rows = rows ++ [r])
    (p : Patch ρ) : (t.modify (Row.primary r) p).rows = rows ++ [p.app r] := by
  have hne : ∀ r' ∈ rows, Row.primary r' ≠ Row.primary r := by
    have hnodup := t.primary_nodup
    rw [h, List.map_append, List.nodup_append] at hnodup
    exact fun r' hr' ↦ hnodup.2.2 _ (List.mem_map_of_mem hr') _ List.mem_cons_self
  have hold : rows.map (fun r' ↦ if Row.primary r' = Row.primary r then p.app r' else r') =
      rows := by
    rw [List.map_congr_left fun r' hr' ↦ if_neg (hne r' hr'), List.map_id']
  change t.rows.map _ = _
  rw [h, List.map_append, hold, List.map_singleton, if_pos rfl]

theorem find_of_rows_map {t t' : Table ρ} {f : ρ → ρ}
    (hf : ∀ r, Row.primary (f r) = Row.primary r) (h : t'.rows = t.rows.map f) (i : ι) :
    t'.find i = (t.find i).map f := by
  rw [find, h, List.find?_map, find]
  congr 2
  funext r
  rw [Function.comp_apply, hf]

end Find

section Lookup

variable [DecidableEq κ]

theorem lookup_eq_some {t : Table ρ} {k : κ} {r : ρ} :
    t.lookup k = some r ↔ r ∈ t.rows ∧ Row.unique r = k :=
  find?_key_eq_some t.unique_nodup

theorem lookup_eq_none {t : Table ρ} {k : κ} :
    t.lookup k = none ↔ ∀ r ∈ t.rows, Row.unique r ≠ k := by
  simp [lookup, List.find?_eq_none]

theorem mem_of_lookup {t : Table ρ} {k : κ} {r : ρ} (h : t.lookup k = some r) : r ∈ t.rows :=
  (lookup_eq_some.mp h).1

theorem unique_of_lookup {t : Table ρ} {k : κ} {r : ρ} (h : t.lookup k = some r) :
    Row.unique r = k := (lookup_eq_some.mp h).2

end Lookup

/-! ## Inserting -/

variable [DecidableEq ι] [DecidableEq κ]

theorem find_of_lookup {t : Table ρ} {k : κ} {r : ρ} (h : t.lookup k = some r) :
    t.find (Row.primary r) = some r := find_primary (mem_of_lookup h)

theorem lookup_modify (t : Table ρ) (i : ι) (k : κ) (p : Patch ρ) :
    (t.modify i p).lookup k
      = (t.lookup k).map fun r ↦ if Row.primary r = i then p.app r else r := by
  have hkey : ∀ r : ρ, Row.unique (if Row.primary r = i then p.app r else r)
      = Row.unique r := fun r ↦ by rw [apply_ite Row.unique, p.unique_app, ite_self]
  rw [lookup, rows_modify, List.find?_map,
    show ((fun r ↦ decide (Row.unique r = k)) ∘
      fun r ↦ if Row.primary r = i then p.app r else r) = fun r ↦ decide (Row.unique r = k) from
      funext fun r ↦ by rw [Function.comp_apply, hkey], lookup]

theorem insert_eq_some {t t' : Table ρ} {r : ρ} :
    t.insert r = some t' ↔ Row.primary r ∉ t.rows.map Row.primary ∧
      Row.unique r ∉ t.rows.map Row.unique ∧ t'.rows = t.rows ++ [r] := by
  rw [insert]
  constructor
  · intro h
    split at h
    · rename_i hfresh
      rw [Option.some_inj] at h
      exact ⟨hfresh.1, hfresh.2, by rw [← h]⟩
    · exact absurd h (by simp)
  · rintro ⟨hp, hu, hrows⟩
    rw [dif_pos ⟨hp, hu⟩, Option.some_inj]
    cases t'
    simp_all

theorem rows_insert {t t' : Table ρ} {r : ρ} (h : t.insert r = some t') :
    t'.rows = t.rows ++ [r] := (insert_eq_some.mp h).2.2

theorem find_insert {t t' : Table ρ} {r : ρ} (h : t.insert r = some t') (i : ι) :
    t'.find i = if Row.primary r = i then some r else t.find i := by
  have hrows := rows_insert h
  by_cases hi : Row.primary r = i
  · rw [if_pos hi, ← hi]
    exact find_primary (by rw [hrows]; simp)
  · rw [if_neg hi, find, find, hrows, List.find?_append]
    simp [hi]

theorem find_none_of_insert {t t' : Table ρ} {r : ρ} (h : t.insert r = some t') :
    t.find (Row.primary r) = none := by
  rw [find_eq_none]
  intro r' hr' heq
  exact (insert_eq_some.mp h).1 (List.mem_map.mpr ⟨r', hr', heq⟩)

theorem find_insert_self {t t' : Table ρ} {r : ρ} (h : t.insert r = some t') :
    t'.find (Row.primary r) = some r := (find_insert h _).trans (if_pos rfl)

theorem find_insert_of_find {t t' : Table ρ} {r r' : ρ} (h : t.insert r = some t') {i : ι}
    (hi : t.find i = some r') : t'.find i = some r' := by
  refine (find_insert h i).trans ((if_neg ?_).trans hi)
  rintro rfl
  exact absurd ((find_none_of_insert h).symm.trans hi) (by simp)

theorem lookup_insert {t t' : Table ρ} {r : ρ} (h : t.insert r = some t') (k : κ) :
    t'.lookup k = if Row.unique r = k then some r else t.lookup k := by
  have hrows := rows_insert h
  by_cases hk : Row.unique r = k
  · rw [if_pos hk]
    exact lookup_eq_some.mpr ⟨by rw [hrows]; simp, hk⟩
  · rw [if_neg hk, lookup, lookup, hrows, List.find?_append]
    simp [hk]

/-! ## Inserting several rows -/

/-- `INSERT` of several rows in one statement: all of them or none. -/
def insertAll (t : Table ρ) : List ρ → Option (Table ρ)
  | [] => some t
  | r :: rs => (t.insert r).bind fun t' ↦ t'.insertAll rs

theorem rows_insertAll {rs : List ρ} {t t' : Table ρ} (h : t.insertAll rs = some t') :
    t'.rows = t.rows ++ rs := by
  induction rs generalizing t with
  | nil => rw [← Option.some.inj h, List.append_nil]
  | cons r rs ih =>
    obtain ⟨t₁, hins, hrest⟩ := Option.bind_eq_some_iff.mp h
    rw [ih hrest, rows_insert hins, List.append_assoc, List.singleton_append]

/-! ## Inserting a row that a transaction has inserted -/

def Free (t : Table ρ) (r : ρ) : Prop :=
  t.find (Row.primary r) = none ∧ t.lookup (Row.unique r) = none

instance (t : Table ρ) (r : ρ) : Decidable (t.Free r) :=
  inferInstanceAs (Decidable (_ = none ∧ _ = none))

/-- The table with the row, if its keys are free. -/
def add (t : Table ρ) (r : ρ) : Table ρ := (t.insert r).getD t

theorem Free.rows_add {t : Table ρ} {r : ρ} (h : t.Free r) : (t.add r).rows = t.rows ++ [r] := by
  rw [add]
  cases hins : t.insert r with
  | some t' => exact rows_insert hins
  | none =>
    rw [insert, dif_pos ?_] at hins
    · exact nomatch hins
    · constructor
      · intro hmem
        obtain ⟨row, hrow, heq⟩ := List.mem_map.mp hmem
        exact find_eq_none.mp h.1 row hrow heq
      · intro hmem
        obtain ⟨row, hrow, heq⟩ := List.mem_map.mp hmem
        exact lookup_eq_none.mp h.2 row hrow heq

theorem lookup_add {t : Table ρ} {k : κ} {r : ρ} (h : t.lookup k = some r) (r' : ρ) :
    (t.add r').lookup k = some r := by
  rw [add]
  cases hins : t.insert r' with
  | none => exact h
  | some t' =>
    refine (lookup_insert hins k).trans ((if_neg ?_).trans h)
    intro hk
    exact (insert_eq_some.mp hins).2.1
      (List.mem_map.mpr ⟨r, mem_of_lookup h, (unique_of_lookup h).trans hk.symm⟩)

theorem mem_add {t : Table ρ} {r r' : ρ} (h : r' ∈ (t.add r).rows) : r' ∈ t.rows ∨ r' = r := by
  rw [add] at h
  cases hins : t.insert r with
  | none =>
    rw [hins] at h
    exact Or.inl h
  | some t' =>
    rw [hins, Option.getD_some, rows_insert hins] at h
    exact (List.mem_append.mp h).imp_right List.mem_singleton.mp

/-- Keys are free until a row with one of them is inserted. -/
theorem Free.add {t : Table ρ} {r r' : ρ} (h : t.Free r) (hp : Row.primary r' ≠ Row.primary r)
    (hu : Row.unique r' ≠ Row.unique r) : (t.add r').Free r := by
  unfold Table.add
  cases hins : t.insert r' with
  | none => exact h
  | some t' =>
    exact ⟨(find_insert hins _).trans ((if_neg hp).trans h.1),
      (lookup_insert hins _).trans ((if_neg hu).trans h.2)⟩

theorem Free.modify {t : Table ρ} {r : ρ} (h : t.Free r) (i : ι) (p : Patch ρ) :
    (t.modify i p).Free r := by
  refine ⟨(find_modify ..).trans ?_, (lookup_modify ..).trans ?_⟩
  · rw [h.1, Option.map_none, ite_self]
  · rw [h.2, Option.map_none]

theorem Free.keep {t : Table ρ} {r : ρ} (h : t.Free r) (p : ρ → Bool) : (t.keep p).Free r :=
  ⟨find_eq_none.mpr fun row hrow ↦ find_eq_none.mp h.1 row (List.mem_filter.mp hrow).1,
    lookup_eq_none.mpr fun row hrow ↦ lookup_eq_none.mp h.2 row (List.mem_filter.mp hrow).1⟩

/-! ## The part of a table that satisfies a condition -/

omit [DecidableEq ι] [DecidableEq κ] in
theorem eq_of_rows {t t' : Table ρ} (h : t.rows = t'.rows) : t = t' := by
  cases t
  cases t'
  cases h
  rfl

omit [DecidableEq ι] [DecidableEq κ] in
theorem keep_congr {t : Table ρ} {p q : ρ → Bool} (h : ∀ r ∈ t.rows, p r = q r) :
    t.keep p = t.keep q := eq_of_rows (List.filter_congr h)

omit [DecidableEq ι] [DecidableEq κ] in
theorem keep_keep (t : Table ρ) (p q : ρ → Bool) : (t.keep p).keep q = (t.keep q).keep p := by
  refine eq_of_rows ?_
  calc ((t.keep p).keep q).rows = t.rows.filter fun r ↦ q r && p r := by
        rw [rows_keep, rows_keep, List.filter_filter]
    _ = t.rows.filter fun r ↦ p r && q r := List.filter_congr fun r _ ↦ Bool.and_comm _ _
    _ = ((t.keep q).keep p).rows := by rw [rows_keep, rows_keep, List.filter_filter]

omit [DecidableEq κ] in
theorem find_keep (t : Table ρ) (p : ρ → Bool) (i : ι) :
    (t.keep p).find i = (t.find i).filter p := by
  refine Option.ext fun r ↦ ?_
  rw [find_eq_some, rows_keep, List.mem_filter, Option.filter_eq_some_iff, find_eq_some]
  exact and_right_comm

omit [DecidableEq ι] in
theorem lookup_keep (t : Table ρ) (p : ρ → Bool) (k : κ) :
    (t.keep p).lookup k = (t.lookup k).filter p := by
  refine Option.ext fun r ↦ ?_
  rw [lookup_eq_some, rows_keep, List.mem_filter, Option.filter_eq_some_iff, lookup_eq_some]
  exact and_right_comm

theorem Free.insert {t : Table ρ} {r : ρ} (h : t.Free r) : t.insert r = some (t.add r) := by
  have hins := h.rows_add
  unfold Table.add at hins ⊢
  cases hi : t.insert r with
  | some t' => rfl
  | none =>
    rw [hi, Option.getD_none] at hins
    exact absurd hins (by simp)

theorem insert_keep {t t' : Table ρ} {r : ρ} {p : ρ → Bool} (h : t.insert r = some t')
    (hr : p r = true) : (t.keep p).insert r = some (t'.keep p) := by
  obtain ⟨hp, hu, hrows⟩ := insert_eq_some.mp h
  refine insert_eq_some.mpr ⟨fun hmem ↦ hp ?_, fun hmem ↦ hu ?_, ?_⟩
  · exact (List.filter_sublist.map _).subset hmem
  · exact (List.filter_sublist.map _).subset hmem
  · rw [rows_keep, rows_keep, hrows, List.filter_append, List.filter_singleton, hr, cond_true]

theorem keep_insert {t t' : Table ρ} {r : ρ} {p : ρ → Bool} (h : t.insert r = some t')
    (hr : p r = false) : t'.keep p = t.keep p := by
  refine eq_of_rows ?_
  rw [rows_keep, rows_keep, rows_insert h, List.filter_append, List.filter_singleton, hr,
    cond_false, List.append_nil]

omit [DecidableEq κ] in
/-- An `UPDATE` that moves no row from one part to the other. -/
theorem keep_modify (t : Table ρ) (i : ι) {patch : Patch ρ} {p : ρ → Bool}
    (hp : ∀ r, p (patch.app r) = p r) : (t.modify i patch).keep p = (t.keep p).modify i patch := by
  refine eq_of_rows ?_
  rw [rows_keep, rows_modify, rows_modify, rows_keep, List.filter_map]
  congr 1
  refine List.filter_congr fun r _ ↦ ?_
  rw [Function.comp_apply]
  split
  · exact hp r
  · rfl

omit [DecidableEq κ] in
theorem keep_modify_of_not {t : Table ρ} {i : ι} {patch : Patch ρ} {p : ρ → Bool}
    (hp : ∀ r, p (patch.app r) = p r) (hi : ∀ r, t.find i = some r → p r = false) :
    (t.modify i patch).keep p = t.keep p := by
  refine (keep_modify t i hp).trans (eq_of_rows ?_)
  rw [rows_modify]
  refine List.map_congr_left (g := id) (fun r hr ↦ if_neg ?_) |>.trans (List.map_id _)
  intro hri
  obtain ⟨hmem, hpr⟩ := List.mem_filter.mp hr
  exact absurd ((hi r (hri ▸ find_primary hmem)).symm.trans hpr) (by simp)

end Table

/-! ## Tables numbered in the order of insertion -/

namespace Table

variable {ρ κ : Type} [Row ρ ℕ κ]

/-- The primary keys increase, and stay below the next one. -/
structure Numbered (t : Table ρ) (n : ℕ) : Prop where
  increasing : (t.rows.map Row.primary).Pairwise (· < ·)
  below : ∀ r ∈ t.rows, Row.primary r < n

namespace Numbered

variable {t t' : Table ρ} {n m : ℕ}

theorem empty (n : ℕ) : (Table.empty : Table ρ).Numbered n :=
  ⟨List.Pairwise.nil, fun _ h ↦ absurd h (by simp [Table.empty])⟩

theorem mono (h : t.Numbered n) (hm : n ≤ m) : t.Numbered m :=
  ⟨h.increasing, fun r hr ↦ Nat.lt_of_lt_of_le (h.below r hr) hm⟩

theorem keep (h : t.Numbered n) (p : ρ → Bool) : (t.keep p).Numbered n :=
  ⟨h.increasing.sublist (List.filter_sublist.map _), fun r hr ↦
    h.below r (List.mem_filter.mp hr).1⟩

theorem find_eq_none (h : t.Numbered n) : t.find n = none :=
  Table.find_eq_none.mpr fun r hr ↦ Nat.ne_of_lt (h.below r hr)

theorem modify (h : t.Numbered n) (i : ℕ) (patch : Patch ρ) : (t.modify i patch).Numbered n := by
  have hkey : ∀ r : ρ, Row.primary (if Row.primary r = i then patch.app r else r)
      = Row.primary r := fun r ↦ by rw [apply_ite Row.primary, patch.primary_app, ite_self]
  constructor
  · rw [rows_modify, List.map_map, show (Row.primary ∘ fun r ↦
      if Row.primary r = i then patch.app r else r) = (Row.primary : ρ → ℕ) from funext hkey]
    exact h.increasing
  · intro r hr
    rw [rows_modify] at hr
    obtain ⟨r', hr', rfl⟩ := List.mem_map.mp hr
    rw [hkey]
    exact h.below r' hr'

theorem append (h : t.Numbered n) {r : ρ} (hrows : t'.rows = t.rows ++ [r])
    (hr : Row.primary r = n) : t'.Numbered (n + 1) := by
  constructor
  · rw [hrows, List.map_append, List.map_singleton, List.pairwise_append]
    refine ⟨h.increasing, List.pairwise_singleton _ _, fun a ha b hb ↦ ?_⟩
    obtain ⟨r', hr', rfl⟩ := List.mem_map.mp ha
    rw [List.mem_singleton.mp hb, hr]
    exact h.below r' hr'
  · intro r' hr'
    rw [hrows, List.mem_append, List.mem_singleton] at hr'
    rcases hr' with hold | rfl
    · exact Nat.lt_succ_of_lt (h.below r' hold)
    · exact hr ▸ Nat.lt_succ_self _

theorem insert [DecidableEq κ] (h : t.Numbered n) {r : ρ} (hins : t.insert r = some t')
    (hr : Row.primary r = n) : t'.Numbered (n + 1) := h.append (rows_insert hins) hr

theorem free [DecidableEq κ] (h : t.Numbered n) {r : ρ} (hr : Row.primary r = n)
    (hu : ∀ r' ∈ t.rows, Row.unique r' ≠ Row.unique r) : t.Free r :=
  ⟨hr ▸ h.find_eq_none, lookup_eq_none.mpr hu⟩

/-- Numbered tables with the same rows are the same. -/
theorem eq_of_mem_iff (h : t.Numbered n) (h' : t'.Numbered m)
    (hmem : ∀ r, r ∈ t.rows ↔ r ∈ t'.rows) : t = t' := by
  have hasymm : ∀ a b : ρ, a ∈ t.rows → b ∈ t'.rows →
      Row.primary a < Row.primary b → Row.primary b < Row.primary a → a = b :=
    fun a b _ _ hab hba ↦ absurd hab (Nat.lt_asymm hba)
  refine eq_of_rows (List.Perm.eq_of_pairwise hasymm (List.pairwise_map.mp h.increasing)
    (List.pairwise_map.mp h'.increasing) ?_)
  exact (List.perm_ext_iff_of_nodup (List.Nodup.of_map _ t.primary_nodup)
    (List.Nodup.of_map _ t'.primary_nodup)).mpr hmem

end Numbered

theorem insertAll_keep [DecidableEq κ] {t t' : Table ρ} {rs : List ρ} {p : ρ → Bool}
    (h : t.insertAll rs = some t') (hp : ∀ r ∈ rs, p r = true) :
    (t.keep p).insertAll rs = some (t'.keep p) := by
  induction rs generalizing t with
  | nil => rw [insertAll, ← Option.some.inj h]
  | cons r rs ih =>
    obtain ⟨t₁, hins, hrest⟩ := Option.bind_eq_some_iff.mp h
    rw [insertAll, insert_keep hins (hp r List.mem_cons_self), Option.bind_some]
    exact ih hrest fun r' hr' ↦ hp r' (List.mem_cons_of_mem r hr')

end Table

namespace Table.Numbered

variable {ρ : Type} [Row ρ ℕ ℕ] {t : Table ρ} {n : ℕ}

theorem free_of_unique (hu : ∀ r : ρ, Row.unique r = Row.primary r) (h : t.Numbered n) {r : ρ}
    (hr : Row.primary r = n) : t.Free r :=
  h.free hr fun r' hr' ↦ by
    rw [hu, hu, hr]
    exact Nat.ne_of_lt (h.below r' hr')

/-- Rows with the next numbers can be inserted. -/
theorem exists_insertAll (hu : ∀ r : ρ, Row.unique r = Row.primary r) {rs : List ρ}
    (h : t.Numbered n) (hids : rs.map Row.primary = List.range' n rs.length) :
    ∃ t', t.insertAll rs = some t' ∧ t'.Numbered (n + rs.length) := by
  induction rs generalizing t n with
  | nil => exact ⟨t, rfl, h⟩
  | cons r rs ih =>
    rw [List.map_cons, List.length_cons, List.range'_succ, List.cons.injEq] at hids
    have hins := (h.free_of_unique hu hids.1).insert
    obtain ⟨t', hrest, hn⟩ := ih (h.insert hins hids.1) hids.2
    refine ⟨t', by rw [insertAll, hins, Option.bind_some, hrest], ?_⟩
    rw [List.length_cons, Nat.add_comm rs.length, ← Nat.add_assoc]
    exact hn

end Table.Numbered

end KnowledgeAlakazam
