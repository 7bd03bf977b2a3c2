import KnowledgeAlakazam.Core.PyValue
import Mathlib.Data.List.Forall2
import Mathlib.Data.List.Nodup

/-!
# Trees of Python values

A Python value is a tree: a `list` or a `tuple` has its items below it, a `dict` the values of its
items, and everything else is a leaf. Keys are not nodes of the tree.

Code that walks such a tree rebuilds every mapping in a comprehension, `{f(key): g(value) for …}`.
Its items are those of `assignItems`, which puts one item after the other into a mapping: a key that
comes again gets the later value, and all items are there exactly if no key comes again.
-/

namespace KnowledgeAlakazam

/-! ## Side by side -/

section Zip

variable {α β : Type}

theorem map_eq_map_of_zip {f : α → β} {items items' : List α}
    (hlength : items.length = items'.length)
    (h : ∀ item item', (item, item') ∈ items.zip items' → f item = f item') :
    items.map f = items'.map f := by
  have hzip : List.Forall₂ (fun item item' ↦ f item = f item') items items' :=
    List.forall₂_iff_zip.mpr ⟨hlength, fun hmem ↦ h _ _ hmem⟩
  rw [← List.forall₂_eq_eq_eq, List.forall₂_map_left_iff, List.forall₂_map_right_iff]
  exact hzip

theorem eq_of_mem_zip {f : α → β} {items items' : List α} (hmap : items.map f = items'.map f)
    {item item' : α} (h : (item, item') ∈ items.zip items') : f item = f item' := by
  rw [← List.forall₂_eq_eq_eq, List.forall₂_map_left_iff, List.forall₂_map_right_iff] at hmap
  exact (List.forall₂_iff_zip.mp hmap).2 h

theorem mem_zip_map {f : α → β} {items : List α} {item : α} {image : β} :
    (item, image) ∈ items.zip (items.map f) ↔ item ∈ items ∧ f item = image := by
  induction items with
  | nil => simp
  | cons first items ih =>
    rw [List.map_cons, List.zip_cons_cons, List.mem_cons, List.mem_cons, ih, Prod.mk.injEq]
    constructor
    · rintro (⟨rfl, rfl⟩ | ⟨hmem, himage⟩)
      · exact ⟨.inl rfl, rfl⟩
      · exact ⟨.inr hmem, himage⟩
    · rintro ⟨rfl | hmem, himage⟩
      · exact .inl ⟨rfl, himage.symm⟩
      · exact .inr ⟨hmem, himage⟩

end Zip

/-! ## Mappings -/

/-- `mapping[key] = value`. -/
def setItem (items : List (PyValue × PyValue)) (key : String) (value : PyValue) :
    List (PyValue × PyValue) :=
  if items.any fun item ↦ item.1.isKey key then
    items.map fun item ↦ if item.1.isKey key then (item.1, value) else item
  else items ++ [(.str key, value)]

/-- The items of a mapping after `mapping[key] = value` for one pair after the other. -/
def assignItems (items : List (PyValue × PyValue)) (pairs : List (String × PyValue)) :
    List (PyValue × PyValue) :=
  pairs.foldl (fun items pair ↦ setItem items pair.1 pair.2) items

/-- The keys of a mapping are strings, and no key comes twice. -/
structure StringKeyed (items : List (PyValue × PyValue)) : Prop where
  str : ∀ item ∈ items, ∃ key, item.1 = .str key
  nodup : (items.map Prod.fst).Nodup

theorem PyValue.isKey_iff {value : PyValue} {key : String} :
    value.isKey key = true ↔ value = .str key := by
  cases value with
  | str text => rw [isKey, beq_iff_eq, str.injEq]
  | _ => exact ⟨fun h ↦ (Bool.false_ne_true h).elim, fun h ↦ nomatch h⟩

section Mapping

variable {items : List (PyValue × PyValue)} {key : String} {value : PyValue}

theorem any_isKey_iff :
    (items.any fun item ↦ item.1.isKey key) = true ↔ .str key ∈ items.map Prod.fst := by
  simp only [List.any_eq_true, PyValue.isKey_iff, List.mem_map]

theorem setItem_of_not_mem (h : .str key ∉ items.map Prod.fst) :
    setItem items key value = items ++ [(.str key, value)] := by
  rw [setItem, if_neg (any_isKey_iff.not.mpr h)]

theorem keys_setItem_of_mem (h : .str key ∈ items.map Prod.fst) :
    (setItem items key value).map Prod.fst = items.map Prod.fst := by
  rw [setItem, if_pos (any_isKey_iff.mpr h), List.map_map]
  refine List.map_congr_left fun item _ ↦ ?_
  rw [Function.comp_apply]
  split <;> rfl

theorem mem_setItem {item : PyValue × PyValue} (h : item ∈ setItem items key value) :
    item ∈ items ∨ item = (.str key, value) := by
  rw [setItem] at h
  split at h
  · obtain ⟨old, hmem, rfl⟩ := List.mem_map.mp h
    split
    · rename_i hkey
      exact .inr (by rw [PyValue.isKey_iff.mp hkey])
    · exact .inl hmem
  · rcases List.mem_append.mp h with h | h
    · exact .inl h
    · exact .inr (List.mem_singleton.mp h)

theorem nodup_keys_setItem (h : (items.map Prod.fst).Nodup) :
    ((setItem items key value).map Prod.fst).Nodup := by
  by_cases hmem : .str key ∈ items.map Prod.fst
  · rwa [keys_setItem_of_mem hmem]
  · rw [setItem_of_not_mem hmem, List.map_append]
    refine List.nodup_append.mpr ⟨h, List.nodup_singleton _, ?_⟩
    intro other hother new hnew heq
    rw [heq, List.mem_singleton.mp hnew] at hother
    exact hmem hother

theorem mem_assignItems {pairs : List (String × PyValue)} {item : PyValue × PyValue}
    (h : item ∈ assignItems items pairs) :
    item ∈ items ∨ ∃ pair ∈ pairs, item = (.str pair.1, pair.2) := by
  induction pairs generalizing items with
  | nil => exact .inl h
  | cons pair pairs ih =>
    have hrest : item ∈ assignItems (setItem items pair.1 pair.2) pairs := h
    rcases ih hrest with h | ⟨later, hlater, heq⟩
    · rcases mem_setItem h with h | h
      · exact .inl h
      · exact .inr ⟨pair, List.mem_cons_self, h⟩
    · exact .inr ⟨later, List.mem_cons_of_mem _ hlater, heq⟩

theorem nodup_keys_assignItems (h : (items.map Prod.fst).Nodup) (pairs : List (String × PyValue)) :
    ((assignItems items pairs).map Prod.fst).Nodup := by
  induction pairs generalizing items with
  | nil => exact h
  | cons pair pairs ih => exact ih (nodup_keys_setItem h)

/-- **A comprehension has distinct string keys.** -/
theorem stringKeyed_assignItems (pairs : List (String × PyValue)) :
    StringKeyed (assignItems [] pairs) where
  str item hitem := by
    obtain ⟨pair, -, rfl⟩ := (mem_assignItems hitem).resolve_left List.not_mem_nil
    exact ⟨pair.1, rfl⟩
  nodup := @nodup_keys_assignItems [] List.nodup_nil pairs

theorem length_setItem_le : (setItem items key value).length ≤ items.length + 1 := by
  rw [setItem]
  split <;> simp

theorem length_assignItems_le (pairs : List (String × PyValue)) :
    (assignItems items pairs).length ≤ items.length + pairs.length := by
  induction pairs generalizing items with
  | nil => exact Nat.le_refl _
  | cons pair pairs ih =>
    have hset : (setItem items pair.1 pair.2).length ≤ items.length + 1 := length_setItem_le
    have hrest : (assignItems (setItem items pair.1 pair.2) pairs).length
        ≤ (setItem items pair.1 pair.2).length + pairs.length := ih
    rw [List.length_cons]
    exact Nat.le_trans hrest (by omega)

/-- **Nothing is lost** if no key comes again. -/
theorem assignItems_of_nodup {pairs : List (String × PyValue)}
    (h : (items.map Prod.fst ++ pairs.map fun pair ↦ PyValue.str pair.1).Nodup) :
    assignItems items pairs = items ++ pairs.map fun pair ↦ (.str pair.1, pair.2) := by
  induction pairs generalizing items with
  | nil => exact (List.append_nil items).symm
  | cons pair pairs ih =>
    have hnew : .str pair.1 ∉ items.map Prod.fst := fun hmem ↦
      (List.nodup_append.mp h).2.2 _ hmem _ List.mem_cons_self rfl
    have hset : setItem items pair.1 pair.2 = items ++ [(.str pair.1, pair.2)] :=
      setItem_of_not_mem hnew
    rw [assignItems, List.foldl_cons, hset]
    rw [List.map_cons, List.append_cons] at h
    rw [← assignItems, ih (by rwa [List.map_append]), List.append_assoc]
    rfl

theorem lookup_setItem (name : String) :
    PyValue.lookup (setItem items key value) name =
      if name = key then some value else PyValue.lookup items name := by
  rw [setItem, PyValue.lookup, PyValue.lookup]
  split
  · -- the key stays where it is, with the new value
    rename_i hany
    have hsame : ((fun item : PyValue × PyValue ↦ item.1.isKey name) ∘
        fun item : PyValue × PyValue ↦ if item.1.isKey key then (item.1, value) else item) =
        fun item ↦ item.1.isKey name := by
      funext item
      rw [Function.comp_apply, apply_ite Prod.fst, ite_self]
    rw [List.find?_map, hsame, Option.map_map]
    cases hfind : items.find? fun item ↦ item.1.isKey name with
    | none =>
      have hne : name ≠ key := by
        rintro rfl
        obtain ⟨item, hmem, hkey⟩ := List.any_eq_true.mp hany
        exact absurd hkey (List.find?_eq_none.mp hfind item hmem)
      rw [if_neg hne]
      rfl
    | some item =>
      have hkey : item.1 = .str name := PyValue.isKey_iff.mp
        (List.find?_some (p := fun item : PyValue × PyValue ↦ item.1.isKey name) hfind)
      rw [Option.map_some, Option.map_some, Function.comp_apply]
      by_cases hname : name = key
      · rw [if_pos hname, if_pos (PyValue.isKey_iff.mpr (hname ▸ hkey))]
      · have hnot : ¬item.1.isKey key = true := fun h ↦
          hname (PyValue.str.inj (hkey.symm.trans (PyValue.isKey_iff.mp h)))
        rw [if_neg hname, if_neg hnot]
  · -- a new key goes to the end
    rename_i hany
    by_cases hname : name = key
    · subst hname
      have hnone : items.find? (fun item ↦ item.1.isKey name) = none :=
        List.find?_eq_none.mpr fun item hmem hkey ↦ hany (List.any_eq_true.mpr ⟨item, hmem, hkey⟩)
      rw [if_pos rfl, List.find?_append, hnone, Option.none_or, List.find?_cons_of_pos]
      · rfl
      · exact PyValue.isKey_iff.mpr rfl
    · have hnot : ¬(PyValue.str key).isKey name = true := fun h ↦
        hname (PyValue.str.inj (PyValue.isKey_iff.mp h)).symm
      have hlast : [(PyValue.str key, value)].find? (fun item ↦ item.1.isKey name) = none :=
        List.find?_cons_of_neg hnot
      rw [if_neg hname, List.find?_append, hlast, Option.or_none]

/-- **Of the pairs with one key the last one counts.** -/
theorem lookup_assignItems (pairs : List (String × PyValue)) (name : String) :
    PyValue.lookup (assignItems items pairs) name =
      (((pairs.filter fun pair ↦ pair.1 == name).getLast?).map Prod.snd).or
        (PyValue.lookup items name) := by
  induction pairs generalizing items with
  | nil => rfl
  | cons pair pairs ih =>
    change PyValue.lookup (assignItems (setItem items pair.1 pair.2) pairs) name = _
    rw [ih, lookup_setItem, List.filter_cons]
    by_cases hname : name = pair.1
    · rw [if_pos hname, if_pos (beq_iff_eq.mpr hname.symm), List.getLast?_cons, Option.map_some,
        Option.some_or]
      cases (pairs.filter fun pair ↦ pair.1 == name).getLast? <;> rfl
    · rw [if_neg hname, if_neg fun h ↦ hname (beq_iff_eq.mp h).symm]

/-- If a key comes again, an item is lost. -/
theorem nodup_of_length_assignItems {pairs : List (String × PyValue)}
    (hkeys : (items.map Prod.fst).Nodup)
    (h : (assignItems items pairs).length = items.length + pairs.length) :
    (items.map Prod.fst ++ pairs.map fun pair ↦ PyValue.str pair.1).Nodup := by
  induction pairs generalizing items with
  | nil => rwa [List.map_nil, List.append_nil]
  | cons pair pairs ih =>
    have hlength : (assignItems (setItem items pair.1 pair.2) pairs).length
        = items.length + (pairs.length + 1) := h
    have hle : (assignItems (setItem items pair.1 pair.2) pairs).length
        ≤ (setItem items pair.1 pair.2).length + pairs.length := length_assignItems_le pairs
    have hnew : .str pair.1 ∉ items.map Prod.fst := by
      intro hmem
      have hsame : ((setItem items pair.1 pair.2).map Prod.fst).length
          = (items.map Prod.fst).length := congrArg List.length (keys_setItem_of_mem hmem)
      rw [List.length_map, List.length_map] at hsame
      omega
    have hset : setItem items pair.1 pair.2 = items ++ [(.str pair.1, pair.2)] :=
      setItem_of_not_mem hnew
    have hnodup : ((setItem items pair.1 pair.2).map Prod.fst).Nodup := nodup_keys_setItem hkeys
    have hrest := ih hnodup (by
      rw [hlength, hset, List.length_append, List.length_singleton, Nat.add_assoc,
        Nat.add_comm 1])
    rw [hset, List.map_append] at hrest
    rwa [List.map_cons, List.append_cons]

/-- A comprehension over a mapping with string keys keeps the keys. -/
theorem assignItems_comprehension (unicode : UnicodeData) (hkeyed : StringKeyed items)
    (f : PyValue × PyValue → PyValue) :
    assignItems [] (items.map fun item ↦ (item.1.toText unicode, f item))
      = items.map fun item ↦ (item.1, f item) := by
  have hstr : ∀ item ∈ items, PyValue.str (item.1.toText unicode) = item.1 := by
    intro item hmem
    obtain ⟨key, hkey⟩ := hkeyed.str item hmem
    rw [hkey, PyValue.toText]
  have hkeys : (items.map fun item ↦ (item.1.toText unicode, f item)).map
      (fun pair ↦ PyValue.str pair.1) = items.map Prod.fst := by
    rw [List.map_map]
    exact List.map_congr_left hstr
  rw [assignItems_of_nodup (by rw [hkeys]; exact hkeyed.nodup), List.nil_append, List.map_map]
  refine List.map_congr_left fun item hmem ↦ ?_
  rw [Function.comp_apply, hstr item hmem]

theorem lookup_map {name : String} (h : PyValue.lookup items name = some value)
    (f : PyValue × PyValue → PyValue) :
    (.str name, value) ∈ items ∧
      PyValue.lookup (items.map fun item ↦ (item.1, f item)) name
        = some (f (.str name, value)) := by
  obtain ⟨⟨key, value⟩, hfind, rfl⟩ := Option.map_eq_some_iff.mp h
  have hfound : PyValue.isKey name key = true :=
    List.find?_some (p := fun item : PyValue × PyValue ↦ item.1.isKey name) hfind
  obtain rfl : key = .str name := PyValue.isKey_iff.mp hfound
  refine ⟨List.mem_of_find?_eq_some hfind, ?_⟩
  rw [PyValue.lookup, List.find?_map, Option.map_map]
  exact congrArg (Option.map fun item ↦ f item) hfind

end Mapping

namespace PyValue

/-! ## The tree -/

def IsLeaf : PyValue → Prop
  | list _ | tuple _ | dict _ => False
  | _ => True

/-- **Induction on the tree.** -/
@[elab_as_elim, induction_eliminator]
theorem treeInduction {motive : PyValue → Prop} (leaf : ∀ value, value.IsLeaf → motive value)
    (list : ∀ items, (∀ item ∈ items, motive item) → motive (list items))
    (tuple : ∀ items, (∀ item ∈ items, motive item) → motive (tuple items))
    (dict : ∀ items, (∀ item ∈ items, motive item.2) → motive (dict items)) :
    ∀ value, motive value
  | .list items => list items fun item _ ↦ treeInduction leaf list tuple dict item
  | .tuple items => tuple items fun item _ ↦ treeInduction leaf list tuple dict item
  | .dict items => dict items fun item _ ↦ treeInduction leaf list tuple dict item.2
  | .none => leaf _ trivial
  | .bool _ => leaf _ trivial
  | .int _ => leaf _ trivial
  | .float _ => leaf _ trivial
  | .str _ => leaf _ trivial
  | .object _ _ => leaf _ trivial
termination_by value => sizeOf value
decreasing_by
  · rename_i hitem
    have hlt := List.sizeOf_lt_of_mem hitem
    rw [PyValue.list.sizeOf_spec]
    omega
  · rename_i hitem
    have hlt := List.sizeOf_lt_of_mem hitem
    rw [PyValue.tuple.sizeOf_spec]
    omega
  · rename_i hitem
    have hlt := List.sizeOf_lt_of_mem hitem
    obtain ⟨key, value⟩ := item
    rw [PyValue.dict.sizeOf_spec]
    rw [Prod.mk.sizeOf_spec] at hlt
    dsimp only
    omega

/-- A value in the tree: the value itself, or one below it. -/
inductive Within : PyValue → PyValue → Prop
  | refl (value : PyValue) : Within value value
  | list {node item : PyValue} {items : List PyValue} (hmem : item ∈ items)
      (h : Within node item) : Within node (list items)
  | tuple {node item : PyValue} {items : List PyValue} (hmem : item ∈ items)
      (h : Within node item) : Within node (tuple items)
  | dict {node : PyValue} {item : PyValue × PyValue} {items : List (PyValue × PyValue)}
      (hmem : item ∈ items) (h : Within node item.2) : Within node (dict items)

/-- A property of every value in the tree. -/
def Everywhere (p : PyValue → Prop) (value : PyValue) : Prop := ∀ node, Within node value → p node

section Everywhere

variable {p : PyValue → Prop}

theorem Everywhere.self {value : PyValue} (h : value.Everywhere p) : p value := h _ (.refl value)

theorem everywhere_leaf {value : PyValue} (hleaf : value.IsLeaf) :
    value.Everywhere p ↔ p value := by
  refine ⟨Everywhere.self, fun h node hnode ↦ ?_⟩
  cases hnode with
  | refl => exact h
  | list => exact hleaf.elim
  | tuple => exact hleaf.elim
  | dict => exact hleaf.elim

theorem everywhere_list {items : List PyValue} :
    (list items).Everywhere p ↔ p (list items) ∧ ∀ item ∈ items, item.Everywhere p := by
  refine ⟨fun h ↦ ⟨h.self, fun item hmem node hnode ↦ h node (.list hmem hnode)⟩, ?_⟩
  rintro ⟨hself, hitems⟩ node hnode
  cases hnode with
  | refl => exact hself
  | list hmem h => exact hitems _ hmem node h

theorem everywhere_tuple {items : List PyValue} :
    (tuple items).Everywhere p ↔ p (tuple items) ∧ ∀ item ∈ items, item.Everywhere p := by
  refine ⟨fun h ↦ ⟨h.self, fun item hmem node hnode ↦ h node (.tuple hmem hnode)⟩, ?_⟩
  rintro ⟨hself, hitems⟩ node hnode
  cases hnode with
  | refl => exact hself
  | tuple hmem h => exact hitems _ hmem node h

theorem everywhere_dict {items : List (PyValue × PyValue)} :
    (dict items).Everywhere p ↔ p (dict items) ∧ ∀ item ∈ items, item.2.Everywhere p := by
  refine ⟨fun h ↦ ⟨h.self, fun item hmem node hnode ↦ h node (.dict hmem hnode)⟩, ?_⟩
  rintro ⟨hself, hitems⟩ node hnode
  cases hnode with
  | refl => exact hself
  | dict hmem h => exact hitems _ hmem node h

end Everywhere

/-- A property of the items of a mapping, as one of values. -/
def IsDictOf (p : List (PyValue × PyValue) → Prop) : PyValue → Prop
  | dict items => p items
  | _ => True

theorem isDictOf_leaf {p : List (PyValue × PyValue) → Prop} {value : PyValue}
    (h : value.IsLeaf) : value.IsDictOf p := by
  cases value with
  | dict items => exact h.elim
  | _ => trivial

/-! ## Paths -/

/-- A step down the tree: to the value of a string key, or to an item of a sequence. -/
inductive PathStep where
  | key (name : String)
  | index (i : ℕ)

def at? : PyValue → List PathStep → Option PyValue
  | value, [] => some value
  | dict items, .key name :: path => (lookup items name).bind fun value ↦ at? value path
  | list items, .index i :: path => items[i]?.bind fun item ↦ at? item path
  | tuple items, .index i :: path => items[i]?.bind fun item ↦ at? item path
  | _, _ :: _ => .none

theorem at?_cons {value node : PyValue} {step : PathStep} {path : List PathStep}
    (h : value.at? (step :: path) = some node) :
    (∃ items name child, value = dict items ∧ step = .key name ∧ lookup items name = some child ∧
      child.at? path = some node) ∨
    ∃ items i child, (value = list items ∨ value = tuple items) ∧ step = .index i ∧
      items[i]? = some child ∧ child.at? path = some node := by
  rw [at?.eq_def] at h
  split at h
  · rename_i heq
    cases heq
  · rename_i items name path heq
    cases heq
    obtain ⟨child, hlookup, hat⟩ := Option.bind_eq_some_iff.mp h
    exact .inl ⟨items, name, child, rfl, rfl, hlookup, hat⟩
  · rename_i items i path heq
    cases heq
    obtain ⟨child, hitem, hat⟩ := Option.bind_eq_some_iff.mp h
    exact .inr ⟨items, i, child, .inl rfl, rfl, hitem, hat⟩
  · rename_i items i path heq
    cases heq
    obtain ⟨child, hitem, hat⟩ := Option.bind_eq_some_iff.mp h
    exact .inr ⟨items, i, child, .inr rfl, rfl, hitem, hat⟩
  · cases h

def pathKeys : List PathStep → List String
  | [] => []
  | .key name :: path => name :: pathKeys path
  | .index _ :: path => pathKeys path

end PyValue

end KnowledgeAlakazam
