import KnowledgeAlakazam.Wiki.Evidence

/-!
# Storable metadata

The metadata of an answer ends up in `JSONB` columns. `_json_safe` is to make it storable: keys
become strings, tuples become lists, and objects become their texts. Doing it again changes
nothing.

It does not always succeed. A `float` that is not finite is handed on as it is, and `JSONB` refuses
it; and two keys of a mapping with the same text, such as `1` and `"1"`, become one key, which
leaves one of the two entries out. Nothing else goes wrong (`madeStorable_iff`).
-/

namespace KnowledgeAlakazam

variable (unicode : UnicodeData)

/-! ## What `_json_safe` is for -/

/-- `JSONB` has a value of this kind. -/
def IsJsonNode : PyValue → Prop
  | .none | .bool _ | .int _ | .str _ | .list _ => True
  | .float x => ∃ text, x = .finite text
  | .dict items => StringKeyed items
  | .tuple _ | .object _ _ => False

/-- `JSONB` accepts the value. -/
def JsonbAccepts (value : PyValue) : Prop := value.Everywhere IsJsonNode

/-- Every entry of every mapping of the first value is in the second, under the text of its key. -/
inductive KeepsEntries : PyValue → PyValue → Prop
  | leaf {value : PyValue} (h : value.IsLeaf) (value' : PyValue) : KeepsEntries value value'
  | list {items items' : List PyValue} (hlength : items.length = items'.length)
    (h : ∀ item item', (item, item') ∈ items.zip items' → KeepsEntries item item') :
    KeepsEntries (.list items) (.list items')
  | tuple {items items' : List PyValue} (hlength : items.length = items'.length)
    (h : ∀ item item', (item, item') ∈ items.zip items' → KeepsEntries item item') :
    KeepsEntries (.tuple items) (.list items')
  | dict {items items' : List (PyValue × PyValue)}
    (hkeys : items'.map Prod.fst = items.map fun item ↦ .str (item.1.toText unicode))
    (h : ∀ item item', (item, item') ∈ items.zip items' → KeepsEntries item.2 item'.2) :
    KeepsEntries (.dict items) (.dict items')

/-- What `_json_safe` is to do with a value. -/
structure MadeStorable (value : PyValue) : Prop where
  accepted : JsonbAccepts (jsonSafe unicode value)
  kept : KeepsEntries unicode value (jsonSafe unicode value)
  fixed : jsonSafe unicode (jsonSafe unicode value) = jsonSafe unicode value

/-- The value is no infinite `float`, and not a NaN. -/
def IsFinite : PyValue → Prop
  | .float x => ∃ text, x = .finite text
  | _ => True

/-- Every `float` in the value is finite. -/
def FiniteFloats (value : PyValue) : Prop := value.Everywhere IsFinite

/-- No two keys of a mapping in the value have the same text. -/
def DistinctKeyTexts (value : PyValue) : Prop :=
  value.Everywhere (PyValue.IsDictOf fun items ↦
    (items.map fun item ↦ item.1.toText unicode).Nodup)

/-! ## The walk -/

section Walk

variable {unicode}

theorem jsonSafe_leaf (unicode : UnicodeData) {value : PyValue} (h : value.IsLeaf) :
    jsonSafe unicode value = value ∨ ∃ text repr, value = .object text repr ∧
      jsonSafe unicode value = .str text := by
  cases value with
  | object text repr => exact .inr ⟨text, repr, rfl, by rw [jsonSafe]⟩
  | list items => exact h.elim
  | tuple items => exact h.elim
  | dict items => exact h.elim
  | _ => exact .inl (by rw [jsonSafe])

theorem jsonSafeList_eq (items : List PyValue) :
    jsonSafeList unicode items = items.map (jsonSafe unicode) := by
  induction items with
  | nil => rw [jsonSafeList, List.map_nil]
  | cons item items ih => rw [jsonSafeList, ih, List.map_cons]

theorem jsonSafeItems_eq (done items : List (PyValue × PyValue)) :
    jsonSafeItems unicode done items = assignItems done
      (items.map fun item ↦ (item.1.toText unicode, jsonSafe unicode item.2)) := by
  induction items generalizing done with
  | nil => rw [jsonSafeItems]; rfl
  | cons item items ih =>
    rw [jsonSafeItems, ih]
    rfl

theorem jsonSafe_list (items : List PyValue) :
    jsonSafe unicode (.list items) = .list (items.map (jsonSafe unicode)) := by
  rw [jsonSafe, jsonSafeList_eq]

theorem jsonSafe_tuple (items : List PyValue) :
    jsonSafe unicode (.tuple items) = .list (items.map (jsonSafe unicode)) := by
  rw [jsonSafe, jsonSafeList_eq]

theorem jsonSafe_dict (items : List (PyValue × PyValue)) :
    jsonSafe unicode (.dict items) = .dict (assignItems []
      (items.map fun item ↦ (item.1.toText unicode, jsonSafe unicode item.2))) := by
  rw [jsonSafe, jsonSafeItems_eq]

theorem jsonSafe_dict_of_nodup {items : List (PyValue × PyValue)}
    (h : (items.map fun item ↦ item.1.toText unicode).Nodup) :
    jsonSafe unicode (.dict items)
      = .dict (items.map fun item ↦ (.str (item.1.toText unicode), jsonSafe unicode item.2)) := by
  have hinj : Function.Injective PyValue.str := fun _ _ heq ↦ PyValue.str.inj heq
  rw [jsonSafe_dict, assignItems_of_nodup, List.nil_append, List.map_map]
  · rfl
  · rw [List.map_nil, List.nil_append, List.map_map]
    have hnodup := h.map hinj
    rw [List.map_map] at hnodup
    exact hnodup

/-- **Doing it again changes nothing.** -/
theorem jsonSafe_jsonSafe (value : PyValue) :
    jsonSafe unicode (jsonSafe unicode value) = jsonSafe unicode value := by
  induction value with
  | leaf value h =>
    rcases jsonSafe_leaf unicode h with heq | ⟨text, repr, -, heq⟩
    · rw [heq, heq]
    · rw [heq, jsonSafe]
  | list items ih =>
    rw [jsonSafe_list, jsonSafe_list, List.map_map]
    exact congrArg _ (List.map_congr_left ih)
  | tuple items ih =>
    rw [jsonSafe_tuple, jsonSafe_list, List.map_map]
    exact congrArg _ (List.map_congr_left ih)
  | dict items ih =>
    rw [jsonSafe_dict]
    generalize hpairs : items.map (fun item ↦
      (item.1.toText unicode, jsonSafe unicode item.2)) = pairs
    have hfixed : ∀ item ∈ assignItems [] pairs, (item.1, jsonSafe unicode item.2) = item := by
      intro item hitem
      obtain ⟨pair, hpair, rfl⟩ := (mem_assignItems hitem).resolve_left List.not_mem_nil
      rw [← hpairs] at hpair
      obtain ⟨old, hold, rfl⟩ := List.mem_map.mp hpair
      rw [ih old hold]
    rw [jsonSafe_dict, assignItems_comprehension unicode (stringKeyed_assignItems pairs),
      List.map_congr_left hfixed, List.map_id']

/-! ## What is lost and what is refused -/

/-- A mapping all of whose entries are kept has as many as before, so no text comes twice. -/
theorem nodup_of_keepsEntries {items : List (PyValue × PyValue)}
    (h : KeepsEntries unicode (.dict items) (jsonSafe unicode (.dict items))) :
    (items.map fun item ↦ item.1.toText unicode).Nodup := by
  rw [jsonSafe_dict] at h
  cases h with
  | leaf h => exact h.elim
  | dict hkeys =>
    have hlength := congrArg List.length hkeys
    rw [List.length_map, List.length_map] at hlength
    have hnodup := @nodup_of_length_assignItems [] _ List.nodup_nil (by
      rw [hlength, List.length_map, List.length_nil, Nat.zero_add])
    rw [List.map_nil, List.nil_append, List.map_map] at hnodup
    refine List.Nodup.of_map PyValue.str ?_
    rw [List.map_map]
    exact hnodup

theorem distinctKeyTexts_of_keepsEntries {value : PyValue}
    (h : KeepsEntries unicode value (jsonSafe unicode value)) :
    DistinctKeyTexts unicode value := by
  induction value with
  | leaf value hleaf => exact (PyValue.everywhere_leaf hleaf).mpr (PyValue.isDictOf_leaf hleaf)
  | list items ih =>
    rw [jsonSafe_list] at h
    cases h with
    | leaf h => exact h.elim
    | list _ h =>
      exact PyValue.everywhere_list.mpr ⟨trivial, fun item hitem ↦
        ih item hitem (h item _ (mem_zip_map.mpr ⟨hitem, rfl⟩))⟩
  | tuple items ih =>
    rw [jsonSafe_tuple] at h
    cases h with
    | leaf h => exact h.elim
    | tuple _ h =>
      exact PyValue.everywhere_tuple.mpr ⟨trivial, fun item hitem ↦
        ih item hitem (h item _ (mem_zip_map.mpr ⟨hitem, rfl⟩))⟩
  | dict items ih =>
    have hnodup := nodup_of_keepsEntries h
    rw [jsonSafe_dict_of_nodup hnodup] at h
    cases h with
    | leaf h => exact h.elim
    | dict _ h =>
      exact PyValue.everywhere_dict.mpr ⟨hnodup, fun item hitem ↦
        ih item hitem (h item _ (mem_zip_map.mpr ⟨hitem, rfl⟩))⟩

theorem keepsEntries_jsonSafe {value : PyValue} (h : DistinctKeyTexts unicode value) :
    KeepsEntries unicode value (jsonSafe unicode value) := by
  induction value with
  | leaf value hleaf => exact .leaf hleaf _
  | list items ih =>
    rw [jsonSafe_list]
    refine .list (List.length_map _).symm fun item item' hmem ↦ ?_
    obtain ⟨hitem, rfl⟩ := mem_zip_map.mp hmem
    exact ih item hitem ((PyValue.everywhere_list.mp h).2 item hitem)
  | tuple items ih =>
    rw [jsonSafe_tuple]
    refine .tuple (List.length_map _).symm fun item item' hmem ↦ ?_
    obtain ⟨hitem, rfl⟩ := mem_zip_map.mp hmem
    exact ih item hitem ((PyValue.everywhere_tuple.mp h).2 item hitem)
  | dict items ih =>
    obtain ⟨hnodup, hvalues⟩ := PyValue.everywhere_dict.mp h
    rw [jsonSafe_dict_of_nodup hnodup]
    refine .dict (by rw [List.map_map]; rfl) fun item item' hmem ↦ ?_
    obtain ⟨hitem, rfl⟩ := mem_zip_map.mp hmem
    exact ih item hitem (hvalues item hitem)

theorem jsonbAccepts_leaf_iff {value : PyValue} (h : value.IsLeaf) :
    JsonbAccepts (jsonSafe unicode value) ↔ FiniteFloats value := by
  rw [FiniteFloats, PyValue.everywhere_leaf h, JsonbAccepts]
  rcases jsonSafe_leaf unicode h with heq | ⟨text, repr, rfl, heq⟩
  · rw [heq, PyValue.everywhere_leaf h]
    cases value with
    | list items => exact h.elim
    | tuple items => exact h.elim
    | dict items => exact h.elim
    | object text repr => rw [jsonSafe] at heq; cases heq
    | _ => exact Iff.rfl
  · have hstr : (PyValue.str text).IsLeaf := trivial
    rw [heq, PyValue.everywhere_leaf hstr]
    exact Iff.rfl

/-- As long as no entry is overwritten, `JSONB` accepts the result exactly if every `float` is
finite. -/
theorem jsonbAccepts_jsonSafe_iff {value : PyValue} (hkeys : DistinctKeyTexts unicode value) :
    JsonbAccepts (jsonSafe unicode value) ↔ FiniteFloats value := by
  induction value with
  | leaf value h => exact jsonbAccepts_leaf_iff h
  | list items ih =>
    have hitems := (PyValue.everywhere_list.mp hkeys).2
    rw [jsonSafe_list, JsonbAccepts, FiniteFloats, PyValue.everywhere_list,
      PyValue.everywhere_list, List.forall_mem_map]
    exact and_congr Iff.rfl (forall₂_congr fun item hitem ↦ ih item hitem (hitems item hitem))
  | tuple items ih =>
    have hitems := (PyValue.everywhere_tuple.mp hkeys).2
    rw [jsonSafe_tuple, JsonbAccepts, FiniteFloats, PyValue.everywhere_list,
      PyValue.everywhere_tuple, List.forall_mem_map]
    exact and_congr Iff.rfl (forall₂_congr fun item hitem ↦ ih item hitem (hitems item hitem))
  | dict items ih =>
    obtain ⟨hnodup, hvalues⟩ := PyValue.everywhere_dict.mp hkeys
    have hkeyed : IsJsonNode (jsonSafe unicode (.dict items)) := by
      rw [jsonSafe_dict]
      exact stringKeyed_assignItems _
    rw [jsonSafe_dict_of_nodup hnodup] at hkeyed ⊢
    rw [JsonbAccepts, FiniteFloats, PyValue.everywhere_dict, PyValue.everywhere_dict,
      List.forall_mem_map]
    exact and_congr (iff_of_true hkeyed trivial)
      (forall₂_congr fun item hitem ↦ ih item hitem (hvalues item hitem))

end Walk

/-- **When metadata is made storable.** -/
theorem madeStorable_iff (value : PyValue) :
    MadeStorable unicode value ↔ FiniteFloats value ∧ DistinctKeyTexts unicode value := by
  constructor
  · intro h
    have hkeys := distinctKeyTexts_of_keepsEntries h.kept
    exact ⟨(jsonbAccepts_jsonSafe_iff hkeys).mp h.accepted, hkeys⟩
  · rintro ⟨hfloats, hkeys⟩
    exact ⟨(jsonbAccepts_jsonSafe_iff hkeys).mpr hfloats, keepsEntries_jsonSafe hkeys,
      jsonSafe_jsonSafe value⟩

/-- Metadata with a score that is no number. -/
def nanScore : PyValue := .dict [(.str "score", .float .nan)]

/-- **`JSONB` refuses what is made of it**: the NaN is still there. -/
theorem nan_score_refused : ¬MadeStorable asciiData nanScore := by
  intro h
  have hsafe : jsonSafe asciiData nanScore = .dict [(.str "score", .float .nan)] := rfl
  obtain ⟨text, htext⟩ := h.accepted (.float .nan) (by
    rw [hsafe]
    exact .dict List.mem_cons_self (.refl _))
  cases htext

/-- Metadata with two keys of the same text. -/
def twoOnes : PyValue := .dict [(.int 1, .str "a"), (.str "1", .str "b")]

/-- **An entry is lost**: what was stored under the number is gone. -/
theorem entry_of_number_lost : jsonSafe asciiData twoOnes = .dict [(.str "1", .str "b")] ∧
    ¬MadeStorable asciiData twoOnes := by
  have hsafe : jsonSafe asciiData twoOnes = .dict [(.str "1", .str "b")] := rfl
  refine ⟨hsafe, fun h ↦ ?_⟩
  have hkept := h.kept
  rw [hsafe, twoOnes] at hkept
  cases hkept with
  | leaf h => exact h.elim
  | dict hkeys => exact absurd (congrArg List.length hkeys) (by decide)

end KnowledgeAlakazam
