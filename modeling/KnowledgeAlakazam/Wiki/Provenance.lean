import KnowledgeAlakazam.Wiki.Evidence
import Mathlib.Data.List.ReduceOption

/-!
# Provenance

Where the sources of a page come from. The metadata of an answer is a tree; a source is read off
one of its nodes, a mapping or a string, and every field of it off that same node
(`NeverInvented`). Two sources with the same source, chunk, entity, relation and quotation count as
one, and the first of them is kept (`NeverLost`).

The two properties do not hold of every tree. `int` refuses some of the texts that `isdigit` takes
for numbers, and then there are no sources at all; and the fields that are left out of the
comparison are lost with the later source. Both are stated exactly.
-/

namespace KnowledgeAlakazam

variable (unicode : UnicodeData)

/-! ## The nodes of a tree -/

/-- The node is the value, or below it, and no mapping with the identity of a source is above the
node. -/
inductive Reaches : PyValue → PyValue → Prop
  | refl (node : PyValue) : Reaches node node
  | entry {items : List (PyValue × PyValue)} {key value node : PyValue}
      (hidentity : hasSourceIdentity items = false) (hmem : (key, value) ∈ items)
      (h : Reaches value node) : Reaches (.dict items) node
  | item {items : List PyValue} {value node : PyValue} (hmem : value ∈ items)
      (h : Reaches value node) : Reaches (.list items) node
  | tupleItem {items : List PyValue} {value node : PyValue} (hmem : value ∈ items)
      (h : Reaches value node) : Reaches (.tuple items) node

/-- A source can be read off the node: a string, or a mapping with the identity of a source. -/
def IsSourceItem : PyValue → Prop
  | .str _ => True
  | .dict items => hasSourceIdentity items = true
  | _ => False

/-- A candidate: the metadata itself, or a node below one of its collections. -/
structure Candidate (metadata : List (PyValue × PyValue)) (node : PyValue) : Prop where
  item : IsSourceItem node
  place : node = .dict metadata ∨ ∃ key ∈ sourceCollectionKeys, ∃ value,
    PyValue.lookup metadata key = some value ∧ Reaches value node

theorem mem_flattenSourceList {items : List PyValue} {node : PyValue} :
    node ∈ flattenSourceList items ↔ ∃ value ∈ items, node ∈ flattenSourceItems value := by
  induction items with
  | nil => simp [flattenSourceList]
  | cons value items ih =>
    rw [flattenSourceList, List.mem_append, ih]
    simp

theorem mem_flattenSourceEntries {items : List (PyValue × PyValue)} {node : PyValue} :
    node ∈ flattenSourceEntries items ↔
      ∃ key value, (key, value) ∈ items ∧ node ∈ flattenSourceItems value := by
  induction items with
  | nil => simp [flattenSourceEntries]
  | cons entry items ih =>
    obtain ⟨key, value⟩ := entry
    rw [flattenSourceEntries, List.mem_append, ih]
    constructor
    · rintro (h | ⟨key', value', hmem, h⟩)
      · exact ⟨key, value, List.mem_cons_self, h⟩
      · exact ⟨key', value', List.mem_cons_of_mem _ hmem, h⟩
    · rintro ⟨key', value', hmem, h⟩
      rcases List.mem_cons.mp hmem with heq | hmem
      · obtain ⟨rfl, rfl⟩ := Prod.mk.inj heq
        exact .inl h
      · exact .inr ⟨key', value', hmem, h⟩

/-- A node that is reached is collected. -/
theorem Reaches.mem_flattenSourceItems {value node : PyValue} (h : Reaches value node)
    (hitem : IsSourceItem node) : node ∈ flattenSourceItems value := by
  induction h with
  | refl node =>
    cases node with
    | str text => exact List.mem_singleton_self _
    | dict items =>
      have hidentity : hasSourceIdentity items = true := hitem
      rw [flattenSourceItems, if_pos hidentity]
      exact List.mem_singleton_self _
    | none => exact hitem.elim
    | bool b => exact hitem.elim
    | int i => exact hitem.elim
    | float x => exact hitem.elim
    | list items => exact hitem.elim
    | tuple items => exact hitem.elim
    | object text repr => exact hitem.elim
  | entry hidentity hmem _ ih =>
    rw [flattenSourceItems, if_neg (ne_true_of_eq_false hidentity)]
    exact mem_flattenSourceEntries.mpr ⟨_, _, hmem, ih hitem⟩
  | item hmem _ ih =>
    rw [flattenSourceItems]
    exact mem_flattenSourceList.mpr ⟨_, hmem, ih hitem⟩
  | tupleItem hmem _ ih =>
    rw [flattenSourceItems]
    exact mem_flattenSourceList.mpr ⟨_, hmem, ih hitem⟩

mutual

/-- What is collected is reached. -/
theorem reaches_of_mem : ∀ {value node : PyValue}, node ∈ flattenSourceItems value →
    Reaches value node ∧ IsSourceItem node
  | .str text, node, h => by
    rw [flattenSourceItems] at h
    rw [List.mem_singleton.mp h]
    exact ⟨.refl _, trivial⟩
  | .dict items, node, h => by
    rw [flattenSourceItems] at h
    split at h
    · rename_i hidentity
      rw [List.mem_singleton.mp h]
      exact ⟨.refl _, hidentity⟩
    · rename_i hidentity
      obtain ⟨key, value, hmem, hreach, hitem⟩ := reaches_of_mem_entries h
      exact ⟨.entry (Bool.eq_false_iff.mpr hidentity) hmem hreach, hitem⟩
  | .list items, node, h => by
    rw [flattenSourceItems] at h
    obtain ⟨value, hmem, hreach, hitem⟩ := reaches_of_mem_list h
    exact ⟨.item hmem hreach, hitem⟩
  | .tuple items, node, h => by
    rw [flattenSourceItems] at h
    obtain ⟨value, hmem, hreach, hitem⟩ := reaches_of_mem_list h
    exact ⟨.tupleItem hmem hreach, hitem⟩
  | .none, node, h | .bool _, node, h | .int _, node, h | .float _, node, h
  | .object _ _, node, h => by
    rw [flattenSourceItems] at h
    exact absurd h List.not_mem_nil

theorem reaches_of_mem_list : ∀ {items : List PyValue} {node : PyValue},
    node ∈ flattenSourceList items → ∃ value ∈ items, Reaches value node ∧ IsSourceItem node
  | [], node, h => absurd h List.not_mem_nil
  | value :: items, node, h => by
    rw [flattenSourceList] at h
    rcases List.mem_append.mp h with h | h
    · exact ⟨value, List.mem_cons_self, reaches_of_mem h⟩
    · obtain ⟨value', hmem, hreach⟩ := reaches_of_mem_list h
      exact ⟨value', List.mem_cons_of_mem _ hmem, hreach⟩

theorem reaches_of_mem_entries : ∀ {items : List (PyValue × PyValue)} {node : PyValue},
    node ∈ flattenSourceEntries items →
      ∃ key value, (key, value) ∈ items ∧ Reaches value node ∧ IsSourceItem node
  | [], node, h => absurd h List.not_mem_nil
  | (key, value) :: items, node, h => by
    rw [flattenSourceEntries] at h
    rcases List.mem_append.mp h with h | h
    · exact ⟨key, value, List.mem_cons_self, reaches_of_mem h⟩
    · obtain ⟨key', value', hmem, hreach⟩ := reaches_of_mem_entries h
      exact ⟨key', value', List.mem_cons_of_mem _ hmem, hreach⟩

end

/-- **What is collected.** The items of `_source_candidate_items` are the candidates. -/
theorem mem_sourceCandidateItems {metadata : List (PyValue × PyValue)} {node : PyValue} :
    node ∈ sourceCandidateItems metadata ↔ Candidate metadata node := by
  rw [sourceCandidateItems, List.mem_append, List.mem_flatMap]
  constructor
  · rintro (h | ⟨key, hkey, h⟩)
    · split at h
      · rename_i hidentity
        rw [List.mem_singleton.mp h]
        exact ⟨hidentity, .inl rfl⟩
      · exact absurd h List.not_mem_nil
    · cases hvalue : PyValue.lookup metadata key with
      | none =>
        rw [hvalue] at h
        exact absurd h List.not_mem_nil
      | some value =>
        rw [hvalue] at h
        obtain ⟨hreach, hitem⟩ := reaches_of_mem h
        exact ⟨hitem, .inr ⟨key, hkey, value, hvalue, hreach⟩⟩
  · rintro ⟨hitem, rfl | ⟨key, hkey, value, hvalue, hreach⟩⟩
    · have hidentity : hasSourceIdentity metadata = true := hitem
      rw [if_pos hidentity]
      refine .inl ?_
      exact List.mem_singleton_self _
    · refine .inr ⟨key, hkey, ?_⟩
      rw [hvalue]
      exact hreach.mem_flattenSourceItems hitem

/-! ## The fields of a node -/

/-- What `_first_int` reads off a value. -/
def readInt : Option PyValue → Option ℤ
  | some (.int i) => some i
  | some (.str raw) =>
    let digits := stripChars pyIsSpace raw.toList
    if digits ≠ [] ∧ digits.all unicode.isDigit then (pyInt unicode digits).toOption else none
  | _ => none

/-- What `_first_mapping` reads off a value. -/
def readMapping : Option PyValue → Option PyValue
  | some (.dict items) => some (.dict (jsonSafeDict unicode (.dict items)))
  | _ => none

/-- The value is read under the first of the keys under which one can be read. -/
def ReadFrom {α : Type} (read : Option PyValue → Option α) (n : List (PyValue × PyValue))
    (keys : List String) (x : α) : Prop :=
  ∃ before key after, keys = before ++ key :: after ∧ read (PyValue.lookup n key) = some x ∧
    ∀ other ∈ before, read (PyValue.lookup n other) = none

/-- A field that is set is read off the node. -/
def Cites {α : Type} (read : Option PyValue → Option α) (n : List (PyValue × PyValue))
    (keys : List String) (field : Option α) : Prop := ∀ x, field = some x → ReadFrom read n keys x

/-- `isdigit` takes the text of the value, and `int` refuses it. -/
def Refused : Option PyValue → Prop
  | some (.str raw) =>
    let digits := stripChars pyIsSpace raw.toList
    digits ≠ [] ∧ digits.all unicode.isDigit = true ∧ ∃ e, pyInt unicode digits = .error e
  | _ => False

/-- Before a number is found under the keys, there is a text that is refused. -/
def RefusesInt (n : List (PyValue × PyValue)) (keys : List String) : Prop :=
  ∃ before key after, keys = before ++ key :: after ∧ Refused unicode (PyValue.lookup n key) ∧
    ∀ other ∈ before, readInt unicode (PyValue.lookup n other) = none

section Fields

variable {unicode} {n : List (PyValue × PyValue)}

theorem readFrom_cons {α : Type} {read : Option PyValue → Option α} {key : String}
    {keys : List String} {x : α} (hkey : read (PyValue.lookup n key) = none)
    (h : ReadFrom read n keys x) : ReadFrom read n (key :: keys) x := by
  obtain ⟨before, found, after, rfl, hread, hbefore⟩ := h
  refine ⟨key :: before, found, after, rfl, hread, fun other hother ↦ ?_⟩
  rcases List.mem_cons.mp hother with rfl | hother
  · exact hkey
  · exact hbefore other hother

theorem findSome?_readFrom {α : Type} {read : Option PyValue → Option α} {keys : List String}
    {x : α} (h : (keys.findSome? fun key ↦ read (PyValue.lookup n key)) = some x) :
    ReadFrom read n keys x := by
  obtain ⟨before, key, after, rfl, hread, hbefore⟩ := List.findSome?_eq_some_iff.mp h
  exact ⟨before, key, after, rfl, hread, hbefore⟩

theorem cites_firstText (keys : List String) :
    Cites (coerceText unicode) n keys (firstText unicode n keys) := fun _ h ↦ findSome?_readFrom h

theorem cites_firstMapping (keys : List String) :
    Cites (readMapping unicode) n keys (firstMapping unicode n keys) := fun _ h ↦
  findSome?_readFrom h

variable (unicode n) in
private theorem firstInt_cons (key : String) (keys : List String) :
    (∃ x, readInt unicode (PyValue.lookup n key) = some x ∧
      firstInt unicode n (key :: keys) = .ok (some x)) ∨
    (Refused unicode (PyValue.lookup n key) ∧ ∃ e, firstInt unicode n (key :: keys) = .error e) ∨
    (readInt unicode (PyValue.lookup n key) = none ∧ ¬Refused unicode (PyValue.lookup n key) ∧
      firstInt unicode n (key :: keys) = firstInt unicode n keys) := by
  rw [firstInt]
  cases hvalue : PyValue.lookup n key with
  | none => exact .inr (.inr ⟨rfl, fun h ↦ h, rfl⟩)
  | some value =>
    cases value with
    | int i => exact .inl ⟨i, rfl, rfl⟩
    | str raw =>
      dsimp only [readInt, Refused]
      by_cases hdigits : stripChars pyIsSpace raw.toList ≠ [] ∧
          (stripChars pyIsSpace raw.toList).all unicode.isDigit
      · rw [if_pos hdigits, if_pos hdigits]
        cases hint : pyInt unicode (stripChars pyIsSpace raw.toList) with
        | ok i => exact .inl ⟨i, rfl, rfl⟩
        | error e => exact .inr (.inl ⟨⟨hdigits.1, hdigits.2, e, rfl⟩, e, rfl⟩)
      · rw [if_neg hdigits, if_neg hdigits]
        exact .inr (.inr ⟨rfl, fun h ↦ hdigits ⟨h.1, h.2.1⟩, rfl⟩)
    | none => exact .inr (.inr ⟨rfl, fun h ↦ h, rfl⟩)
    | bool b => exact .inr (.inr ⟨rfl, fun h ↦ h, rfl⟩)
    | float x => exact .inr (.inr ⟨rfl, fun h ↦ h, rfl⟩)
    | list items => exact .inr (.inr ⟨rfl, fun h ↦ h, rfl⟩)
    | tuple items => exact .inr (.inr ⟨rfl, fun h ↦ h, rfl⟩)
    | dict items => exact .inr (.inr ⟨rfl, fun h ↦ h, rfl⟩)
    | object text repr => exact .inr (.inr ⟨rfl, fun h ↦ h, rfl⟩)

theorem readInt_of_refused {value : Option PyValue} (h : Refused unicode value) :
    readInt unicode value = none := by
  unfold Refused at h
  split at h
  · obtain ⟨hne, hall, e, hint⟩ := h
    dsimp only [readInt]
    rw [if_pos ⟨hne, hall⟩, hint]
    rfl
  · exact h.elim

variable (unicode n) in
/-- Either a text is refused, or the number is read off the node, if there is one. -/
theorem firstInt_cases (keys : List String) :
    (RefusesInt unicode n keys ∧ ∃ e, firstInt unicode n keys = .error e) ∨
      (¬RefusesInt unicode n keys ∧ ∃ field, firstInt unicode n keys = .ok field ∧
        Cites (readInt unicode) n keys field) := by
  induction keys with
  | nil =>
    refine .inr ⟨?_, none, rfl, fun x h ↦ absurd h (Option.some_ne_none x).symm⟩
    rintro ⟨before, key, after, heq, -⟩
    cases before <;> cases heq
  | cons key keys ih =>
    -- a text that is refused stands under this key, or under a later one
    have hrefuses : RefusesInt unicode n (key :: keys) → Refused unicode (PyValue.lookup n key) ∨
        readInt unicode (PyValue.lookup n key) = none ∧ RefusesInt unicode n keys := by
      rintro ⟨before, found, after, heq, hrefused, hbefore⟩
      cases before with
      | nil =>
        obtain ⟨rfl, rfl⟩ := List.cons.inj heq
        exact .inl hrefused
      | cons first before =>
        obtain ⟨rfl, rfl⟩ := List.cons.inj heq
        exact .inr ⟨hbefore key List.mem_cons_self, before, found, after, rfl, hrefused,
          fun other hother ↦ hbefore other (List.mem_cons_of_mem _ hother)⟩
    rcases firstInt_cons unicode n key keys with
      ⟨x, hread, heq⟩ | ⟨hrefused, e, heq⟩ | ⟨hread, hrefused, heq⟩
    · refine .inr ⟨fun h ↦ ?_, some x, heq, ?_⟩
      · rcases hrefuses h with hrefused | ⟨hnone, -⟩
        · cases (readInt_of_refused hrefused).symm.trans hread
        · cases hnone.symm.trans hread
      · rintro y ⟨⟩
        exact ⟨[], key, keys, rfl, hread, fun _ h ↦ absurd h List.not_mem_nil⟩
    · exact .inl ⟨⟨[], key, keys, rfl, hrefused, fun _ h ↦ absurd h List.not_mem_nil⟩, e, heq⟩
    · rw [heq]
      rcases ih with ⟨⟨before, found, after, rfl, hfound, hbefore⟩, herror⟩ |
        ⟨hnot, field, hok, hcites⟩
      · refine .inl ⟨⟨key :: before, found, after, rfl, hfound, fun other hother ↦ ?_⟩, herror⟩
        rcases List.mem_cons.mp hother with rfl | hother
        · exact hread
        · exact hbefore other hother
      · refine .inr ⟨fun h ↦ ?_, field, hok, fun x hx ↦ readFrom_cons hread (hcites x hx)⟩
        exact (hrefuses h).elim hrefused fun h ↦ hnot h.2

end Fields

/-! ## The sources of the candidates -/

/-- The mapping names its source, or there is one to fall back to. -/
def Identified (n : List (PyValue × PyValue)) (fallback : Option String) : Prop :=
  (∃ id, ReadFrom (coerceText unicode) n sourceIdKeys id) ∨ ∃ id, fallback = some id ∧ id ≠ ""

structure FromMapping (n : List (PyValue × PyValue)) (fallback : Option String)
    (source : EvidenceSource) : Prop where
  source_id : ReadFrom (coerceText unicode) n sourceIdKeys source.sourceId ∨
    (∀ key ∈ sourceIdKeys, coerceText unicode (PyValue.lookup n key) = none) ∧
      fallback = some source.sourceId
  document_uri : Cites (coerceText unicode) n documentUriKeys source.documentUri
  chunk_id : Cites (coerceText unicode) n chunkIdKeys source.chunkId
  entity_id : Cites (coerceText unicode) n entityIdKeys source.entityId
  relation_id : Cites (coerceText unicode) n relationIdKeys source.relationId
  asset_url : Cites (coerceText unicode) n assetUrlKeys source.assetUrl
  page_no : Cites (readInt unicode) n pageNoKeys source.pageNo
  bbox : Cites (readMapping unicode) n ["bbox", "bounding_box"] source.bbox
  quote : Cites (coerceText unicode) n quoteKeys source.quote

structure FromText (text : String) (fallback : Option String) (source : EvidenceSource) : Prop where
  source_id : source.sourceId = text ∨ fallback = some source.sourceId
  document_uri : source.documentUri = some text ∨ source.documentUri = none
  chunk_id : source.chunkId = none
  entity_id : source.entityId = none
  relation_id : source.relationId = none
  asset_url : source.assetUrl = none
  page_no : source.pageNo = none
  bbox : source.bbox = none
  quote : source.quote = none

structure CitesNothing (source : EvidenceSource) : Prop where
  document_uri : source.documentUri = none
  chunk_id : source.chunkId = none
  entity_id : source.entityId = none
  relation_id : source.relationId = none
  asset_url : source.assetUrl = none
  page_no : source.pageNo = none
  bbox : source.bbox = none
  quote : source.quote = none

section Items

variable {unicode} {fallback : Option String}

theorem fromText_of_str {text : String} {source : EvidenceSource}
    (h : evidenceSourceFromItem unicode fallback (.str text) = .ok (some source)) :
    FromText text fallback source := by
  rw [evidenceSourceFromItem] at h
  obtain rfl := Option.some.inj (Except.ok.inj h)
  refine ⟨?_, ?_, rfl, rfl, rfl, rfl, rfl, rfl, rfl⟩
  · unfold orElse
    split
    · split
      · exact .inl rfl
      · exact .inr rfl
    · exact .inl rfl
  · dsimp only
    split
    · exact .inl rfl
    · exact .inr rfl

theorem ne_empty_of_coerceText {value : Option PyValue} {text : String}
    (h : coerceText unicode value = some text) : text ≠ "" := by
  unfold coerceText at h
  split at h
  · cases h
  · cases h
  · dsimp only at h
    split at h
    · cases h
    · rename_i hne
      exact Option.some.inj h ▸ hne

variable (unicode fallback) in
private theorem sourceId_cases (n : List (PyValue × PyValue)) {id : String}
    (hid : (firstText unicode n sourceIdKeys).getD (fallback.getD "") = id) :
    (¬Identified unicode n fallback ∧ id = "") ∨ (Identified unicode n fallback ∧ id ≠ "" ∧
      (ReadFrom (coerceText unicode) n sourceIdKeys id ∨
        (∀ key ∈ sourceIdKeys, coerceText unicode (PyValue.lookup n key) = none) ∧
          fallback = some id)) := by
  -- A source id of the node's own comes first; the fallback is asked for only without one.
  cases hown : firstText unicode n sourceIdKeys with
  | some own =>
    rw [hown] at hid
    obtain rfl : own = id := hid
    have hread := cites_firstText sourceIdKeys own hown
    refine .inr ⟨.inl ⟨own, hread⟩, ?_, .inl hread⟩
    obtain ⟨_, _, _, _, hkey, _⟩ := hread
    exact ne_empty_of_coerceText hkey
  | none =>
    rw [hown] at hid
    have hnone : ∀ key ∈ sourceIdKeys, coerceText unicode (PyValue.lookup n key) = none :=
      List.findSome?_eq_none_iff.mp hown
    have hown' : ¬∃ own, ReadFrom (coerceText unicode) n sourceIdKeys own := by
      rintro ⟨own, before, key, after, hkeys, hread, -⟩
      have hkey : key ∈ sourceIdKeys := hkeys ▸ by simp
      cases hread.symm.trans (hnone key hkey)
    cases fallback with
    | none =>
      refine .inl ⟨fun h ↦ ?_, hid.symm⟩
      rcases h with h | ⟨other, hother, -⟩
      · exact hown' h
      · cases hother
    | some other =>
      obtain rfl : other = id := hid
      by_cases hempty : other = ""
      · refine .inl ⟨fun h ↦ ?_, hempty⟩
        rcases h with h | ⟨another, hanother, hne⟩
        · exact hown' h
        · exact hne (Option.some.inj hanother ▸ hempty)
      · exact .inr ⟨.inr ⟨other, rfl, hempty⟩, hempty, .inr ⟨hnone, rfl⟩⟩

variable (unicode fallback) in
/-- A mapping with a source id, its own or another, is read off field by field, unless a page
number is refused. Any other mapping is no source. -/
theorem evidenceSourceFromItem_dict (n : List (PyValue × PyValue)) :
    (¬Identified unicode n fallback ∧
      evidenceSourceFromItem unicode fallback (.dict n) = .ok none) ∨
    (Identified unicode n fallback ∧ RefusesInt unicode n pageNoKeys ∧
      ∃ e, evidenceSourceFromItem unicode fallback (.dict n) = .error e) ∨
    (Identified unicode n fallback ∧ ¬RefusesInt unicode n pageNoKeys ∧ ∃ source,
      evidenceSourceFromItem unicode fallback (.dict n) = .ok (some source) ∧
        FromMapping unicode n fallback source) := by
  rw [evidenceSourceFromItem]
  rcases sourceId_cases unicode fallback n rfl with
    ⟨hnot, hempty⟩ | ⟨hidentified, hne, hid⟩
  · rw [if_pos hempty]
    exact .inl ⟨hnot, rfl⟩
  rw [if_neg hne]
  rcases firstInt_cases unicode n pageNoKeys with
    ⟨hrefuses, e, herror⟩ | ⟨hnot, field, hok, hcites⟩
  · rw [herror]
    exact .inr (.inl ⟨hidentified, hrefuses, e, rfl⟩)
  · rw [hok]
    exact .inr (.inr ⟨hidentified, hnot, _, rfl, hid, cites_firstText _, cites_firstText _,
      cites_firstText _, cites_firstText _, cites_firstText _, hcites, cites_firstMapping _,
      cites_firstText _⟩)

end Items

/-! ## Reading all candidates -/

section Reading

variable {α β ε : Type} {f : α → Except ε (Option β)}

def yielded (f : α → Except ε (Option β)) (item : α) : Option (α × β) :=
  match f item with
  | .ok (some result) => some (item, result)
  | _ => none

theorem yielded_eq_some {item : α} {c : α × β} :
    yielded f item = some c ↔ f item = .ok (some c.2) ∧ c.1 = item := by
  unfold yielded
  split
  · rename_i result heq
    rw [heq]
    constructor
    · rintro ⟨⟩
      exact ⟨rfl, rfl⟩
    · rintro ⟨hresult, hitem⟩
      obtain rfl := Option.some.inj (Except.ok.inj hresult)
      rw [← hitem]
  · rename_i hne
    constructor
    · rintro ⟨⟩
    · rintro ⟨hresult, -⟩
      exact absurd hresult (hne _)

theorem mapM'_yielded : ∀ {items : List α}, (∀ item ∈ items, ∃ found, f item = .ok found) →
    ∃ found, items.mapM' f = .ok found ∧
      found.reduceOption = (items.filterMap (yielded f)).map Prod.snd := by
  intro items
  induction items with
  | nil => exact fun _ ↦ ⟨[], rfl, rfl⟩
  | cons item items ih =>
    intro h
    obtain ⟨first, hfirst⟩ := h item List.mem_cons_self
    obtain ⟨found, hfound, hrest⟩ := ih fun other hother ↦ h other (List.mem_cons_of_mem _ hother)
    refine ⟨first :: found, ?_, ?_⟩
    · rw [List.mapM'_cons, hfirst, hfound]
      rfl
    · cases first with
      | none =>
        have hnone : yielded f item = none := by
          unfold yielded
          rw [hfirst]
        rw [List.reduceOption_cons_of_none, List.filterMap_cons_none hnone, hrest]
      | some result =>
        have hsome : yielded f item = some (item, result) := by
          unfold yielded
          rw [hfirst]
        rw [List.reduceOption_cons_of_some, List.filterMap_cons_some hsome, hrest]
        rfl

theorem mapM'_error : ∀ {items : List α}, (∃ item ∈ items, ∃ e, f item = .error e) →
    ∃ e, items.mapM' f = .error e := by
  intro items
  induction items with
  | nil =>
    rintro ⟨item, hitem, -⟩
    exact absurd hitem List.not_mem_nil
  | cons item items ih =>
    rintro ⟨other, hother, e, herror⟩
    rw [List.mapM'_cons]
    cases hfirst : f item with
    | error e => exact ⟨e, rfl⟩
    | ok first =>
      rcases List.mem_cons.mp hother with rfl | hother
      · cases hfirst.symm.trans herror
      · obtain ⟨e, hrest⟩ := ih ⟨other, hother, e, herror⟩
        rw [hrest]
        exact ⟨e, rfl⟩

end Reading

/-- The candidates that yield a source, with it. -/
def candidateSources (metadata : List (PyValue × PyValue)) (fallback : Option String) :
    List (PyValue × EvidenceSource) :=
  (sourceCandidateItems metadata).filterMap (yielded (evidenceSourceFromItem unicode fallback))

/-- No page number of a candidate with a source id is refused. -/
def PagesReadable (metadata : List (PyValue × PyValue)) (fallback : Option String) : Prop :=
  ∀ n, Candidate metadata (.dict n) → Identified unicode n fallback →
    ¬RefusesInt unicode n pageNoKeys

section Extract

variable {unicode} {metadata : List (PyValue × PyValue)} {fallback : Option String}

theorem mem_candidateSources {c : PyValue × EvidenceSource} :
    c ∈ candidateSources unicode metadata fallback ↔ Candidate metadata c.1 ∧
      evidenceSourceFromItem unicode fallback c.1 = .ok (some c.2) := by
  rw [candidateSources, List.mem_filterMap]
  simp only [yielded_eq_some, mem_sourceCandidateItems]
  constructor
  · rintro ⟨item, hitem, hsource, heq⟩
    exact ⟨heq ▸ hitem, heq ▸ hsource⟩
  · rintro ⟨hitem, hsource⟩
    exact ⟨c.1, hitem, hsource, rfl⟩

theorem exists_ok_of_candidate (h : PagesReadable unicode metadata fallback) {node : PyValue}
    (hcandidate : Candidate metadata node) :
    ∃ found, evidenceSourceFromItem unicode fallback node = .ok found := by
  cases node with
  | str text => exact ⟨_, rfl⟩
  | dict n =>
    rcases evidenceSourceFromItem_dict unicode fallback n with
      ⟨-, heq⟩ | ⟨hidentified, hrefuses, -⟩ | ⟨-, -, source, heq, -⟩
    · exact ⟨_, heq⟩
    · exact absurd hrefuses (h n hcandidate hidentified)
    · exact ⟨_, heq⟩
  | none => exact ⟨_, rfl⟩
  | bool b => exact ⟨_, rfl⟩
  | int i => exact ⟨_, rfl⟩
  | float x => exact ⟨_, rfl⟩
  | list items => exact ⟨_, rfl⟩
  | tuple items => exact ⟨_, rfl⟩
  | object text repr => exact ⟨_, rfl⟩

theorem extractSources_ok (h : PagesReadable unicode metadata fallback) (query : String) :
    extractSources unicode metadata query fallback =
      .ok (match (candidateSources unicode metadata fallback).map Prod.snd with
        | [] => [fallbackSource unicode metadata query fallback]
        | sources => dedupeSources [] sources) := by
  have hreads : ∀ item ∈ sourceCandidateItems metadata, ∃ found,
      evidenceSourceFromItem unicode fallback item = .ok found := fun item hitem ↦
    exists_ok_of_candidate h (mem_sourceCandidateItems.mp hitem)
  obtain ⟨found, hfound, hrest⟩ := mapM'_yielded hreads
  unfold extractSources
  rw [hfound]
  change (match found.reduceOption with
    | [] => pure [fallbackSource unicode metadata query fallback]
    | sources => pure (dedupeSources [] sources)) = _
  rw [hrest, ← candidateSources]
  cases (candidateSources unicode metadata fallback).map Prod.snd <;> rfl

theorem extractSources_error (h : ¬PagesReadable unicode metadata fallback) (query : String) :
    ∃ e, extractSources unicode metadata query fallback = .error e := by
  simp only [PagesReadable, not_forall, not_not] at h
  obtain ⟨n, hcandidate, hidentified, hrefuses⟩ := h
  rcases evidenceSourceFromItem_dict unicode fallback n with
    ⟨hnot, -⟩ | ⟨-, -, e, herror⟩ | ⟨-, hnot, -⟩
  · exact absurd hidentified hnot
  · obtain ⟨e, hloop⟩ := mapM'_error ⟨_, mem_sourceCandidateItems.mpr hcandidate, e, herror⟩
    unfold extractSources
    rw [hloop]
    exact ⟨e, rfl⟩
  · exact absurd hrefuses hnot

end Extract

/-! ## Sources that count as one -/

section Dedupe

variable {seen : List (String × Option String × Option String × Option String × Option String)}

/-- A source is kept if it is the first with its key. -/
theorem mem_dedupeSources {sources : List EvidenceSource} {source : EvidenceSource} :
    source ∈ dedupeSources seen sources ↔ ∃ before after, sources = before ++ source :: after ∧
      source.key ∉ seen ∧ ∀ other ∈ before, other.key ≠ source.key := by
  induction sources generalizing seen with
  | nil => simp [dedupeSources]
  | cons first sources ih =>
    rw [dedupeSources]
    split
    -- the first source was seen, so it only stands in front of the others
    · rename_i hseen
      rw [ih]
      constructor
      · rintro ⟨before, after, rfl, hnew, hbefore⟩
        refine ⟨first :: before, after, rfl, hnew, fun other hother ↦ ?_⟩
        rcases List.mem_cons.mp hother with rfl | hother
        · exact fun heq ↦ hnew (heq ▸ hseen)
        · exact hbefore other hother
      · rintro ⟨before, after, heq, hnew, hbefore⟩
        cases before with
        | nil =>
          obtain ⟨rfl, rfl⟩ := List.cons.inj heq
          exact absurd hseen hnew
        | cons other before =>
          obtain ⟨rfl, rfl⟩ := List.cons.inj heq
          exact ⟨before, after, rfl, hnew, fun o ho ↦ hbefore o (List.mem_cons_of_mem _ ho)⟩
    · rename_i hseen
      rw [List.mem_cons, ih]
      constructor
      · rintro (rfl | ⟨before, after, rfl, hnew, hbefore⟩)
        · exact ⟨[], sources, rfl, hseen, fun _ h ↦ absurd h List.not_mem_nil⟩
        · refine ⟨first :: before, after, rfl, fun h ↦ hnew (List.mem_cons_of_mem _ h),
            fun other hother ↦ ?_⟩
          rcases List.mem_cons.mp hother with rfl | hother
          · exact fun heq ↦ hnew (heq ▸ List.mem_cons_self)
          · exact hbefore other hother
      · rintro ⟨before, after, heq, hnew, hbefore⟩
        cases before with
        | nil => exact .inl (List.cons.inj heq).1.symm
        | cons other before =>
          obtain ⟨rfl, rfl⟩ := List.cons.inj heq
          refine .inr ⟨before, after, rfl, fun h ↦ ?_,
            fun o ho ↦ hbefore o (List.mem_cons_of_mem _ ho)⟩
          rcases List.mem_cons.mp h with h | h
          · exact hbefore first List.mem_cons_self h.symm
          · exact hnew h

theorem pairwise_dedupeSources (sources : List EvidenceSource) :
    (dedupeSources seen sources).Pairwise fun source later ↦ source.key ≠ later.key := by
  induction sources generalizing seen with
  | nil => exact .nil
  | cons source sources ih =>
    rw [dedupeSources]
    split
    · exact ih
    · refine .cons (fun later hlater heq ↦ ?_) ih
      obtain ⟨_, _, -, hnew, -⟩ := mem_dedupeSources.mp hlater
      exact hnew (heq ▸ List.mem_cons_self)

theorem dedupeSources_ne_nil {source : EvidenceSource} {sources : List EvidenceSource} :
    dedupeSources [] (source :: sources) ≠ [] := by
  rw [dedupeSources, if_neg List.not_mem_nil]
  exact List.cons_ne_nil _ _

end Dedupe

/-! ## Nothing is invented -/

/-- **Nothing is invented.** There are sources, and each is read off one candidate, or there is no
candidate to read and the source cites nothing. -/
def NeverInvented (metadata : List (PyValue × PyValue)) (query : String)
    (fallback : Option String) : Prop :=
  ∃ sources, extractSources unicode metadata query fallback = .ok sources ∧ sources ≠ [] ∧
    ∀ source ∈ sources,
      (∃ n, Candidate metadata (.dict n) ∧ FromMapping unicode n fallback source) ∨
      (∃ text, Candidate metadata (.str text) ∧ FromText text fallback source) ∨
      (sources = [source] ∧ CitesNothing source ∧ ∀ node, Candidate metadata node →
        evidenceSourceFromItem unicode fallback node = .ok none)

theorem read_of_candidate {unicode : UnicodeData} {metadata : List (PyValue × PyValue)}
    {fallback : Option String} {node : PyValue} {source : EvidenceSource}
    (hcandidate : Candidate metadata node)
    (h : evidenceSourceFromItem unicode fallback node = .ok (some source)) :
    (∃ n, Candidate metadata (.dict n) ∧ FromMapping unicode n fallback source) ∨
      ∃ text, Candidate metadata (.str text) ∧ FromText text fallback source := by
  cases node with
  | str text => exact .inr ⟨text, hcandidate, fromText_of_str h⟩
  | dict n =>
    refine .inl ⟨n, hcandidate, ?_⟩
    rcases evidenceSourceFromItem_dict unicode fallback n with
      ⟨-, heq⟩ | ⟨-, -, e, heq⟩ | ⟨-, -, source', heq, hfrom⟩
    · cases heq.symm.trans h
    · cases heq.symm.trans h
    · obtain rfl := Option.some.inj (Except.ok.inj (heq.symm.trans h))
      exact hfrom
  | none => cases h
  | bool b => cases h
  | int i => cases h
  | float x => cases h
  | list items => cases h
  | tuple items => cases h
  | object text repr => cases h

/-- **Where sources come from.** Nothing is invented, exactly if every page number can be read. -/
theorem neverInvented_iff (metadata : List (PyValue × PyValue)) (query : String)
    (fallback : Option String) :
    NeverInvented unicode metadata query fallback ↔ PagesReadable unicode metadata fallback := by
  constructor
  · rintro ⟨sources, hok, -⟩
    by_contra hnot
    obtain ⟨e, herror⟩ := extractSources_error hnot query
    cases hok.symm.trans herror
  · intro h
    have hok := extractSources_ok h query
    -- Without a candidate the one source is that of the fallback.
    cases hc : candidateSources unicode metadata fallback with
    | nil =>
      rw [hc] at hok
      refine ⟨_, hok, List.cons_ne_nil _ _, fun source hsource ↦ .inr (.inr ?_)⟩
      obtain rfl := List.mem_singleton.mp hsource
      refine ⟨rfl, ⟨rfl, rfl, rfl, rfl, rfl, rfl, rfl, rfl⟩, fun node hnode ↦ ?_⟩
      obtain ⟨found, hfound⟩ := exists_ok_of_candidate h hnode
      cases found with
      | none => exact hfound
      | some source =>
        have hmem : (node, source) ∈ candidateSources unicode metadata fallback :=
          mem_candidateSources.mpr ⟨hnode, hfound⟩
        rw [hc] at hmem
        exact absurd hmem List.not_mem_nil
    | cons c rest =>
      rw [hc] at hok
      refine ⟨_, hok, dedupeSources_ne_nil, fun source hsource ↦ ?_⟩
      obtain ⟨before, after, heq, -, -⟩ := mem_dedupeSources.mp hsource
      have hmem : source ∈ (candidateSources unicode metadata fallback).map Prod.snd := by
        rw [hc, heq]
        exact List.mem_append_right _ List.mem_cons_self
      obtain ⟨found, hfound, rfl⟩ := List.mem_map.mp hmem
      obtain ⟨hcandidate, hread⟩ := mem_candidateSources.mp hfound
      rcases read_of_candidate hcandidate hread with hfrom | hfrom
      · exact .inl hfrom
      · exact .inr (.inl hfrom)

/-- The digits of a page number, one of them raised. -/
def raisedDigitData : UnicodeData := { asciiData with isDigit := fun c ↦ c.isDigit || c == '²' }

def raisedPage : List (PyValue × PyValue) :=
  [(.str "sources", .list [.dict [(.str "source_id", .str "doc"), (.str "page", .str "²")]])]

/-- `isdigit` takes the page number, and `int` refuses it. -/
theorem raised_page_no_sources : ¬NeverInvented raisedDigitData raisedPage "q" none := by
  rintro ⟨sources, hok, -⟩
  have herror : (extractSources raisedDigitData raisedPage "q" none).isOk = false := by
    decide +kernel
  rw [hok] at herror
  cases herror

/-! ## Nothing is lost -/

/-- The fields of a citation besides its source. -/
structure SameCitation (source source' : EvidenceSource) : Prop where
  document_uri : source'.documentUri = source.documentUri
  chunk_id : source'.chunkId = source.chunkId
  entity_id : source'.entityId = source.entityId
  relation_id : source'.relationId = source.relationId
  asset_url : source'.assetUrl = source.assetUrl
  page_no : source'.pageNo = source.pageNo
  bbox : source'.bbox = source.bbox
  quote : source'.quote = source.quote

/-- The text of a string can be read off its source. -/
def Recoverable (text : String) (source : EvidenceSource) : Prop :=
  source.documentUri = some text ∨ source.sourceId = text ∨
    ∃ items, source.locator = some (.dict items) ∧
      PyValue.lookup items "raw_source" = some (.str text)

/-- A source that is kept stands for a candidate and its source. -/
structure Represents (item : PyValue) (source kept : EvidenceSource) : Prop where
  source_id : kept.sourceId = source.sourceId
  not_blank : strip kept.sourceId ≠ ""
  same : SameCitation source kept
  text : ∀ text, item = .str text → Recoverable text kept

/-- **Nothing is lost.** Every candidate that yields a source is represented, and no two sources
that are kept are the same. -/
def NeverLost (metadata : List (PyValue × PyValue)) (query : String) (fallback : Option String) :
    Prop :=
  ∃ sources, extractSources unicode metadata query fallback = .ok sources ∧
    (∀ node source, Candidate metadata node →
      evidenceSourceFromItem unicode fallback node = .ok (some source) →
      ∃ kept ∈ sources, Represents node source kept) ∧
    sources.Pairwise fun source later ↦
      ¬(later.sourceId = source.sourceId ∧ SameCitation source later)

structure SameRest (source source' : EvidenceSource) : Prop where
  document_uri : source'.documentUri = source.documentUri
  asset_url : source'.assetUrl = source.assetUrl
  page_no : source'.pageNo = source.pageNo
  bbox : source'.bbox = source.bbox

/-- A candidate whose key was there before adds nothing to the first one with that key. -/
def NothingNew (metadata : List (PyValue × PyValue)) (fallback : Option String) : Prop :=
  ∀ before first after, candidateSources unicode metadata fallback = before ++ first :: after →
    (∀ other ∈ before, other.2.key ≠ first.2.key) →
    ∀ later ∈ after, later.2.key = first.2.key → SameRest later.2 first.2 ∧
      ∀ text, later.1 = .str text → Recoverable text first.2

/-- No source of a candidate is blank. -/
def NoBlankId (metadata : List (PyValue × PyValue)) (fallback : Option String) : Prop :=
  ∀ c ∈ candidateSources unicode metadata fallback, strip c.2.sourceId ≠ ""

theorem SameCitation.of_key {source source' : EvidenceSource} (hkey : source.key = source'.key)
    (h : SameRest source source') : SameCitation source source' := by
  simp only [EvidenceSource.key, Prod.mk.injEq] at hkey
  obtain ⟨-, hchunk, hentity, hrelation, hquote⟩ := hkey
  exact ⟨h.document_uri, hchunk.symm, hentity.symm, hrelation.symm, h.asset_url, h.page_no, h.bbox,
    hquote.symm⟩

theorem SameCitation.key {source source' : EvidenceSource}
    (hid : source'.sourceId = source.sourceId) (h : SameCitation source source') :
    source'.key = source.key := by
  rw [EvidenceSource.key, hid, h.chunk_id, h.entity_id, h.relation_id, h.quote]
  rfl

theorem recoverable_of_str {text : String} {fallback : Option String} {source : EvidenceSource}
    (h : evidenceSourceFromItem unicode fallback (.str text) = .ok (some source)) :
    Recoverable text source := by
  rw [evidenceSourceFromItem] at h
  obtain rfl := Option.some.inj (Except.ok.inj h)
  exact .inr (.inr ⟨_, rfl, rfl⟩)

theorem eq_of_mem_dedupeSources {sources : List EvidenceSource} {source source' : EvidenceSource}
    (h : source ∈ dedupeSources [] sources) (h' : source' ∈ dedupeSources [] sources)
    (hkey : source.key = source'.key) : source = source' := by
  have hnodup : ((dedupeSources [] sources).map EvidenceSource.key).Nodup :=
    List.pairwise_map.mpr (pairwise_dedupeSources sources)
  exact List.inj_on_of_nodup_map hnodup h h' hkey

theorem exists_first {candidates : List (PyValue × EvidenceSource)} {c : PyValue × EvidenceSource}
    (h : c ∈ candidates) : ∃ before first after, candidates = before ++ first :: after ∧
      first.2.key = c.2.key ∧ ∀ other ∈ before, other.2.key ≠ first.2.key := by
  obtain ⟨first, hfirst⟩ : ∃ first, candidates.find? (fun o ↦ o.2.key = c.2.key) = some first :=
    Option.isSome_iff_exists.mp (List.find?_isSome.mpr ⟨c, h, decide_eq_true rfl⟩)
  obtain ⟨hkey, before, after, heq, hbefore⟩ := List.find?_eq_some_iff_append.mp hfirst
  have hkey := of_decide_eq_true hkey
  refine ⟨before, first, after, heq, hkey, fun other hother hsame ↦ ?_⟩
  have hother := hbefore other hother
  rw [decide_eq_true (hsame.trans hkey)] at hother
  cases hother

theorem first_mem_dedupeSources {before after : List (PyValue × EvidenceSource)}
    {first : PyValue × EvidenceSource} (h : ∀ other ∈ before, other.2.key ≠ first.2.key) :
    first.2 ∈ dedupeSources [] ((before ++ first :: after).map Prod.snd) := by
  refine mem_dedupeSources.mpr ⟨before.map Prod.snd, after.map Prod.snd, ?_, List.not_mem_nil, ?_⟩
  · rw [List.map_append, List.map_cons]
  · intro other hother
    obtain ⟨c, hc, rfl⟩ := List.mem_map.mp hother
    exact h c hc

/-- The sources, if some candidate yields one. -/
theorem extractSources_of_mem {metadata : List (PyValue × PyValue)} {fallback : Option String}
    (h : PagesReadable unicode metadata fallback) (query : String) {c : PyValue × EvidenceSource}
    (hc : c ∈ candidateSources unicode metadata fallback) :
    extractSources unicode metadata query fallback
      = .ok (dedupeSources [] ((candidateSources unicode metadata fallback).map Prod.snd)) := by
  rw [extractSources_ok h]
  cases hcandidates : candidateSources unicode metadata fallback with
  | nil => rw [hcandidates] at hc; cases hc
  | cons first rest => rfl

/-- A candidate whose key was there before added nothing, if nothing is lost. -/
theorem NeverLost.nothingNew {metadata : List (PyValue × PyValue)} {query : String}
    {fallback : Option String} (h : NeverLost unicode metadata query fallback)
    (hreadable : PagesReadable unicode metadata fallback) :
    NothingNew unicode metadata fallback := by
  obtain ⟨sources, hok, hrepresented, -⟩ := h
  intro before first after hc hfirst later hlater hkey
  have hmem : later ∈ candidateSources unicode metadata fallback :=
    hc ▸ List.mem_append_right _ (List.mem_cons_of_mem _ hlater)
  obtain ⟨hcandidate, hread⟩ := mem_candidateSources.mp hmem
  obtain ⟨kept, hkept, hfor⟩ := hrepresented later.1 later.2 hcandidate hread
  rw [Except.ok.inj (hok.symm.trans (extractSources_of_mem unicode hreadable query hmem))] at hkept
  have hfirstMem : first.2
      ∈ dedupeSources [] ((candidateSources unicode metadata fallback).map Prod.snd) :=
    hc ▸ first_mem_dedupeSources hfirst
  obtain rfl : kept = first.2 := eq_of_mem_dedupeSources hkept hfirstMem
    ((hfor.same.key hfor.source_id).trans hkey)
  exact ⟨⟨hfor.same.document_uri, hfor.same.asset_url, hfor.same.page_no, hfor.same.bbox⟩,
    hfor.text⟩

/-- The first candidate with the key of a candidate represents it. -/
theorem exists_represents {metadata : List (PyValue × PyValue)} {fallback : Option String}
    (hblank : NoBlankId unicode metadata fallback) (hnew : NothingNew unicode metadata fallback)
    {c : PyValue × EvidenceSource} (hmem : c ∈ candidateSources unicode metadata fallback) :
    ∃ kept ∈ dedupeSources [] ((candidateSources unicode metadata fallback).map Prod.snd),
      Represents c.1 c.2 kept := by
  obtain ⟨before, first, after, hc, hkey, hfirst⟩ := exists_first hmem
  have hfirstMem : first ∈ candidateSources unicode metadata fallback :=
    hc ▸ List.mem_append_right _ List.mem_cons_self
  have hrest : SameRest c.2 first.2 ∧ ∀ text, c.1 = .str text → Recoverable text first.2 := by
    have hplace := hmem
    rw [hc] at hplace
    rcases List.mem_append.mp hplace with hbefore | hplace
    · exact absurd hkey.symm (hfirst _ hbefore)
    rcases List.mem_cons.mp hplace with rfl | hlater
    · refine ⟨⟨rfl, rfl, rfl, rfl⟩, fun text htext ↦ ?_⟩
      have hread := (mem_candidateSources.mp hmem).2
      rw [htext] at hread
      exact recoverable_of_str unicode hread
    · exact hnew before first after hc hfirst _ hlater hkey.symm
  exact ⟨first.2, hc ▸ first_mem_dedupeSources hfirst, congrArg Prod.fst hkey,
    hblank first hfirstMem, .of_key hkey.symm hrest.1, hrest.2⟩

/-- **What is lost.** Nothing is lost, exactly if every page number can be read, no source is
blank, and a candidate with the key of an earlier one adds nothing to it. -/
theorem neverLost_iff (metadata : List (PyValue × PyValue)) (query : String)
    (fallback : Option String) :
    NeverLost unicode metadata query fallback ↔ PagesReadable unicode metadata fallback ∧
      NoBlankId unicode metadata fallback ∧ NothingNew unicode metadata fallback := by
  constructor
  · intro h
    obtain ⟨sources, hok, hrepresented, -⟩ := id h
    have hreadable : PagesReadable unicode metadata fallback := by
      by_contra hnot
      obtain ⟨e, herror⟩ := extractSources_error hnot query
      cases hok.symm.trans herror
    refine ⟨hreadable, fun c hc ↦ ?_, h.nothingNew unicode hreadable⟩
    obtain ⟨hcandidate, hread⟩ := mem_candidateSources.mp hc
    obtain ⟨kept, -, hkept⟩ := hrepresented c.1 c.2 hcandidate hread
    exact hkept.source_id ▸ hkept.not_blank
  · rintro ⟨hreadable, hblank, hnew⟩
    have hok := extractSources_ok hreadable query
    refine ⟨_, hok, fun node source hcandidate hread ↦ ?_, ?_⟩
    · have hmem : (node, source) ∈ candidateSources unicode metadata fallback :=
        mem_candidateSources.mpr ⟨hcandidate, hread⟩
      rw [Except.ok.inj (hok.symm.trans (extractSources_of_mem unicode hreadable query hmem))]
      exact exists_represents unicode hblank hnew hmem
    · split
      · exact List.pairwise_singleton _ _
      · rename_i hne
        refine (pairwise_dedupeSources _).imp fun hkey hsame ↦ ?_
        exact hkey (hsame.2.key hsame.1).symm

def pageOfDoc (no : ℤ) : PyValue :=
  .dict [(.str "source_id", .str "doc"), (.str "page", .int no)]

def pagesOfDoc : List (PyValue × PyValue) := [(.str "sources", .list [pageOfDoc 1, pageOfDoc 2])]

/-- The second page is lost. -/
theorem second_page_lost : ¬NeverLost asciiData pagesOfDoc "q" none := by
  rintro ⟨sources, hok, hrepresented, -⟩
  have hcandidate : Candidate pagesOfDoc (pageOfDoc 2) :=
    ⟨rfl, .inr ⟨"sources", by decide, .list [pageOfDoc 1, pageOfDoc 2], rfl,
      .item (List.mem_cons_of_mem _ (List.mem_singleton_self _)) (.refl _)⟩⟩
  obtain ⟨source, hread, hpage⟩ : ∃ source,
      evidenceSourceFromItem asciiData none (pageOfDoc 2) = .ok (some source) ∧
        source.pageNo = some 2 := ⟨_, rfl, rfl⟩
  obtain ⟨kept, hkept, hfor⟩ := hrepresented _ source hcandidate hread
  have hpages : (extractSources asciiData pagesOfDoc "q" none).toOption.map
      (·.map EvidenceSource.pageNo) = some [some 1] := by decide +kernel
  rw [hok] at hpages
  have hpages : sources.map EvidenceSource.pageNo = [some 1] := Option.some.inj hpages
  have hmem : kept.pageNo ∈ sources.map EvidenceSource.pageNo := List.mem_map_of_mem hkept
  rw [hpages, hfor.same.page_no, hpage] at hmem
  exact absurd hmem (by decide)

end KnowledgeAlakazam
