import KnowledgeAlakazam.Core.JsonText

/-!
# JSON texts are read back

A value whose mappings have string keys is written as printable ASCII, and the text is read back as
the value (`readsBack_dumps`). The induction is on the tree, with the statement for any text that
follows and any fuel that the written text fits in; that it fits in is all that is ever asked of
the fuel.
-/

namespace KnowledgeAlakazam

variable (floatOf : String → PyFloat)

mutual

/-- What is left of a value in a JSON text. -/
def plain : PyValue → PyValue
  | .list items => .list (plainItems items)
  | .tuple items => .list (plainItems items)
  | .dict items => .dict (plainEntries items)
  | .object text _ => .str text
  | value => value

def plainItems : List PyValue → List PyValue
  | [] => []
  | item :: items => plain item :: plainItems items

def plainEntries : List (PyValue × PyValue) → List (PyValue × PyValue)
  | [] => []
  | (key, value) :: items => (key, plain value) :: plainEntries items

end

theorem plainItems_eq (items : List PyValue) : plainItems items = items.map plain := by
  induction items with
  | nil => rw [plainItems, List.map_nil]
  | cons item items ih => rw [plainItems, ih, List.map_cons]

theorem plainEntries_eq (items : List (PyValue × PyValue)) :
    plainEntries items = items.map fun item ↦ (item.1, plain item.2) := by
  induction items with
  | nil => rw [plainEntries, List.map_nil]
  | cons item items ih =>
    obtain ⟨key, value⟩ := item
    rw [plainEntries, ih, List.map_cons]

/-- The text of a number that is no integer, as `repr` makes it: `float` reads it back. -/
structure IsFloatText (text : String) : Prop where
  parts : ∃ minus whole fraction exponent, (minus = [] ∨ minus = ['-']) ∧ IsWhole whole ∧
    IsFraction fraction ∧ IsExponent exponent ∧ ¬(fraction = [] ∧ exponent = []) ∧
    text.toList = minus ++ whole ++ fraction ++ exponent
  floatOf : floatOf text = .finite text

/-- The value is no number, or one that is read back. -/
def ReadableFloat : PyValue → Prop
  | .float (.finite text) => IsFloatText floatOf text
  | _ => True

/-- Printable ASCII. -/
def IsPrintable (text : List Char) : Prop := ∀ c ∈ text, ' ' ≤ c ∧ c ≤ '~'

/-- The text is a writing of the value: it is printable, and it is read back. -/
structure ReadsBack (value : PyValue) (text : List Char) : Prop where
  printable : IsPrintable text
  start : ∃ c cs, text = c :: cs ∧ isJsonSpace c = false ∧ c ≠ ']' ∧ c ≠ '\x7d'
  read : ∀ fuel rest, text.length ≤ fuel → Stops rest →
    readValue floatOf fuel (text ++ rest) = some (value, rest)

/-! ## Printable texts -/

theorem IsPrintable.append {text text' : List Char} (h : IsPrintable text)
    (h' : IsPrintable text') : IsPrintable (text ++ text') := fun c hc ↦
  (List.mem_append.mp hc).elim (h c) (h' c)

theorem IsPrintable.cons {c : Char} {text : List Char} (hc : ' ' ≤ c ∧ c ≤ '~')
    (h : IsPrintable text) : IsPrintable (c :: text) := fun d hd ↦
  (List.mem_cons.mp hd).elim (fun heq ↦ heq ▸ hc) (h d)

instance (text : List Char) : Decidable (IsPrintable text) :=
  List.decidableBAll (fun c ↦ ' ' ≤ c ∧ c ≤ '~') text

theorem isPrintable_digitChar {k : ℕ} (hk : k < 16) :
    ' ' ≤ Nat.digitChar k ∧ Nat.digitChar k ≤ '~' := by
  have hall : ∀ k < 16, ' ' ≤ Nat.digitChar k ∧ Nat.digitChar k ≤ '~' := by decide
  exact hall k hk

theorem isPrintable_unicodeEscape (n : ℕ) : IsPrintable (unicodeEscape n) := by
  have hdigit : ∀ m, ' ' ≤ Nat.digitChar (m % 16) ∧ Nat.digitChar (m % 16) ≤ '~' := fun m ↦
    isPrintable_digitChar (Nat.mod_lt m (by decide))
  exact .cons (by decide) <| .cons (by decide) <| .cons (hdigit _) <| .cons (hdigit _) <|
    .cons (hdigit _) <| .cons (hdigit _) fun _ hc ↦ absurd hc List.not_mem_nil

theorem isPrintable_jsonEscape (c : Char) : IsPrintable (jsonEscape c) := by
  rw [jsonEscape]
  split_ifs with _ _ _ _ _ _ _ hplain
  · decide
  · decide
  · decide
  · decide
  · decide
  · decide
  · decide
  · exact .cons hplain fun _ hc ↦ absurd hc List.not_mem_nil
  · exact isPrintable_unicodeEscape _
  · exact (isPrintable_unicodeEscape _).append (isPrintable_unicodeEscape _)

theorem isPrintable_jsonString (text : String) : IsPrintable (jsonString text) := by
  refine .cons (by decide) (.append (fun c hc ↦ ?_) (by decide))
  obtain ⟨d, -, hd⟩ := List.mem_flatMap.mp hc
  exact isPrintable_jsonEscape d c hd

theorem isPrintable_digits {ds : List Char} (h : ∀ c ∈ ds, c.isDigit = true) :
    IsPrintable ds := by
  intro c hc
  have hdigit := h c hc
  rw [Char.isDigit, Bool.and_eq_true, decide_eq_true_eq, decide_eq_true_eq] at hdigit
  exact ⟨UInt32.le_trans (by decide) hdigit.1, UInt32.le_trans hdigit.2 (by decide)⟩

/-! ## Values without parts -/

variable {floatOf}

/-- A value whose text does not begin like a string, a list or an object. -/
theorem readsBack_of_readScalar {value : PyValue} {text : List Char} (hprint : IsPrintable text)
    (hstart : ∃ c cs, text = c :: cs ∧ isJsonSpace c = false ∧
      (c ≠ ']' ∧ c ≠ '\x7d') ∧ c ≠ '"' ∧ c ≠ '[' ∧ c ≠ '\x7b')
    (hread : ∀ rest, Stops rest → readScalar floatOf (text ++ rest) = some (value, rest)) :
    ReadsBack floatOf value text := by
  obtain ⟨c, cs, rfl, hspace, hclose, hquote, hbracket, hbrace⟩ := hstart
  refine ⟨hprint, ⟨c, cs, rfl, hspace, hclose⟩, fun fuel rest hfuel hrest ↦ ?_⟩
  obtain ⟨fuel, rfl⟩ := Nat.exists_eq_succ_of_ne_zero (Nat.ne_of_gt (Nat.zero_lt_of_lt hfuel))
  rw [List.cons_append, readValue, if_neg hquote, if_neg hbracket, if_neg hbrace]
  exact hread rest hrest

theorem readsBack_none : ReadsBack floatOf .none "null".toList :=
  readsBack_of_readScalar (by decide) ⟨_, _, rfl, by decide⟩ fun _ _ ↦ rfl

theorem readsBack_bool (b : Bool) :
    ReadsBack floatOf (.bool b) (if b then "true" else "false").toList := by
  cases b with
  | true => exact readsBack_of_readScalar (by decide) ⟨_, _, rfl, by decide⟩ fun _ _ ↦ rfl
  | false => exact readsBack_of_readScalar (by decide) ⟨_, _, rfl, by decide⟩ fun _ _ ↦ rfl

theorem exists_cons_of_number {minus whole : List Char} (hminus : minus = [] ∨ minus = ['-'])
    (hwhole : IsWhole whole) (rest : List Char) : ∃ c cs, minus ++ (whole ++ rest) = c :: cs ∧
      isJsonSpace c = false ∧ (c ≠ ']' ∧ c ≠ '\x7d') ∧ c ≠ '"' ∧ c ≠ '[' ∧ c ≠ '\x7b' := by
  rcases hminus with rfl | rfl
  · obtain ⟨d, ds, rfl, hd⟩ := hwhole.isDigits.exists_cons
    have hother : ∀ c : Char, c.isDigit = false → d ≠ c := fun c hc heq ↦ by
      rw [heq, hc] at hd
      exact Bool.false_ne_true hd
    refine ⟨d, ds ++ rest, rfl, ?_, ⟨hother _ rfl, hother _ rfl⟩, hother _ rfl, hother _ rfl,
      hother _ rfl⟩
    simp [isJsonSpace, hother ' ' rfl, hother '\t' rfl, hother '\n' rfl, hother '\r' rfl]
  · exact ⟨'-', whole ++ rest, rfl, rfl, by decide⟩

theorem exists_digits (i : ℤ) : ∃ minus whole, (minus = [] ∨ minus = ['-']) ∧ IsWhole whole ∧
    (toString i).toList = minus ++ whole ∧ intOf minus whole = i := by
  cases i with
  | ofNat n =>
    refine ⟨[], Nat.toDigits 10 n, .inl rfl, isWhole_toDigits n, Nat.toList_repr, ?_⟩
    rw [intOf, if_pos rfl, Nat.ofDigitChars_ten_toDigits]
    rfl
  | negSucc n =>
    refine ⟨['-'], Nat.toDigits 10 (n + 1), .inr rfl, isWhole_toDigits _, ?_, ?_⟩
    · have htext : toString (Int.negSucc n) = "-" ++ (n + 1).repr := rfl
      rw [htext, String.toList_append, Nat.toList_repr]
      rfl
    · rw [intOf, if_neg (List.cons_ne_nil _ _), Nat.ofDigitChars_ten_toDigits]
      rfl

theorem isPrintable_minus {minus : List Char} (h : minus = [] ∨ minus = ['-']) :
    IsPrintable minus := by
  rcases h with rfl | rfl <;> decide

theorem readsBack_int (i : ℤ) : ReadsBack floatOf (.int i) (toString i).toList := by
  obtain ⟨minus, whole, hminus, hwhole, htext, hint⟩ := exists_digits i
  have hstart := exists_cons_of_number hminus hwhole []
  rw [List.append_nil] at hstart
  rw [htext]
  refine readsBack_of_readScalar ((isPrintable_minus hminus).append
    (isPrintable_digits hwhole.isDigits.digit)) hstart fun rest hrest ↦ ?_
  have hread := readNumber_append floatOf hminus hwhole (.inl rfl) (.inl rfl) hrest
  rw [if_pos ⟨rfl, rfl⟩, hint, List.nil_append, List.nil_append] at hread
  rw [List.append_assoc, readScalar, hread, Option.some_or]

theorem isPrintable_fraction {text : List Char} (h : IsFraction text) : IsPrintable text := by
  rcases h with rfl | ⟨ds, hds, rfl⟩
  · decide
  · exact .cons (by decide) (isPrintable_digits hds.digit)

theorem isPrintable_exponent {text : List Char} (h : IsExponent text) : IsPrintable text := by
  rcases h with rfl | ⟨e, sign, ds, hletter, hsign, hds, rfl⟩
  · decide
  · have he : IsPrintable (e :: sign) := by
      rcases hletter with rfl | rfl <;> rcases hsign with rfl | rfl | rfl <;> decide
    exact he.append (isPrintable_digits hds.digit)

theorem readsBack_finite {text : String} (h : IsFloatText floatOf text) :
    ReadsBack floatOf (.float (.finite text)) text.toList := by
  obtain ⟨minus, whole, fraction, exponent, hminus, hwhole, hfraction, hexponent, hne, htext⟩ :=
    h.parts
  have hstart := exists_cons_of_number hminus hwhole (fraction ++ exponent)
  rw [← List.append_assoc, ← List.append_assoc, List.append_assoc minus] at hstart
  rw [htext]
  refine readsBack_of_readScalar ?_ ?_ fun rest hrest ↦ ?_
  · exact (((isPrintable_minus hminus).append (isPrintable_digits hwhole.isDigits.digit)).append
      (isPrintable_fraction hfraction)).append (isPrintable_exponent hexponent)
  · simpa only [List.append_assoc] using hstart
  · have hread := readNumber_append floatOf hminus hwhole hfraction hexponent hrest
    rw [if_neg hne, ← htext, String.ofList_toList, h.floatOf] at hread
    simp only [List.append_assoc]
    rw [readScalar, hread, Option.some_or]

theorem readsBack_float {x : PyFloat} (h : ReadableFloat floatOf (.float x)) :
    ReadsBack floatOf (.float x) (jsonFloat x).toList := by
  cases x with
  | finite text => exact readsBack_finite h
  | nan => exact readsBack_of_readScalar (by decide) ⟨_, _, rfl, by decide⟩ fun _ _ ↦ rfl
  | infinity negative =>
    cases negative with
    | true => exact readsBack_of_readScalar (by decide) ⟨_, _, rfl, by decide⟩ fun _ _ ↦ rfl
    | false => exact readsBack_of_readScalar (by decide) ⟨_, _, rfl, by decide⟩ fun _ _ ↦ rfl

theorem readString_jsonString (text : String) {fuel : ℕ} (rest : List Char)
    (hfuel : (jsonString text).length ≤ fuel + 1) :
    readString fuel (text.toList.flatMap jsonEscape ++ '"' :: rest) = some (text.toList, rest) := by
  have hlength := length_le_flatMap jsonEscape_eq_cons text.toList
  rw [jsonString, List.cons_append, List.length_cons, List.length_append] at hfuel
  exact readString_flatMap (by simp only [List.length_singleton] at hfuel; omega)

theorem readsBack_str (text : String) : ReadsBack floatOf (.str text) (jsonString text) := by
  refine ⟨isPrintable_jsonString text, ⟨'"', _, rfl, rfl, by decide⟩, fun fuel rest hfuel _ ↦ ?_⟩
  obtain ⟨fuel, rfl⟩ := Nat.exists_eq_succ_of_ne_zero (Nat.ne_of_gt (Nat.zero_lt_of_lt hfuel))
  have hread := readString_jsonString text rest hfuel
  rw [jsonString, List.cons_append, List.cons_append, List.append_assoc, List.singleton_append,
    readValue, if_pos rfl, hread, Option.map_some, String.ofList_toList]

/-! ## Lists and objects -/

theorem ReadsBack.skipSpace {value : PyValue} {text : List Char}
    (h : ReadsBack floatOf value text) (rest : List Char) :
    skipSpace (text ++ rest) = text ++ rest := by
  obtain ⟨c, cs, rfl, hspace, -⟩ := h.start
  exact skipSpace_cons hspace (cs ++ rest)

/-- **The items of a list are read back.** -/
theorem readItems_intercalate {value : PyValue} {values : List PyValue} {part : List Char}
    {parts : List (List Char)} (h : ReadsBack floatOf value part)
    (hs : List.Forall₂ (ReadsBack floatOf) values parts) (fuel : ℕ) (rest : List Char)
    (hfuel : ([','].intercalate (part :: parts)).length < fuel) :
    readItems floatOf fuel ([','].intercalate (part :: parts) ++ ']' :: rest) =
      some (value :: values, rest) := by
  induction hs generalizing value part fuel with
  | nil =>
    obtain ⟨fuel, rfl⟩ := Nat.exists_eq_succ_of_ne_zero (Nat.ne_of_gt (Nat.zero_lt_of_lt hfuel))
    rw [List.intercalate_singleton] at hfuel ⊢
    exact readItems_last (h.read fuel _ (Nat.le_of_lt_succ hfuel) (stops_cons (.inr (.inl rfl))))
  | @cons value' part' values parts h' hs ih =>
    obtain ⟨fuel, rfl⟩ := Nat.exists_eq_succ_of_ne_zero (Nat.ne_of_gt (Nat.zero_lt_of_lt hfuel))
    rw [List.intercalate_cons_cons, List.length_append, List.length_append] at hfuel
    rw [List.intercalate_cons_cons, List.append_assoc, List.append_assoc, List.singleton_append]
    have hlength : [','].length = 1 := rfl
    have hnext := ih h' fuel (by omega)
    refine readItems_more (h.read fuel _ (by omega) (stops_cons (.inl rfl))) ?_
    obtain ⟨tail, htail⟩ : part' <+: [','].intercalate (part' :: parts) ++ ']' :: rest := by
      cases parts with
      | nil =>
        rw [List.intercalate_singleton]
        exact List.prefix_append _ _
      | cons part'' parts =>
        rw [List.intercalate_cons_cons, List.append_assoc, List.append_assoc]
        exact List.prefix_append _ _
    rw [← htail, h'.skipSpace, htail]
    exact hnext

variable (floatOf) in
/-- A writing of an entry of an object. -/
def EntryReadsBack (entry : String × PyValue) (text : List Char) : Prop :=
  ∃ part, text = jsonString entry.1 ++ ':' :: part ∧ ReadsBack floatOf entry.2 part

/-- What the reader finds in an entry: its key, and its value in front of the rest. -/
theorem EntryReadsBack.read {entry : String × PyValue} {text : List Char}
    (h : EntryReadsBack floatOf entry text) (fuel : ℕ) (rest : List Char)
    (hfuel : text.length ≤ fuel) (hrest : Stops rest) :
    ∃ key value, text ++ rest = '"' :: key ∧
      readString fuel key = some (entry.1.toList, ':' :: value) ∧
      readValue floatOf fuel (skipSpace value) = some (entry.2, rest) := by
  obtain ⟨part, rfl, hpart⟩ := h
  have hlength : (jsonString entry.1 ++ ':' :: part).length =
      (jsonString entry.1).length + (part.length + 1) := List.length_append
  refine ⟨entry.1.toList.flatMap jsonEscape ++ '"' :: ':' :: (part ++ rest), part ++ rest, ?_,
    readString_jsonString entry.1 _ (by omega), ?_⟩
  · rw [jsonString]
    simp only [List.append_assoc, List.cons_append, List.nil_append]
  · rw [hpart.skipSpace]
    exact hpart.read fuel rest (by omega) hrest

/-- **The entries of an object are read back.** -/
theorem readEntries_intercalate {entry : String × PyValue} {entries : List (String × PyValue)}
    {text : List Char} {texts : List (List Char)} (h : EntryReadsBack floatOf entry text)
    (hs : List.Forall₂ (EntryReadsBack floatOf) entries texts) (fuel : ℕ)
    (rest : List Char) (hfuel : ([','].intercalate (text :: texts)).length < fuel) :
    readEntries floatOf fuel ([','].intercalate (text :: texts) ++ '\x7d' :: rest) =
      some (entry :: entries, rest) := by
  induction hs generalizing entry text fuel with
  | nil =>
    obtain ⟨fuel, rfl⟩ := Nat.exists_eq_succ_of_ne_zero (Nat.ne_of_gt (Nat.zero_lt_of_lt hfuel))
    rw [List.intercalate_singleton] at hfuel ⊢
    obtain ⟨key, value, htext, hkey, hvalue⟩ :=
      h.read fuel ('\x7d' :: rest) (Nat.le_of_lt_succ hfuel) (stops_cons (.inr (.inr rfl)))
    rw [htext, readEntries_last hkey hvalue, String.ofList_toList]
  | @cons entry' text' entries texts h' hs ih =>
    obtain ⟨fuel, rfl⟩ := Nat.exists_eq_succ_of_ne_zero (Nat.ne_of_gt (Nat.zero_lt_of_lt hfuel))
    rw [List.intercalate_cons_cons, List.length_append, List.length_append] at hfuel
    rw [List.intercalate_cons_cons, List.append_assoc, List.append_assoc, List.singleton_append]
    have hlength : [','].length = 1 := rfl
    have hnext := ih h' fuel (by omega)
    have hquote : skipSpace ([','].intercalate (text' :: texts) ++ '\x7d' :: rest) =
        [','].intercalate (text' :: texts) ++ '\x7d' :: rest := by
      obtain ⟨part, rfl, -⟩ := h'
      cases texts with
      | nil => rfl
      | cons text'' texts => rfl
    obtain ⟨key, value, htext, hkey, hvalue⟩ := h.read fuel
      (',' :: ([','].intercalate (text' :: texts) ++ '\x7d' :: rest)) (by omega)
      (stops_cons (.inl rfl))
    rw [htext, readEntries_more hkey hvalue (hquote.symm ▸ hnext), String.ofList_toList]

theorem isPrintable_intercalate {parts : List (List Char)} (h : ∀ part ∈ parts, IsPrintable part) :
    IsPrintable ([','].intercalate parts) := by
  induction parts with
  | nil => exact fun _ hc ↦ absurd hc List.not_mem_nil
  | cons part parts ih =>
    have hpart := h part List.mem_cons_self
    cases parts with
    | nil => rwa [List.intercalate_singleton]
    | cons part' parts =>
      rw [List.intercalate_cons_cons]
      refine (hpart.append (by decide)).append (ih fun part hmem ↦ ?_)
      exact h part (List.mem_cons_of_mem _ hmem)

theorem readsBack_list {values : List PyValue} {parts : List (List Char)}
    (h : List.Forall₂ (ReadsBack floatOf) values parts) :
    ReadsBack floatOf (.list values) ('[' :: [','].intercalate parts ++ [']']) := by
  have hprint : IsPrintable ([','].intercalate parts) := isPrintable_intercalate fun part hpart ↦ by
    obtain ⟨i, hi, rfl⟩ := List.getElem_of_mem hpart
    exact (h.get (h.length_eq ▸ hi) hi).printable
  refine ⟨.cons (by decide) (hprint.append (by decide)), ⟨'[', _, rfl, rfl, by decide⟩,
    fun fuel rest hfuel hrest ↦ ?_⟩
  obtain ⟨fuel, rfl⟩ := Nat.exists_eq_succ_of_ne_zero (Nat.ne_of_gt (Nat.zero_lt_of_lt hfuel))
  rw [List.cons_append, List.cons_append, List.append_assoc, List.singleton_append, readValue,
    if_neg (by decide), if_pos rfl]
  cases h with
  | nil => rfl
  | @cons value part values parts hpart h =>
    have hlength : ([','].intercalate (part :: parts)).length < fuel := by
      rw [List.cons_append, List.length_cons, List.length_append, List.length_singleton] at hfuel
      omega
    have hread := readItems_intercalate hpart h _ rest hlength
    obtain ⟨c, cs, rfl, hspace, hclose, -⟩ := hpart.start
    obtain ⟨tail, htail⟩ : ∃ tail, [','].intercalate ((c :: cs) :: parts) ++ ']' :: rest =
        c :: tail := by
      cases parts with
      | nil => exact ⟨_, rfl⟩
      | cons part' parts => exact ⟨_, rfl⟩
    rw [htail] at hread ⊢
    rw [skipSpace_cons hspace, List.head?_cons, if_neg fun hc ↦ hclose (Option.some.inj hc),
      hread, Option.map_some]

theorem readsBack_dict {entries : List (String × PyValue)} {texts : List (List Char)}
    (hnodup : (entries.map fun entry ↦ PyValue.str entry.1).Nodup)
    (h : List.Forall₂ (EntryReadsBack floatOf) entries texts) :
    ReadsBack floatOf (.dict (entries.map fun entry ↦ (.str entry.1, entry.2)))
      ('\x7b' :: [','].intercalate texts ++ ['\x7d']) := by
  have hprint : IsPrintable ([','].intercalate texts) := isPrintable_intercalate fun text htext ↦ by
    obtain ⟨i, hi, rfl⟩ := List.getElem_of_mem htext
    obtain ⟨part, heq, hpart⟩ := h.get (h.length_eq ▸ hi) hi
    rw [List.get_eq_getElem] at heq
    rw [heq]
    exact (isPrintable_jsonString _).append (.cons (by decide) hpart.printable)
  refine ⟨.cons (by decide) (hprint.append (by decide)), ⟨'\x7b', _, rfl, rfl, by decide⟩,
    fun fuel rest hfuel hrest ↦ ?_⟩
  obtain ⟨fuel, rfl⟩ := Nat.exists_eq_succ_of_ne_zero (Nat.ne_of_gt (Nat.zero_lt_of_lt hfuel))
  rw [List.cons_append, List.cons_append, List.append_assoc, List.singleton_append, readValue,
    if_neg (by decide), if_neg (by decide), if_pos rfl]
  have hassign : assignItems [] entries = entries.map fun entry ↦ (.str entry.1, entry.2) :=
    assignItems_of_nodup hnodup
  cases h with
  | nil => rfl
  | @cons entry text entries texts hentry h =>
    have hlength : ([','].intercalate (text :: texts)).length < fuel := by
      rw [List.cons_append, List.length_cons, List.length_append, List.length_singleton] at hfuel
      omega
    have hread := readEntries_intercalate hentry h _ rest hlength
    obtain ⟨part, rfl, -⟩ := hentry
    obtain ⟨tail, htail⟩ : ∃ tail, [','].intercalate
        ((jsonString entry.1 ++ ':' :: part) :: texts) ++ '\x7d' :: rest = '"' :: tail := by
      cases texts with
      | nil => exact ⟨_, rfl⟩
      | cons text' texts => exact ⟨_, rfl⟩
    rw [htail] at hread ⊢
    rw [skipSpace_cons rfl, if_neg (by simp), hread, Option.map_some, hassign]

/-! ## All values -/

theorem exists_dumpsItems {items : List PyValue}
    (h : ∀ item ∈ items, ∃ text, dumps item = some text ∧ ReadsBack floatOf (plain item) text) :
    ∃ parts, dumpsItems items = some parts ∧
      List.Forall₂ (ReadsBack floatOf) (plainItems items) parts := by
  induction items with
  | nil => exact ⟨[], by rw [dumpsItems], by rw [plainItems]; exact .nil⟩
  | cons item items ih =>
    obtain ⟨text, htext, hread⟩ := h item List.mem_cons_self
    obtain ⟨parts, hparts, hreads⟩ := ih fun item hmem ↦ h item (List.mem_cons_of_mem _ hmem)
    refine ⟨text :: parts, ?_, ?_⟩
    · rw [dumpsItems, htext, hparts]
      rfl
    · rw [plainItems]
      exact .cons hread hreads

theorem exists_dumpsEntries {items : List (PyValue × PyValue)}
    (hstr : ∀ item ∈ items, ∃ key, item.1 = .str key)
    (h : ∀ item ∈ items, ∃ text, dumps item.2 = some text ∧
      ReadsBack floatOf (plain item.2) text) :
    ∃ parts entries, dumpsEntries items = some parts ∧
      plainEntries items = entries.map (fun entry ↦ (.str entry.1, entry.2)) ∧
      List.Forall₂ (EntryReadsBack floatOf) entries parts := by
  induction items with
  | nil => exact ⟨[], [], by rw [dumpsEntries], by rw [plainEntries]; rfl, .nil⟩
  | cons item items ih =>
    obtain ⟨key, value⟩ := item
    obtain ⟨name, rfl⟩ := hstr _ List.mem_cons_self
    obtain ⟨text, htext, hread⟩ := h _ List.mem_cons_self
    obtain ⟨parts, entries, hparts, hentries, hreads⟩ :=
      ih (fun item hmem ↦ hstr item (List.mem_cons_of_mem _ hmem))
        fun item hmem ↦ h item (List.mem_cons_of_mem _ hmem)
    refine ⟨(jsonString name ++ ':' :: text) :: parts, (name, plain value) :: entries, ?_, ?_, ?_⟩
    · rw [dumpsEntries, htext, hparts]
      rfl
    · rw [plainEntries, hentries, List.map_cons]
    · exact .cons ⟨text, rfl, hread⟩ hreads

/-- **Every value is written, and read back.** Its mappings have string keys, and its floats are
texts that `float` reads. -/
theorem readsBack_dumps {value : PyValue} (hkeyed : value.Everywhere (PyValue.IsDictOf StringKeyed))
    (hfloats : value.Everywhere (ReadableFloat floatOf)) :
    ∃ text, dumps value = some text ∧ ReadsBack floatOf (plain value) text := by
  induction value with
  | leaf value hleaf =>
    have hfloat := hfloats.self
    cases value with
    | none => exact ⟨_, rfl, readsBack_none⟩
    | bool b => exact ⟨_, rfl, readsBack_bool b⟩
    | int i => exact ⟨_, rfl, readsBack_int i⟩
    | float x => exact ⟨_, rfl, readsBack_float hfloat⟩
    | str text => exact ⟨_, rfl, readsBack_str text⟩
    | object text repr => exact ⟨_, rfl, readsBack_str text⟩
    | list items => exact hleaf.elim
    | tuple items => exact hleaf.elim
    | dict items => exact hleaf.elim
  | list items ih =>
    obtain ⟨-, hkeyed⟩ := PyValue.everywhere_list.mp hkeyed
    obtain ⟨-, hfloats⟩ := PyValue.everywhere_list.mp hfloats
    obtain ⟨parts, hparts, hreads⟩ := exists_dumpsItems fun item hmem ↦
      ih item hmem (hkeyed item hmem) (hfloats item hmem)
    exact ⟨_, by rw [dumps, hparts]; rfl, by rw [plain]; exact readsBack_list hreads⟩
  | tuple items ih =>
    obtain ⟨-, hkeyed⟩ := PyValue.everywhere_tuple.mp hkeyed
    obtain ⟨-, hfloats⟩ := PyValue.everywhere_tuple.mp hfloats
    obtain ⟨parts, hparts, hreads⟩ := exists_dumpsItems fun item hmem ↦
      ih item hmem (hkeyed item hmem) (hfloats item hmem)
    exact ⟨_, by rw [dumps, hparts]; rfl, by rw [plain]; exact readsBack_list hreads⟩
  | dict items ih =>
    obtain ⟨hdict, hkeyed⟩ := PyValue.everywhere_dict.mp hkeyed
    obtain ⟨-, hfloats⟩ := PyValue.everywhere_dict.mp hfloats
    obtain ⟨parts, entries, hparts, hentries, hreads⟩ := exists_dumpsEntries hdict.str
      fun item hmem ↦ ih item hmem (hkeyed item hmem) (hfloats item hmem)
    refine ⟨_, by rw [dumps, hparts]; rfl, ?_⟩
    rw [plain, hentries]
    refine readsBack_dict ?_ hreads
    -- the keys were distinct before they became texts, and they were texts
    have hkeys := congrArg (List.map Prod.fst) hentries
    rw [plainEntries_eq, List.map_map, List.map_map] at hkeys
    exact hkeys ▸ hdict.nodup

/-- **The round trip.** -/
theorem loads_dumps {value : PyValue} (hkeyed : value.Everywhere (PyValue.IsDictOf StringKeyed))
    (hfloats : value.Everywhere (ReadableFloat floatOf)) :
    ∃ text, dumps value = some text ∧ IsPrintable text ∧
      loads floatOf text = some (plain value) := by
  obtain ⟨text, htext, hread⟩ := readsBack_dumps hkeyed hfloats
  refine ⟨text, htext, hread.printable, ?_⟩
  have hspace := hread.skipSpace []
  have hvalue := hread.read (text.length + 1) [] (Nat.le_succ _) stops_nil
  rw [List.append_nil] at hspace hvalue
  rw [loads, hspace, hvalue]
  rfl

end KnowledgeAlakazam
