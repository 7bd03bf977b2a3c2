import KnowledgeAlakazam.Core.PyTree
import Mathlib.Data.List.TakeWhile

/-!
# JSON texts

Python's `json` module on the values of `PyValue`: the writer with the default options, which
escapes everything that is not printable ASCII (`dumps`), and the reader (`loads`). A mapping whose
keys are strings is read back as it was written, up to what JSON cannot say: a tuple becomes a
list, and an object the text that the writer was given for it (`plain`).

The reader goes down with the length of the text as its fuel. What it does with a written text
depends on what follows it only in the case of a number, which ends where the digits do; `Stops`
says that it ends there.
-/

namespace KnowledgeAlakazam

/-! ## The writer -/

/-- `\u` and four hexadecimal digits. -/
def unicodeEscape (n : ℕ) : List Char :=
  ['\\', 'u', Nat.digitChar (n / 4096 % 16), Nat.digitChar (n / 256 % 16),
    Nat.digitChar (n / 16 % 16), Nat.digitChar (n % 16)]

/-- A character of a string; one beyond the basic plane as a surrogate pair. -/
def jsonEscape (c : Char) : List Char :=
  if c = '"' then ['\\', '"']
  else if c = '\\' then ['\\', '\\']
  else if c = '\n' then ['\\', 'n']
  else if c = '\r' then ['\\', 'r']
  else if c = '\t' then ['\\', 't']
  else if c = '\x0c' then ['\\', 'f']
  else if c = '\x08' then ['\\', 'b']
  else if ' ' ≤ c ∧ c ≤ '~' then [c]
  else if c.toNat < 0x10000 then unicodeEscape c.toNat
  else unicodeEscape (0xd800 + (c.toNat - 0x10000) / 0x400) ++
    unicodeEscape (0xdc00 + (c.toNat - 0x10000) % 0x400)

def jsonString (text : String) : List Char :=
  '"' :: text.toList.flatMap jsonEscape ++ ['"']

/-- A `float`. -/
def jsonFloat : PyFloat → String
  | .finite text => text
  | .nan => "NaN"
  | .infinity negative => if negative then "-Infinity" else "Infinity"

/-- A key: the basic values become strings, and other values are refused. -/
def jsonKey : PyValue → Option String
  | .str text => some text
  | .float x => some (jsonFloat x)
  | .bool b => some (if b then "true" else "false")
  | .none => some "null"
  | .int i => some (toString i)
  | _ => none

mutual

/-- `json.dumps(value, default=str, separators=(",", ":"))`; `none` where it raises. -/
def dumps : PyValue → Option (List Char)
  | .none => some "null".toList
  | .bool b => some (if b then "true" else "false").toList
  | .int i => some (toString i).toList
  | .float x => some (jsonFloat x).toList
  | .str text => some (jsonString text)
  | .object text _ => some (jsonString text)
  | .list items => (dumpsItems items).map fun parts ↦ '[' :: [','].intercalate parts ++ [']']
  | .tuple items => (dumpsItems items).map fun parts ↦ '[' :: [','].intercalate parts ++ [']']
  | .dict items =>
    (dumpsEntries items).map fun parts ↦ '\x7b' :: [','].intercalate parts ++ ['\x7d']

def dumpsItems : List PyValue → Option (List (List Char))
  | [] => some []
  | item :: items => do
    let part ← dumps item
    let parts ← dumpsItems items
    return part :: parts

def dumpsEntries : List (PyValue × PyValue) → Option (List (List Char))
  | [] => some []
  | (key, value) :: items => do
    let name ← jsonKey key
    let part ← dumps value
    let parts ← dumpsEntries items
    return (jsonString name ++ ':' :: part) :: parts

end

/-! ## The reader -/

def hexValue (c : Char) : Option ℕ :=
  if '0' ≤ c ∧ c ≤ '9' then some (c.toNat - '0'.toNat)
  else if 'a' ≤ c ∧ c ≤ 'f' then some (c.toNat - 'a'.toNat + 10)
  else if 'A' ≤ c ∧ c ≤ 'F' then some (c.toNat - 'A'.toNat + 10)
  else none

def readHex : List Char → Option (ℕ × List Char)
  | a :: b :: c :: d :: rest => do
    let a ← hexValue a
    let b ← hexValue b
    let c ← hexValue c
    let d ← hexValue d
    return (a * 4096 + b * 256 + c * 16 + d, rest)
  | _ => none

/-- The second half of a surrogate pair. -/
def readLow (high : ℕ) : List Char → Option (Char × List Char)
  | '\\' :: 'u' :: rest => do
    let (low, rest) ← readHex rest
    if 0xdc00 ≤ low ∧ low < 0xe000 then
      return (Char.ofNat (0x10000 + (high - 0xd800) * 0x400 + (low - 0xdc00)), rest)
    else none
  | _ => none

/-- What follows `\u`. A surrogate that is not of a pair is no character. -/
def readUnicode (text : List Char) : Option (Char × List Char) := do
  let (n, rest) ← readHex text
  if 0xd800 ≤ n ∧ n < 0xdc00 then readLow n rest
  else if 0xdc00 ≤ n ∧ n < 0xe000 then none
  else return (Char.ofNat n, rest)

def simpleEscape (c : Char) : Option Char :=
  if c = '"' then some '"'
  else if c = '\\' then some '\\'
  else if c = '/' then some '/'
  else if c = 'n' then some '\n'
  else if c = 'r' then some '\r'
  else if c = 't' then some '\t'
  else if c = 'f' then some '\x0c'
  else if c = 'b' then some '\x08'
  else none

/-- A character of a string, which is not its end. -/
def readChar : List Char → Option (Char × List Char)
  | [] => none
  | c :: rest =>
    if c = '\\' then
      match rest with
      | [] => none
      | c :: rest => if c = 'u' then readUnicode rest else (simpleEscape c).map fun c ↦ (c, rest)
    else if c < ' ' then none
    else some (c, rest)

/-- What follows the quotation mark of a string. -/
def readString : ℕ → List Char → Option (List Char × List Char)
  | 0, _ => none
  | _ + 1, [] => none
  | fuel + 1, c :: rest =>
    if c = '"' then some ([], rest)
    else do
      let (c, rest) ← readChar (c :: rest)
      let (cs, rest) ← readString fuel rest
      return (c :: cs, rest)

/-- The digits that a text begins with, and the rest. -/
def readDigits (text : List Char) : List Char × List Char :=
  (text.takeWhile Char.isDigit, text.dropWhile Char.isDigit)

/-- `-?` -/
def readMinus : List Char → List Char × List Char
  | [] => ([], [])
  | c :: rest => if c = '-' then (['-'], rest) else ([], c :: rest)

/-- `(?:0|[1-9][0-9]*)`, or nothing. -/
def readWhole : List Char → List Char × List Char
  | [] => ([], [])
  | c :: rest => if c = '0' then (['0'], rest) else readDigits (c :: rest)

/-- `(\.[0-9]+)?` -/
def readFraction : List Char → List Char × List Char
  | [] => ([], [])
  | c :: rest =>
    if c = '.' ∧ (readDigits rest).1 ≠ [] then ('.' :: (readDigits rest).1, (readDigits rest).2)
    else ([], c :: rest)

/-- `[-+]?` -/
def readSign : List Char → List Char × List Char
  | [] => ([], [])
  | c :: rest => if c = '-' ∨ c = '+' then ([c], rest) else ([], c :: rest)

/-- `([eE][-+]?[0-9]+)?` -/
def readExponent : List Char → List Char × List Char
  | [] => ([], [])
  | c :: rest =>
    let (sign, digits) := readSign rest
    if (c = 'e' ∨ c = 'E') ∧ (readDigits digits).1 ≠ [] then
      (c :: sign ++ (readDigits digits).1, (readDigits digits).2)
    else ([], c :: rest)

/-- `int` of what `-?(?:0|[1-9][0-9]*)` matched. -/
def intOf (minus whole : List Char) : ℤ :=
  if minus = [] then Nat.ofDigitChars 10 whole 0 else -(Nat.ofDigitChars 10 whole 0 : ℤ)

variable (floatOf : String → PyFloat)

/-- A number; `floatOf` is `float` of a text. -/
def readNumber (text : List Char) : Option (PyValue × List Char) :=
  let (minus, rest) := readMinus text
  let (whole, rest) := readWhole rest
  let (fraction, rest) := readFraction rest
  let (exponent, rest) := readExponent rest
  if whole = [] then none
  else if fraction = [] ∧ exponent = [] then some (.int (intOf minus whole), rest)
  else some (.float (floatOf (String.ofList (minus ++ whole ++ fraction ++ exponent))), rest)

def afterWord (word text : List Char) : Option (List Char) :=
  if word <+: text then some (text.drop word.length) else none

/-- A value without parts that is no string. -/
def readScalar (text : List Char) : Option (PyValue × List Char) :=
  (readNumber floatOf text).or <|
  ((afterWord "null".toList text).map fun rest ↦ (.none, rest)).or <|
  ((afterWord "true".toList text).map fun rest ↦ (.bool true, rest)).or <|
  ((afterWord "false".toList text).map fun rest ↦ (.bool false, rest)).or <|
  ((afterWord "NaN".toList text).map fun rest ↦ (.float .nan, rest)).or <|
  ((afterWord "Infinity".toList text).map fun rest ↦ (.float (.infinity false), rest)).or <|
  (afterWord "-Infinity".toList text).map fun rest ↦ (.float (.infinity true), rest)

def isJsonSpace (c : Char) : Bool := c == ' ' || c == '\t' || c == '\n' || c == '\r'

/-- The white space between the parts of a text. -/
def skipSpace (text : List Char) : List Char := text.dropWhile isJsonSpace

mutual

def readValue : ℕ → List Char → Option (PyValue × List Char)
  | 0, _ => none
  | _ + 1, [] => none
  | fuel + 1, c :: rest =>
    if c = '"' then (readString fuel rest).map fun r ↦ (.str (String.ofList r.1), r.2)
    else if c = '[' then
      if (skipSpace rest).head? = some ']' then some (.list [], (skipSpace rest).tail)
      else (readItems fuel (skipSpace rest)).map fun r ↦ (.list r.1, r.2)
    else if c = '\x7b' then
      if (skipSpace rest).head? = some '\x7d' then some (.dict [], (skipSpace rest).tail)
      else (readEntries fuel (skipSpace rest)).map fun r ↦ (.dict (assignItems [] r.1), r.2)
    else readScalar floatOf (c :: rest)

/-- The items of a list that is not empty, with the bracket. -/
def readItems : ℕ → List Char → Option (List PyValue × List Char)
  | 0, _ => none
  | fuel + 1, text => do
    let (item, rest) ← readValue fuel text
    match skipSpace rest with
    | [] => none
    | c :: rest =>
      if c = ']' then return ([item], rest)
      else if c = ',' then
        let (items, rest) ← readItems fuel (skipSpace rest)
        return (item :: items, rest)
      else none

/-- The entries of an object that is not empty, with the brace. -/
def readEntries : ℕ → List Char → Option (List (String × PyValue) × List Char)
  | 0, _ => none
  | _ + 1, [] => none
  | fuel + 1, c :: text =>
    if c = '"' then do
      let (key, rest) ← readString fuel text
      match skipSpace rest with
      | [] => none
      | c :: rest =>
        if c = ':' then
          let (value, rest) ← readValue fuel (skipSpace rest)
          match skipSpace rest with
          | [] => none
          | c :: rest =>
            if c = '\x7d' then return ([(String.ofList key, value)], rest)
            else if c = ',' then
              let (entries, rest) ← readEntries fuel (skipSpace rest)
              return ((String.ofList key, value) :: entries, rest)
            else none
        else none
    else none

end

/-- `json.loads`; `none` where it raises. -/
def loads (text : List Char) : Option PyValue := do
  let (value, rest) ← readValue floatOf (text.length + 1) (skipSpace text)
  if skipSpace rest = [] then return value else none

/-! ## Steps of the reader -/

section Steps

variable {floatOf} {fuel : ℕ} {text rest rest' : List Char} {item value : PyValue}

theorem skipSpace_cons {c : Char} (h : isJsonSpace c = false) (rest : List Char) :
    skipSpace (c :: rest) = c :: rest := List.dropWhile_cons_of_neg (by rw [h]; decide)

theorem readItems_last (h : readValue floatOf fuel text = some (item, ']' :: rest)) :
    readItems floatOf (fuel + 1) text = some ([item], rest) := by
  rw [readItems, h]
  rfl

theorem readItems_more {items : List PyValue}
    (h : readValue floatOf fuel text = some (item, ',' :: rest))
    (hrest : readItems floatOf fuel (skipSpace rest) = some (items, rest')) :
    readItems floatOf (fuel + 1) text = some (item :: items, rest') := by
  rw [readItems, h]
  exact congrArg (Option.bind · _) hrest

theorem readEntries_last {key : List Char} (hkey : readString fuel text = some (key, ':' :: rest))
    (h : readValue floatOf fuel (skipSpace rest) = some (value, '\x7d' :: rest')) :
    readEntries floatOf (fuel + 1) ('"' :: text) = some ([(String.ofList key, value)], rest') := by
  rw [readEntries, if_pos rfl, hkey]
  refine (congrArg (Option.bind · _) h).trans ?_
  rfl

theorem readEntries_more {key : List Char} {entries : List (String × PyValue)}
    {rest'' : List Char} (hkey : readString fuel text = some (key, ':' :: rest))
    (h : readValue floatOf fuel (skipSpace rest) = some (value, ',' :: rest'))
    (hrest : readEntries floatOf fuel (skipSpace rest') = some (entries, rest'')) :
    readEntries floatOf (fuel + 1) ('"' :: text) =
      some ((String.ofList key, value) :: entries, rest'') := by
  rw [readEntries, if_pos rfl, hkey]
  refine (congrArg (Option.bind · _) h).trans ?_
  exact congrArg (Option.bind · _) hrest

end Steps

/-! ## Characters and strings -/

theorem hexValue_digitChar {k : ℕ} (hk : k < 16) : hexValue (Nat.digitChar k) = some k := by
  have hall : ∀ k < 16, hexValue (Nat.digitChar k) = some k := by decide
  exact hall k hk

theorem readHex_unicodeEscape {n : ℕ} (hn : n < 0x10000) (rest : List Char) :
    readHex ((unicodeEscape n).drop 2 ++ rest) = some (n, rest) := by
  have hdigit : ∀ m, hexValue (Nat.digitChar (m % 16)) = some (m % 16) := fun m ↦
    hexValue_digitChar (Nat.mod_lt m (by decide))
  have hvalue : n / 4096 % 16 * 4096 + n / 256 % 16 * 256 + n / 16 % 16 * 16 + n % 16 = n := by
    omega
  simp only [unicodeEscape, List.drop_succ_cons, List.drop_zero, List.cons_append,
    List.nil_append, readHex, hdigit, Option.bind_eq_bind, Option.bind_some, hvalue]
  rfl

theorem readUnicode_unicodeEscape {n : ℕ} (hn : n < 0xd800 ∨ 0xdfff < n ∧ n < 0x10000)
    (rest : List Char) :
    readUnicode ((unicodeEscape n).drop 2 ++ rest) = some (Char.ofNat n, rest) := by
  rw [readUnicode, readHex_unicodeEscape (by omega)]
  have hhigh : ¬(0xd800 ≤ n ∧ n < 0xdc00) := by
    omega
  have hlow : ¬(0xdc00 ≤ n ∧ n < 0xe000) := by
    omega
  simp only [Option.bind_eq_bind, Option.bind_some, if_neg hhigh, if_neg hlow]
  rfl

theorem readUnicode_pair {n : ℕ} (hn : n < 0x100000) (rest : List Char) :
    readUnicode ((unicodeEscape (0xd800 + n / 0x400)).drop 2 ++
      (unicodeEscape (0xdc00 + n % 0x400) ++ rest)) =
        some (Char.ofNat (0x10000 + n), rest) := by
  rw [readUnicode, readHex_unicodeEscape (by omega)]
  have hhigh : 0xd800 ≤ 0xd800 + n / 0x400 ∧ 0xd800 + n / 0x400 < 0xdc00 := by
    omega
  have hlow : 0xdc00 ≤ 0xdc00 + n % 0x400 ∧ 0xdc00 + n % 0x400 < 0xe000 := by
    omega
  have hvalue : 0x10000 + (0xd800 + n / 0x400 - 0xd800) * 0x400 +
      (0xdc00 + n % 0x400 - 0xdc00) = 0x10000 + n := by
    omega
  have htail : ∀ m, unicodeEscape m ++ rest = '\\' :: 'u' :: ((unicodeEscape m).drop 2 ++ rest) :=
    fun _ ↦ rfl
  simp only [Option.bind_eq_bind, Option.bind_some, if_pos hhigh]
  rw [htail, readLow, readHex_unicodeEscape (by omega)]
  simp only [Option.bind_eq_bind, Option.bind_some, if_pos hlow, hvalue]
  rfl

/-- **A character is read back.** -/
theorem readChar_jsonEscape (c : Char) (rest : List Char) :
    readChar (jsonEscape c ++ rest) = some (c, rest) := by
  have hescape : ∀ m, readChar (unicodeEscape m ++ rest) =
      readUnicode ((unicodeEscape m).drop 2 ++ rest) := fun _ ↦ rfl
  rw [jsonEscape]
  split_ifs with hquote hslash hline hreturn htab hfeed hback hplain hbasic
  · rw [hquote]; rfl
  · rw [hslash]; rfl
  · rw [hline]; rfl
  · rw [hreturn]; rfl
  · rw [htab]; rfl
  · rw [hfeed]; rfl
  · rw [hback]; rfl
  · have hlt : ¬c < ' ' := Char.not_lt.mpr hplain.1
    simp only [List.cons_append, List.nil_append, readChar, if_neg hslash, if_neg hlt]
  · have hvalid : c.toNat < 0xd800 ∨ 0xdfff < c.toNat ∧ c.toNat < 0x10000 :=
      c.valid.imp_right fun h ↦ ⟨h.1, hbasic⟩
    rw [hescape, readUnicode_unicodeEscape hvalid, Char.ofNat_toNat]
  · have hvalid : c.toNat < 0x110000 := c.valid.elim (fun h ↦ h.trans (by decide)) And.right
    have hpair := readUnicode_pair (n := c.toNat - 0x10000) (by omega) rest
    rw [Nat.add_sub_cancel' (not_lt.mp hbasic), Char.ofNat_toNat] at hpair
    rw [List.append_assoc]
    exact hpair

theorem jsonEscape_eq_cons (c : Char) : ∃ d ds, jsonEscape c = d :: ds ∧ d ≠ '"' := by
  rw [jsonEscape]
  split_ifs with hquote
  · exact ⟨_, _, rfl, by decide⟩
  · exact ⟨_, _, rfl, by decide⟩
  · exact ⟨_, _, rfl, by decide⟩
  · exact ⟨_, _, rfl, by decide⟩
  · exact ⟨_, _, rfl, by decide⟩
  · exact ⟨_, _, rfl, by decide⟩
  · exact ⟨_, _, rfl, by decide⟩
  · exact ⟨_, _, rfl, hquote⟩
  · exact ⟨_, _, rfl, by decide⟩
  · exact ⟨_, _, rfl, by decide⟩

theorem readString_flatMap_of {escape : Char → List Char}
    (hread : ∀ c rest, readChar (escape c ++ rest) = some (c, rest))
    (hstart : ∀ c, ∃ d ds, escape c = d :: ds ∧ d ≠ '"') {text rest : List Char} {fuel : ℕ}
    (hfuel : text.length < fuel) :
    readString fuel (text.flatMap escape ++ '"' :: rest) = some (text, rest) := by
  induction text generalizing fuel with
  | nil =>
    obtain ⟨fuel, rfl⟩ := Nat.exists_eq_succ_of_ne_zero (Nat.ne_of_gt hfuel)
    rfl
  | cons c text ih =>
    obtain ⟨fuel, rfl⟩ := Nat.exists_eq_succ_of_ne_zero (Nat.ne_of_gt (Nat.zero_lt_of_lt hfuel))
    obtain ⟨d, ds, hescape, hquote⟩ := hstart c
    have hchar := hread c (text.flatMap escape ++ '"' :: rest)
    rw [List.flatMap_cons, List.append_assoc]
    rw [hescape, List.cons_append] at hchar ⊢
    rw [readString, if_neg hquote, hchar]
    simp only [Option.bind_eq_bind, Option.bind_some]
    rw [ih (Nat.lt_of_succ_lt_succ hfuel)]
    rfl

/-- **A string is read back.** -/
theorem readString_flatMap {text rest : List Char} {fuel : ℕ} (hfuel : text.length < fuel) :
    readString fuel (text.flatMap jsonEscape ++ '"' :: rest) = some (text, rest) :=
  readString_flatMap_of readChar_jsonEscape jsonEscape_eq_cons hfuel

theorem length_le_flatMap {escape : Char → List Char}
    (hstart : ∀ c, ∃ d ds, escape c = d :: ds ∧ d ≠ '"') (text : List Char) :
    text.length ≤ (text.flatMap escape).length := by
  induction text with
  | nil => exact Nat.le_refl _
  | cons c text ih =>
    obtain ⟨d, ds, hd, -⟩ := hstart c
    rw [List.flatMap_cons, hd, List.length_append, List.length_cons, List.length_cons]
    omega

/-! ## Numbers -/

def NoDigit (rest : List Char) : Prop := ∀ c ∈ rest.head?, c.isDigit = false

/-- What may follow a value that stands inside of another one, or at the end. -/
def Stops (rest : List Char) : Prop := ∀ c ∈ rest.head?, c = ',' ∨ c = ']' ∨ c = '\x7d'

theorem stops_nil : Stops [] := fun _ h ↦ absurd h (Option.not_mem_none _)

theorem stops_cons {c : Char} {rest : List Char} (h : c = ',' ∨ c = ']' ∨ c = '\x7d') :
    Stops (c :: rest) := fun _ hmem ↦ Option.some.inj hmem ▸ h

structure IsDigits (ds : List Char) : Prop where
  ne_nil : ds ≠ []
  digit : ∀ c ∈ ds, c.isDigit = true

/-- `(?:0|[1-9][0-9]*)` -/
def IsWhole (ds : List Char) : Prop := ds = ['0'] ∨ IsDigits ds ∧ ds.head? ≠ some '0'

/-- `(\.[0-9]+)?` -/
def IsFraction (text : List Char) : Prop := text = [] ∨ ∃ ds, IsDigits ds ∧ text = '.' :: ds

/-- `([eE][-+]?[0-9]+)?` -/
def IsExponent (text : List Char) : Prop :=
  text = [] ∨ ∃ e sign ds, (e = 'e' ∨ e = 'E') ∧ (sign = [] ∨ sign = ['-'] ∨ sign = ['+']) ∧
    IsDigits ds ∧ text = e :: sign ++ ds

theorem IsDigits.noDigit_cons {c : Char} {rest : List Char} (h : c.isDigit = false) :
    NoDigit (c :: rest) := fun _ hmem ↦ Option.some.inj hmem ▸ h

theorem Stops.noDigit {rest : List Char} (h : Stops rest) : NoDigit rest := by
  intro c hc
  rcases h c hc with rfl | rfl | rfl <;> rfl

theorem IsWhole.isDigits {ds : List Char} (h : IsWhole ds) : IsDigits ds := by
  rcases h with rfl | h
  · exact ⟨List.cons_ne_nil _ _, fun c hc ↦ by rw [List.mem_singleton.mp hc]; rfl⟩
  · exact h.1

theorem IsDigits.exists_cons {ds : List Char} (h : IsDigits ds) :
    ∃ d ds', ds = d :: ds' ∧ d.isDigit = true := by
  obtain ⟨d, ds', rfl⟩ := List.exists_cons_of_ne_nil h.ne_nil
  exact ⟨d, ds', rfl, h.digit d List.mem_cons_self⟩

theorem readDigits_append {ds rest : List Char} (h : ∀ c ∈ ds, c.isDigit = true)
    (hrest : NoDigit rest) : readDigits (ds ++ rest) = (ds, rest) := by
  have htake : rest.takeWhile Char.isDigit = [] := by
    cases rest with
    | nil => rfl
    | cons c rest => exact List.takeWhile_cons_of_neg (by rw [hrest c rfl]; decide)
  have hdrop : rest.dropWhile Char.isDigit = rest := by
    cases rest with
    | nil => rfl
    | cons c rest => exact List.dropWhile_cons_of_neg (by rw [hrest c rfl]; decide)
  rw [readDigits, List.takeWhile_append_of_pos h, List.dropWhile_append_of_pos h, htake, hdrop,
    List.append_nil]

theorem readMinus_append {minus rest : List Char} (hminus : minus = [] ∨ minus = ['-'])
    (hrest : rest.head? ≠ some '-') : readMinus (minus ++ rest) = (minus, rest) := by
  rcases hminus with rfl | rfl
  · cases rest with
    | nil => rfl
    | cons c rest => exact if_neg fun hc ↦ hrest (congrArg some hc)
  · rfl

theorem readWhole_append {whole rest : List Char} (h : IsWhole whole) (hrest : NoDigit rest) :
    readWhole (whole ++ rest) = (whole, rest) := by
  rcases h with rfl | ⟨hdigits, hzero⟩
  · rfl
  · obtain ⟨d, ds, rfl⟩ := List.exists_cons_of_ne_nil hdigits.ne_nil
    rw [List.cons_append, readWhole, if_neg fun hd ↦ hzero (congrArg some hd)]
    exact readDigits_append hdigits.digit hrest

theorem readFraction_append {fraction rest : List Char} (h : IsFraction fraction)
    (hrest : NoDigit rest) (hdot : rest.head? ≠ some '.') :
    readFraction (fraction ++ rest) = (fraction, rest) := by
  rcases h with rfl | ⟨ds, hds, rfl⟩
  · cases rest with
    | nil => rfl
    | cons c rest => exact if_neg fun hc ↦ hdot (congrArg some hc.1)
  · rw [List.cons_append, readFraction, readDigits_append hds.digit hrest,
      if_pos ⟨rfl, hds.ne_nil⟩]

theorem readSign_append {sign rest : List Char} (hsign : sign = [] ∨ sign = ['-'] ∨ sign = ['+'])
    (hrest : ∀ c ∈ rest.head?, c.isDigit = true) : readSign (sign ++ rest) = (sign, rest) := by
  rcases hsign with rfl | rfl | rfl
  · cases rest with
    | nil => rfl
    | cons c rest =>
      refine if_neg fun hc ↦ ?_
      have hdigit := hrest c rfl
      rcases hc with rfl | rfl <;> exact absurd hdigit (by decide)
  · rfl
  · rfl

theorem readExponent_append {exponent rest : List Char} (h : IsExponent exponent)
    (hrest : NoDigit rest) (he : rest.head? ≠ some 'e' ∧ rest.head? ≠ some 'E') :
    readExponent (exponent ++ rest) = (exponent, rest) := by
  rcases h with rfl | ⟨e, sign, ds, hletter, hsign, hds, rfl⟩
  · cases rest with
    | nil => rfl
    | cons c rest =>
      exact if_neg fun hc ↦ hc.1.elim (fun h ↦ he.1 (congrArg some h)) fun h ↦
        he.2 (congrArg some h)
  · obtain ⟨d, ds', hcons, hd⟩ := hds.exists_cons
    have hhead : ∀ c ∈ (ds ++ rest).head?, c.isDigit = true := by
      rw [hcons]
      exact fun c hc ↦ Option.some.inj hc ▸ hd
    rw [List.cons_append, List.cons_append, List.append_assoc, readExponent,
      readSign_append hsign hhead]
    dsimp only
    rw [readDigits_append hds.digit hrest, if_pos ⟨hletter, hds.ne_nil⟩]
    rfl

/-- **A number is read back**, as far as it goes. -/
theorem readNumber_append {minus whole fraction exponent rest : List Char}
    (hminus : minus = [] ∨ minus = ['-']) (hwhole : IsWhole whole)
    (hfraction : IsFraction fraction) (hexponent : IsExponent exponent) (hrest : Stops rest) :
    readNumber floatOf (minus ++ (whole ++ (fraction ++ (exponent ++ rest)))) =
      if fraction = [] ∧ exponent = [] then some (.int (intOf minus whole), rest)
      else some (.float (floatOf (String.ofList (minus ++ whole ++ fraction ++ exponent))),
        rest) := by
  have hletters : ∀ c, rest.head? = some c → c = ',' ∨ c = ']' ∨ c = '\x7d' := fun c hc ↦
    hrest c hc
  have hne : ∀ c : Char, c ≠ ',' → c ≠ ']' → c ≠ '\x7d' → rest.head? ≠ some c :=
    fun c h₁ h₂ h₃ hc ↦ (hletters c hc).elim h₁ fun h ↦ h.elim h₂ h₃
  -- what follows each part does not continue it
  have hafterFraction : NoDigit (exponent ++ rest) ∧ (exponent ++ rest).head? ≠ some '.' := by
    rcases hexponent with rfl | ⟨e, sign, ds, hletter, -, -, rfl⟩
    · exact ⟨hrest.noDigit, hne _ (by decide) (by decide) (by decide)⟩
    · rcases hletter with rfl | rfl
      · exact ⟨IsDigits.noDigit_cons rfl, by simp⟩
      · exact ⟨IsDigits.noDigit_cons rfl, by simp⟩
  have hafterWhole : NoDigit (fraction ++ (exponent ++ rest)) := by
    rcases hfraction with rfl | ⟨ds, -, rfl⟩
    · exact hafterFraction.1
    · exact IsDigits.noDigit_cons rfl
  have hafterMinus : (whole ++ (fraction ++ (exponent ++ rest))).head? ≠ some '-' := by
    obtain ⟨d, ds, rfl, hd⟩ := hwhole.isDigits.exists_cons
    intro hc
    rw [Option.some.inj hc] at hd
    exact absurd hd (by decide)
  rw [readNumber, readMinus_append hminus hafterMinus]
  dsimp only
  rw [readWhole_append hwhole hafterWhole]
  dsimp only
  rw [readFraction_append hfraction hafterFraction.1 hafterFraction.2]
  dsimp only
  rw [readExponent_append hexponent hrest.noDigit
    ⟨hne _ (by decide) (by decide) (by decide), hne _ (by decide) (by decide) (by decide)⟩]
  dsimp only
  rw [if_neg hwhole.isDigits.ne_nil]

theorem isWhole_toDigits (n : ℕ) : IsWhole (Nat.toDigits 10 n) := by
  have hdigit : ∀ c ∈ Nat.toDigits 10 n, c.isDigit = true := fun c hc ↦
    Nat.isDigit_of_mem_toDigits (by decide) (by decide) hc
  rcases Nat.eq_zero_or_pos n with rfl | hpos
  · exact .inl rfl
  refine .inr ⟨⟨Nat.toDigits_ne_nil, hdigit⟩, ?_⟩
  induction n using Nat.strongRecOn with
  | ind n ih =>
    by_cases hn : n < 10
    · have hsmall : ∀ m < 10, 0 < m → [Nat.digitChar m].head? ≠ some '0' := by decide
      rw [Nat.toDigits_of_lt_base hn]
      exact hsmall n hn hpos
    · have hlt : n / 10 < n := by omega
      have hquotient : 0 < n / 10 := by omega
      obtain ⟨d, ds, hds⟩ :=
        List.exists_cons_of_ne_nil (Nat.toDigits_ne_nil (b := 10) (n := n / 10))
      have hhead := ih (n / 10) hlt (fun c hc ↦
        Nat.isDigit_of_mem_toDigits (by decide) (by decide) hc) hquotient
      rw [Nat.toDigits_of_base_le (by decide) (not_lt.mp hn), hds] at *
      exact hhead

end KnowledgeAlakazam
