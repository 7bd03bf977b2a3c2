import Mathlib.Data.List.Basic
import Mathlib.Tactic.Common

/-!
# Python strings

The string operations of the source that Lean's own library does not have, with Python's meaning:
`str.strip` removes Unicode white space as `str.isspace` defines it, and a string is a sequence of
code points. They are written on lists of characters, so that they compute.

What rests on the tables of the Unicode database is a parameter, `UnicodeData`.
-/

namespace KnowledgeAlakazam

/-- `str.isspace` of a single character. -/
def pyIsSpace (c : Char) : Bool :=
  let n := c.toNat
  (9 ≤ n && n ≤ 13) || (28 ≤ n && n ≤ 32) || n == 0x85 || n == 0xA0 || n == 0x1680 ||
    (0x2000 ≤ n && n ≤ 0x200A) || n == 0x2028 || n == 0x2029 || n == 0x202F || n == 0x205F ||
    n == 0x3000

/-- The characters of a list without those a test holds of at either end. -/
def stripChars (p : Char → Bool) (l : List Char) : List Char :=
  ((l.dropWhile p).reverse.dropWhile p).reverse

/-- `str.strip`. -/
def strip (s : String) : String := String.ofList (stripChars pyIsSpace s.toList)

/-- `a or b`, for strings. -/
def orElse (a : Option String) (b : String) : String :=
  match a with
  | some text => if text = "" then b else text
  | none => b

/-- `str.rstrip`. -/
def rstripChars (p : Char → Bool) (l : List Char) : List Char := (l.reverse.dropWhile p).reverse

/-- `str.split`: the words between the white space. -/
def splitWords : List Char → List (List Char)
  | [] => []
  | c :: cs =>
    if pyIsSpace c then splitWords cs
    else match cs, splitWords cs with
      -- the word goes on unless white space follows
      | d :: _, word :: words => if pyIsSpace d then [c] :: word :: words else (c :: word) :: words
      | _, words => [c] :: words

/-- `" ".join(words)`. -/
def joinWords (words : List (List Char)) : List Char := [' '].intercalate words

/-- `" ".join(text.split())`. -/
def collapseSpace (text : List Char) : List Char := joinWords (splitWords text)

/-- The characters at which `str.splitlines` ends a line. -/
def isLineBreak (c : Char) : Bool :=
  let n := c.toNat
  (10 ≤ n && n ≤ 13) || (28 ≤ n && n ≤ 30) || n == 0x85 || n == 0x2028 || n == 0x2029

/-- `str.splitlines`. -/
def splitLines : List Char → List (List Char)
  | [] => []
  | c :: cs =>
    -- a carriage return and a line feed are one line break
    if c == '\r' && cs.head? == some '\n' then splitLines cs
    else if isLineBreak c then [] :: splitLines cs
    else match splitLines cs with
      | [] => [[c]]
      | line :: lines => (c :: line) :: lines

/-- The functions of Python's text library that read the Unicode database, on lists of
characters. -/
structure UnicodeData where
  /-- `unicodedata.normalize("NFKC", text)`. -/
  nfkc : List Char → List Char
  /-- `str.lower`. -/
  lower : List Char → List Char
  /-- `str.capitalize`. -/
  capitalize : List Char → List Char
  /-- `\w` of a regular expression. -/
  isWord : Char → Bool
  /-- `str.isdigit` of a single character. -/
  isDigit : Char → Bool
  /-- The value of a decimal digit, as `int` reads it. -/
  decimal : Char → Option ℕ
  /-- `repr` of a string. -/
  repr : List Char → List Char

/-- What these functions do with printable ASCII text; `repr` is that of a text without quotation
marks and backslashes. -/
def asciiData : UnicodeData where
  nfkc text := text
  lower text := text.map Char.toLower
  capitalize
    | [] => []
    | c :: cs => c.toUpper :: cs.map Char.toLower
  isWord c := c.isAlphanum || c == '_'
  isDigit c := c.isDigit
  decimal c := if c.isDigit then some (c.toNat - '0'.toNat) else none
  repr text := '\'' :: text ++ ['\'']

private theorem dropWhile_eq_self {p : Char → Bool} {l : List Char}
    (h : ∀ c ∈ l.head?, p c = false) : l.dropWhile p = l := by
  cases l with
  | nil => rfl
  | cons c l => rw [List.dropWhile_cons_of_neg (by rw [h c rfl]; simp)]

private theorem head?_dropWhile {p : Char → Bool} {l : List Char} :
    ∀ c ∈ (l.dropWhile p).head?, p c = false := by
  intro c hc
  have h := List.head?_dropWhile_not p l
  rw [Option.mem_def.mp hc] at h
  simpa using h

private theorem head?_stripChars {p : Char → Bool} {l : List Char} :
    ∀ c ∈ (stripChars p l).head?, p c = false := by
  intro c hc
  rw [stripChars] at hc
  obtain ⟨taken, htaken⟩ : ∃ taken, (l.dropWhile p).reverse
      = taken ++ (l.dropWhile p).reverse.dropWhile p :=
    ⟨_, List.takeWhile_append_dropWhile.symm⟩
  have hsplit : l.dropWhile p
      = ((l.dropWhile p).reverse.dropWhile p).reverse ++ taken.reverse := by
    rw [← List.reverse_append, ← htaken, List.reverse_reverse]
  refine head?_dropWhile (l := l) c ?_
  rw [hsplit, List.head?_append, Option.mem_def.mp hc]
  rfl

private theorem getLast?_stripChars {p : Char → Bool} {l : List Char} :
    ∀ c ∈ (stripChars p l).getLast?, p c = false := by
  intro c hc
  rw [stripChars, List.getLast?_reverse] at hc
  exact head?_dropWhile c hc

theorem dropWhile_stripChars (p : Char → Bool) (l : List Char) :
    (stripChars p l).dropWhile p = stripChars p l := dropWhile_eq_self head?_stripChars

theorem stripChars_stripChars (p : Char → Bool) (l : List Char) :
    stripChars p (stripChars p l) = stripChars p l := by
  conv_lhs => rw [stripChars, dropWhile_stripChars]
  rw [stripChars, List.reverse_reverse, dropWhile_eq_self head?_dropWhile]

theorem stripChars_eq_self {p : Char → Bool} {l : List Char} (h : ∀ c ∈ l, p c = false) :
    stripChars p l = l := by
  rw [stripChars, dropWhile_eq_self fun c hc ↦ h c (List.mem_of_mem_head? hc),
    dropWhile_eq_self fun c hc ↦ h c (List.mem_reverse.mp (List.mem_of_mem_head? hc)),
    List.reverse_reverse]

/-- Nothing is removed from a text that begins and ends with stripped texts. -/
theorem stripChars_append {p : Char → Bool} {first last : List Char}
    (hfirst : stripChars p first = first) (hlast : stripChars p last = last) (hne : first ≠ [])
    (hne' : last ≠ []) (middle : List Char) :
    stripChars p (first ++ (middle ++ last)) = first ++ (middle ++ last) := by
  have hhead : ∀ c ∈ (first ++ (middle ++ last)).head?, p c = false := by
    intro c hc
    rw [List.head?_append_of_ne_nil _ hne, ← hfirst] at hc
    exact head?_stripChars c hc
  have hend : ∀ c ∈ (first ++ (middle ++ last)).reverse.head?, p c = false := by
    intro c hc
    rw [List.head?_reverse, ← List.append_assoc, List.getLast?_append_of_ne_nil _ hne',
      ← hlast] at hc
    exact getLast?_stripChars c hc
  rw [stripChars, dropWhile_eq_self hhead, dropWhile_eq_self hend, List.reverse_reverse]

@[simp] theorem strip_strip (s : String) : strip (strip s) = strip s := by
  rw [strip, strip, String.toList_ofList, stripChars_stripChars]

/-! ## Joined texts -/

theorem splitOn_intercalate {sep : String} {c : Char} (hsep : sep.toList = [c])
    {parts : List String} (hparts : ∀ part ∈ parts, c ∉ part.toList) (hne : parts ≠ []) :
    (sep.intercalate parts).toList.splitOn c = parts.map String.toList := by
  rw [String.toList_intercalate, hsep]
  refine List.splitOn_intercalate c (fun part hpart ↦ ?_) (by simpa using hne)
  obtain ⟨text, htext, rfl⟩ := List.mem_map.mp hpart
  exact hparts text htext

/-- **Joining is injective** on parts without the separator. -/
theorem intercalate_injective {sep : String} {c : Char} (hsep : sep.toList = [c])
    {parts parts' : List String} (hparts : ∀ part ∈ parts, c ∉ part.toList)
    (hparts' : ∀ part ∈ parts', c ∉ part.toList) (hne : parts ≠ []) (hne' : parts' ≠ [])
    (h : sep.intercalate parts = sep.intercalate parts') : parts = parts' := by
  have hsplit := splitOn_intercalate hsep hparts hne
  rw [h, splitOn_intercalate hsep hparts' hne'] at hsplit
  exact List.map_injective_iff.mpr (fun _ _ ↦ String.toList_inj.mp) hsplit.symm

end KnowledgeAlakazam
