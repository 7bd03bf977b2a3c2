import KnowledgeAlakazam.Core.PyText
import Mathlib.Data.List.Nodup

/-!
# Slugs and wikilinks

A page is addressed by its slug, which `slugify_wiki_target` computes from a title or from the
target of a wikilink. `extract_wikilinks` finds the wikilinks of a Markdown text with a regular
expression. Both are written as scans of a list of characters: the substitutions of the source
replace characters one by one or collapse runs, and the pattern of a wikilink,
`\[\[([^\[\]\n]+)\]\]`, matches at a position in at most one way, since its inner part ends at the
first bracket.
-/

namespace KnowledgeAlakazam

variable (unicode : UnicodeData)

/-! ## Slugs -/

/-- The runs of characters a test holds of, each replaced by one hyphen:
`re.sub(r"[...]+", "-", text)`. -/
def hyphenateRuns (p : Char → Bool) : List Char → List Char
  | [] => []
  | c :: cs =>
    if p c then
      match cs with
      | [] => ['-']
      -- a run is replaced where it ends
      | d :: _ => if p d then hyphenateRuns p cs else '-' :: hyphenateRuns p cs
    else c :: hyphenateRuns p cs

/-- `[^\w\s-]`, negated: the characters that the first substitution keeps. -/
def isSlugChar (c : Char) : Bool := unicode.isWord c || pyIsSpace c || c == '-'

/-- `[\s_-]`. -/
def isSlugGap (c : Char) : Bool := pyIsSpace c || c == '_' || c == '-'

/-- `slugify_wiki_target`, on characters. -/
def slugifyChars (value : List Char) : List Char :=
  let pagePart := (value.takeWhile (· != '|')).takeWhile (· != '#')
  let normalized := unicode.lower (stripChars pyIsSpace (unicode.nfkc pagePart))
  let kept := normalized.filter (isSlugChar unicode)
  stripChars (· == '-') (hyphenateRuns isSlugGap kept)

/-- `slugify_wiki_target`. -/
def slugifyWikiTarget (value : String) : String :=
  String.ofList (slugifyChars unicode value.toList)

/-! ## Wikilinks -/

/-- `[^\[\]\n]`. -/
def isLinkChar (c : Char) : Bool := c != '[' && c != ']' && c != '\n'

/-- The wikilink at the beginning of a text: its target. -/
def matchWikilink : List Char → Option (List Char)
  | '[' :: '[' :: rest =>
    match rest.dropWhile isLinkChar with
    | ']' :: ']' :: _ =>
      let target := rest.takeWhile isLinkChar
      if target = [] then none else some target
    | _ => none
  | _ => none

/-- `WIKILINK_PATTERN.finditer`: the targets of the matches from left to right, where the
characters of a match are skipped. -/
def findWikilinks : ℕ → List Char → List (List Char)
  | _, [] => []
  | skip + 1, _ :: cs => findWikilinks skip cs
  | 0, c :: cs =>
    match matchWikilink (c :: cs) with
    | some target => target :: findWikilinks (target.length + 3) cs
    | none => findWikilinks 0 cs

section Dedupe

variable {α : Type} [DecidableEq α]

/-- The distinct values, in the order of their first occurrence, without those seen before. -/
def dedupeFrom (seen : List α) : List α → List α
  | [] => []
  | value :: values =>
    if value ∈ seen then dedupeFrom seen values
    else value :: dedupeFrom (value :: seen) values

theorem mem_dedupeFrom {seen values : List α} {value : α} :
    value ∈ dedupeFrom seen values ↔ value ∈ values ∧ value ∉ seen := by
  induction values generalizing seen with
  | nil => simp [dedupeFrom]
  | cons v values ih =>
    rw [dedupeFrom]
    split
    · rename_i hv
      rw [ih, List.mem_cons]
      constructor
      · rintro ⟨hmem, hnot⟩
        exact ⟨Or.inr hmem, hnot⟩
      · rintro ⟨rfl | hmem, hnot⟩
        · exact absurd hv hnot
        · exact ⟨hmem, hnot⟩
    · rename_i hv
      rw [List.mem_cons, List.mem_cons, ih, List.mem_cons, not_or]
      constructor
      · rintro (rfl | ⟨hmem, -, hnot⟩)
        · exact ⟨Or.inl rfl, hv⟩
        · exact ⟨Or.inr hmem, hnot⟩
      · rintro ⟨rfl | hmem, hnot⟩
        · exact Or.inl rfl
        · by_cases heq : value = v
          · exact Or.inl heq
          · exact Or.inr ⟨hmem, heq, hnot⟩

theorem nodup_dedupeFrom (seen values : List α) : (dedupeFrom seen values).Nodup := by
  induction values generalizing seen with
  | nil => exact List.nodup_nil
  | cons v values ih =>
    rw [dedupeFrom]
    split
    · exact ih seen
    · rw [List.nodup_cons]
      exact ⟨fun h ↦ (mem_dedupeFrom.mp h).2 List.mem_cons_self, ih _⟩

theorem dedupeFrom_eq_self {seen values : List α} (hnodup : values.Nodup)
    (hseen : ∀ value ∈ values, value ∉ seen) : dedupeFrom seen values = values := by
  induction values generalizing seen with
  | nil => rfl
  | cons v values ih =>
    rw [List.nodup_cons] at hnodup
    rw [dedupeFrom, if_neg (hseen v List.mem_cons_self)]
    congr 1
    refine ih hnodup.2 fun value hvalue hmem ↦ ?_
    rcases List.mem_cons.mp hmem with rfl | hmem
    · exact hnodup.1 hvalue
    · exact hseen value (List.mem_cons_of_mem _ hvalue) hmem

end Dedupe

/-- `extract_wikilinks`. -/
def extractWikilinks (markdown : List Char) : List String :=
  let slugs := (findWikilinks 0 markdown).map (slugifyChars unicode)
  (dedupeFrom [] (slugs.filter (· != []))).map String.ofList

/-- `_dedupe_slugs`. -/
def dedupeSlugs (toSlugs : List String) : List String := dedupeFrom [] toSlugs

theorem nodup_extractWikilinks (markdown : List Char) :
    (extractWikilinks unicode markdown).Nodup := by
  have hinj : Function.Injective String.ofList := fun a b h ↦ by
    simpa using congrArg String.toList h
  exact List.Nodup.map hinj (nodup_dedupeFrom _ _)

/-- The links of a text are stored as they were extracted. -/
theorem dedupeSlugs_of_nodup {slugs : List String} (h : slugs.Nodup) : dedupeSlugs slugs = slugs :=
  dedupeFrom_eq_self h fun _ _ hmem ↦ nomatch hmem

example : extractWikilinks asciiData
    "See [[Alpha Beta|a]], [[alpha_beta#x]] and [[[Gamma!]]".toList
      = ["alpha-beta", "gamma"] := by decide +kernel

end KnowledgeAlakazam
