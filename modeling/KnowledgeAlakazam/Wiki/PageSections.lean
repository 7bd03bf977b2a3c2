import KnowledgeAlakazam.Core.Words
import KnowledgeAlakazam.Wiki.Compiler

/-!
# The sections of a compiled page

A compiled page is read back line by line: its title, its five headings, and the claims in the
bullet list under theirs. The list shows exactly the claims, because a text that was cleaned and
listed once is not changed by being cleaned and listed again.

What comes from the model answer without a marker of its own is the summary. The cleaning takes one
marker of each kind away, so an answer can still head a section of its own; `HeadsSection` says
which answers do.
-/

namespace KnowledgeAlakazam

variable (unicode : UnicodeData)

/-! ## Cleaning twice -/

/-- A text that was collapsed, and is not empty. -/
def IsClean (text : List Char) : Prop := text ≠ [] ∧ collapseSpace text = text

theorem isClean_collapseSpace {text : List Char} (h : collapseSpace text ≠ []) :
    IsClean (collapseSpace text) := ⟨h, collapseSpace_collapseSpace text⟩

theorem IsClean.isLine {text : List Char} (h : IsClean text) : IsLine text :=
  h.2 ▸ isLine_collapseSpace text

theorem IsClean.collapse_strip {text : List Char} (h : IsClean text) :
    collapseSpace (stripChars pyIsSpace text) = text := by
  rw [collapseSpace, splitWords_stripChars, ← collapseSpace, h.2]

theorem dedupeNonEmptyFrom_clean {limit : Option ℕ} {deduped values : List (List Char)}
    (hclean : ∀ text ∈ deduped, IsClean text) (hnodup : deduped.Nodup) :
    (∀ text ∈ dedupeNonEmptyFrom limit deduped values, IsClean text) ∧
      (dedupeNonEmptyFrom limit deduped values).Nodup := by
  induction values generalizing deduped with
  | nil => exact ⟨hclean, hnodup⟩
  | cons value values ih =>
    rw [dedupeNonEmptyFrom]
    dsimp only
    split
    · exact ih hclean hnodup
    · rename_i hnew
      obtain ⟨hne, hmem⟩ := not_or.mp hnew
      have hclean' : ∀ text ∈ deduped ++ [collapseSpace (stripChars pyIsSpace value)],
          IsClean text := by
        intro text htext
        rcases List.mem_append.mp htext with htext | htext
        · exact hclean text htext
        · rw [List.mem_singleton.mp htext]
          exact isClean_collapseSpace hne
      have hnodup' : (deduped ++ [collapseSpace (stripChars pyIsSpace value)]).Nodup := by
        refine List.nodup_append.mpr ⟨hnodup, List.nodup_singleton _, ?_⟩
        rintro text htext other hother rfl
        exact hmem (List.mem_singleton.mp hother ▸ htext)
      cases limit with
      | none => exact ih hclean' hnodup'
      | some limit =>
        dsimp only
        split
        · exact ⟨hclean', hnodup'⟩
        · exact ih hclean' hnodup'

theorem isClean_of_mem_dedupeNonEmpty {values : List (List Char)} {limit : Option ℕ}
    {text : List Char} (h : text ∈ dedupeNonEmpty values limit) : IsClean text :=
  (dedupeNonEmptyFrom_clean (fun _ h ↦ absurd h List.not_mem_nil) List.nodup_nil).1 text h

theorem nodup_dedupeNonEmpty (values : List (List Char)) (limit : Option ℕ) :
    (dedupeNonEmpty values limit).Nodup :=
  (dedupeNonEmptyFrom_clean (fun _ h ↦ absurd h List.not_mem_nil) List.nodup_nil).2

theorem dedupeNonEmptyFrom_cons_of_new {deduped : List (List Char)} {text : List Char}
    (hclean : IsClean text) (hnew : text ∉ deduped) (values : List (List Char)) :
    dedupeNonEmptyFrom none deduped (text :: values)
      = dedupeNonEmptyFrom none (deduped ++ [text]) values := by
  rw [dedupeNonEmptyFrom]
  dsimp only
  rw [hclean.collapse_strip, if_neg (not_or.mpr ⟨hclean.1, hnew⟩)]

/-- Without a limit the loop lists every text that is clean and new. -/
theorem dedupeNonEmptyFrom_eq_append {deduped values : List (List Char)}
    (hclean : ∀ text ∈ values, IsClean text) (hnodup : (deduped ++ values).Nodup) :
    dedupeNonEmptyFrom none deduped values = deduped ++ values := by
  induction values generalizing deduped with
  | nil => exact (List.append_nil _).symm
  | cons value values ih =>
    have hvalue := hclean value List.mem_cons_self
    have hnew : value ∉ deduped := fun hmem ↦
      (List.nodup_append.mp hnodup).2.2 value hmem value List.mem_cons_self rfl
    rw [dedupeNonEmptyFrom_cons_of_new hvalue hnew,
      ih (fun text htext ↦ hclean text (List.mem_cons_of_mem _ htext))
        (by rwa [List.append_assoc]), List.append_assoc]
    rfl

/-- **Listing again.** A list that was cleaned is its own cleaning. -/
theorem dedupeNonEmpty_dedupeNonEmpty (values : List (List Char)) (limit : Option ℕ) :
    dedupeNonEmpty (dedupeNonEmpty values limit) none = dedupeNonEmpty values limit :=
  dedupeNonEmptyFrom_eq_append (fun _ h ↦ isClean_of_mem_dedupeNonEmpty h)
    (nodup_dedupeNonEmpty values limit)

/-! ## Markers -/

/-- A marker in front of another word is left out. -/
def dropMarker (isMarker : List Char → Bool) : List (List Char) → List (List Char)
  | marker :: word :: words => if isMarker marker then word :: words else marker :: word :: words
  | words => words

def isHeadingMarker (word : List Char) : Bool :=
  1 ≤ word.length && word.length ≤ 6 && word.all (· == '#')

def isBulletMarker (word : List Char) : Bool := word == ['-'] || word == ['*'] || word == ['+']

def isNumberMarker (word : List Char) : Bool :=
  let isDecimal c := (unicode.decimal c).isSome
  match word.takeWhile isDecimal, word.dropWhile isDecimal with
  | _ :: _, [c] => c == '.' || c == ')'
  | _, _ => false

/-- The words of an answer after its markers. -/
def answerWords (answer : List Char) : List (List Char) :=
  dropMarker (isNumberMarker unicode)
    (dropMarker isBulletMarker (dropMarker isHeadingMarker (splitWords answer)))

/-- A label: a few words before a colon. They do not count as text. -/
def IsLabel (words : List (List Char)) : Prop :=
  words.length ≤ 5 ∧ (words.getLast?.bind List.getLast?) = some ':'

def EndsInWord (text : List Char) : Prop := ∀ c ∈ text.getLast?, pyIsSpace c = false

theorem EndsInWord.suffix {text rest : List Char} (h : EndsInWord text) (hrest : rest <:+ text) :
    EndsInWord rest := by
  obtain ⟨before, rfl⟩ := hrest
  intro c hc
  refine h c ?_
  rw [List.getLast?_append, Option.mem_def.mp hc]
  rfl

theorem EndsInWord.splitWords_eq_nil {text : List Char} (h : EndsInWord text) :
    splitWords text = [] ↔ text = [] := by
  refine ⟨fun hnil ↦ ?_, fun hnil ↦ by rw [hnil]; rfl⟩
  rcases text.eq_nil_or_concat with rfl | ⟨before, c, rfl⟩
  · rfl
  · have hc := KnowledgeAlakazam.splitWords_eq_nil.mp hnil c (by simp)
    rw [h c (by simp)] at hc
    cases hc

theorem endsInWord_stripChars (text : List Char) : EndsInWord (stripChars pyIsSpace text) := by
  intro c hc
  rw [stripChars, List.getLast?_reverse] at hc
  have hhead := List.head?_dropWhile_not pyIsSpace (text.dropWhile pyIsSpace).reverse
  rw [Option.mem_def.mp hc] at hhead
  simpa using hhead

theorem dropSpaces_suffix {text rest : List Char} (h : rest <:+ text) :
    dropSpaces text rest <:+ text := by
  unfold dropSpaces
  split
  · split
    · exact (List.dropWhile_suffix _).trans h
    · exact List.suffix_refl _
  · exact List.suffix_refl _

/-- A pass that reads a part of the first word, and finds `tail` left of it. -/
theorem splitWords_dropSpaces {text word tail rest : List Char} {isMarker : List Char → Bool}
    (hend : EndsInWord rest) (hwords : splitWords text = word :: splitWords rest)
    (hrest : ∀ c ∈ rest.head?, pyIsSpace c = true) (htail : ∀ c ∈ tail, pyIsSpace c = false)
    (hmarker : isMarker word = tail.isEmpty) :
    splitWords (dropSpaces text (tail ++ rest)) = dropMarker isMarker (splitWords text) := by
  rw [hwords]
  cases tail with
  | cons c tail =>
    rw [List.cons_append, dropSpaces, htail c List.mem_cons_self, if_neg Bool.false_ne_true, hwords]
    cases splitWords rest with
    | nil => rfl
    | cons next words => exact (if_neg (ne_true_of_eq_false hmarker)).symm
  | nil =>
    cases rest with
    | nil => exact hwords
    | cons c rest =>
      have hc := hrest c rfl
      have hdrop : splitWords ((c :: rest).dropWhile pyIsSpace) = splitWords (c :: rest) := by
        conv_rhs => rw [← List.takeWhile_append_dropWhile (p := pyIsSpace) (l := c :: rest)]
        exact (splitWords_spaces (fun _ h ↦ List.mem_takeWhile_imp h) _).symm
      rw [List.nil_append, dropSpaces, hc, if_pos rfl, hdrop]
      cases hnext : splitWords (c :: rest) with
      | nil => exact absurd (hend.splitWords_eq_nil.mp hnext) (List.cons_ne_nil _ _)
      | cons next words => exact (if_pos hmarker).symm

theorem dropMarker_eq_self {word : List Char} {isMarker : List Char → Bool}
    (h : isMarker word = false) (words : List (List Char)) :
    dropMarker isMarker (word :: words) = word :: words := by
  cases words with
  | nil => rfl
  | cons next words => exact if_neg (ne_true_of_eq_false h)

private theorem takeWhile_word {p : Char → Bool} (word : List Char) {rest : List Char}
    (h : ∀ c ∈ rest.head?, p c = false) :
    (word ++ rest).takeWhile p = word.takeWhile p ∧
      (word ++ rest).dropWhile p = word.dropWhile p ++ rest := by
  induction word with
  | nil =>
    cases rest with
    | nil => exact ⟨rfl, rfl⟩
    | cons c rest =>
      have hc := h c rfl
      exact ⟨List.takeWhile_cons_of_neg (ne_true_of_eq_false hc),
        List.dropWhile_cons_of_neg (ne_true_of_eq_false hc)⟩
  | cons c word ih =>
    rw [List.cons_append]
    cases hc : p c with
    | true =>
      rw [List.takeWhile_cons_of_pos hc, List.takeWhile_cons_of_pos hc,
        List.dropWhile_cons_of_pos hc, List.dropWhile_cons_of_pos hc, ih.1]
      exact ⟨rfl, ih.2⟩
    | false =>
      have hneg : ¬p c = true := ne_true_of_eq_false hc
      rw [List.takeWhile_cons_of_neg hneg, List.takeWhile_cons_of_neg hneg,
        List.dropWhile_cons_of_neg hneg, List.dropWhile_cons_of_neg hneg]
      exact ⟨rfl, rfl⟩

/-! ## The three passes -/

theorem splitWords_dropHeading {text : List Char} (hstart : text.dropWhile pyIsSpace = text)
    (hend : EndsInWord text) :
    splitWords (dropHeading text) = dropMarker isHeadingMarker (splitWords text) := by
  rcases exists_firstWord text with ⟨hnil, -⟩ | ⟨word, rest, hinner, hword, hrest, hwords⟩
  · rw [hstart] at hnil
    rw [hnil]
    rfl
  rw [hstart] at hinner
  -- The number signs that are dropped are all in the first word: white space comes after it.
  have hhash : ∀ c ∈ rest.head?, (c == '#') = false := by
    intro c hc
    cases h : c == '#' with
    | false => rfl
    | true => exact absurd (hrest c hc) (by rw [beq_iff_eq.mp h]; decide)
  obtain ⟨htake, hdrop⟩ := takeWhile_word (p := (· == '#')) word hhash
  have hsplit := List.takeWhile_append_dropWhile (p := (· == '#')) (l := word)
  have htail : ∀ c ∈ word.dropWhile (· == '#'), pyIsSpace c = false := fun c hc ↦
    hword.2 c ((List.dropWhile_suffix _).subset hc)
  have hall : word.all (· == '#') = (word.dropWhile (· == '#')).isEmpty := by
    rw [Bool.eq_iff_iff, List.all_eq_true, List.isEmpty_iff, List.dropWhile_eq_nil_iff]
  rw [dropHeading, hinner, htake, hdrop, ← hinner]
  split
  · rename_i hlength
    refine splitWords_dropSpaces (hend.suffix ⟨word, hinner.symm⟩) hwords hrest htail ?_
    rw [isHeadingMarker, hall]
    cases htail' : word.dropWhile (· == '#') with
    | cons c tail => exact Bool.and_false _
    | nil =>
      rw [htail', List.append_nil] at hsplit
      rw [hsplit] at hlength
      rw [decide_eq_true hlength.1, decide_eq_true hlength.2]
      rfl
  · rename_i hlength
    rw [hwords, dropMarker_eq_self]
    rw [isHeadingMarker, hall]
    cases htail' : word.dropWhile (· == '#') with
    | cons c tail => exact Bool.and_false _
    | nil =>
      rw [htail', List.append_nil] at hsplit
      rw [hsplit] at hlength
      rw [List.isEmpty_nil, Bool.and_true, ← Bool.decide_and]
      exact decide_eq_false hlength

theorem splitWords_dropBullet {text : List Char} (hend : EndsInWord text) :
    splitWords (dropBullet text) = dropMarker isBulletMarker (splitWords text) := by
  unfold dropBullet
  rcases exists_firstWord text with ⟨hnil, hwords⟩ | ⟨word, rest, hinner, hword, hrest, hwords⟩
  · rw [hnil]
    dsimp only
    rw [hwords]
    rfl
  cases word with
  | nil => exact absurd rfl hword.1
  | cons c tail =>
    rw [hinner]
    dsimp only [List.cons_append]
    have hsuffix : rest <:+ text :=
      (List.suffix_append _ _).trans (hinner ▸ List.dropWhile_suffix pyIsSpace)
    split
    · rename_i hc
      refine splitWords_dropSpaces (hend.suffix hsuffix) hwords hrest
        (fun d hd ↦ hword.2 d (List.mem_cons_of_mem _ hd)) ?_
      cases tail with
      | cons d tail => simp [isBulletMarker]
      | nil => simpa [isBulletMarker, or_assoc] using hc
    · rename_i hc
      rw [hwords, dropMarker_eq_self]
      cases tail with
      | cons d tail => simp [isBulletMarker]
      | nil => simpa [isBulletMarker, and_assoc] using hc

theorem splitWords_dropNumber {unicode : UnicodeData}
    (hdecimal : ∀ c, (unicode.decimal c).isSome = true → pyIsSpace c = false) {text : List Char}
    (hend : EndsInWord text) :
    splitWords (dropNumber unicode text)
      = dropMarker (isNumberMarker unicode) (splitWords text) := by
  unfold dropNumber
  dsimp only
  rcases exists_firstWord text with ⟨hnil, hwords⟩ | ⟨word, rest, hinner, hword, hrest, hwords⟩
  · rw [hnil]
    dsimp only [List.takeWhile_nil, List.dropWhile_nil]
    rw [hwords]
    rfl
  have hstop : ∀ c ∈ rest.head?, (unicode.decimal c).isSome = false := by
    intro c hc
    cases h : (unicode.decimal c).isSome with
    | false => rfl
    | true => exact absurd (hrest c hc) (ne_true_of_eq_false (hdecimal c h))
  obtain ⟨htake, hdrop⟩ := takeWhile_word (p := fun c ↦ (unicode.decimal c).isSome) word hstop
  have hsuffix : rest <:+ text :=
    (List.suffix_append word rest).trans (hinner ▸ List.dropWhile_suffix pyIsSpace)
  have htail : ∀ c ∈ word.dropWhile fun c ↦ (unicode.decimal c).isSome, pyIsSpace c = false :=
    fun c hc ↦ hword.2 c ((List.dropWhile_suffix _).subset hc)
  have hmarker : isNumberMarker unicode word =
      match word.takeWhile fun c ↦ (unicode.decimal c).isSome,
        word.dropWhile fun c ↦ (unicode.decimal c).isSome with
      | _ :: _, [c] => c == '.' || c == ')'
      | _, _ => false := rfl
  rw [hinner, htake, hdrop]
  generalize (word.takeWhile fun c ↦ (unicode.decimal c).isSome) = digits at hmarker
  generalize (word.dropWhile fun c ↦ (unicode.decimal c).isSome) = after at hmarker htail
  cases digits with
  | nil =>
    dsimp only
    rw [hwords, dropMarker_eq_self hmarker]
  | cons digit digits =>
    cases after with
    | nil =>
      -- the digits are the whole word
      rw [List.nil_append, hwords, dropMarker_eq_self hmarker]
      cases rest with
      | nil => exact hwords
      | cons c rest =>
        dsimp only
        rw [if_neg, hwords]
        rintro (rfl | rfl)
        · exact absurd (hrest '.' rfl) (by decide)
        · exact absurd (hrest ')' rfl) (by decide)
    | cons c tail =>
      dsimp only [List.cons_append]
      split
      · rename_i hc
        refine splitWords_dropSpaces (hend.suffix hsuffix) hwords hrest
          (fun d hd ↦ htail d (List.mem_cons_of_mem _ hd)) ?_
        rw [hmarker]
        cases tail with
        | nil => simpa using hc
        | cons d tail => rfl
      · rename_i hc
        rw [hwords, dropMarker_eq_self]
        rw [hmarker]
        cases tail with
        | nil => simpa using hc
        | cons d tail => rfl

/-! ## What is left of an answer -/

theorem dropHeading_suffix (text : List Char) : dropHeading text <:+ text := by
  unfold dropHeading
  dsimp only
  split
  · exact dropSpaces_suffix (List.dropWhile_suffix _)
  · exact List.suffix_refl _

theorem dropBullet_suffix (text : List Char) : dropBullet text <:+ text := by
  unfold dropBullet
  split
  · rename_i c rest hinner
    split
    · refine dropSpaces_suffix ((List.suffix_cons c rest).trans ?_)
      rw [← hinner]
      exact List.dropWhile_suffix _
    · exact List.suffix_refl _
  · exact List.suffix_refl _

theorem getLast?_splitWords {text : List Char} (hne : text ≠ []) (hend : EndsInWord text) :
    (splitWords text).getLast?.bind List.getLast? = text.getLast? := by
  induction text with
  | nil => exact absurd rfl hne
  | cons c text ih =>
    cases text with
    | nil => rw [splitWords_singleton (hend c rfl)]; rfl
    | cons d text =>
      have hend' : EndsInWord (d :: text) := hend.suffix (List.suffix_cons c _)
      have hlast := ih (List.cons_ne_nil _ _) hend'
      have hne' : splitWords (d :: text) ≠ [] := fun h ↦
        List.cons_ne_nil d text (hend'.splitWords_eq_nil.mp h)
      rw [List.getLast?_cons_cons, ← hlast]
      cases hc : pyIsSpace c with
      | true => rw [splitWords_cons_space hc]
      | false =>
        cases hd : pyIsSpace d with
        | true =>
          rw [splitWords_cons_cons_space hc hd, splitWords_cons_space hd]
          rw [splitWords_cons_space hd] at hne'
          obtain ⟨word, words, hwords⟩ := List.exists_cons_of_ne_nil hne'
          rw [hwords, List.getLast?_cons_cons]
        | false =>
          obtain ⟨word, words, htext, hlong⟩ := splitWords_cons_cons hc hd text
          rw [hlong, htext]
          cases words with
          | cons next words => rw [List.getLast?_cons_cons, List.getLast?_cons_cons]
          | nil =>
            have hword := isWord_of_mem_splitWords (htext ▸ List.mem_singleton_self word)
            obtain ⟨e, word, rfl⟩ := List.exists_cons_of_ne_nil hword.1
            exact List.getLast?_cons_cons

instance (words : List (List Char)) : Decidable (IsLabel words) :=
  inferInstanceAs (Decidable (_ ∧ _))

/-- **The cleaning.** What is left are the words after the markers, joined, unless they are a
label. -/
theorem stripMarkdownNoise_eq {unicode : UnicodeData}
    (hdecimal : ∀ c, (unicode.decimal c).isSome = true → pyIsSpace c = false)
    (answer : List Char) :
    stripMarkdownNoise unicode answer = if IsLabel (answerWords unicode answer) then []
      else joinWords (answerWords unicode answer) := by
  have hend := endsInWord_stripChars answer
  have hend₁ := hend.suffix (dropHeading_suffix _)
  have hend₂ := hend₁.suffix (dropBullet_suffix _)
  have hstart := dropWhile_stripChars pyIsSpace answer
  have hwords : splitWords (stripChars pyIsSpace (dropNumber unicode (dropBullet
      (dropHeading (stripChars pyIsSpace answer))))) = answerWords unicode answer := by
    rw [splitWords_stripChars, splitWords_dropNumber hdecimal hend₂, splitWords_dropBullet hend₁,
      splitWords_dropHeading hstart hend, splitWords_stripChars]
    rfl
  have hlast := endsInWord_stripChars (dropNumber unicode (dropBullet
    (dropHeading (stripChars pyIsSpace answer))))
  rw [stripMarkdownNoise, ← hwords, collapseSpace]
  generalize stripChars pyIsSpace (dropNumber unicode (dropBullet
    (dropHeading (stripChars pyIsSpace answer)))) = text at hlast
  by_cases hne : text = []
  · rw [hne]
    rfl
  · refine if_congr ?_ rfl rfl
    rw [and_comm, ← getLast?_splitWords hne hlast]
    rfl

/-! ## Lines that start with a mark -/

def linesWith (mark : String) (lines : List (List Char)) : List (List Char) :=
  lines.filter fun line ↦ mark.toList.isPrefixOf line

theorem linesWith_append (mark : String) (lines lines' : List (List Char)) :
    linesWith mark (lines ++ lines') = linesWith mark lines ++ linesWith mark lines' :=
  List.filter_append _ _

theorem exists_cons_cons_iff {word : List Char} {words : List (List Char)} :
    (∃ next rest, words = word :: next :: rest) ↔
      2 ≤ words.length ∧ words.head? = some word := by
  constructor
  · rintro ⟨next, rest, rfl⟩
    exact ⟨by simp, rfl⟩
  · rintro ⟨hlength, hhead⟩
    rcases words with - | ⟨first, - | ⟨next, rest⟩⟩
    · cases hhead
    · exact absurd hlength (by simp)
    · obtain rfl := Option.some.inj hhead
      exact ⟨next, rest, rfl⟩

theorem prefix_joinWords_iff {word : List Char} (hword : IsWord word) {words : List (List Char)}
    (h : ∀ word ∈ words, IsWord word) :
    word ++ [' '] <+: joinWords words ↔ ∃ next rest, words = word :: next :: rest := by
  constructor
  · rintro ⟨tail, htail⟩
    have hsplit := splitWords_joinWords h
    rw [← htail, List.append_assoc, List.singleton_append,
      splitWords_append_space _ _ (by decide), hword.splitWords] at hsplit
    cases hnext : splitWords tail with
    | cons next rest => exact ⟨next, rest, by rw [← hsplit, hnext]; rfl⟩
    | nil =>
      -- a single word has no space
      rw [hnext, List.append_nil] at hsplit
      rw [← hsplit, joinWords_singleton] at htail
      have hspace := hword.2 ' ' (htail ▸ by simp)
      exact absurd hspace (by decide)
  · rintro ⟨next, rest, rfl⟩
    rw [joinWords_cons_cons]
    exact ⟨joinWords (next :: rest), by simp⟩

/-- What is before a word stays. -/
theorem prefix_rstripChars (before : List Char) {c : Char} (hc : pyIsSpace c = false)
    (after : List Char) : before ++ [c] <+: rstripChars pyIsSpace (before ++ c :: after) := by
  refine ⟨rstripChars pyIsSpace after, ?_⟩
  have hstop : ∀ d ∈ (c :: before.reverse).head?, pyIsSpace d = false := by
    rintro d hd
    rw [← Option.some.inj (Option.mem_def.mp hd)]
    exact hc
  have hreverse : (before ++ c :: after).reverse = after.reverse ++ c :: before.reverse := by simp
  rw [rstripChars, rstripChars, hreverse, (takeWhile_word after.reverse hstop).2,
    List.reverse_append, List.reverse_cons, List.reverse_reverse]

theorem rstripChars_initial (p : Char → Bool) (text : List Char) : rstripChars p text <+: text := by
  rw [rstripChars, ← List.reverse_suffix, List.reverse_reverse]
  exact List.dropWhile_suffix p

/-- The cut leaves a short first word as it is. -/
theorem prefix_truncate_iff {word : List Char} (hword : IsWord word) {words : List (List Char)}
    (h : ∀ word ∈ words, IsWord word) {maxLength : ℕ} (hlength : word.length + 2 < maxLength) :
    word ++ [' '] <+: truncate (joinWords words) maxLength ↔
      word ++ [' '] <+: joinWords words := by
  have hsame : collapseSpace (joinWords words) = joinWords words := by
    rw [collapseSpace, splitWords_joinWords h]
  rw [truncate, hsame, sliceTo_pred _ (Nat.zero_lt_of_lt hlength)]
  split
  · exact Iff.rfl
  constructor
  · intro hpre
    have hcut := (rstripChars_initial pyIsSpace ((joinWords words).take (maxLength - 1))).trans
      (List.take_prefix _ _)
    rcases List.prefix_or_prefix_of_prefix hpre (List.prefix_append _ _) with hle | ⟨tail, htail⟩
    · exact hle.trans hcut
    · -- the space is not one of the dots
      rw [← htail, List.prefix_append_right_inj] at hpre
      rcases tail.eq_nil_or_concat with rfl | ⟨before, c, rfl⟩
      · rw [List.append_nil] at htail
        exact htail ▸ hcut
      · rw [List.concat_eq_append] at hpre htail
        rw [← List.append_assoc] at htail
        have hc : c = ' ' := List.singleton_inj.mp (List.append_inj_right' htail rfl)
        have hmem := hpre.subset (List.mem_append_right before (List.mem_singleton_self c))
        exact absurd (hc ▸ hmem) (by decide)
  · intro hpre
    obtain ⟨next, rest, rfl⟩ := (prefix_joinWords_iff hword h).mp hpre
    obtain ⟨c, tail, htail⟩ : ∃ c tail, joinWords (next :: rest) = c :: tail ∧
        pyIsSpace c = false := by
      have hnext := h next (List.mem_cons_of_mem _ List.mem_cons_self)
      rcases next with - | ⟨c, next⟩
      · exact absurd rfl hnext.1
      · exact ⟨c, _, List.intercalate_cons_cons_left, hnext.2 c List.mem_cons_self⟩
    have hlong : (joinWords (word :: next :: rest)).take (maxLength - 1)
        = (word ++ [' ']) ++ c :: tail.take (maxLength - 1 - (word.length + 2)) := by
      rw [joinWords_cons_cons, htail.1, List.take_append, List.take_of_length_le (by omega)]
      obtain ⟨k, hk⟩ : ∃ k, maxLength - 1 - word.length = k + 2 :=
        ⟨maxLength - 1 - word.length - 2, by omega⟩
      rw [hk, List.take_succ_cons, List.take_succ_cons, List.append_assoc]
      congr 4
      omega
    rw [hlong]
    calc word ++ [' '] <+: (word ++ [' ']) ++ [c] := List.prefix_append _ _
      _ <+: rstripChars pyIsSpace ((word ++ [' ']) ++ c :: _) :=
          prefix_rstripChars (word ++ [' ']) htail.2 _
      _ <+: _ := List.prefix_append _ _

/-! ## The summary -/

/-- The answer heads a section: after its markers there is one more marker of a title or of a
section, and a text. -/
def HeadsSection (answer : List Char) : Prop :=
  let words := answerWords unicode answer
  ¬IsLabel words ∧ 2 ≤ words.length ∧ (words.head? = some ['#'] ∨ words.head? = some ['#', '#'])

instance (answer : List Char) : Decidable (HeadsSection unicode answer) :=
  inferInstanceAs (Decidable (_ ∧ _ ∧ (_ ∨ _)))

theorem mem_of_mem_dropMarker {isMarker : List Char → Bool} {words : List (List Char)}
    {word : List Char} (h : word ∈ dropMarker isMarker words) : word ∈ words := by
  unfold dropMarker at h
  split at h
  · split at h
    · exact List.mem_cons_of_mem _ h
    · exact h
  · exact h

theorem isWord_of_mem_answerWords {unicode : UnicodeData} {answer word : List Char}
    (h : word ∈ answerWords unicode answer) : IsWord word :=
  isWord_of_mem_splitWords
    (mem_of_mem_dropMarker (mem_of_mem_dropMarker (mem_of_mem_dropMarker h)))

private theorem isWord_marker {marker : List Char} (h : marker = ['#'] ∨ marker = ['#', '#']) :
    IsWord marker ∧ marker.length ≤ 2 := by
  have hsharp : pyIsSpace '#' = false := by decide
  rcases h with rfl | rfl
  · exact ⟨⟨List.cons_ne_nil _ _, by simp [hsharp]⟩, by decide⟩
  · exact ⟨⟨List.cons_ne_nil _ _, by simp [hsharp]⟩, by decide⟩

theorem prefix_summary_iff {unicode : UnicodeData}
    (hdecimal : ∀ c, (unicode.decimal c).isSome = true → pyIsSpace c = false)
    {marker : List Char} (hmarker : marker = ['#'] ∨ marker = ['#', '#']) (answer : List Char) :
    marker ++ [' '] <+: summaryFromAnswer unicode answer ↔
      ¬IsLabel (answerWords unicode answer) ∧ 2 ≤ (answerWords unicode answer).length ∧
        (answerWords unicode answer).head? = some marker := by
  have hwords : ∀ word ∈ answerWords unicode answer, IsWord word := fun _ h ↦
    isWord_of_mem_answerWords h
  obtain ⟨hword, hlength⟩ := isWord_marker hmarker
  have hnone :
      ¬marker ++ [' '] <+: "No summary was returned by the RAG evidence query.".toList := by
    rcases hmarker with rfl | rfl <;> decide
  unfold summaryFromAnswer
  dsimp only
  rw [stripMarkdownNoise_eq hdecimal]
  by_cases hlabel : IsLabel (answerWords unicode answer)
  · rw [if_pos hlabel, if_pos rfl]
    exact iff_of_false hnone fun h ↦ h.1 hlabel
  rw [if_neg hlabel]
  split
  · rename_i hnil
    rw [joinWords_eq_nil hwords] at hnil
    refine iff_of_false hnone ?_
    rintro ⟨-, -, h⟩
    rw [hnil] at h
    cases h
  · rw [prefix_truncate_iff hword hwords (by unfold maxSummaryLength; omega),
      prefix_joinWords_iff hword hwords, exists_cons_cons_iff]
    exact ⟨fun h ↦ ⟨hlabel, h⟩, fun h ↦ h.2⟩

theorem isLine_truncate (value : List Char) (maxLength : ℕ) :
    IsLine (truncate value maxLength) := by
  unfold truncate
  dsimp only
  split
  · exact isLine_collapseSpace value
  · refine IsLine.append ((isLine_collapseSpace value).of_subset ?_) (by decide)
    exact ((rstripChars_initial _ _).trans (isPrefix_sliceTo _ _)).subset

theorem isLine_summaryFromAnswer (answer : List Char) :
    IsLine (summaryFromAnswer unicode answer) := by
  unfold summaryFromAnswer
  dsimp only
  split
  · decide
  · exact isLine_truncate _ _

/-! ## The page, line by line -/

/-- What `_bullet_lines` lists. -/
def listedTexts (values : List (List Char)) : List (List Char) :=
  match dedupeNonEmpty values none with
  | [] => ["No items extracted from structured evidence.".toList]
  | cleaned => cleaned

def listLines (values : List (List Char)) : List (List Char) :=
  (listedTexts values).map fun value ↦ "- ".toList ++ value

def pageLines (title : String) (summary : List Char)
    (concepts claims related questions : List (List Char)) : List (List Char) :=
  ["# ".toList ++ title.toList, [], "## Summary".toList, [], summary, [],
      "## Key Concepts".toList, []] ++
    listLines concepts ++ [[], "## Source-backed Claims".toList, []] ++
    listLines claims ++ [[], "## Related Pages".toList, []] ++
    listLines related ++ [[], "## Open Questions".toList, []] ++
    listLines questions

theorem listLines_ne_nil (values : List (List Char)) : listLines values ≠ [] := by
  unfold listLines listedTexts
  split
  · exact List.cons_ne_nil _ _
  · rename_i cleaned hne
    exact fun h ↦ hne (List.map_eq_nil_iff.mp h)

theorem isLine_of_mem_listLines {values : List (List Char)} {line : List Char}
    (h : line ∈ listLines values) : IsLine line := by
  obtain ⟨value, hvalue, rfl⟩ := List.mem_map.mp h
  refine IsLine.append (by decide) ?_
  unfold listedTexts at hvalue
  split at hvalue
  · rw [List.mem_singleton.mp hvalue]
    decide
  · exact (isClean_of_mem_dedupeNonEmpty hvalue).isLine

theorem bulletLines_eq (values : List (List Char)) :
    bulletLines values = ['\n'].intercalate (listLines values) := rfl

private theorem splitLines_paragraph {line : List Char} (h : IsLine line) (rest : List Char) :
    splitLines (line ++ (['\n', '\n'] ++ rest)) = line :: [] :: splitLines rest :=
  (h.splitLines_newline ('\n' :: rest)).trans rfl

private theorem splitLines_heading {heading : List Char} (line : List Char)
    (heq : heading = line ++ ['\n', '\n']) (h : IsLine line) (rest : List Char) :
    splitLines (heading ++ rest) = line :: [] :: splitLines rest := by
  rw [heq, List.append_assoc]
  exact splitLines_paragraph h rest

private theorem splitLines_bulletLines (values : List (List Char)) (rest : List Char) :
    splitLines (bulletLines values ++ (['\n', '\n'] ++ rest))
      = listLines values ++ [] :: splitLines rest :=
  (splitLines_intercalate_newline (listLines_ne_nil values)
    (fun _ h ↦ isLine_of_mem_listLines h) ('\n' :: rest)).trans rfl

/-- **The lines of a page.** Nothing the page is made of breaks a line. -/
theorem splitLines_renderPageMarkdown {title : String} (htitle : IsLine title.toList)
    (currentSlug : String) (evidence : CompilerEvidence) (claims : List (List Char)) :
    splitLines (renderPageMarkdown unicode title currentSlug evidence claims) =
      pageLines title (summaryFromAnswer unicode evidence.answer.toList)
        (extractKeyConcepts unicode evidence.metadata title.toList) claims
        ((extractRelatedPages unicode evidence currentSlug).map wikilink)
        (extractOpenQuestions unicode evidence.metadata) := by
  have hlast : ∀ values, splitLines (bulletLines values) = listLines values := fun values ↦
    splitLines_intercalate fun line hline ↦ ⟨isLine_of_mem_listLines hline, by
      obtain ⟨value, -, rfl⟩ := List.mem_map.mp hline
      exact List.cons_ne_nil _ _⟩
  have htop : IsLine ("# ".toList ++ title.toList) := IsLine.append (by decide) htitle
  unfold renderPageMarkdown
  dsimp only
  simp only [List.intercalate_cons_cons, List.intercalate_singleton, List.append_assoc]
  rw [← List.append_assoc "# ".toList, splitLines_paragraph htop,
    splitLines_heading "## Summary".toList (by decide) (by decide),
    splitLines_paragraph (isLine_summaryFromAnswer unicode _),
    splitLines_heading "## Key Concepts".toList (by decide) (by decide), splitLines_bulletLines,
    splitLines_heading "## Source-backed Claims".toList (by decide) (by decide),
    splitLines_bulletLines,
    splitLines_heading "## Related Pages".toList (by decide) (by decide), splitLines_bulletLines,
    splitLines_heading "## Open Questions".toList (by decide) (by decide), hlast, pageLines]
  simp only [List.append_assoc, List.cons_append, List.nil_append]

/-! ## The page parses back -/

def noItems : List Char := "No items extracted from structured evidence.".toList

def sectionHeadings : List (List Char) :=
  ["## Summary".toList, "## Key Concepts".toList, "## Source-backed Claims".toList,
    "## Related Pages".toList, "## Open Questions".toList]

def linesBetween (heading next : String) (lines : List (List Char)) : List (List Char) :=
  (lines.dropWhile (· ≠ heading.toList)).takeWhile (· ≠ next.toList)

/-- **The page parses back.** One line is a title, the five headings come in order, and the list of
claims shows these texts. -/
structure ParsesBack (title : String) (lines claimTexts : List (List Char)) : Prop where
  title_line : linesWith "# " lines = ["# ".toList ++ title.toList]
  headings : linesWith "## " lines = sectionHeadings
  claims : linesWith "- " (linesBetween "## Source-backed Claims" "## Related Pages" lines)
    = (if claimTexts = [] then [noItems] else claimTexts).map fun text ↦ "- ".toList ++ text

theorem linesWith_cons_of_neg {mark : String} {line : List Char}
    (h : ¬mark.toList <+: line) (lines : List (List Char)) :
    linesWith mark (line :: lines) = linesWith mark lines :=
  List.filter_cons_of_neg (by rwa [List.isPrefixOf_iff_prefix])

theorem linesWith_cons_of_pos {mark : String} {line : List Char}
    (h : mark.toList <+: line) (lines : List (List Char)) :
    linesWith mark (line :: lines) = line :: linesWith mark lines :=
  List.filter_cons_of_pos (by rwa [List.isPrefixOf_iff_prefix])

theorem linesWith_listLines_hash (mark : String) (h : mark.toList.head? = some '#')
    (values : List (List Char)) : linesWith mark (listLines values) = [] := by
  refine List.filter_eq_nil_iff.mpr fun line hline ↦ ?_
  obtain ⟨value, -, rfl⟩ := List.mem_map.mp hline
  obtain ⟨rest, hrest⟩ := List.head?_eq_some_iff.mp h
  rw [hrest]
  exact Bool.false_ne_true

theorem linesWith_listLines (values : List (List Char)) :
    linesWith "- " (listLines values) = listLines values := by
  refine List.filter_eq_self.mpr fun line hline ↦ ?_
  obtain ⟨value, -, rfl⟩ := List.mem_map.mp hline
  exact List.isPrefixOf_iff_prefix.mpr (List.prefix_append _ _)

section Page

variable (title : String) (summary : List Char)
  (concepts claims related questions : List (List Char))

/-- Besides the title only the summary can look like a title. -/
theorem linesWith_title_pageLines :
    linesWith "# " (pageLines title summary concepts claims related questions)
      = ("# ".toList ++ title.toList) :: linesWith "# " [summary] := by
  have hblock : linesWith "# " ["# ".toList ++ title.toList, [], "## Summary".toList, [], summary,
      [], "## Key Concepts".toList, []]
        = ("# ".toList ++ title.toList) :: linesWith "# " [summary] := by
    have hsummary := linesWith_append "# " [summary] [[], "## Key Concepts".toList, []]
    have hconcepts : linesWith "# " [[], "## Key Concepts".toList, []] = [] := by decide
    rw [hconcepts, List.append_nil] at hsummary
    rw [linesWith_cons_of_pos (List.prefix_append _ _), linesWith_cons_of_neg (by decide),
      linesWith_cons_of_neg (by decide), linesWith_cons_of_neg (by decide)]
    exact congrArg _ hsummary
  have hclaims : linesWith "# " [[], "## Source-backed Claims".toList, []] = [] := by decide
  have hrelated : linesWith "# " [[], "## Related Pages".toList, []] = [] := by decide
  have hquestions : linesWith "# " [[], "## Open Questions".toList, []] = [] := by decide
  simp only [pageLines, linesWith_append, linesWith_listLines_hash "# " rfl, hblock, hclaims,
    hrelated, hquestions, List.append_nil]

/-- Besides the headings only the summary can look like one. -/
theorem linesWith_heading_pageLines :
    linesWith "## " (pageLines title summary concepts claims related questions)
      = "## Summary".toList :: (linesWith "## " [summary] ++ sectionHeadings.tail) := by
  have htitle : ¬"## ".toList <+: "# ".toList ++ title.toList := fun h ↦ by
    obtain ⟨rest, hrest⟩ := h
    cases hrest
  have hblock : linesWith "## " ["# ".toList ++ title.toList, [], "## Summary".toList, [], summary,
      [], "## Key Concepts".toList, []]
        = "## Summary".toList :: (linesWith "## " [summary] ++ ["## Key Concepts".toList]) := by
    have hsummary := linesWith_append "## " [summary] [[], "## Key Concepts".toList, []]
    have hconcepts : linesWith "## " [[], "## Key Concepts".toList, []]
        = ["## Key Concepts".toList] := by decide
    rw [hconcepts] at hsummary
    rw [linesWith_cons_of_neg htitle, linesWith_cons_of_neg (by decide),
      linesWith_cons_of_pos (by decide), linesWith_cons_of_neg (by decide)]
    exact congrArg _ hsummary
  have hclaims : linesWith "## " [[], "## Source-backed Claims".toList, []]
      = ["## Source-backed Claims".toList] := by decide
  have hrelated : linesWith "## " [[], "## Related Pages".toList, []]
      = ["## Related Pages".toList] := by decide
  have hquestions : linesWith "## " [[], "## Open Questions".toList, []]
      = ["## Open Questions".toList] := by decide
  simp only [pageLines, linesWith_append, linesWith_listLines_hash "## " rfl, hblock, hclaims,
    hrelated, hquestions, List.append_nil]
  simp only [List.append_assoc, List.cons_append, List.nil_append, sectionHeadings, List.tail_cons]

/-- The lines between the two headings are those of the list of claims. -/
theorem linesBetween_pageLines (hsummary : ¬"## ".toList <+: summary) :
    linesBetween "## Source-backed Claims" "## Related Pages"
        (pageLines title summary concepts claims related questions)
      = "## Source-backed Claims".toList :: [] :: (listLines claims ++ [[]]) := by
  have hitem : ∀ {heading : List Char}, heading.head? = some '#' → ∀ values,
      ∀ line ∈ listLines values, line ≠ heading := by
    rintro heading hhead values line hline rfl
    obtain ⟨value, -, rfl⟩ := List.mem_map.mp hline
    cases hhead
  -- In front of the section no line is its heading: list items do not begin with a number sign, and
  -- the summary is no heading.
  have hbefore : ∀ line ∈ ["# ".toList ++ title.toList, [], "## Summary".toList, [], summary,
      [], "## Key Concepts".toList, []] ++ listLines concepts ++ [[]],
      line ≠ "## Source-backed Claims".toList := by
    intro line hline heq
    rcases List.mem_append.mp hline with hline | hline
    · rcases List.mem_append.mp hline with hline | hline
      · simp only [List.mem_cons, List.not_mem_nil, or_false] at hline
        rcases hline with rfl | rfl | rfl | rfl | rfl | rfl | rfl | rfl
        · cases heq
        · cases heq
        · exact absurd heq (by decide)
        · cases heq
        · exact hsummary (heq ▸ by decide)
        · cases heq
        · exact absurd heq (by decide)
        · cases heq
      · exact hitem rfl concepts line hline heq
    · cases (List.mem_singleton.mp hline).symm.trans heq
  have hbetween : ∀ line ∈ "## Source-backed Claims".toList :: [] :: (listLines claims ++ [[]]),
      line ≠ "## Related Pages".toList := by
    intro line hline heq
    rcases List.mem_cons.mp hline with rfl | hline
    · exact absurd heq (by decide)
    rcases List.mem_cons.mp hline with rfl | hline
    · cases heq
    rcases List.mem_append.mp hline with hline | hline
    · exact hitem rfl claims line hline heq
    · cases (List.mem_singleton.mp hline).symm.trans heq
  have hpage : pageLines title summary concepts claims related questions
      = (["# ".toList ++ title.toList, [], "## Summary".toList, [], summary, [],
          "## Key Concepts".toList, []] ++ listLines concepts ++ [[]]) ++
        (("## Source-backed Claims".toList :: [] :: (listLines claims ++ [[]])) ++
          ("## Related Pages".toList :: [] :: (listLines related ++
            ([[], "## Open Questions".toList, []] ++ listLines questions)))) := by
    simp only [pageLines, List.append_assoc, List.cons_append, List.nil_append]
  rw [linesBetween, hpage,
    List.dropWhile_append_of_pos fun line h ↦ decide_eq_true (hbefore line h)]
  rw [List.cons_append, List.dropWhile_cons_of_neg (by decide), ← List.cons_append,
    List.takeWhile_append_of_pos fun line h ↦ decide_eq_true (hbetween line h),
    List.takeWhile_cons_of_neg (by decide), List.append_nil]

end Page

/-- A list of cleaned texts shows them, or the placeholder. -/
theorem listedTexts_dedupeNonEmpty (values : List (List Char)) (limit : Option ℕ) :
    listedTexts (dedupeNonEmpty values limit)
      = if dedupeNonEmpty values limit = [] then [noItems] else dedupeNonEmpty values limit := by
  rw [listedTexts, dedupeNonEmpty_dedupeNonEmpty]
  cases dedupeNonEmpty values limit with
  | nil => rfl
  | cons value values => exact (if_neg (List.cons_ne_nil _ _)).symm

theorem linesWith_singleton_eq_nil {mark : String} {line : List Char} :
    linesWith mark [line] = [] ↔ ¬mark.toList <+: line := by
  rw [linesWith, List.filter_eq_nil_iff]
  simp only [List.mem_singleton, forall_eq, List.isPrefixOf_iff_prefix]

/-- **The page of a text that heads no section.** It parses back, and it does so for no other
text. -/
theorem render_parsesBack_iff {unicode : UnicodeData}
    (hdecimal : ∀ c, (unicode.decimal c).isSome = true → pyIsSpace c = false) {title : String}
    (htitle : IsLine title.toList) (currentSlug : String) (evidence : CompilerEvidence) :
    ParsesBack title
        (splitLines (renderPageMarkdown unicode title currentSlug evidence
          (extractClaimTexts unicode evidence)))
        (extractClaimTexts unicode evidence) ↔ ¬HeadsSection unicode evidence.answer.toList := by
  have hone := prefix_summary_iff hdecimal (.inl rfl) evidence.answer.toList
  have htwo := prefix_summary_iff hdecimal (.inr rfl) evidence.answer.toList
  rw [splitLines_renderPageMarkdown unicode htitle]
  constructor
  · rintro h ⟨hlabel, hlength, hhead | hhead⟩
    · have htitles := h.title_line
      rw [linesWith_title_pageLines] at htitles
      exact linesWith_singleton_eq_nil.mp (List.cons.inj htitles).2
        (hone.mpr ⟨hlabel, hlength, hhead⟩)
    · have hheadings := h.headings
      rw [linesWith_heading_pageLines] at hheadings
      have hnil := List.append_left_eq_self.mp (List.cons.inj hheadings).2
      exact linesWith_singleton_eq_nil.mp hnil (htwo.mpr ⟨hlabel, hlength, hhead⟩)
  -- the summary is the only line that could be taken for a heading
  · intro h
    have hone' : ¬"# ".toList <+: summaryFromAnswer unicode evidence.answer.toList := by
      intro hpre
      obtain ⟨hlabel, hlength, hhead⟩ := hone.mp hpre
      exact h ⟨hlabel, hlength, .inl hhead⟩
    have htwo' : ¬"## ".toList <+: summaryFromAnswer unicode evidence.answer.toList := by
      intro hpre
      obtain ⟨hlabel, hlength, hhead⟩ := htwo.mp hpre
      exact h ⟨hlabel, hlength, .inr hhead⟩
    refine ⟨?_, ?_, ?_⟩
    · rw [linesWith_title_pageLines, linesWith_singleton_eq_nil.mpr hone']
    · rw [linesWith_heading_pageLines, linesWith_singleton_eq_nil.mpr htwo']
      rfl
    · have hitems : listLines (extractClaimTexts unicode evidence)
          = (if extractClaimTexts unicode evidence = [] then [noItems]
            else extractClaimTexts unicode evidence).map fun text ↦ "- ".toList ++ text :=
        congrArg _ (listedTexts_dedupeNonEmpty _ (some maxClaimsPerPage))
      rw [linesBetween_pageLines _ _ _ _ _ _ htwo', linesWith_cons_of_neg (by decide),
        linesWith_cons_of_neg (by decide), linesWith_append, linesWith_listLines, ← hitems]
      exact List.append_nil _

/-! ## The claims of a run -/

/-- Claims with these texts were added. -/
def ClaimTextsAdded (W W' : WikiStore) (texts : List (List Char)) : Prop :=
  ∃ claims, W'.claims.rows = W.claims.rows ++ claims ∧ claims.map WikiClaim.claimText = texts

theorem ClaimTextsAdded.of_eq {W W' : WikiStore} (h : W'.claims = W.claims) :
    ClaimTextsAdded W W' [] := ⟨[], by rw [h, List.append_nil], rfl⟩

theorem ClaimTextsAdded.add {W W₁ W' : WikiStore} {texts : List (List Char)}
    {tenantId slug : String} {claim : WikiClaim} (h : ClaimTextsAdded W W₁ texts)
    (h' : ClaimAdded W₁ W' tenantId slug claim) :
    ClaimTextsAdded W W' (texts ++ [claim.claimText]) := by
  obtain ⟨claims, hrows, htexts⟩ := h
  refine ⟨claims ++ [claim], ?_, by rw [List.map_append, htexts]; rfl⟩
  rw [Table.rows_insert h'.claims, hrows, List.append_assoc]

namespace WikiCompiler

open Program WikiRepository WikiService

variable (W : WikiStore)

theorem outTx_writePage_claims (tenantId slug : String) (evidence : CompilerEvidence)
    (title : Option String) :
    OutTx (writePage unicode tenantId slug evidence title) W
      (fun written W' ↦ written.claims = extractClaimTexts unicode evidence ∧
        W'.claims = W.claims) fun _ W' ↦ W'.claims = W.claims := by
  refine (OutTx.ofExcept (Q := fun _ W' ↦ W = W') (E := fun _ W' ↦ W'.claims = W.claims)
    (fun _ _ ↦ rfl) fun _ _ ↦ rfl).bind ?_
  rintro slug _ rfl
  refine ((outTx_resolvePageTitle unicode W tenantId slug title).mono (fun _ _ h ↦ h)
    fun _ _ h ↦ by rw [h]).bind ?_
  rintro title _ rfl
  refine ((outTx_createOrUpdatePage unicode W _).mono (fun _ _ h ↦ h)
    fun _ _ h ↦ by rw [h]).bind fun detail W' h ↦ ?_
  obtain ⟨resolved, page, W₁, -, hprep, hwritten⟩ := h
  obtain ⟨revision, -, W₂, hadded, hlinks⟩ := hwritten.detail
  obtain ⟨-, -, revisions, -, rfl⟩ := hadded
  have hprepared : W₁.claims = W.claims := by cases hprep <;> rfl
  have hclaims : W'.claims = W.claims := by
    rw [hlinks.store]
    exact hprepared
  split
  · exact OutTx.raise hclaims
  · exact OutTx.pure ⟨rfl, hclaims⟩

/-- A run that returns adds a claim for each text. One that raises has added the first of them. -/
theorem outTx_updateExistingPage_claims (tenantId slug : String) (evidence : CompilerEvidence)
    (title : Option String) :
    OutTx (updateExistingPageWithEvidence unicode tenantId slug evidence title) W
      (fun _ W' ↦ ClaimTextsAdded W W' (extractClaimTexts unicode evidence))
      fun _ W' ↦ ∃ texts, texts <+: extractClaimTexts unicode evidence ∧
        ClaimTextsAdded W W' texts := by
  refine ((outTx_writePage_claims unicode W tenantId slug evidence title).mono (fun _ _ h ↦ h)
    fun _ _ h ↦ ⟨[], List.nil_prefix, .of_eq h⟩).bind fun written W₁ h ↦ ?_
  obtain ⟨hclaims, hsame⟩ := h
  -- the claims added so far are the first ones
  have hloop : OutTx (written.claims.mapM' (addClaim unicode tenantId written)) W₁
      (fun _ W' ↦ ClaimTextsAdded W W' (extractClaimTexts unicode evidence))
      fun _ W' ↦ ∃ texts, texts <+: extractClaimTexts unicode evidence ∧
        ClaimTextsAdded W W' texts := by
    refine (OutTx.mapM' (I := fun rest _ W' ↦ ∃ texts,
      extractClaimTexts unicode evidence = texts ++ rest ∧ ClaimTextsAdded W W' texts)
      (fun text rest _ W₂ h ↦ ?_) ⟨[], hclaims.symm, .of_eq hsame⟩).mono ?_ fun _ _ h ↦ h
    · obtain ⟨texts, heq, hadded⟩ := h
      refine (outTx_addClaimWithSources unicode W₂ tenantId written.slug text written.sources _
        _).mono ?_ ?_
      · rintro bundle W' ⟨resolved, -, hclaim, htext⟩
        refine ⟨texts ++ [text], by rw [heq, List.append_assoc]; rfl, ?_⟩
        exact htext ▸ hadded.add hclaim
      · rintro e _ rfl
        exact ⟨texts, heq ▸ List.prefix_append _ _, hadded⟩
    · rintro _ W' ⟨texts, heq, hadded⟩
      rw [List.append_nil] at heq
      exact heq ▸ hadded
  exact hloop.bind fun _ _ h ↦ OutTx.pure h

end WikiCompiler

/-- **What is compiled and what is persisted.** After a run that returns, the page parses back to
the claims the run has added, exactly if the answer heads no section of its own. -/
theorem update_parsesBack_iff {unicode : UnicodeData}
    (hdecimal : ∀ c, (unicode.decimal c).isSome = true → pyIsSpace c = false)
    {W : WikiStore} {nextId : ℕ} {outcomes : List (Option PyException)} {tenantId slug : String}
    {evidence : CompilerEvidence} {fallbackTitle : Option String} {page : WikiCompiledPage}
    {s : Session WikiStore PyException}
    (hrun : WikiCompiler.updateExistingPageWithEvidence unicode tenantId slug evidence
      fallbackTitle (Session.start W nextId outcomes) = (.ok page, s))
    {title : String} (htitle : IsLine title.toList) (currentSlug : String) :
    ∃ claims, s.committed.claims.rows = W.claims.rows ++ claims ∧
      (ParsesBack title
          (splitLines (renderPageMarkdown unicode title currentSlug evidence
            (extractClaimTexts unicode evidence)))
          (claims.map WikiClaim.claimText) ↔
        ¬HeadsSection unicode evidence.answer.toList) := by
  have hupdate := WikiCompiler.outTx_updateExistingPage_claims unicode W tenantId slug evidence
    fallbackTitle _ (Session.idle_start W nextId outcomes)
  rw [Triple, hrun] at hupdate
  obtain ⟨W', hidle, claims, hrows, htexts⟩ := hupdate
  refine ⟨claims, hidle.committed ▸ hrows, ?_⟩
  rw [htexts]
  exact render_parsesBack_iff hdecimal htitle currentSlug evidence

theorem asciiData_decimal (c : Char) (h : (asciiData.decimal c).isSome = true) :
    pyIsSpace c = false := by
  have hdigit : c.isDigit = true := by
    cases hd : c.isDigit with
    | true => rfl
    | false =>
      have hnone : asciiData.decimal c = none := if_neg (ne_true_of_eq_false hd)
      rw [hnone] at h
      cases h
  simp only [Char.isDigit, Bool.and_eq_true, decide_eq_true_eq] at hdigit
  obtain ⟨hlow, hhigh⟩ := hdigit
  have hlow' : 48 ≤ c.toNat := UInt32.le_iff_toNat_le.mp hlow
  have hhigh' : c.toNat ≤ 57 := UInt32.le_iff_toNat_le.mp hhigh
  simp only [pyIsSpace, Bool.or_eq_false_iff, Bool.and_eq_false_iff, decide_eq_false_iff_not,
    beq_eq_false_iff_ne]
  omega

/-- An answer of two lines, each a claim. -/
def plainEvidence : CompilerEvidence where
  query := "alpha"
  answer := "# Alpha\nAlpha is supported.\n- Beta is supported too."
  metadata := []
  sourceId := none
  sources := []

/-- A page of that answer, and its claims. -/
theorem plain_update_parses_back : ∃ page s claims,
    WikiCompiler.updateExistingPageWithEvidence asciiData "acme" "alpha" plainEvidence
      (some "Alpha") (Session.start .empty 0 []) = (.ok page, s) ∧
    s.committed.claims.rows = claims ∧
    ParsesBack "Alpha"
      (splitLines (renderPageMarkdown asciiData "Alpha" "alpha" plainEvidence
        (extractClaimTexts asciiData plainEvidence)))
      (claims.map WikiClaim.claimText) := by
  obtain ⟨page, hrun⟩ := run_ok (x := WikiCompiler.updateExistingPageWithEvidence asciiData "acme"
    "alpha" plainEvidence (some "Alpha")) (s := Session.start .empty 0 []) (by decide +kernel)
  have htitle : IsLine "Alpha".toList := by decide
  obtain ⟨claims, hrows, hparses⟩ := update_parsesBack_iff asciiData_decimal hrun htitle "alpha"
  exact ⟨page, _, claims, hrun, hrows, hparses.mpr (by decide +kernel)⟩

/-! ## An answer that heads a section -/

/-- The cleaning takes one marker of the answer away, and leaves the other. -/
def headingEvidence : CompilerEvidence where
  query := "alpha"
  answer := "# # Alpha"
  metadata := []
  sourceId := none
  sources := []

/-- The page has two titles. -/
theorem heading_answer_two_titles : ∃ page s,
    WikiCompiler.updateExistingPageWithEvidence asciiData "acme" "alpha" headingEvidence
      (some "Alpha") (Session.start .empty 0 []) = (.ok page, s) ∧
    ¬ParsesBack "Alpha"
      (splitLines (renderPageMarkdown asciiData "Alpha" "alpha" headingEvidence
        (extractClaimTexts asciiData headingEvidence)))
      (s.committed.claims.rows.map WikiClaim.claimText) := by
  obtain ⟨page, hrun⟩ := run_ok (x := WikiCompiler.updateExistingPageWithEvidence asciiData "acme"
    "alpha" headingEvidence (some "Alpha")) (s := Session.start .empty 0 []) (by decide +kernel)
  refine ⟨page, _, hrun, fun h ↦ ?_⟩
  have htitles : (linesWith "# " (splitLines (renderPageMarkdown asciiData "Alpha" "alpha"
      headingEvidence (extractClaimTexts asciiData headingEvidence)))).length = 2 := by
    decide +kernel
  rw [h.title_line] at htitles
  cases htitles

end KnowledgeAlakazam
