import KnowledgeAlakazam.Core.PyText
import Mathlib.Data.List.TakeWhile

/-!
# Words and lines

What `str.split`, `" ".join` and `str.splitlines` make of a text: splitting undoes joining, a text
whose white space was collapsed has no line break left, and lines that were joined are found again.
-/

namespace KnowledgeAlakazam

/-! ## Words -/

/-- A word: not empty, and without white space. -/
def IsWord (word : List Char) : Prop := word ≠ [] ∧ ∀ c ∈ word, pyIsSpace c = false

private theorem splitWords_cons (c : Char) (cs : List Char) :
    splitWords (c :: cs) = if pyIsSpace c then splitWords cs
      else match cs, splitWords cs with
        | d :: _, word :: words =>
          if pyIsSpace d then [c] :: word :: words else (c :: word) :: words
        | _, words => [c] :: words := rfl

theorem splitWords_cons_space {c : Char} (hc : pyIsSpace c = true) (cs : List Char) :
    splitWords (c :: cs) = splitWords cs := by
  rw [splitWords_cons, if_pos hc]

theorem splitWords_singleton {c : Char} (hc : pyIsSpace c = false) : splitWords [c] = [[c]] := by
  rw [splitWords_cons, if_neg (ne_true_of_eq_false hc)]
  rfl

theorem splitWords_cons_cons_space {c d : Char} (hc : pyIsSpace c = false)
    (hd : pyIsSpace d = true) (ds : List Char) :
    splitWords (c :: d :: ds) = [c] :: splitWords ds := by
  rw [splitWords_cons, if_neg (ne_true_of_eq_false hc), splitWords_cons_space hd]
  cases splitWords ds with
  | nil => rfl
  | cons word words => exact if_pos hd

theorem splitWords_cons_cons {c d : Char} (hc : pyIsSpace c = false) (hd : pyIsSpace d = false)
    (ds : List Char) : ∃ word words, splitWords (d :: ds) = word :: words ∧
      splitWords (c :: d :: ds) = (c :: word) :: words := by
  have hsome : ∃ word words, splitWords (d :: ds) = word :: words := by
    rw [splitWords_cons, if_neg (ne_true_of_eq_false hd)]
    split
    · split <;> exact ⟨_, _, rfl⟩
    · exact ⟨_, _, rfl⟩
  obtain ⟨word, words, hwords⟩ := hsome
  refine ⟨word, words, hwords, ?_⟩
  rw [splitWords_cons, if_neg (ne_true_of_eq_false hc), hwords]
  exact if_neg (ne_true_of_eq_false hd)

theorem splitWords_append_space (text rest : List Char) {c : Char} (hc : pyIsSpace c = true) :
    splitWords (text ++ c :: rest) = splitWords text ++ splitWords rest := by
  induction text with
  | nil => exact splitWords_cons_space hc rest
  | cons d text ih =>
    cases hd : pyIsSpace d with
    | true =>
      rw [List.cons_append, splitWords_cons_space hd, splitWords_cons_space hd]
      exact ih
    | false =>
      cases text with
      | nil =>
        rw [splitWords_singleton hd]
        exact splitWords_cons_cons_space hd hc rest
      | cons e text =>
        cases he : pyIsSpace e with
        | true =>
          rw [List.cons_append, List.cons_append, splitWords_cons_cons_space hd he,
            splitWords_cons_cons_space hd he, List.cons_append]
          rw [List.cons_append, splitWords_cons_space he, splitWords_cons_space he] at ih
          rw [ih]
        | false =>
          obtain ⟨word, words, htext, hlong⟩ := splitWords_cons_cons hd he text
          obtain ⟨word', words', htext', hlong'⟩ :=
            splitWords_cons_cons hd he (text ++ c :: rest)
          rw [List.cons_append, htext', htext, List.cons_append] at ih
          obtain ⟨rfl, rfl⟩ := List.cons.inj ih
          rw [List.cons_append, List.cons_append, hlong', hlong, List.cons_append]

theorem splitWords_spaces {spaces : List Char} (h : ∀ c ∈ spaces, pyIsSpace c = true)
    (text : List Char) : splitWords (spaces ++ text) = splitWords text := by
  induction spaces with
  | nil => rfl
  | cons c spaces ih =>
    rw [List.cons_append, splitWords_cons_space (h c List.mem_cons_self)]
    exact ih fun d hd ↦ h d (List.mem_cons_of_mem _ hd)

theorem splitWords_append_spaces (text : List Char) {spaces : List Char}
    (h : ∀ c ∈ spaces, pyIsSpace c = true) : splitWords (text ++ spaces) = splitWords text := by
  cases spaces with
  | nil => rw [List.append_nil]
  | cons c spaces =>
    have hrest := splitWords_spaces (fun d hd ↦ h d (List.mem_cons_of_mem c hd)) []
    rw [List.append_nil] at hrest
    rw [splitWords_append_space _ _ (h c List.mem_cons_self), hrest]
    exact List.append_nil _

theorem isWord_of_mem_splitWords {text word : List Char} (h : word ∈ splitWords text) :
    IsWord word := by
  induction text generalizing word with
  | nil => exact absurd h List.not_mem_nil
  | cons c text ih =>
    cases hc : pyIsSpace c with
    | true => exact ih (splitWords_cons_space hc text ▸ h)
    | false =>
      have hsingle : IsWord [c] :=
        ⟨List.cons_ne_nil _ _, fun d hd ↦ List.mem_singleton.mp hd ▸ hc⟩
      cases text with
      | nil =>
        rw [splitWords_singleton hc] at h
        exact List.mem_singleton.mp h ▸ hsingle
      | cons d text =>
        cases hd : pyIsSpace d with
        | true =>
          rw [splitWords_cons_cons_space hc hd] at h
          rw [splitWords_cons_space hd] at ih
          rcases List.mem_cons.mp h with rfl | h
          · exact hsingle
          · exact ih h
        | false =>
          obtain ⟨first, words, htext, hlong⟩ := splitWords_cons_cons hc hd text
          rw [hlong] at h
          rw [htext] at ih
          rcases List.mem_cons.mp h with rfl | h
          · refine ⟨List.cons_ne_nil _ _, fun e he ↦ ?_⟩
            rcases List.mem_cons.mp he with rfl | he
            · exact hc
            · exact (ih List.mem_cons_self).2 e he
          · exact ih (List.mem_cons_of_mem _ h)

theorem IsWord.splitWords {word : List Char} (h : IsWord word) :
    splitWords word = [word] := by
  induction word with
  | nil => exact absurd rfl h.1
  | cons c word ih =>
    have hc := h.2 c List.mem_cons_self
    cases word with
    | nil => exact splitWords_singleton hc
    | cons d word =>
      have hd := h.2 d (List.mem_cons_of_mem _ List.mem_cons_self)
      obtain ⟨first, words, htext, hlong⟩ := splitWords_cons_cons hc hd word
      rw [ih ⟨List.cons_ne_nil _ _, fun e he ↦ h.2 e (List.mem_cons_of_mem _ he)⟩] at htext
      obtain ⟨rfl, rfl⟩ := List.cons.inj htext
      exact hlong

/-- A text is white space, or its first word comes after white space and before white space. -/
theorem exists_firstWord (text : List Char) :
    (text.dropWhile pyIsSpace = [] ∧ splitWords text = []) ∨
      ∃ word rest, text.dropWhile pyIsSpace = word ++ rest ∧ IsWord word ∧
        (∀ c ∈ rest.head?, pyIsSpace c = true) ∧ splitWords text = word :: splitWords rest := by
  have hspaces : splitWords text = splitWords (text.dropWhile pyIsSpace) := by
    conv_lhs => rw [← List.takeWhile_append_dropWhile (p := pyIsSpace) (l := text)]
    exact splitWords_spaces (fun _ h ↦ List.mem_takeWhile_imp h) _
  have hhead := List.head?_dropWhile_not pyIsSpace text
  rw [hspaces]
  generalize text.dropWhile pyIsSpace = inner at hhead
  cases inner with
  | nil => exact .inl ⟨rfl, rfl⟩
  | cons c inner =>
    have hc : pyIsSpace c = false := by simpa using hhead
    have hword : IsWord ((c :: inner).takeWhile (!pyIsSpace ·)) := by
      refine ⟨?_, fun d hd ↦ by simpa using List.mem_takeWhile_imp hd⟩
      rw [List.takeWhile_cons_of_pos (by rw [hc]; rfl)]
      exact List.cons_ne_nil _ _
    have hrest := List.head?_dropWhile_not (!pyIsSpace ·) (c :: inner)
    have hsplit := (List.takeWhile_append_dropWhile (p := (!pyIsSpace ·)) (l := c :: inner)).symm
    generalize (c :: inner).takeWhile (!pyIsSpace ·) = word at hword hsplit
    generalize (c :: inner).dropWhile (!pyIsSpace ·) = rest at hrest hsplit
    refine .inr ⟨word, rest, hsplit, hword, ?_, ?_⟩
    · intro d hd
      rw [Option.mem_def.mp hd] at hrest
      simpa using hrest
    · rw [hsplit]
      cases rest with
      | nil => rw [List.append_nil, hword.splitWords]; rfl
      | cons d rest =>
        have hd : pyIsSpace d = true := by simpa using hrest
        rw [splitWords_append_space _ _ hd, hword.splitWords, splitWords_cons_space hd]
        rfl

theorem splitWords_eq_nil {text : List Char} :
    splitWords text = [] ↔ ∀ c ∈ text, pyIsSpace c = true := by
  refine ⟨fun h ↦ ?_, fun h ↦ ?_⟩
  · rcases exists_firstWord text with ⟨hdrop, -⟩ | ⟨word, rest, -, -, -, heq⟩
    · exact List.dropWhile_eq_nil_iff.mp hdrop
    · cases heq.symm.trans h
  · rw [← List.append_nil text, splitWords_spaces h]
    rfl

theorem exists_lastWord {text : List Char} (hne : text ≠ [])
    (hend : ∀ c ∈ text.getLast?, pyIsSpace c = false) :
    ∃ words word, splitWords text = words ++ [word] ∧
      ∀ suffix, (∀ c ∈ suffix, pyIsSpace c = false) →
        splitWords (text ++ suffix) = words ++ [word ++ suffix] := by
  induction text with
  | nil => exact absurd rfl hne
  | cons c text ih =>
    cases text with
    | nil =>
      have hc := hend c rfl
      refine ⟨[], [c], splitWords_singleton hc, fun suffix hsuffix ↦ ?_⟩
      refine IsWord.splitWords ⟨List.cons_ne_nil _ _, fun d hd ↦ ?_⟩
      rcases List.mem_cons.mp hd with rfl | hd
      · exact hc
      · exact hsuffix d hd
    | cons d text =>
      obtain ⟨words, word, hwords, hlonger⟩ := ih (List.cons_ne_nil _ _) fun e he ↦
        hend e (by rwa [List.getLast?_cons_cons])
      cases hc : pyIsSpace c with
      | true =>
        refine ⟨words, word, by rw [splitWords_cons_space hc, hwords], fun suffix hsuffix ↦ ?_⟩
        rw [List.cons_append, splitWords_cons_space hc, hlonger suffix hsuffix]
      | false =>
        cases hd : pyIsSpace d with
        | true =>
          rw [splitWords_cons_space hd] at hwords
          refine ⟨[c] :: words, word, by rw [splitWords_cons_cons_space hc hd, hwords]; rfl,
            fun suffix hsuffix ↦ ?_⟩
          have hsplit := hlonger suffix hsuffix
          rw [List.cons_append, splitWords_cons_space hd] at hsplit
          rw [List.cons_append, List.cons_append, splitWords_cons_cons_space hc hd, hsplit]
          rfl
        | false =>
          -- the first word goes on, and it may be the last one
          obtain ⟨first, rest, hfirst, hlong⟩ := splitWords_cons_cons hc hd text
          have hsuffixes : ∀ suffix, (∀ c ∈ suffix, pyIsSpace c = false) →
              ∃ first' rest', words ++ [word ++ suffix] = first' :: rest' ∧
                splitWords (c :: d :: text ++ suffix) = (c :: first') :: rest' := by
            intro suffix hsuffix
            obtain ⟨first', rest', hfirst', hlong'⟩ :=
              splitWords_cons_cons hc hd (text ++ suffix)
            refine ⟨first', rest', ?_, hlong'⟩
            rw [← hlonger suffix hsuffix]
            exact hfirst'
          rw [hwords] at hfirst
          cases words with
          | nil =>
            obtain ⟨rfl, rfl⟩ := List.cons.inj hfirst
            refine ⟨[], c :: word, hlong, fun suffix hsuffix ↦ ?_⟩
            obtain ⟨first', rest', heq, hsplit⟩ := hsuffixes suffix hsuffix
            obtain ⟨rfl, rfl⟩ := List.cons.inj heq
            exact hsplit
          | cons head words =>
            obtain ⟨rfl, rfl⟩ := List.cons.inj hfirst
            refine ⟨(c :: head) :: words, word, hlong, fun suffix hsuffix ↦ ?_⟩
            obtain ⟨first', rest', heq, hsplit⟩ := hsuffixes suffix hsuffix
            obtain ⟨rfl, rfl⟩ := List.cons.inj heq
            exact hsplit

theorem splitWords_map {f : Char → Char} (hspace : ∀ c, pyIsSpace c = true → pyIsSpace (f c) = true)
    (hword : ∀ c, pyIsSpace c = false → f c = c) (text : List Char) :
    splitWords (text.map f) = splitWords text := by
  induction text with
  | nil => rfl
  | cons c text ih =>
    rw [List.map_cons]
    cases hc : pyIsSpace c with
    | true => rw [splitWords_cons_space (hspace c hc), splitWords_cons_space hc, ih]
    | false =>
      rw [hword c hc]
      cases text with
      | nil => rfl
      | cons d text =>
        rw [List.map_cons] at ih ⊢
        cases hd : pyIsSpace d with
        | true =>
          rw [splitWords_cons_space (hspace d hd), splitWords_cons_space hd] at ih
          rw [splitWords_cons_cons_space hc (hspace d hd), splitWords_cons_cons_space hc hd, ih]
        | false =>
          rw [hword d hd] at ih ⊢
          obtain ⟨word, words, hwords, hlong⟩ := splitWords_cons_cons hc hd text
          obtain ⟨word', words', hwords', hlong'⟩ := splitWords_cons_cons hc hd (text.map f)
          rw [hwords, hwords'] at ih
          obtain ⟨rfl, rfl⟩ := List.cons.inj ih
          rw [hlong, hlong']

/-- Induction from word to word: a text is white space, or it ends with its first word, or white
space and a shorter text come after its first word. -/
theorem splitWords_induction {motive : List Char → List (List Char) → Prop}
    (spaces : ∀ text, (∀ c ∈ text, pyIsSpace c = true) → motive text [])
    (last : ∀ before word, (∀ c ∈ before, pyIsSpace c = true) → IsWord word →
      motive (before ++ word) [word])
    (more : ∀ before word c rest, (∀ c ∈ before, pyIsSpace c = true) → IsWord word →
      pyIsSpace c = true → motive rest (splitWords rest) →
      motive (before ++ (word ++ c :: rest)) (word :: splitWords rest))
    (text : List Char) : motive text (splitWords text) := by
  induction hn : text.length using Nat.strong_induction_on generalizing text with
  | _ n ih =>
    subst hn
    have hbefore : ∀ c ∈ text.takeWhile pyIsSpace, pyIsSpace c = true := fun _ h ↦
      List.mem_takeWhile_imp h
    have hsplit := (List.takeWhile_append_dropWhile (p := pyIsSpace) (l := text)).symm
    rcases exists_firstWord text with ⟨hnil, hwords⟩ | ⟨word, rest, hinner, hword, hrest, hwords⟩
    · rw [hwords]
      exact spaces text (List.dropWhile_eq_nil_iff.mp hnil)
    rw [hinner] at hsplit
    rw [hwords]
    cases rest with
    | nil =>
      rw [List.append_nil] at hsplit
      rw [hsplit]
      exact last _ word hbefore hword
    | cons c rest =>
      have hc := hrest c rfl
      have hshorter : rest.length < text.length := by
        have hlength := congrArg List.length hsplit
        simp only [List.length_append, List.length_cons] at hlength
        omega
      rw [splitWords_cons_space hc]
      have hmore := more _ word c rest hbefore hword hc (ih rest.length hshorter rest rfl)
      rwa [← hsplit] at hmore

theorem subset_of_mem_splitWords {text word : List Char} (h : word ∈ splitWords text) :
    word ⊆ text := by
  revert h
  refine splitWords_induction (motive := fun text words ↦ word ∈ words → word ⊆ text) ?_ ?_ ?_ text
  · exact fun _ _ h ↦ absurd h List.not_mem_nil
  · intro before first _ _ h
    rw [List.mem_singleton.mp h]
    exact List.subset_append_right _ _
  · intro before first c rest _ _ _ ih h
    rcases List.mem_cons.mp h with rfl | h
    · exact fun d hd ↦ List.mem_append_right _ (List.mem_append_left _ hd)
    · exact fun d hd ↦ List.mem_append_right _
        (List.mem_append_right _ (List.mem_cons_of_mem _ (ih h hd)))

/-! ## The words of a part -/

/-- The words up to the first character a test does not hold of. -/
def cutWords (p : Char → Bool) : List (List Char) → List (List Char)
  | [] => []
  | word :: words =>
    if word.all p then word :: cutWords p words
    else if word.takeWhile p = [] then [] else [word.takeWhile p]

/-- A word that a test does not hold of is cut. -/
private theorem splitWords_takeWhile_word {p : Char → Bool} {word : List Char} (hword : IsWord word)
    (hall : ¬word.all p = true) (rest : List Char) :
    splitWords ((word ++ rest).takeWhile p)
      = if word.takeWhile p = [] then [] else [word.takeWhile p] := by
  have hstop : (word ++ rest).takeWhile p = word.takeWhile p := by
    rw [List.takeWhile_append, if_neg fun hlength ↦ hall ?_]
    have hself := (List.takeWhile_prefix p).eq_of_length hlength
    exact List.all_eq_true.mpr (List.takeWhile_eq_self_iff.mp hself)
  rw [hstop]
  split
  · rename_i hempty
    rw [hempty]
    rfl
  · rename_i hsome
    exact IsWord.splitWords ⟨hsome, fun c hc ↦ hword.2 c ((List.takeWhile_prefix p).subset hc)⟩

/-- A test that holds of white space cuts a text as it cuts its words. -/
theorem splitWords_takeWhile {p : Char → Bool} (hp : ∀ c, pyIsSpace c = true → p c = true)
    (text : List Char) : splitWords (text.takeWhile p) = cutWords p (splitWords text) := by
  refine splitWords_induction
    (motive := fun text words ↦ splitWords (text.takeWhile p) = cutWords p words) ?_ ?_ ?_ text
  · intro text h
    rw [List.takeWhile_eq_self_iff.mpr fun c hc ↦ hp c (h c hc), splitWords_eq_nil.mpr h]
    rfl
  · intro before word h hword
    rw [List.takeWhile_append_of_pos fun c hc ↦ hp c (h c hc), splitWords_spaces h, cutWords]
    split
    · rename_i hall
      rw [List.takeWhile_eq_self_iff.mpr (List.all_eq_true.mp hall), hword.splitWords]
      rfl
    · rename_i hall
      have hcut := splitWords_takeWhile_word hword hall []
      rwa [List.append_nil] at hcut
  · intro before word c rest h hword hc ih
    rw [List.takeWhile_append_of_pos fun c hc ↦ hp c (h c hc), splitWords_spaces h, cutWords]
    split
    · rename_i hall
      rw [List.takeWhile_append_of_pos (List.all_eq_true.mp hall),
        List.takeWhile_cons_of_pos (hp c hc), splitWords_append_space _ _ hc, hword.splitWords, ih]
      rfl
    · rename_i hall
      exact splitWords_takeWhile_word hword hall _

/-! ## Joined words -/

theorem joinWords_cons_cons (word next : List Char) (words : List (List Char)) :
    joinWords (word :: next :: words) = word ++ ' ' :: joinWords (next :: words) := by
  rw [joinWords, joinWords, List.intercalate_cons_cons, List.append_assoc]
  rfl

theorem joinWords_singleton (word : List Char) : joinWords [word] = word :=
  List.intercalate_singleton

theorem splitWords_joinWords {words : List (List Char)} (h : ∀ word ∈ words, IsWord word) :
    splitWords (joinWords words) = words := by
  induction words with
  | nil => rfl
  | cons word words ih =>
    have hword := h word List.mem_cons_self
    cases words with
    | nil => rw [joinWords_singleton, hword.splitWords]
    | cons next words =>
      rw [joinWords_cons_cons, splitWords_append_space _ _ (by decide), hword.splitWords,
        ih fun w hw ↦ h w (List.mem_cons_of_mem _ hw)]
      rfl

theorem splitWords_collapseSpace (text : List Char) :
    splitWords (collapseSpace text) = splitWords text :=
  splitWords_joinWords fun _ h ↦ isWord_of_mem_splitWords h

@[simp] theorem collapseSpace_collapseSpace (text : List Char) :
    collapseSpace (collapseSpace text) = collapseSpace text := by
  rw [collapseSpace, splitWords_collapseSpace, ← collapseSpace]

theorem mem_of_mem_joinWords {words : List (List Char)} {c : Char} (hc : c ∈ joinWords words) :
    c = ' ' ∨ ∃ word ∈ words, c ∈ word := by
  induction words with
  | nil => exact absurd hc List.not_mem_nil
  | cons word words ih =>
    cases words with
    | nil =>
      rw [joinWords_singleton] at hc
      exact .inr ⟨word, List.mem_cons_self, hc⟩
    | cons next words =>
      rw [joinWords_cons_cons] at hc
      rcases List.mem_append.mp hc with hc | hc
      · exact .inr ⟨word, List.mem_cons_self, hc⟩
      rcases List.mem_cons.mp hc with rfl | hc
      · exact .inl rfl
      rcases ih hc with hspace | ⟨other, hother, hmem⟩
      · exact .inl hspace
      · exact .inr ⟨other, List.mem_cons_of_mem _ hother, hmem⟩

theorem eq_space_of_mem_joinWords {words : List (List Char)} (h : ∀ word ∈ words, IsWord word)
    {c : Char} (hc : c ∈ joinWords words) : c = ' ' ∨ pyIsSpace c = false := by
  refine (mem_of_mem_joinWords hc).imp_right ?_
  rintro ⟨word, hword, hmem⟩
  exact (h word hword).2 c hmem

theorem mem_of_mem_collapseSpace {text : List Char} {c : Char} (hc : c ∈ collapseSpace text) :
    c = ' ' ∨ c ∈ text := by
  refine (mem_of_mem_joinWords hc).imp_right ?_
  rintro ⟨word, hword, hmem⟩
  exact subset_of_mem_splitWords hword hmem

theorem eq_space_of_mem_collapseSpace {text : List Char} {c : Char}
    (hc : c ∈ collapseSpace text) : c = ' ' ∨ pyIsSpace c = false :=
  eq_space_of_mem_joinWords (fun _ h ↦ isWord_of_mem_splitWords h) hc

theorem joinWords_eq_nil {words : List (List Char)} (h : ∀ word ∈ words, IsWord word) :
    joinWords words = [] ↔ words = [] := by
  refine ⟨fun hnil ↦ ?_, fun hnil ↦ by rw [hnil]; rfl⟩
  rw [← splitWords_joinWords h, hnil]
  rfl

theorem splitWords_takeWhile_collapseSpace {p : Char → Bool}
    (hp : ∀ c, pyIsSpace c = true → p c = true) (text : List Char) :
    splitWords ((collapseSpace text).takeWhile p) = splitWords (text.takeWhile p) := by
  rw [splitWords_takeWhile hp, splitWords_takeWhile hp, splitWords_collapseSpace]

theorem joinWords_append_last (words : List (List Char)) (word suffix : List Char) :
    joinWords (words ++ [word ++ suffix]) = joinWords (words ++ [word]) ++ suffix := by
  induction words with
  | nil =>
    rw [List.nil_append, List.nil_append, joinWords_singleton, joinWords_singleton]
  | cons first words ih =>
    cases words with
    | nil =>
      simp only [List.cons_append, List.nil_append, joinWords_cons_cons, joinWords_singleton,
        List.append_assoc]
    | cons next words =>
      simp only [List.cons_append, joinWords_cons_cons, List.append_assoc] at ih ⊢
      rw [ih]

theorem collapseSpace_append {text suffix : List Char} (hne : text ≠ [])
    (hend : ∀ c ∈ text.getLast?, pyIsSpace c = false)
    (hsuffix : ∀ c ∈ suffix, pyIsSpace c = false) :
    collapseSpace (text ++ suffix) = collapseSpace text ++ suffix := by
  obtain ⟨words, word, hwords, hlonger⟩ := exists_lastWord hne hend
  rw [collapseSpace, collapseSpace, hwords, hlonger suffix hsuffix, joinWords_append_last]

/-- A text that something stands before, where it starts with a word. -/
theorem collapseSpace_prepend {before text : List Char} (hne : text ≠ [])
    (hstart : text.dropWhile pyIsSpace = text) (hbefore : ∀ c ∈ before, pyIsSpace c = false) :
    collapseSpace (before ++ text) = before ++ collapseSpace text := by
  rcases exists_firstWord text with ⟨hnil, -⟩ | ⟨word, rest, hinner, hword, hrest, hwords⟩
  · exact absurd (hstart.symm.trans hnil) hne
  rw [hstart] at hinner
  have hlong : IsWord (before ++ word) :=
    ⟨fun h ↦ hword.1 (List.append_eq_nil_iff.mp h).2, fun c hc ↦
      (List.mem_append.mp hc).elim (hbefore c) (hword.2 c)⟩
  have hwords' : splitWords (before ++ text) = (before ++ word) :: splitWords rest := by
    rw [hinner, ← List.append_assoc]
    cases rest with
    | nil => rw [List.append_nil, hlong.splitWords]; rfl
    | cons c rest =>
      rw [splitWords_append_space _ _ (hrest c rfl), hlong.splitWords,
        splitWords_cons_space (hrest c rfl)]
      rfl
  rw [collapseSpace, collapseSpace, hwords, hwords']
  cases splitWords rest with
  | nil => rw [joinWords_singleton, joinWords_singleton]
  | cons next words => rw [joinWords_cons_cons, joinWords_cons_cons, List.append_assoc]

theorem length_collapseSpace_le (text : List Char) :
    (collapseSpace text).length ≤ text.length := by
  refine splitWords_induction
    (motive := fun text words ↦ (joinWords words).length ≤ text.length) ?_ ?_ ?_ text
  · exact fun _ _ ↦ Nat.zero_le _
  · intro before word _ _
    rw [joinWords_singleton, List.length_append]
    exact Nat.le_add_left _ _
  · intro before word c rest _ _ _ ih
    cases hwords : splitWords rest with
    | nil =>
      rw [joinWords_singleton]
      simp only [List.length_append, List.length_cons]
      omega
    | cons next words =>
      rw [hwords] at ih
      rw [joinWords_cons_cons]
      simp only [List.length_append, List.length_cons]
      omega

/-! ## Cutting joined words -/

theorem rstripChars_append {p : Char → Bool} {text : List Char} (h : rstripChars p text ≠ [])
    (before : List Char) : rstripChars p (before ++ text) = before ++ rstripChars p text := by
  have hdrop : text.reverse.dropWhile p ≠ [] := fun hnil ↦ h (by rw [rstripChars, hnil]; rfl)
  rw [rstripChars, List.reverse_append, List.dropWhile_append, if_neg (by simpa using hdrop),
    List.reverse_append, List.reverse_reverse]
  rfl

theorem rstripChars_eq_self {p : Char → Bool} {text : List Char} (h : ∀ c ∈ text, p c = false) :
    rstripChars p text = text := by
  have hkeep : text.reverse.dropWhile p = text.reverse :=
    List.dropWhile_eq_self_iff.mpr fun hpos ↦ by
      rw [h _ (List.mem_reverse.mp (List.getElem_mem hpos))]
      exact Bool.false_ne_true
  rw [rstripChars, hkeep, List.reverse_reverse]

private theorem exists_cut_word {word : List Char} (hword : IsWord word) {n : ℕ}
    (hn : n ≤ word.length) : ∃ cut, (∀ word ∈ cut, IsWord word) ∧ (1 ≤ n → cut ≠ []) ∧
      rstripChars pyIsSpace (word.take n) = joinWords cut ∧ n ≤ (joinWords cut).length + 1 := by
  rcases Nat.eq_zero_or_pos n with rfl | hpos
  · exact ⟨[], fun _ h ↦ absurd h List.not_mem_nil, fun h ↦ absurd h (by omega), rfl,
      Nat.zero_le _⟩
  have hcut : ∀ c ∈ word.take n, pyIsSpace c = false := fun c hc ↦
    hword.2 c (List.mem_of_mem_take hc)
  have hlength : (word.take n).length = n := by rw [List.length_take, Nat.min_eq_left hn]
  refine ⟨[word.take n], ?_, fun _ ↦ List.cons_ne_nil _ _, ?_, ?_⟩
  · intro cut hmem
    rw [List.mem_singleton.mp hmem]
    exact ⟨List.ne_nil_of_length_pos (by rw [hlength]; exact hpos), hcut⟩
  · rw [joinWords_singleton, rstripChars_eq_self hcut]
  · rw [joinWords_singleton, hlength]
    exact Nat.le_succ n

/-- Joined words that are cut are joined words again, without the space that may be at the end. -/
theorem exists_cut {words : List (List Char)} (h : ∀ word ∈ words, IsWord word) {n : ℕ}
    (hn : n ≤ (joinWords words).length) : ∃ cut, (∀ word ∈ cut, IsWord word) ∧
      (1 ≤ n → cut ≠ []) ∧ rstripChars pyIsSpace ((joinWords words).take n) = joinWords cut ∧
      n ≤ (joinWords cut).length + 1 := by
  induction words generalizing n with
  | nil =>
    obtain rfl : n = 0 := Nat.le_zero.mp hn
    exact ⟨[], h, fun h ↦ absurd h (by omega), rfl, Nat.zero_le _⟩
  | cons word words ih =>
    have hword := h word List.mem_cons_self
    cases words with
    | nil =>
      rw [joinWords_singleton] at hn ⊢
      exact exists_cut_word hword hn
    | cons next words =>
      rw [joinWords_cons_cons] at hn ⊢
      rcases Nat.lt_or_ge word.length n with hlt | hle
      · obtain ⟨m, rfl⟩ : ∃ m, n = word.length + (m + 1) := ⟨n - word.length - 1, by omega⟩
        rw [List.length_append, List.length_cons] at hn
        obtain ⟨cut, hcut, hne, hstrip, hlength⟩ :=
          ih (fun w hw ↦ h w (List.mem_cons_of_mem _ hw)) (n := m) (by omega)
        have htake : (word ++ ' ' :: joinWords (next :: words)).take (word.length + (m + 1))
            = word ++ ' ' :: (joinWords (next :: words)).take m := by
          rw [List.take_length_add_append, List.take_succ_cons]
        rw [htake]
        rcases Nat.eq_zero_or_pos m with rfl | hpos
        · -- the cut is behind the space that follows the word
          have hspace : rstripChars pyIsSpace (word ++ [' ']) = word := by
            rw [rstripChars, List.reverse_append, List.reverse_singleton, List.singleton_append,
              List.dropWhile_cons_of_pos (by decide)]
            exact rstripChars_eq_self hword.2
          refine ⟨[word], fun w hw ↦ List.mem_singleton.mp hw ▸ hword,
            fun _ ↦ List.cons_ne_nil _ _, ?_, ?_⟩
          · rw [List.take_zero, joinWords_singleton, hspace]
          · rw [joinWords_singleton]
        · have hne := hne hpos
          obtain ⟨first, cut, rfl⟩ := List.exists_cons_of_ne_nil hne
          have hrest : rstripChars pyIsSpace ((joinWords (next :: words)).take m) ≠ [] := by
            rw [hstrip]
            exact fun hnil ↦ hne ((joinWords_eq_nil hcut).mp hnil)
          refine ⟨word :: first :: cut, ?_, fun _ ↦ List.cons_ne_nil _ _, ?_, ?_⟩
          · exact List.forall_mem_cons.mpr ⟨hword, hcut⟩
          · rw [List.append_cons, rstripChars_append hrest, hstrip, joinWords_cons_cons,
              List.append_assoc]
            rfl
          · rw [joinWords_cons_cons, List.length_append, List.length_cons]
            omega
      · rw [List.take_append_of_le_length hle]
        exact exists_cut_word hword hle

/-! ## White space at the ends -/

theorem exists_stripChars (p : Char → Bool) (text : List Char) : ∃ before after,
    text = before ++ stripChars p text ++ after ∧ (∀ c ∈ before, p c = true) ∧
      ∀ c ∈ after, p c = true := by
  refine ⟨text.takeWhile p, ((text.dropWhile p).reverse.takeWhile p).reverse, ?_,
    fun _ h ↦ List.mem_takeWhile_imp h,
    fun _ h ↦ List.mem_takeWhile_imp (List.mem_reverse.mp h)⟩
  rw [stripChars, List.append_assoc, ← List.reverse_append, List.takeWhile_append_dropWhile,
    List.reverse_reverse, List.takeWhile_append_dropWhile]

@[simp] theorem splitWords_stripChars (text : List Char) :
    splitWords (stripChars pyIsSpace text) = splitWords text := by
  obtain ⟨before, after, heq, hbefore, hafter⟩ := exists_stripChars pyIsSpace text
  conv_rhs => rw [heq]
  rw [splitWords_append_spaces _ hafter, splitWords_spaces hbefore]

/-! ## Lines -/

theorem pyIsSpace_of_isLineBreak {c : Char} (h : isLineBreak c = true) : pyIsSpace c = true := by
  simp only [isLineBreak, Bool.or_eq_true, Bool.and_eq_true, decide_eq_true_eq, beq_iff_eq] at h
  simp only [pyIsSpace, Bool.or_eq_true, Bool.and_eq_true, decide_eq_true_eq, beq_iff_eq]
  omega

/-- A line: a text without line breaks. -/
def IsLine (line : List Char) : Prop := ∀ c ∈ line, isLineBreak c = false

instance (line : List Char) : Decidable (IsLine line) :=
  List.decidableBAll (fun c ↦ isLineBreak c = false) line

theorem isLine_collapseSpace (text : List Char) : IsLine (collapseSpace text) := by
  intro c hc
  rcases eq_space_of_mem_collapseSpace hc with rfl | hc
  · decide
  · cases hbreak : isLineBreak c with
    | false => rfl
    | true => rw [pyIsSpace_of_isLineBreak hbreak] at hc; cases hc

theorem IsLine.append {line line' : List Char} (h : IsLine line) (h' : IsLine line') :
    IsLine (line ++ line') := fun c hc ↦ (List.mem_append.mp hc).elim (h c) (h' c)

theorem IsLine.of_subset {line line' : List Char} (h : IsLine line) (hsub : line' ⊆ line) :
    IsLine line' := fun c hc ↦ h c (hsub hc)

private theorem splitLines_cons {c : Char} (hc : isLineBreak c = false) (cs : List Char) :
    splitLines (c :: cs) = match splitLines cs with
      | [] => [[c]]
      | line :: lines => (c :: line) :: lines := by
  have hreturn : (c == '\r') = false := by
    cases h : c == '\r' with
    | false => rfl
    | true => rw [beq_iff_eq.mp h] at hc; exact absurd hc (by decide)
  rw [splitLines, hreturn, hc]
  rfl

theorem IsLine.splitLines_newline {line : List Char} (h : IsLine line) (rest : List Char) :
    splitLines (line ++ '\n' :: rest) = line :: splitLines rest := by
  induction line with
  | nil => rfl
  | cons c line ih =>
    rw [List.cons_append, splitLines_cons (h c List.mem_cons_self),
      ih fun d hd ↦ h d (List.mem_cons_of_mem _ hd)]

theorem IsLine.splitLines_self {line : List Char} (h : IsLine line) (hne : line ≠ []) :
    splitLines line = [line] := by
  induction line with
  | nil => exact absurd rfl hne
  | cons c line ih =>
    rw [splitLines_cons (h c List.mem_cons_self)]
    cases line with
    | nil => rfl
    | cons d line =>
      rw [ih (fun e he ↦ h e (List.mem_cons_of_mem _ he)) (List.cons_ne_nil _ _)]

theorem splitLines_intercalate_newline {lines : List (List Char)} (hne : lines ≠ [])
    (h : ∀ line ∈ lines, IsLine line) (rest : List Char) :
    splitLines (['\n'].intercalate lines ++ '\n' :: rest) = lines ++ splitLines rest := by
  induction lines with
  | nil => exact absurd rfl hne
  | cons line lines ih =>
    have hline := h line List.mem_cons_self
    cases lines with
    | nil =>
      rw [List.intercalate_singleton]
      exact hline.splitLines_newline rest
    | cons next lines =>
      rw [List.intercalate_cons_cons, List.append_assoc, List.append_assoc, List.singleton_append,
        hline.splitLines_newline,
        ih (List.cons_ne_nil _ _) fun l hl ↦ h l (List.mem_cons_of_mem _ hl)]
      rfl

theorem splitLines_intercalate {lines : List (List Char)}
    (h : ∀ line ∈ lines, IsLine line ∧ line ≠ []) :
    splitLines (['\n'].intercalate lines) = lines := by
  induction lines with
  | nil => rfl
  | cons line lines ih =>
    have hline := h line List.mem_cons_self
    cases lines with
    | nil =>
      rw [List.intercalate_singleton]
      exact hline.1.splitLines_self hline.2
    | cons next lines =>
      rw [List.intercalate_cons_cons, List.append_assoc, List.singleton_append,
        hline.1.splitLines_newline, ih fun l hl ↦ h l (List.mem_cons_of_mem _ hl)]

end KnowledgeAlakazam
