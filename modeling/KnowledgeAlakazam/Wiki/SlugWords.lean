import KnowledgeAlakazam.Wiki.Text
import Mathlib.Data.List.Chain

/-!
# A slug is its words, joined by hyphens

`slugify_wiki_target` ends with two substitutions and a `strip`. What they do is easier to say
than to compute: the text falls into words, the runs without white space, underscores and hyphens,
and the slug is the words joined by single hyphens (`slug_eq_join`). The rest of what is known
about slugs is read off the words.
-/

namespace KnowledgeAlakazam

/-- The words of a text: the runs between `[\s_-]+`. -/
def slugWords (text : List Char) : List (List Char) :=
  (text.splitOnP isSlugGap).filter (· ≠ [])

def hyphenated (words : List (List Char)) : List Char := ['-'].intercalate words

theorem isSlugGap_hyphen : isSlugGap '-' = true := by decide

/-! ## The words of a text -/

@[simp] theorem slugWords_nil : slugWords [] = [] := by simp [slugWords]

theorem slugWords_cons_gap {c : Char} (hc : isSlugGap c = true) (cs : List Char) :
    slugWords (c :: cs) = slugWords cs := by
  rw [slugWords, List.splitOnP_cons_eq_if_modifyHead, if_pos hc, List.filter_cons_of_neg (by simp)]
  rfl

theorem slugWords_cons_end {c : Char} {cs : List Char} (hc : isSlugGap c = false)
    (hcs : ∀ d ∈ cs.head?, isSlugGap d = true) : slugWords (c :: cs) = [c] :: slugWords cs := by
  rw [slugWords, List.splitOnP_cons_eq_if_modifyHead, if_neg (by rw [hc]; simp)]
  cases cs with
  | nil => simp
  | cons d ds =>
    have hd : isSlugGap d = true := hcs d rfl
    rw [slugWords_cons_gap hd, List.splitOnP_cons_eq_if_modifyHead, if_pos hd,
      List.modifyHead_cons, List.filter_cons_of_pos (by simp)]
    rfl

theorem slugWords_cons_cons {c d : Char} {ds : List Char} (hc : isSlugGap c = false)
    (hd : isSlugGap d = false) : ∃ word words, slugWords (d :: ds) = word :: words ∧
      slugWords (c :: d :: ds) = (c :: word) :: words := by
  obtain ⟨front, rest, hsplit⟩ :=
    List.exists_cons_of_ne_nil (List.splitOnP_ne_nil isSlugGap ds)
  refine ⟨d :: front, rest.filter (· ≠ []), ?_, ?_⟩
  · rw [slugWords, List.splitOnP_cons_eq_if_modifyHead, if_neg (by rw [hd]; simp), hsplit,
      List.modifyHead_cons, List.filter_cons_of_pos (by simp)]
  · rw [slugWords, List.splitOnP_cons_eq_if_modifyHead, if_neg (by rw [hc]; simp),
      List.splitOnP_cons_eq_if_modifyHead, if_neg (by rw [hd]; simp), hsplit,
      List.modifyHead_cons, List.modifyHead_cons, List.filter_cons_of_pos (by simp)]

/-- Words do not reach over a gap. -/
theorem slugWords_append_gap (text rest : List Char) {c : Char} (hc : isSlugGap c = true) :
    slugWords (text ++ c :: rest) = slugWords text ++ slugWords rest := by
  induction text with
  | nil => rw [List.nil_append, slugWords_cons_gap hc, slugWords_nil, List.nil_append]
  | cons d text ih =>
    rw [List.cons_append]
    cases hd : isSlugGap d with
    | true => rw [slugWords_cons_gap hd, slugWords_cons_gap hd, ih]
    | false =>
      cases text with
      | nil =>
        have hstop : ∀ e ∈ (c :: rest).head?, isSlugGap e = true := fun e he ↦
          Option.some.inj he ▸ hc
        rw [List.nil_append, slugWords_cons_end hd hstop, slugWords_cons_gap hc,
          slugWords_cons_end hd fun e he ↦ absurd he (by simp), slugWords_nil]
        rfl
      | cons e text =>
        cases he : isSlugGap e with
        | true =>
          have hstop : ∀ rest', ∀ e' ∈ (e :: rest').head?, isSlugGap e' = true :=
            fun _ e' he' ↦ Option.some.inj he' ▸ he
          rw [List.cons_append, slugWords_cons_end hd (hstop _), slugWords_cons_end hd (hstop _)]
          rw [List.cons_append] at ih
          rw [ih, List.cons_append]
        | false =>
          obtain ⟨word, words, hwords, hlong⟩ := @slugWords_cons_cons d e text hd he
          obtain ⟨word', words', hwords', hlong'⟩ :=
            @slugWords_cons_cons d e (text ++ c :: rest) hd he
          rw [List.cons_append, hwords, hwords'] at ih
          obtain ⟨rfl, rfl⟩ := List.cons.inj ih
          rw [List.cons_append, hlong, hlong']
          rfl

private theorem of_mem_splitOnP {p : Char → Bool} {text word : List Char}
    (h : word ∈ text.splitOnP p) : ∀ c ∈ word, c ∈ text ∧ p c = false := by
  induction text generalizing word with
  | nil =>
    rw [List.splitOnP_nil, List.mem_singleton] at h
    exact fun c hc ↦ absurd (h ▸ hc) (by simp)
  | cons d ds ih =>
    have hlater : ∀ w ∈ ds.splitOnP p, ∀ c ∈ w, c ∈ d :: ds ∧ p c = false :=
      fun w hw c hc ↦ ⟨List.mem_cons_of_mem d (ih hw c hc).1, (ih hw c hc).2⟩
    rw [List.splitOnP_cons_eq_if_modifyHead] at h
    split at h
    · rcases List.mem_cons.mp h with rfl | h
      · exact fun c hc ↦ absurd hc (by simp)
      · exact hlater word h
    · rename_i hd
      obtain ⟨front, rest, hsplit⟩ := List.exists_cons_of_ne_nil (List.splitOnP_ne_nil p ds)
      rw [hsplit, List.modifyHead_cons] at h
      rcases List.mem_cons.mp h with rfl | h
      · intro c hc
        rcases List.mem_cons.mp hc with rfl | hc
        · exact ⟨List.mem_cons_self, by simpa using hd⟩
        · exact hlater front (hsplit ▸ List.mem_cons_self) c hc
      · exact hlater word (hsplit ▸ List.mem_cons_of_mem _ h)

theorem mem_slugWords {text word : List Char} (h : word ∈ slugWords text) :
    word ≠ [] ∧ ∀ c ∈ word, c ∈ text ∧ isSlugGap c = false := by
  obtain ⟨hmem, hne⟩ := List.mem_filter.mp h
  exact ⟨by simpa using hne, of_mem_splitOnP hmem⟩

/-! ## Hyphenation -/

theorem hyphenateRuns_cons_neg {p : Char → Bool} {c : Char} (hc : p c = false)
    (cs : List Char) : hyphenateRuns p (c :: cs) = c :: hyphenateRuns p cs := by
  simp [hyphenateRuns, hc]

theorem hyphenateRuns_cons_cons {p : Char → Bool} {c : Char} (hc : p c = true) (d : Char)
    (ds : List Char) : hyphenateRuns p (c :: d :: ds)
      = if p d then hyphenateRuns p (d :: ds) else '-' :: hyphenateRuns p (d :: ds) := by
  rw [hyphenateRuns.eq_def]
  simp [hc]

/-- The hyphen for a gap at the beginning of a text. -/
private def leadingHyphen : List Char → List Char
  | [] => []
  | c :: _ => if isSlugGap c then ['-'] else []

/-- A text with its gaps replaced by hyphens: the words joined, with a hyphen for a gap at either
end. -/
private theorem hyphenateRuns_eq (text : List Char) :
    ∃ trailing, (trailing = [] ∨ trailing = ['-']) ∧
      hyphenateRuns isSlugGap text = leadingHyphen text ++
        if slugWords text = [] then [] else hyphenated (slugWords text) ++ trailing := by
  induction text with
  | nil => exact ⟨[], Or.inl rfl, by simp [hyphenateRuns, leadingHyphen]⟩
  | cons c cs ih =>
    obtain ⟨trailing, htrailing, hcs⟩ := ih
    by_cases hc : isSlugGap c = true
    · refine ⟨trailing, htrailing, ?_⟩
      rw [slugWords_cons_gap hc, leadingHyphen, if_pos hc]
      cases cs with
      | nil => simp [hyphenateRuns, hc]
      | cons d ds =>
        rw [hyphenateRuns_cons_cons hc, hcs, leadingHyphen]
        split <;> rfl
    · rw [Bool.not_eq_true] at hc
      have hlead : leadingHyphen (c :: cs) = [] := by simp [leadingHyphen, hc]
      rw [hyphenateRuns_cons_neg hc, hcs, hlead]
      cases cs with
      | nil =>
        refine ⟨[], Or.inl rfl, ?_⟩
        rw [slugWords_cons_end hc (by simp)]
        simp [leadingHyphen, hyphenated]
      | cons d ds =>
        by_cases hd : isSlugGap d = true
        · rw [slugWords_cons_end hc (by simpa using hd), leadingHyphen, if_pos hd]
          cases hwords : slugWords (d :: ds) with
          | nil => exact ⟨['-'], Or.inr rfl, by simp [hyphenated]⟩
          | cons word words => exact ⟨trailing, htrailing, by simp [hyphenated]⟩
        · rw [Bool.not_eq_true] at hd
          obtain ⟨word, words, hword, hall⟩ := @slugWords_cons_cons c d ds hc hd
          refine ⟨trailing, htrailing, ?_⟩
          rw [hall, hword, leadingHyphen, if_neg (by rw [hd]; simp)]
          simp [hyphenated]

/-! ## Words joined by hyphens -/

theorem of_mem_hyphenated {words : List (List Char)} {c : Char} (h : c ∈ hyphenated words) :
    c = '-' ∨ ∃ word ∈ words, c ∈ word := by
  induction words with
  | nil => exact absurd h (by simp [hyphenated])
  | cons word words ih =>
    by_cases hwords : words = []
    · rw [hwords, hyphenated, List.intercalate_singleton] at h
      exact Or.inr ⟨word, List.mem_cons_self, h⟩
    · rw [hyphenated, List.intercalate_cons_of_ne_nil hwords, ← hyphenated] at h
      rcases List.mem_append.mp h with h | h
      · rcases List.mem_append.mp h with h | h
        · exact Or.inr ⟨word, List.mem_cons_self, h⟩
        · exact Or.inl (List.mem_singleton.mp h)
      · exact (ih h).imp id fun ⟨w, hw, hc⟩ ↦ ⟨w, List.mem_cons_of_mem word hw, hc⟩

/-- A function that does not look beyond a hyphen works on the words. -/
theorem map_hyphenated {f : List Char → List Char}
    (hf : ∀ front back, f (front ++ '-' :: back) = f front ++ '-' :: f back)
    {words : List (List Char)} (hne : words ≠ []) :
    f (hyphenated words) = hyphenated (words.map f) := by
  induction words with
  | nil => exact absurd rfl hne
  | cons word words ih =>
    by_cases hwords : words = []
    · rw [hwords, hyphenated, List.intercalate_singleton]
      exact List.intercalate_singleton.symm
    · have hmap : words.map f ≠ [] := by simpa using hwords
      rw [hyphenated, List.intercalate_cons_of_ne_nil hwords, List.append_assoc, List.map_cons,
        hyphenated, List.intercalate_cons_of_ne_nil hmap, List.append_assoc]
      exact (hf word _).trans (congrArg (fun back ↦ f word ++ '-' :: back) (ih hwords))

/-- Words can be told from the text they are joined to. -/
theorem slugWords_hyphenated {words : List (List Char)}
    (h : ∀ word ∈ words, word ≠ [] ∧ ∀ c ∈ word, isSlugGap c = false) :
    slugWords (hyphenated words) = words := by
  induction words with
  | nil => exact slugWords_nil
  | cons word words ih =>
    obtain ⟨hne, hplain⟩ := h word List.mem_cons_self
    have hlater := ih fun w hw ↦ h w (List.mem_cons_of_mem word hw)
    by_cases hwords : words = []
    · rw [hwords, hyphenated, List.intercalate_singleton, slugWords,
        List.splitOnP_eq_singleton hplain, List.filter_cons_of_pos (by simpa using hne)]
      rfl
    · rw [hyphenated, List.intercalate_cons_of_ne_nil hwords, List.append_assoc, slugWords,
        ← hyphenated]
      have hsplit := List.splitOnP_append_cons_of_forall_mem hplain '-' isSlugGap_hyphen
        (hyphenated words)
      rw [slugWords] at hlater
      refine (congrArg _ hsplit).trans ?_
      rw [List.filter_cons_of_pos (by simpa using hne), hlater]

section Ends

variable {words : List (List Char)}

theorem hyphenated_ne_nil (hne : words ≠ []) (h : ∀ word ∈ words, word ≠ []) :
    hyphenated words ≠ [] := by
  cases words with
  | nil => exact absurd rfl hne
  | cons word words =>
    cases word with
    | nil => exact absurd rfl (h [] List.mem_cons_self)
    | cons c cs =>
      rw [hyphenated, List.intercalate_cons_cons_left]
      exact List.cons_ne_nil _ _

theorem head?_hyphenated (h : ∀ word ∈ words, word ≠ [] ∧ '-' ∉ word) :
    (hyphenated words).head? ≠ some '-' := by
  intro hhead
  cases words with
  | nil => exact absurd hhead (by simp [hyphenated])
  | cons word words =>
    obtain ⟨hne, hplain⟩ := h word List.mem_cons_self
    cases word with
    | nil => exact absurd rfl hne
    | cons c cs =>
      rw [hyphenated, List.intercalate_cons_cons_left] at hhead
      exact hplain (Option.some.inj hhead ▸ List.mem_cons_self)

theorem getLast?_hyphenated (h : ∀ word ∈ words, word ≠ [] ∧ '-' ∉ word) :
    (hyphenated words).getLast? ≠ some '-' := by
  induction words with
  | nil => simp [hyphenated]
  | cons word words ih =>
    obtain ⟨-, hplain⟩ := h word List.mem_cons_self
    have hlater := fun w hw ↦ h w (List.mem_cons_of_mem word hw)
    by_cases hwords : words = []
    · rw [hwords, hyphenated, List.intercalate_singleton]
      exact fun hlast ↦ hplain (List.mem_of_getLast? hlast)
    · obtain ⟨c, hc⟩ := Option.isSome_iff_exists.mp
        (List.getLast?_isSome.mpr (hyphenated_ne_nil hwords fun w hw ↦ (hlater w hw).1))
      rw [hyphenated, List.intercalate_cons_of_ne_nil hwords, List.getLast?_append, ← hyphenated,
        hc, Option.some_or, ← hc]
      exact ih hlater

theorem not_doubled_hyphenated (h : ∀ word ∈ words, word ≠ [] ∧ '-' ∉ word) :
    ¬['-', '-'] <:+: hyphenated words := by
  have hchain : (hyphenated words).IsChain fun c d ↦ ¬(c = '-' ∧ d = '-') := by
    induction words with
    | nil => exact List.isChain_nil
    | cons word words ih =>
      obtain ⟨-, hplain⟩ := h word List.mem_cons_self
      have hlater := fun w hw ↦ h w (List.mem_cons_of_mem word hw)
      have hword : word.IsChain fun c d ↦ ¬(c = '-' ∧ d = '-') := by
        refine List.isChain_iff_forall_rel_of_append_cons_cons.mpr ?_
        rintro c d front rest rfl ⟨rfl, -⟩
        exact hplain (by simp)
      by_cases hwords : words = []
      · rw [hwords, hyphenated, List.intercalate_singleton]
        exact hword
      · rw [hyphenated, List.intercalate_cons_of_ne_nil hwords, List.append_assoc]
        refine hword.append ((ih hlater).cons ?_) ?_
        · rintro d hd ⟨-, rfl⟩
          exact head?_hyphenated hlater hd
        · rintro c hc d - ⟨rfl, -⟩
          exact hplain (List.mem_of_getLast? hc)
  intro hpart
  have hpair := List.IsChain.infix hchain hpart
  exact List.isChain_pair.mp hpair ⟨rfl, rfl⟩

private theorem stripChars_hyphens {leading text trailing : List Char}
    (hleading : leading = [] ∨ leading = ['-']) (htrailing : trailing = [] ∨ trailing = ['-'])
    (hhead : text.head? ≠ some '-') (hlast : text.getLast? ≠ some '-') (hne : text ≠ []) :
    stripChars (· == '-') (leading ++ (text ++ trailing)) = text := by
  have hdrop : ∀ front back : List Char, front = [] ∨ front = ['-'] → back.head? ≠ some '-' →
      back ≠ [] → (front ++ back).dropWhile (· == '-') = back := by
    rintro front back hfront hback hne
    have hstop : back.dropWhile (· == '-') = back := by
      cases back with
      | nil => exact absurd rfl hne
      | cons c cs => exact List.dropWhile_cons_of_neg (by simpa using hback)
    rcases hfront with rfl | rfl
    · exact hstop
    · exact hstop
  have hhead' : (text ++ trailing).head? ≠ some '-' := by
    rwa [List.head?_append_of_ne_nil _ hne]
  rw [stripChars, hdrop leading _ hleading hhead' (by simp [hne]), List.reverse_append,
    hdrop _ _ (htrailing.imp (by rintro rfl; rfl) (by rintro rfl; rfl))
      (by rwa [List.head?_reverse]) (by simpa using hne), List.reverse_reverse]

end Ends

/-- **What the substitutions of `slugify_wiki_target` come to**: the words of the text, joined by
hyphens. -/
theorem strip_hyphenateRuns (text : List Char) :
    stripChars (· == '-') (hyphenateRuns isSlugGap text) = hyphenated (slugWords text) := by
  obtain ⟨trailing, htrailing, hrun⟩ := hyphenateRuns_eq text
  have hleading : leadingHyphen text = [] ∨ leadingHyphen text = ['-'] := by
    cases text with
    | nil => exact Or.inl rfl
    | cons c cs =>
      rw [leadingHyphen]
      split
      · exact Or.inr rfl
      · exact Or.inl rfl
  rw [hrun]
  by_cases hwords : slugWords text = []
  · rw [if_pos hwords, hwords, List.append_nil]
    rcases hleading with hlead | hlead <;> rw [hlead] <;> rfl
  · have hplain : ∀ word ∈ slugWords text, word ≠ [] ∧ '-' ∉ word := fun word hword ↦
      ⟨(mem_slugWords hword).1, fun hmem ↦ absurd isSlugGap_hyphen
        (by rw [((mem_slugWords hword).2 '-' hmem).2]; simp)⟩
    rw [if_neg hwords]
    exact stripChars_hyphens hleading htrailing (head?_hyphenated hplain)
      (getLast?_hyphenated hplain) (hyphenated_ne_nil hwords fun word hword ↦ (hplain word hword).1)

end KnowledgeAlakazam
