import KnowledgeAlakazam.Wiki.Text

/-!
# The grammar of wikilinks

`extract_wikilinks` scans a text from left to right and goes on behind each match it finds. What
an author expects is not a scan but a grammar: wherever `[[`, a target and `]]` stand in the text,
there is a link. The two agree because links cannot overlap. A target has no bracket in it, so
inside a link the only place where another one could begin is its second bracket, and there the
target follows instead of a bracket (`matchWikilink_inside`).

Since a link lies within one line, the links of a text are those of its lines, one after another.
-/

namespace KnowledgeAlakazam

/-! ## Distinct values, by the library's operation -/

section Dedupe

variable {α β : Type} [DecidableEq α] [DecidableEq β]

theorem dedupeFrom_eq_eraseDups (seen values : List α) :
    dedupeFrom seen values = (values.filter (· ∉ seen)).eraseDups := by
  induction values generalizing seen with
  | nil => rfl
  | cons value values ih =>
    rw [dedupeFrom, List.filter_cons]
    by_cases h : value ∈ seen
    · rw [if_pos h, if_neg (by simpa using h)]
      exact ih seen
    · rw [if_neg h, if_pos (by simpa using h), List.eraseDups_cons, ih, List.filter_filter]
      congr 3
      funext x
      by_cases hx : x = value <;> simp [hx]

theorem dedupeFrom_nil_eq_eraseDups (values : List α) :
    dedupeFrom [] values = values.eraseDups := by
  rw [dedupeFrom_eq_eraseDups]
  simp

theorem map_dedupeFrom {f : α → β} (hf : Function.Injective f) (seen values : List α) :
    (dedupeFrom seen values).map f = dedupeFrom (seen.map f) (values.map f) := by
  induction values generalizing seen with
  | nil => rfl
  | cons value values ih =>
    rw [dedupeFrom, List.map_cons, dedupeFrom]
    by_cases h : value ∈ seen
    · rw [if_pos h, if_pos (List.mem_map_of_mem h)]
      exact ih seen
    · rw [if_neg h, if_neg (by rwa [List.mem_map_of_injective hf]), List.map_cons, ih,
        List.map_cons]

/-- Removing repeats first does not change which values come first. -/
theorem dedupeFrom_dedupeFrom {seen before : List α} (h : ∀ value ∈ before, value ∈ seen)
    (values : List α) : dedupeFrom seen (dedupeFrom before values) = dedupeFrom seen values := by
  induction values generalizing seen before with
  | nil => rfl
  | cons value values ih =>
    rw [dedupeFrom]
    by_cases hb : value ∈ before
    · rw [if_pos hb, ih h, dedupeFrom, if_pos (h value hb)]
    · rw [if_neg hb, dedupeFrom, dedupeFrom]
      by_cases hs : value ∈ seen
      · rw [if_pos hs, if_pos hs]
        refine ih fun other hother ↦ ?_
        rcases List.mem_cons.mp hother with rfl | hother
        · exact hs
        · exact h other hother
      · rw [if_neg hs, if_neg hs]
        congr 1
        refine ih fun other hother ↦ ?_
        rcases List.mem_cons.mp hother with rfl | hother
        · exact List.mem_cons_self
        · exact List.mem_cons_of_mem _ (h other hother)

theorem dedupeFrom_congr {seen seen' : List α} (h : ∀ value, value ∈ seen ↔ value ∈ seen')
    (values : List α) : dedupeFrom seen values = dedupeFrom seen' values := by
  rw [dedupeFrom_eq_eraseDups, dedupeFrom_eq_eraseDups]
  congr 1
  exact List.filter_congr fun value _ ↦ decide_eq_decide.mpr (not_congr (h value))

theorem dedupeFrom_sublist (seen values : List α) : (dedupeFrom seen values).Sublist values := by
  induction values generalizing seen with
  | nil => exact List.Sublist.refl _
  | cons value values ih =>
    rw [dedupeFrom]
    split
    · exact (ih seen).cons _
    · exact (ih _).cons_cons _

/-- Values that are told apart by more than what is kept of them may be deduplicated first. -/
theorem dedupeFrom_map_dedupeFrom {f : α → β} {keep : β → Bool} {seen : List α} {seen' : List β}
    (h : ∀ value ∈ seen, keep (f value) = true → f value ∈ seen') (values : List α) :
    dedupeFrom seen' (((dedupeFrom seen values).map f).filter keep)
      = dedupeFrom seen' ((values.map f).filter keep) := by
  induction values generalizing seen seen' with
  | nil => rfl
  | cons value values ih =>
    rw [dedupeFrom, List.map_cons]
    cases hkeep : keep (f value) with
    | false =>
      rw [List.filter_cons_of_neg (ne_true_of_eq_false hkeep)]
      split
      · exact ih h
      · rw [List.map_cons, List.filter_cons_of_neg (ne_true_of_eq_false hkeep)]
        refine ih fun other hother hkept ↦ ?_
        rcases List.mem_cons.mp hother with rfl | hother
        · cases hkept.symm.trans hkeep
        · exact h other hother hkept
    | true =>
      rw [List.filter_cons_of_pos hkeep]
      split
      · rename_i hseen
        rw [ih h]
        conv_rhs => rw [dedupeFrom, if_pos (h value hseen hkeep)]
      · rw [List.map_cons, List.filter_cons_of_pos hkeep, dedupeFrom, dedupeFrom]
        split
        · rename_i hseen'
          refine ih fun other hother hkept ↦ ?_
          rcases List.mem_cons.mp hother with rfl | hother
          · exact hseen'
          · exact h other hother hkept
        · refine congrArg _ (ih fun other hother hkept ↦ ?_)
          rcases List.mem_cons.mp hother with rfl | hother
          · exact List.mem_cons_self
          · exact List.mem_cons_of_mem _ (h other hother hkept)

private theorem eraseDups_append_eq (values values' : List α) :
    (values ++ values').eraseDups = values.eraseDups ++ dedupeFrom values values' := by
  rw [List.eraseDups_append, dedupeFrom_eq_eraseDups, List.removeAll]
  congr 3
  funext x
  simp

theorem eraseDups_append_eraseDups (values values' : List α) :
    (values.eraseDups ++ values'.eraseDups).eraseDups = (values ++ values').eraseDups := by
  have hidem : values.eraseDups.eraseDups = values.eraseDups := by
    simp only [← dedupeFrom_nil_eq_eraseDups]
    exact dedupeFrom_dedupeFrom (fun _ h ↦ h) values
  have hseen : dedupeFrom values.eraseDups values' = dedupeFrom values values' := by
    simp only [dedupeFrom_eq_eraseDups, List.mem_eraseDups]
  calc (values.eraseDups ++ values'.eraseDups).eraseDups
      = values.eraseDups.eraseDups ++ dedupeFrom values.eraseDups values'.eraseDups :=
        eraseDups_append_eq _ _
    _ = values.eraseDups ++ dedupeFrom values.eraseDups values' := by
        rw [hidem, ← dedupeFrom_nil_eq_eraseDups values',
          dedupeFrom_dedupeFrom (fun _ h ↦ absurd h (by simp))]
    _ = values.eraseDups ++ dedupeFrom values values' := by rw [hseen]
    _ = (values ++ values').eraseDups := (eraseDups_append_eq _ _).symm

end Dedupe

/-! ## Links and their positions -/

/-- At a position of a text stand `[[`, a target and `]]`. -/
structure LinkAt (text : List Char) (i : ℕ) (target : List Char) : Prop where
  nonempty : target ≠ []
  plain : ∀ c ∈ target, c ≠ '[' ∧ c ≠ ']' ∧ c ≠ '\n'
  occurs : '[' :: '[' :: (target ++ [']', ']']) <+: text.drop i

/-- The links of a text from left to right, each with its position. -/
def linkOccurrences : List Char → List (ℕ × List Char)
  | [] => []
  | c :: cs =>
    let later := (linkOccurrences cs).map fun link ↦ (link.1 + 1, link.2)
    match matchWikilink (c :: cs) with
    | some target => (0, target) :: later
    | none => later

theorem isLinkChar_iff {c : Char} : isLinkChar c = true ↔ c ≠ '[' ∧ c ≠ ']' ∧ c ≠ '\n' := by
  simp [isLinkChar, and_assoc]

/-- The pattern matches at the beginning of a text just if a link stands there. -/
theorem matchWikilink_eq_some {text target : List Char} :
    matchWikilink text = some target ↔ LinkAt text 0 target := by
  constructor
  · intro h
    unfold matchWikilink at h
    split at h
    · rename_i rest
      split at h
      · rename_i after hafter
        dsimp only at h
        split at h
        · exact absurd h (by simp)
        · rename_i hne
          obtain rfl := Option.some.inj h
          refine ⟨hne, fun c hc ↦ isLinkChar_iff.mp ?_, after, ?_⟩
          · exact List.all_eq_true.mp List.all_takeWhile c hc
          · rw [List.drop_zero, List.cons_append, List.cons_append, List.append_assoc]
            congr 2
            exact (congrArg _ hafter.symm).trans List.takeWhile_append_dropWhile
      · exact absurd h (by simp)
    · exact absurd h (by simp)
  · rintro ⟨hne, hplain, after, htext⟩
    have hall : ∀ c ∈ target, isLinkChar c = true := fun c hc ↦ isLinkChar_iff.mpr (hplain c hc)
    -- A bracket ends the target, so the scan stops just where the link says.
    have hstop : isLinkChar ']' = false := by decide
    rw [List.drop_zero, List.cons_append, List.cons_append, List.append_assoc] at htext
    have hdrop : (target ++ ([']', ']'] ++ after)).dropWhile isLinkChar = ']' :: ']' :: after := by
      rw [List.dropWhile_append_of_pos hall]
      exact List.dropWhile_cons_of_neg (by rw [hstop]; simp)
    have htake : (target ++ ([']', ']'] ++ after)).takeWhile isLinkChar = target := by
      rw [List.takeWhile_append_of_pos hall]
      exact (congrArg _ (List.takeWhile_cons_of_neg (by rw [hstop]; simp))).trans
        (List.append_nil target)
    rw [← htext, matchWikilink, hdrop]
    dsimp only
    rw [htake, if_neg hne]
    rfl

/-! ## The scan misses no link -/

/-- The targets of the links of a text. -/
def targetsOf (text : List Char) : List (List Char) := (linkOccurrences text).map Prod.snd

theorem targetsOf_cons (c : Char) (cs : List Char) :
    targetsOf (c :: cs) = (matchWikilink (c :: cs)).toList ++ targetsOf cs := by
  have hlater : ((linkOccurrences cs).map fun link ↦ (link.1 + 1, link.2)).map Prod.snd
      = targetsOf cs := by
    rw [List.map_map]
    rfl
  rw [targetsOf, linkOccurrences]
  cases matchWikilink (c :: cs) with
  | none => exact hlater
  | some target => exact congrArg (target :: ·) hlater

theorem matchWikilink_of_ne {c : Char} (hc : c ≠ '[') (cs : List Char) :
    matchWikilink (c :: cs) = none := by
  unfold matchWikilink
  split
  · rename_i heq
    exact absurd (List.cons.inj heq).1 hc
  · rfl

theorem targetsOf_append_of_not_mem {front : List Char} (h : '[' ∉ front) (text : List Char) :
    targetsOf (front ++ text) = targetsOf text := by
  induction front with
  | nil => rfl
  | cons c front ih =>
    rw [List.mem_cons, not_or] at h
    rw [List.cons_append, targetsOf_cons, matchWikilink_of_ne (Ne.symm h.1)]
    exact ih h.2

/-- Inside a link there is no other one. -/
theorem targetsOf_inside {cs target : List Char} {c : Char}
    (h : matchWikilink (c :: cs) = some target) :
    targetsOf cs = targetsOf (cs.drop (target.length + 3)) := by
  obtain ⟨hne, hplain, after, htext⟩ := matchWikilink_eq_some.mp h
  rw [List.drop_zero, List.cons_append, List.cons_append] at htext
  obtain ⟨-, rfl⟩ := List.cons.inj htext
  -- at the second bracket the target follows, and it does not begin with a bracket
  have hsecond : matchWikilink ('[' :: (target ++ [']', ']'] ++ after)) = none := by
    cases target with
    | nil => exact absurd rfl hne
    | cons d ds =>
      rw [List.cons_append, List.cons_append, matchWikilink]
      exact fun rest heq ↦ (hplain d List.mem_cons_self).1 (List.cons.inj (List.cons.inj heq).2).1
  have hfront : '[' ∉ target ++ [']', ']'] := by
    intro hmem
    rcases List.mem_append.mp hmem with hmem | hmem
    · exact (hplain '[' hmem).1 rfl
    · exact absurd hmem (by decide)
  have hdrop : ('[' :: (target ++ [']', ']'] ++ after)).drop (target.length + 3) = after := by
    rw [List.drop_succ_cons]
    exact List.drop_left' (by rw [List.length_append]; rfl)
  rw [hdrop, targetsOf_cons, hsecond]
  exact targetsOf_append_of_not_mem hfront after

theorem findWikilinks_eq_targetsOf (skip : ℕ) (text : List Char) :
    findWikilinks skip text = targetsOf (text.drop skip) := by
  induction text generalizing skip with
  | nil => rw [List.drop_nil]; rfl
  | cons c cs ih =>
    cases skip with
    | succ skip => exact ih skip
    | zero =>
      rw [findWikilinks, List.drop_zero, targetsOf_cons]
      cases h : matchWikilink (c :: cs) with
      | none => exact ih 0
      | some target =>
        rw [targetsOf_inside h]
        exact congrArg (target :: ·) (ih (target.length + 3))

/-! ## The positions -/

theorem linkAt_succ {c : Char} {cs : List Char} {i : ℕ} {target : List Char} :
    LinkAt (c :: cs) (i + 1) target ↔ LinkAt cs i target :=
  ⟨fun h ↦ ⟨h.nonempty, h.plain, h.occurs⟩, fun h ↦ ⟨h.nonempty, h.plain, h.occurs⟩⟩

theorem mem_linkOccurrences_cons {c : Char} {cs : List Char} {link : ℕ × List Char} :
    link ∈ linkOccurrences (c :: cs) ↔
      (link.1 = 0 ∧ matchWikilink (c :: cs) = some link.2) ∨
        ∃ later ∈ linkOccurrences cs, link = (later.1 + 1, later.2) := by
  rw [linkOccurrences]
  obtain ⟨i, target⟩ := link
  cases matchWikilink (c :: cs) with
  | none => simp [eq_comm]
  | some found => simp [eq_comm]

theorem mem_linkOccurrences {text : List Char} {i : ℕ} {target : List Char} :
    (i, target) ∈ linkOccurrences text ↔ LinkAt text i target := by
  induction text generalizing i with
  | nil =>
    refine ⟨fun h ↦ absurd h (by simp [linkOccurrences]), fun h ↦ ?_⟩
    have hnil := h.occurs
    rw [List.drop_nil, List.prefix_nil] at hnil
    exact absurd hnil (by simp)
  | cons c cs ih =>
    rw [mem_linkOccurrences_cons]
    cases i with
    | zero => simp [matchWikilink_eq_some]
    | succ i => simp [linkAt_succ, ← ih]

theorem pairwise_linkOccurrences (text : List Char) :
    ((linkOccurrences text).map Prod.fst).Pairwise (· < ·) := by
  induction text with
  | nil => exact List.Pairwise.nil
  | cons c cs ih =>
    have hlater : (((linkOccurrences cs).map fun link ↦ (link.1 + 1, link.2)).map
        Prod.fst).Pairwise (· < ·) := by
      rw [List.map_map, List.pairwise_map]
      rw [List.pairwise_map] at ih
      exact ih.imp Nat.succ_lt_succ
    rw [linkOccurrences]
    cases matchWikilink (c :: cs) with
    | none => exact hlater
    | some target =>
      refine List.pairwise_cons.mpr ⟨fun i hi ↦ ?_, hlater⟩
      obtain ⟨link, hlink, rfl⟩ := List.mem_map.mp hi
      obtain ⟨later, -, rfl⟩ := List.mem_map.mp hlink
      exact Nat.succ_pos later.1

/-! ## Lines -/

/-- Text that follows on a new line neither makes nor breaks a link. -/
theorem matchWikilink_append_newline (text rest : List Char) :
    matchWikilink (text ++ '\n' :: rest) = matchWikilink text := by
  refine Option.ext fun target ↦ ?_
  rw [matchWikilink_eq_some, matchWikilink_eq_some]
  constructor
  · rintro ⟨hne, hplain, hoccurs⟩
    refine ⟨hne, hplain, ?_⟩
    rw [List.drop_zero] at hoccurs ⊢
    have htext : text <+: text ++ '\n' :: rest := List.prefix_append _ _
    rcases List.prefix_or_prefix_of_prefix hoccurs htext with h | ⟨tail, htail⟩
    · exact h
    · cases tail with
      | nil => exact (htail.symm.trans (List.append_nil text)).symm ▸ List.prefix_rfl
      | cons d tail =>
        -- the link would go on with the newline
        rw [← htail, List.prefix_append_right_inj, List.cons_prefix_cons] at hoccurs
        have hmem : '\n' ∈ '[' :: '[' :: (target ++ [']', ']']) := by
          rw [← htail, hoccurs.1]
          simp
        have htarget : '\n' ∈ target := by simpa using hmem
        exact absurd rfl (hplain '\n' htarget).2.2
  · rintro ⟨hne, hplain, hoccurs⟩
    exact ⟨hne, hplain, hoccurs.trans (List.prefix_append _ _)⟩

theorem targetsOf_append_newline (text rest : List Char) :
    targetsOf (text ++ '\n' :: rest) = targetsOf text ++ targetsOf rest := by
  induction text with
  | nil =>
    have hnot : '[' ∉ ['\n'] := by decide
    exact targetsOf_append_of_not_mem hnot rest
  | cons c cs ih =>
    rw [List.cons_append, targetsOf_cons, targetsOf_cons, ih, ← List.cons_append,
      matchWikilink_append_newline, List.append_assoc]

/-! ## The grammar -/

variable (unicode : UnicodeData)

/-- The extracted slugs in terms of the links of the text. -/
theorem extractWikilinks_eq (markdown : List Char) :
    extractWikilinks unicode markdown = (((targetsOf markdown).map fun target ↦
      slugifyWikiTarget unicode (String.ofList target)).filter (· ≠ "")).eraseDups := by
  have hinj : Function.Injective String.ofList := fun a b h ↦ by
    simpa using congrArg String.toList h
  rw [extractWikilinks, findWikilinks_eq_targetsOf, List.drop_zero, map_dedupeFrom hinj,
    List.map_nil, dedupeFrom_nil_eq_eraseDups]
  congr 1
  have hempty : ∀ chars : List Char, decide (String.ofList chars ≠ "") = (chars != []) := by
    intro chars
    rw [bne, beq_eq_decide, ← decide_not]
    exact decide_eq_decide.mpr (not_congr ⟨fun h ↦ hinj h, fun h ↦ congrArg String.ofList h⟩)
  simp only [slugifyWikiTarget, String.toList_ofList]
  rw [List.filter_map, List.filter_map, List.map_map]
  refine congrArg (List.map (String.ofList ∘ slugifyChars unicode)) (List.filter_congr ?_)
  exact fun target _ ↦ (hempty (slugifyChars unicode target)).symm

/-- **`extract_wikilinks` accepts exactly its grammar.** The links of a text are listed by
`linkOccurrences`, the scan finds the target of every one of them, and what is extracted are their
slugs. So the links of two texts are those of the texts on separate lines. -/
theorem extractWikilinks_grammar :
    (∀ markdown : List Char,
      ((linkOccurrences markdown).map Prod.fst).Pairwise (· < ·) ∧
      (∀ i target, (i, target) ∈ linkOccurrences markdown ↔ LinkAt markdown i target) ∧
      findWikilinks 0 markdown = (linkOccurrences markdown).map Prod.snd ∧
      extractWikilinks unicode markdown = (((linkOccurrences markdown).map fun link ↦
        slugifyWikiTarget unicode (String.ofList link.2)).filter (· ≠ "")).eraseDups) ∧
    ∀ markdown markdown' : List Char,
      extractWikilinks unicode (markdown ++ '\n' :: markdown')
        = (extractWikilinks unicode markdown ++ extractWikilinks unicode markdown').eraseDups := by
  constructor
  · intro markdown
    refine ⟨pairwise_linkOccurrences markdown, fun i target ↦ mem_linkOccurrences,
      findWikilinks_eq_targetsOf 0 markdown, ?_⟩
    rw [extractWikilinks_eq, targetsOf, List.map_map]
    rfl
  · intro markdown markdown'
    simp only [extractWikilinks_eq]
    rw [eraseDups_append_eraseDups, targetsOf_append_newline, List.map_append,
      List.filter_append]

end KnowledgeAlakazam
