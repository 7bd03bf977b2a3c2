import KnowledgeAlakazam.Wiki.LinkGrammar
import KnowledgeAlakazam.Wiki.PageSections
import KnowledgeAlakazam.Wiki.SlugStability

/-!
# Related pages and backlinks

A compiled page names its related pages twice over: they are chosen by the slugs of their names,
and they are linked by a name without brackets, whose white space is collapsed and whose slug is
computed anew when the page is stored. The two slugs are the same as long as the brackets do not
matter: white space never does, because normalising and lowering a text do not look across it
(`UnicodeData.Spaced`), but characters that come together where a bracket was may be composed.
-/

namespace KnowledgeAlakazam

variable (unicode : UnicodeData)

/-! ## White space in a name -/

/-- What slugs rely on in the Unicode database, where white space is concerned. -/
structure UnicodeData.Spaced (unicode : UnicodeData) : Prop where
  nfkc_nil : unicode.nfkc [] = []
  lower_nil : unicode.lower [] = []
  /-- NFKC does not look across white space. -/
  nfkc_space : ∀ a b c, pyIsSpace c = true →
    unicode.nfkc (a ++ c :: b) = unicode.nfkc a ++ unicode.nfkc [c] ++ unicode.nfkc b
  /-- White space stays white space. -/
  nfkc_isSpace : ∀ c, pyIsSpace c = true →
    unicode.nfkc [c] ≠ [] ∧ ∀ d ∈ unicode.nfkc [c], pyIsSpace d = true
  /-- Nor does `lower`, and it leaves white space alone. -/
  lower_space : ∀ a b c, pyIsSpace c = true →
    unicode.lower (a ++ c :: b) = unicode.lower a ++ c :: unicode.lower b

/-- What the slug of a name is computed from. -/
def pagePart (name : List Char) : List Char := (name.takeWhile (· != '|')).takeWhile (· != '#')

/-- The slug words of a text that is normalised as a whole. -/
def normalWords (text : List Char) : List (List Char) :=
  slugWords ((unicode.lower (unicode.nfkc text)).filter (isSlugChar unicode))

section Spaced

variable {unicode} (hu : unicode.Spaced)

include hu

theorem UnicodeData.Spaced.lower_spaces {spaces : List Char}
    (h : ∀ c ∈ spaces, pyIsSpace c = true) (text : List Char) :
    unicode.lower (spaces ++ text) = spaces ++ unicode.lower text := by
  induction spaces with
  | nil => rfl
  | cons c spaces ih =>
    have hlower := hu.lower_space [] (spaces ++ text) c (h c List.mem_cons_self)
    rw [List.nil_append, hu.lower_nil, List.nil_append] at hlower
    rw [List.cons_append, hlower, ih fun d hd ↦ h d (List.mem_cons_of_mem _ hd)]
    rfl

theorem UnicodeData.Spaced.lower_append_spaces (text : List Char) {spaces : List Char}
    (h : ∀ c ∈ spaces, pyIsSpace c = true) (rest : List Char) (hne : spaces ≠ [] ∨ rest = []) :
    unicode.lower (text ++ (spaces ++ rest))
      = unicode.lower text ++ (spaces ++ unicode.lower rest) := by
  cases spaces with
  | nil =>
    obtain rfl := hne.resolve_left fun h ↦ h rfl
    simp only [List.append_nil, hu.lower_nil]
  | cons c spaces =>
    rw [List.cons_append, hu.lower_space _ _ c (h c List.mem_cons_self),
      hu.lower_spaces fun d hd ↦ h d (List.mem_cons_of_mem _ hd)]
    rfl

end Spaced

private theorem filter_spaces {spaces : List Char} (h : ∀ c ∈ spaces, pyIsSpace c = true) :
    spaces.filter (isSlugChar unicode) = spaces :=
  List.filter_eq_self.mpr fun c hc ↦ by
    rw [isSlugChar, h c hc, Bool.or_true, Bool.true_or]

private theorem isSlugGap_of_space {c : Char} (h : pyIsSpace c = true) : isSlugGap c = true := by
  rw [isSlugGap, h, Bool.true_or, Bool.true_or]

theorem slugWords_spaces {spaces : List Char} (h : ∀ c ∈ spaces, pyIsSpace c = true)
    (text : List Char) : slugWords (spaces ++ text) = slugWords text := by
  induction spaces with
  | nil => rfl
  | cons c spaces ih =>
    rw [List.cons_append, slugWords_cons_gap (isSlugGap_of_space (h c List.mem_cons_self))]
    exact ih fun d hd ↦ h d (List.mem_cons_of_mem _ hd)

theorem slugWords_append_spaces (text : List Char) {spaces : List Char}
    (h : ∀ c ∈ spaces, pyIsSpace c = true) (rest : List Char) (hne : spaces ≠ [] ∨ rest = []) :
    slugWords (text ++ (spaces ++ rest)) = slugWords text ++ slugWords rest := by
  cases spaces with
  | nil =>
    obtain rfl := hne.resolve_left fun h ↦ h rfl
    simp only [List.append_nil, slugWords_nil]
  | cons c spaces =>
    rw [List.cons_append,
      slugWords_append_gap _ _ (isSlugGap_of_space (h c List.mem_cons_self)),
      slugWords_spaces fun d hd ↦ h d (List.mem_cons_of_mem _ hd)]

section Spaced

variable {unicode} (hu : unicode.Spaced)

include hu

/-- The slug words of the two sides of white space. -/
theorem UnicodeData.Spaced.normalWords_append_space (text rest : List Char) {c : Char}
    (hc : pyIsSpace c = true) :
    normalWords unicode (text ++ c :: rest)
      = normalWords unicode text ++ normalWords unicode rest := by
  obtain ⟨hne, hspaces⟩ := hu.nfkc_isSpace c hc
  rw [normalWords, hu.nfkc_space _ _ _ hc, List.append_assoc,
    hu.lower_append_spaces _ hspaces _ (.inl hne), List.filter_append, List.filter_append,
    filter_spaces unicode hspaces, slugWords_append_spaces _ hspaces _ (.inl hne)]
  rfl

theorem UnicodeData.Spaced.normalWords_nil : normalWords unicode [] = [] := by
  rw [normalWords, hu.nfkc_nil, hu.lower_nil, List.filter_nil, slugWords_nil]

theorem UnicodeData.Spaced.normalWords_eq (text : List Char) :
    normalWords unicode text = (splitWords text).flatMap (normalWords unicode) := by
  have hspaces : ∀ spaces, (∀ c ∈ spaces, pyIsSpace c = true) → ∀ rest,
      normalWords unicode (spaces ++ rest) = normalWords unicode rest := by
    intro spaces
    induction spaces with
    | nil => exact fun _ _ ↦ rfl
    | cons c spaces ih =>
      intro h rest
      have hsplit := hu.normalWords_append_space [] (spaces ++ rest) (h c List.mem_cons_self)
      rw [hu.normalWords_nil, List.nil_append, List.nil_append] at hsplit
      rw [List.cons_append, hsplit]
      exact ih (fun d hd ↦ h d (List.mem_cons_of_mem _ hd)) rest
  refine splitWords_induction
    (motive := fun text words ↦ normalWords unicode text = words.flatMap (normalWords unicode))
    ?_ ?_ ?_ text
  · intro text h
    have hempty := hspaces text h []
    rwa [List.append_nil, hu.normalWords_nil] at hempty
  · intro before word h _
    rw [hspaces before h]
    exact (List.append_nil _).symm
  · intro before word c rest h _ hc ih
    rw [hspaces before h, hu.normalWords_append_space _ _ hc, ih]
    rfl

theorem UnicodeData.Spaced.slugifyChars_eq_words (name : List Char) :
    slugifyChars unicode name
      = hyphenated ((splitWords (pagePart name)).flatMap (normalWords unicode)) := by
  rw [slugifyChars_eq, ← hu.normalWords_eq]
  congr 1
  obtain ⟨before, after, heq, hbefore, hafter⟩ :=
    exists_stripChars pyIsSpace (unicode.nfkc (pagePart name))
  have hkept : keptText unicode name
      = (unicode.lower (stripChars pyIsSpace (unicode.nfkc (pagePart name)))).filter
        (isSlugChar unicode) := rfl
  have hlower := hu.lower_append_spaces (stripChars pyIsSpace (unicode.nfkc (pagePart name)))
    hafter [] (.inr rfl)
  rw [List.append_nil, hu.lower_nil, List.append_nil] at hlower
  have hwords : normalWords unicode (pagePart name)
      = slugWords ((unicode.lower (before ++ (stripChars pyIsSpace
        (unicode.nfkc (pagePart name)) ++ after))).filter (isSlugChar unicode)) := by
    rw [← List.append_assoc, ← heq]
    rfl
  rw [hwords, hu.lower_spaces hbefore, hlower, List.filter_append, List.filter_append,
    filter_spaces unicode hbefore, filter_spaces unicode hafter, slugWords_spaces hbefore]
  have hend := slugWords_append_spaces ((unicode.lower (stripChars pyIsSpace
    (unicode.nfkc (pagePart name)))).filter (isSlugChar unicode)) hafter [] (.inr rfl)
  rw [List.append_nil, slugWords_nil, List.append_nil] at hend
  rw [hend, hkept]

/-- White space in a name makes no difference to its slug. -/
theorem UnicodeData.Spaced.slugifyChars_collapseSpace (name : List Char) :
    slugifyChars unicode (collapseSpace name) = slugifyChars unicode name := by
  have hcut : ∀ text : List Char, pagePart text = text.takeWhile fun c ↦ c != '#' && c != '|' := by
    intro text
    rw [pagePart, List.takeWhile_takeWhile]
    congr 1
    funext c
    rw [Bool.decide_and, Bool.decide_eq_true, Bool.decide_eq_true]
  have hspace : ∀ c, pyIsSpace c = true → (c != '#' && c != '|') = true := by
    intro c hc
    rw [Bool.and_eq_true, bne_iff_ne, bne_iff_ne]
    constructor <;> rintro rfl <;> cases hc
  rw [hu.slugifyChars_eq_words, hu.slugifyChars_eq_words, hcut, hcut,
    splitWords_takeWhile_collapseSpace hspace]

theorem UnicodeData.Spaced.slugifyChars_nil : slugifyChars unicode [] = [] := by
  rw [hu.slugifyChars_eq_words]
  rfl

end Spaced

/-! ## The link to a page -/

def unbracketed (name : List Char) : List Char := (name.filter (· != '[')).filter (· != ']')

def linkName (name : List Char) : List Char := collapseSpace (unbracketed name)

def linkTo (name : List Char) : List Char := "[[".toList ++ name ++ "]]".toList

theorem linkTo_injective : Function.Injective linkTo := by
  intro name name' h
  exact List.append_cancel_left (List.append_cancel_right h)

theorem collapse_wikilink (name : List Char) :
    collapseSpace (stripChars pyIsSpace (wikilink name))
      = if linkName name = [] then [] else linkTo (linkName name) := by
  have hwords : ∀ text, splitWords (stripChars pyIsSpace
      (text.map fun c ↦ if c == '\n' then ' ' else c)) = splitWords text := by
    intro text
    rw [splitWords_stripChars]
    refine splitWords_map (fun c hc ↦ ?_) (fun c hc ↦ ?_) text
    · split
      · decide
      · exact hc
    · refine if_neg fun h ↦ ?_
      rw [beq_iff_eq.mp h] at hc
      cases hc
  have hcollapse : collapseSpace (stripChars pyIsSpace
      ((unbracketed name).map fun c ↦ if c == '\n' then ' ' else c)) = linkName name := by
    rw [collapseSpace, hwords, ← collapseSpace, linkName]
  have hstart := dropWhile_stripChars pyIsSpace
    ((unbracketed name).map fun c ↦ if c == '\n' then ' ' else c)
  have hend := endsInWord_stripChars
    ((unbracketed name).map fun c ↦ if c == '\n' then ' ' else c)
  rw [collapseSpace, splitWords_stripChars, ← collapseSpace]
  change collapseSpace (if stripChars pyIsSpace ((unbracketed name).map _) = [] then []
    else "[[".toList ++ stripChars pyIsSpace ((unbracketed name).map _) ++ "]]".toList) = _
  -- From here on only the ends of the cleaned text matter.
  generalize stripChars pyIsSpace
    ((unbracketed name).map fun c ↦ if c == '\n' then ' ' else c) = cleaned
    at hcollapse hstart hend
  by_cases hne : cleaned = []
  · rw [if_pos hne, ← hcollapse, hne]
    rfl
  · have hsome : collapseSpace cleaned ≠ [] := by
      intro hnil
      have hwords' := (joinWords_eq_nil fun _ h ↦ isWord_of_mem_splitWords h).mp hnil
      exact hne (hend.splitWords_eq_nil.mp hwords')
    have hbrackets : ∀ c ∈ "[[".toList, pyIsSpace c = false := by
      simp [show pyIsSpace '[' = false by decide]
    have hbrackets' : ∀ c ∈ "]]".toList, pyIsSpace c = false := by
      simp [show pyIsSpace ']' = false by decide]
    have hend' : ∀ c ∈ ("[[".toList ++ cleaned).getLast?, pyIsSpace c = false := by
      intro c hc
      rw [List.getLast?_append, List.getLast?_eq_some_getLast hne] at hc
      exact hend c (List.getLast?_eq_some_getLast hne ▸ hc)
    rw [if_neg hne, ← hcollapse, if_neg hsome,
      collapseSpace_append (List.append_ne_nil_of_right_ne_nil _ hne) hend' hbrackets',
      collapseSpace_prepend hne hstart hbrackets]
    rfl

theorem plain_linkName {name : List Char} {c : Char} (hc : c ∈ linkName name) :
    c ≠ '[' ∧ c ≠ ']' ∧ c ≠ '\n' := by
  have hline : c ≠ '\n' := by
    rintro rfl
    exact absurd (isLine_collapseSpace _ _ hc) (by decide)
  rcases mem_of_mem_collapseSpace hc with rfl | hmem
  · exact ⟨by decide, by decide, hline⟩
  · obtain ⟨hmem, hclose⟩ := List.mem_filter.mp hmem
    obtain ⟨-, hopen⟩ := List.mem_filter.mp hmem
    exact ⟨bne_iff_ne.mp hopen, bne_iff_ne.mp hclose, hline⟩

theorem targetsOf_linkTo {name : List Char} (hne : name ≠ [])
    (hplain : ∀ c ∈ name, c ≠ '[' ∧ c ≠ ']' ∧ c ≠ '\n') : targetsOf (linkTo name) = [name] := by
  have hmatch : matchWikilink (linkTo name) = some name :=
    matchWikilink_eq_some.mpr ⟨hne, hplain, ⟨[], List.append_nil _⟩⟩
  have hform : linkTo name = '[' :: '[' :: (name ++ [']', ']']) := rfl
  have hdrop : ('[' :: (name ++ [']', ']'])).drop (name.length + 3) = [] :=
    List.drop_eq_nil_of_le (by simp)
  rw [hform] at hmatch ⊢
  rw [targetsOf_cons, hmatch, targetsOf_inside hmatch, hdrop]
  rfl

/-- The links of a text, line by line. -/
theorem targetsOf_intercalate (lines : List (List Char)) :
    targetsOf (['\n'].intercalate lines) = lines.flatMap targetsOf := by
  induction lines with
  | nil => rfl
  | cons line lines ih =>
    cases lines with
    | nil =>
      rw [List.intercalate_singleton]
      exact (List.append_nil _).symm
    | cons next lines =>
      rw [List.intercalate_cons_cons, List.append_assoc, List.singleton_append,
        targetsOf_append_newline, ih]
      rfl

theorem targetsOf_subset_intercalate {paragraphs : List (List Char)} {paragraph : List Char}
    (h : paragraph ∈ paragraphs) :
    targetsOf paragraph ⊆ targetsOf (['\n', '\n'].intercalate paragraphs) := by
  induction paragraphs with
  | nil => exact absurd h List.not_mem_nil
  | cons first paragraphs ih =>
    cases paragraphs with
    | nil =>
      rw [List.mem_singleton.mp h, List.intercalate_singleton]
      exact List.Subset.refl _
    | cons next paragraphs =>
      have hblank : ∀ rest, targetsOf ('\n' :: rest) = targetsOf rest := fun rest ↦
        targetsOf_append_newline [] rest
      have hsplit : targetsOf (['\n', '\n'].intercalate (first :: next :: paragraphs))
          = targetsOf first ++ targetsOf (['\n', '\n'].intercalate (next :: paragraphs)) := by
        rw [List.intercalate_cons_cons, List.append_assoc, List.cons_append,
          targetsOf_append_newline, List.singleton_append, hblank]
      rw [hsplit]
      rcases List.mem_cons.mp h with rfl | h
      · exact List.subset_append_left _ _
      · exact List.Subset.trans (ih h) (List.subset_append_right _ _)

/-! ## The list of related pages -/

/-- The loop of `_dedupe_non_empty` without a limit, by the library's operation. -/
theorem dedupeNonEmptyFrom_none (deduped values : List (List Char)) :
    dedupeNonEmptyFrom none deduped values = deduped ++ dedupeFrom deduped
      ((values.map fun value ↦ collapseSpace (stripChars pyIsSpace value)).filter (· ≠ [])) := by
  induction values generalizing deduped with
  | nil => exact (List.append_nil _).symm
  | cons value values ih =>
    rw [dedupeNonEmptyFrom, List.map_cons]
    dsimp only
    by_cases hempty : collapseSpace (stripChars pyIsSpace value) = []
    · rw [if_pos (.inl hempty), List.filter_cons_of_neg (by simp [hempty]), ih]
    · rw [List.filter_cons_of_pos (by simpa using hempty), dedupeFrom]
      by_cases hmem : collapseSpace (stripChars pyIsSpace value) ∈ deduped
      · rw [if_pos (.inr hmem), if_pos hmem, ih]
      · rw [if_neg (not_or.mpr ⟨hempty, hmem⟩), if_neg hmem, ih, List.append_assoc]
        refine congrArg (deduped ++ ·) (congrArg (_ :: ·) (dedupeFrom_congr (fun text ↦ ?_) _))
        rw [List.mem_append, List.mem_singleton, List.mem_cons, or_comm]

/-- The section of the related pages: the list that `_render_page_markdown` puts there. -/
def relatedSection (pages : List (List Char)) : List Char :=
  "## Related Pages\n\n".toList ++ bulletLines (pages.map wikilink)

theorem cleaned_wikilinks (pages : List (List Char)) :
    ((pages.map wikilink).map fun value ↦
      collapseSpace (stripChars pyIsSpace value)).filter (· ≠ [])
        = ((pages.map linkName).filter (· ≠ [])).map linkTo := by
  induction pages with
  | nil => rfl
  | cons page pages ih =>
    simp only [List.map_cons, collapse_wikilink]
    by_cases hne : linkName page = []
    · rw [if_pos hne, List.filter_cons_of_neg (by simp), List.filter_cons_of_neg (by simp [hne])]
      exact ih
    · have hlink : linkTo (linkName page) ≠ [] := List.cons_ne_nil _ _
      rw [if_neg hne, List.filter_cons_of_pos (by simpa using hlink),
        List.filter_cons_of_pos (by simpa using hne), List.map_cons, ih]

private theorem brackets_not_mem_noItems : '[' ∉ noItems := by decide

theorem targetsOf_relatedSection (pages : List (List Char)) :
    targetsOf (relatedSection pages) = dedupeFrom [] ((pages.map linkName).filter (· ≠ [])) := by
  have hlisted : dedupeNonEmpty (pages.map wikilink) none
      = (dedupeFrom [] ((pages.map linkName).filter (· ≠ []))).map linkTo := by
    rw [dedupeNonEmpty, dedupeNonEmptyFrom_none, cleaned_wikilinks, map_dedupeFrom linkTo_injective,
      List.nil_append, List.map_nil]
  have hlines : (listLines (pages.map wikilink)).flatMap targetsOf
      = (dedupeNonEmpty (pages.map wikilink) none).flatMap targetsOf := by
    have hitem : ∀ text, targetsOf ("- ".toList ++ text) = targetsOf text := fun text ↦
      targetsOf_append_of_not_mem (by decide) text
    rw [listLines, List.flatMap_map, listedTexts]
    simp only [hitem]
    cases dedupeNonEmpty (pages.map wikilink) none with
    | cons text texts => rfl
    | nil =>
      have hplaceholder := targetsOf_append_of_not_mem brackets_not_mem_noItems []
      rw [List.append_nil] at hplaceholder
      rw [List.flatMap_cons, List.flatMap_nil, List.append_nil]
      exact hplaceholder
  have hheading : '[' ∉ "## Related Pages\n\n".toList := by decide
  have hlist : targetsOf (relatedSection pages) = targetsOf (bulletLines (pages.map wikilink)) :=
    targetsOf_append_of_not_mem hheading _
  rw [hlist, bulletLines_eq, targetsOf_intercalate, hlines, hlisted, List.flatMap_map]
  -- every name is the target of its own link, and of no other
  have hself : ∀ names : List (List Char), (∀ name ∈ names, targetsOf (linkTo name) = [name]) →
      names.flatMap (fun name ↦ targetsOf (linkTo name)) = names := by
    intro names
    induction names with
    | nil => exact fun _ ↦ rfl
    | cons name names ih =>
      intro h
      rw [List.flatMap_cons, h name List.mem_cons_self,
        ih fun other hother ↦ h other (List.mem_cons_of_mem _ hother)]
      rfl
  refine hself _ fun name hname ↦ ?_
  obtain ⟨hmem, hne⟩ := List.mem_filter.mp (mem_dedupeFrom.mp hname).1
  obtain ⟨page, -, rfl⟩ := List.mem_map.mp hmem
  exact targetsOf_linkTo (by simpa using hne) fun c hc ↦ plain_linkName hc

/-- **The links of the section.** They go to the slugs of the names without their brackets. -/
theorem extractWikilinks_relatedSection {unicode : UnicodeData} (hu : unicode.Spaced)
    (pages : List (List Char)) :
    extractWikilinks unicode (relatedSection pages) = (dedupeFrom [] ((pages.map fun page ↦
      slugifyChars unicode (unbracketed page)).filter (· != []))).map String.ofList := by
  have hslugs : ((((pages.map linkName).filter (· ≠ [])).map (slugifyChars unicode)).filter
      (· != [])) = (pages.map fun page ↦ slugifyChars unicode (unbracketed page)).filter
        (· != []) := by
    induction pages with
    | nil => rfl
    | cons page pages ih =>
      have hslug : slugifyChars unicode (linkName page)
          = slugifyChars unicode (unbracketed page) := hu.slugifyChars_collapseSpace _
      rw [List.map_cons, List.map_cons, List.filter_cons, List.filter_cons, ← hslug]
      by_cases hne : linkName page = []
      · rw [if_neg (by simpa using hne), hne, hu.slugifyChars_nil, if_neg (by simp), ih]
      · rw [if_pos (by simpa using hne), List.map_cons, List.filter_cons, ih]
  rw [extractWikilinks, findWikilinks_eq_targetsOf, List.drop_zero, targetsOf_relatedSection,
    dedupeFrom_map_dedupeFrom (fun _ h ↦ absurd h List.not_mem_nil), hslugs]

/-! ## The pages -/

theorem relatedPagesFrom_slugs (currentSlug : List Char) {seen : List (List Char)} {room : ℕ}
    {pages : List (List Char)} :
    (∀ page ∈ relatedPagesFrom unicode currentSlug seen room pages,
      slugifyChars unicode page ≠ [] ∧ slugifyChars unicode page ≠ currentSlug ∧
        slugifyChars unicode page ∉ seen) ∧
    ((relatedPagesFrom unicode currentSlug seen room pages).map (slugifyChars unicode)).Nodup := by
  induction pages generalizing seen room with
  | nil =>
    have hnil : relatedPagesFrom unicode currentSlug seen room [] = [] := by
      cases room <;> rfl
    rw [hnil]
    exact ⟨fun _ h ↦ absurd h List.not_mem_nil, List.nodup_nil⟩
  | cons page pages ih =>
    cases room with
    | zero => exact ⟨fun _ h ↦ absurd h List.not_mem_nil, List.nodup_nil⟩
    | succ room =>
      rw [relatedPagesFrom]
      split
      · exact ih
      · rename_i hnew
        obtain ⟨hne, hcurrent, hseen⟩ : slugifyChars unicode page ≠ [] ∧
            slugifyChars unicode page ≠ currentSlug ∧ slugifyChars unicode page ∉ seen := by
          simpa only [not_or] using hnew
        obtain ⟨hlater, hnodup⟩ := @ih (slugifyChars unicode page :: seen) room
        refine ⟨fun other hother ↦ ?_, ?_⟩
        · rcases List.mem_cons.mp hother with rfl | hother
          · exact ⟨hne, hcurrent, hseen⟩
          · obtain ⟨hne', hcurrent', hseen'⟩ := hlater other hother
            exact ⟨hne', hcurrent', fun h ↦ hseen' (List.mem_cons_of_mem _ h)⟩
        · rw [List.map_cons]
          refine List.nodup_cons.mpr ⟨fun h ↦ ?_, hnodup⟩
          obtain ⟨other, hother, heq⟩ := List.mem_map.mp h
          exact (hlater other hother).2.2 (heq ▸ List.mem_cons_self)

/-- **Related pages become backlinks.** The pages that were chosen have different slugs, none of
them empty or the slug of the page itself; the page links to all of them, so that storing it stores
the links; and its list of related pages links to nothing else. -/
structure BecomeBacklinks (title currentSlug : String) (evidence : CompilerEvidence)
    (claims : List (List Char)) : Prop where
  ne_empty : ∀ page ∈ extractRelatedPages unicode evidence currentSlug,
    slugifyWikiTarget unicode (String.ofList page) ≠ ""
  ne_current : ∀ page ∈ extractRelatedPages unicode evidence currentSlug,
    slugifyWikiTarget unicode (String.ofList page) ≠ currentSlug
  nodup : ((extractRelatedPages unicode evidence currentSlug).map fun page ↦
    slugifyWikiTarget unicode (String.ofList page)).Nodup
  linked : ∀ page ∈ extractRelatedPages unicode evidence currentSlug,
    slugifyWikiTarget unicode (String.ofList page) ∈
      extractWikilinks unicode (renderPageMarkdown unicode title currentSlug evidence claims)
  stored : ∀ (W : WikiStore) (nextId : ℕ) (outcomes : List (Option PyException))
    (update : PageUpdate) (detail : WikiPageDetail) (s : Session WikiStore PyException),
    update.content.content = renderPageMarkdown unicode title currentSlug evidence claims →
    update.content.contentFormat = "markdown" →
    WikiService.createOrUpdatePage unicode update (Session.start W nextId outcomes)
      = (.ok detail, s) →
    ∀ page ∈ extractRelatedPages unicode evidence currentSlug, ∃ link ∈ s.committed.links.rows,
      link.fromPageId = detail.page.id ∧
        link.toSlug = slugifyWikiTarget unicode (String.ofList page)
  section_links : extractWikilinks unicode
      (relatedSection (extractRelatedPages unicode evidence currentSlug))
    = (extractRelatedPages unicode evidence currentSlug).map fun page ↦
      slugifyWikiTarget unicode (String.ofList page)
  not_current : currentSlug ∉ extractWikilinks unicode
    (relatedSection (extractRelatedPages unicode evidence currentSlug))

section Pages

variable {unicode} {title currentSlug : String} {evidence : CompilerEvidence}

theorem mem_extractWikilinks {markdown : List Char} {slug : String} :
    slug ∈ extractWikilinks unicode markdown ↔ slug ≠ "" ∧ ∃ target ∈ targetsOf markdown,
      slugifyWikiTarget unicode (String.ofList target) = slug := by
  rw [extractWikilinks_eq, List.mem_eraseDups, List.mem_filter, List.mem_map]
  simp only [decide_eq_true_eq, and_comm]

theorem mem_extractWikilinks_render (claims : List (List Char)) {slug : String}
    (h : slug ∈ extractWikilinks unicode
      (relatedSection (extractRelatedPages unicode evidence currentSlug))) :
    slug ∈ extractWikilinks unicode
      (renderPageMarkdown unicode title currentSlug evidence claims) := by
  obtain ⟨hne, target, htarget, hslug⟩ := mem_extractWikilinks.mp h
  refine mem_extractWikilinks.mpr ⟨hne, target, ?_, hslug⟩
  unfold renderPageMarkdown
  refine targetsOf_subset_intercalate ?_ htarget
  -- the section is the fifth of the paragraphs
  simp only [List.mem_cons]
  exact .inr (.inr (.inr (.inr (.inl rfl))))

theorem stored_of_linked {W : WikiStore} {nextId : ℕ} {outcomes : List (Option PyException)}
    {update : PageUpdate} {detail : WikiPageDetail} {s : Session WikiStore PyException}
    (hformat : update.content.contentFormat = "markdown")
    (hrun : WikiService.createOrUpdatePage unicode update (Session.start W nextId outcomes)
      = (.ok detail, s)) {slug : String}
    (h : slug ∈ extractWikilinks unicode update.content.content) :
    ∃ link ∈ s.committed.links.rows, link.fromPageId = detail.page.id ∧ link.toSlug = slug := by
  have hstored := WikiService.outTx_createOrUpdatePage unicode W update _
    (Session.idle_start W nextId outcomes)
  rw [Triple, hrun] at hstored
  obtain ⟨W', hidle, resolved, page, W₁, -, -, hwritten⟩ := hstored
  obtain ⟨revision, rfl, W₂, -, hlinks⟩ := hwritten.detail
  obtain ⟨new, hrows, hslugs, hown⟩ := hlinks.links
  rw [linkTargets, if_pos hformat,
    dedupeSlugs_of_nodup (nodup_extractWikilinks unicode _)] at hslugs
  rw [← hslugs] at h
  obtain ⟨link, hlink, rfl⟩ := List.mem_map.mp h
  refine ⟨link, ?_, (hown link hlink).2, rfl⟩
  rw [hidle.committed, hrows]
  exact List.mem_append_right _ hlink

/-- **Which related pages become backlinks.** All of them do, exactly if the brackets in their
names make no difference to their slugs. -/
theorem becomeBacklinks_iff (hu : unicode.Spaced) (title currentSlug : String)
    (evidence : CompilerEvidence) (claims : List (List Char)) :
    BecomeBacklinks unicode title currentSlug evidence claims ↔
      ∀ page ∈ extractRelatedPages unicode evidence currentSlug,
        slugifyWikiTarget unicode (String.ofList (unbracketed page))
          = slugifyWikiTarget unicode (String.ofList page) := by
  have hinj : Function.Injective String.ofList := fun a b h ↦ by
    simpa using congrArg String.toList h
  have hslug : ∀ name, slugifyWikiTarget unicode (String.ofList name)
      = String.ofList (slugifyChars unicode name) := fun name ↦ by
    rw [slugifyWikiTarget, String.toList_ofList]
  obtain ⟨hnew, hnodup⟩ : (∀ page ∈ extractRelatedPages unicode evidence currentSlug,
      slugifyChars unicode page ≠ [] ∧ slugifyChars unicode page ≠ currentSlug.toList ∧
        slugifyChars unicode page ∉ []) ∧
      ((extractRelatedPages unicode evidence currentSlug).map (slugifyChars unicode)).Nodup :=
    relatedPagesFrom_slugs unicode currentSlug.toList
  have hmap : (extractRelatedPages unicode evidence currentSlug).map (fun page ↦
      slugifyWikiTarget unicode (String.ofList page))
        = ((extractRelatedPages unicode evidence currentSlug).map
          (slugifyChars unicode)).map String.ofList := by
    rw [List.map_map]
    exact List.map_congr_left fun page _ ↦ hslug page
  have hsection := extractWikilinks_relatedSection hu
    (extractRelatedPages unicode evidence currentSlug)
  constructor
  · intro h page hpage
    -- no slug is dropped, so the list is the list of slugs
    have heq := hsection.symm.trans (h.section_links.trans hmap)
    have hdeduped := List.map_injective_iff.mpr hinj heq
    have hsub := (dedupeFrom_sublist [] (((extractRelatedPages unicode evidence currentSlug).map
      fun page ↦ slugifyChars unicode (unbracketed page)).filter (· != []))).trans
        List.filter_sublist
    rw [hdeduped] at hsub
    have hsame := hsub.eq_of_length (by rw [List.length_map, List.length_map])
    rw [hslug, hslug, List.map_inj_left.mp hsame page hpage]
  · intro h
    have hsame : (extractRelatedPages unicode evidence currentSlug).map (fun page ↦
        slugifyChars unicode (unbracketed page))
          = (extractRelatedPages unicode evidence currentSlug).map (slugifyChars unicode) :=
      List.map_congr_left fun page hpage ↦ hinj (by rw [← hslug, ← hslug, h page hpage])
    have hall : ((extractRelatedPages unicode evidence currentSlug).map
        (slugifyChars unicode)).filter (· != [])
          = (extractRelatedPages unicode evidence currentSlug).map (slugifyChars unicode) := by
      refine List.filter_eq_self.mpr fun slug hmem ↦ ?_
      obtain ⟨page, hpage, rfl⟩ := List.mem_map.mp hmem
      exact bne_iff_ne.mpr (hnew page hpage).1
    rw [hsame, hall, dedupeFrom_eq_self hnodup (fun _ _ h ↦ absurd h List.not_mem_nil), ← hmap]
      at hsection
    have hcurrent : ∀ page ∈ extractRelatedPages unicode evidence currentSlug,
        slugifyWikiTarget unicode (String.ofList page) ≠ currentSlug := by
      intro page hpage heq
      refine (hnew page hpage).2.1 ?_
      rw [← heq, hslug, String.toList_ofList]
    have hlinked : ∀ page ∈ extractRelatedPages unicode evidence currentSlug,
        slugifyWikiTarget unicode (String.ofList page) ∈ extractWikilinks unicode
          (renderPageMarkdown unicode title currentSlug evidence claims) := fun page hpage ↦
      mem_extractWikilinks_render claims (hsection ▸ List.mem_map.mpr ⟨page, hpage, rfl⟩)
    refine ⟨fun page hpage heq ↦ ?_, hcurrent, ?_, hlinked, ?_, hsection, fun hmem ↦ ?_⟩
    · rw [hslug] at heq
      exact (hnew page hpage).1 (hinj heq)
    · rw [hmap]
      exact hnodup.map hinj
    · intro W nextId outcomes update detail s hcontent hformat hrun page hpage
      exact stored_of_linked hformat hrun (hcontent ▸ hlinked page hpage)
    · rw [hsection] at hmem
      obtain ⟨page, hpage, heq⟩ := List.mem_map.mp hmem
      exact hcurrent page hpage heq

end Pages

theorem toLower_of_space {c : Char} (h : pyIsSpace c = true) : c.toLower = c := by
  unfold Char.toLower
  refine dif_neg fun hupper ↦ ?_
  simp only [pyIsSpace, UInt32.le_iff_toNat_le] at h hupper
  grind [Char.toNat_val]

/-- ASCII text is normalised already, and lowered letter by letter. -/
theorem spaced_asciiData : asciiData.Spaced where
  nfkc_nil := rfl
  lower_nil := rfl
  nfkc_space a b c _ := by
    rw [List.append_assoc]
    rfl
  nfkc_isSpace c hc := ⟨List.cons_ne_nil _ _, fun d hd ↦ List.mem_singleton.mp hd ▸ hc⟩
  lower_space a b c hc := by
    change (a ++ c :: b).map Char.toLower = a.map Char.toLower ++ c :: b.map Char.toLower
    rw [List.map_append, List.map_cons, toLower_of_space hc]

/-- Evidence with these related pages. -/
def relatedTo (names : List String) : CompilerEvidence where
  query := "q"
  answer := "Alpha is supported."
  metadata := [(.str "related_pages", .list (names.map .str))]
  sourceId := none
  sources := []

/-- Brackets around a word make no difference. -/
theorem bracketed_names_linked :
    BecomeBacklinks asciiData "Alpha" "alpha" (relatedTo ["[Beta] One", "Gamma | g"]) [] :=
  (becomeBacklinks_iff spaced_asciiData "Alpha" "alpha" _ []).mpr (by decide +kernel)

/-! ## A bracket that keeps characters apart -/

/-- NFKC, of a letter and an acute accent. -/
def composeAcute : List Char → List Char
  | 'e' :: '\u0301' :: cs => 'é' :: composeAcute cs
  | c :: cs => c :: composeAcute cs
  | [] => []

/-- What the functions of the text library do with such text. -/
def acuteData : UnicodeData :=
  { asciiData with
    nfkc := composeAcute
    isWord := fun c ↦ asciiData.isWord c || c == 'é' }

/-- The page is chosen as `cafe`, and linked as `café`. -/
theorem accented_name_not_linked :
    ¬BecomeBacklinks acuteData "Alpha" "alpha" (relatedTo ["Cafe[\u0301]"]) [] := by
  intro h
  have hlinks := h.section_links
  revert hlinks
  decide +kernel

end KnowledgeAlakazam
