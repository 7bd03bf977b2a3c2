import KnowledgeAlakazam.Wiki.PageSections

/-!
# The limits of claims and summaries

A page has at most eight claims, each a clean text that comes once, and a summary. Their lengths
are meant to be limited too: `_truncate` leaves a text that fits as it is, and cuts one that does
not. But it leaves room for one character and adds three, so a text that was cut is always longer
than the limit. Hence the limits hold exactly if nothing had to be cut, which `CandidatesFit` says
of the texts that claims are made of.
-/

namespace KnowledgeAlakazam

variable (unicode : UnicodeData)

/-! ## Cut texts -/

/-- A text that fits is left as it is, but for its white space. -/
theorem truncate_of_le {value : List Char} {maxLength : ℕ}
    (h : (collapseSpace value).length ≤ maxLength) :
    truncate value maxLength = collapseSpace value := by
  rw [truncate, if_pos h]

/-- **A text that was cut is too long**, and clean. -/
theorem truncate_of_lt {value : List Char} {maxLength : ℕ} (hpos : 2 ≤ maxLength)
    (h : maxLength < (collapseSpace value).length) :
    IsClean (truncate value maxLength) ∧ maxLength < (truncate value maxLength).length := by
  have hwords : ∀ word ∈ splitWords value, IsWord word := fun _ h ↦ isWord_of_mem_splitWords h
  obtain ⟨cut, hcut, hne, hstrip, hlength⟩ := exists_cut hwords (n := maxLength - 1)
    (Nat.le_trans (Nat.sub_le _ _) (Nat.le_of_lt h))
  have htruncate : truncate value maxLength = joinWords cut ++ "...".toList := by
    rw [truncate, if_neg (by omega), sliceTo_pred _ (by omega), ← hstrip]
    rfl
  have hdots : "...".toList = List.replicate 3 '.' := rfl
  constructor
  · -- the dots belong to the last word
    obtain ⟨init, last, rfl⟩ := (List.eq_nil_or_concat' cut).resolve_left (hne (by omega))
    have hwords : ∀ word ∈ init ++ [last ++ "...".toList], IsWord word := by
      intro word hword
      rcases List.mem_append.mp hword with hword | hword
      · exact hcut word (List.mem_append_left _ hword)
      · have hlast := hcut last (List.mem_append_right _ List.mem_cons_self)
        rw [List.mem_singleton.mp hword]
        refine ⟨fun hnil ↦ hlast.1 (List.append_eq_nil_iff.mp hnil).1, fun c hc ↦ ?_⟩
        rcases List.mem_append.mp hc with hc | hc
        · exact hlast.2 c hc
        · rw [hdots] at hc
          rw [List.eq_of_mem_replicate hc]
          decide
    rw [htruncate, ← joinWords_append_last]
    refine ⟨fun hnil ↦ ?_, by rw [collapseSpace, splitWords_joinWords hwords]⟩
    exact absurd ((joinWords_eq_nil hwords).mp hnil) (by simp)
  · rw [htruncate, List.length_append, hdots, List.length_replicate]
    omega

/-! ## The first distinct texts -/

theorem isPrefix_dedupeNonEmptyFrom (deduped values : List (List Char)) :
    deduped <+: dedupeNonEmptyFrom none deduped values := by
  induction values generalizing deduped with
  | nil => exact List.prefix_refl _
  | cons value values ih =>
    rw [dedupeNonEmptyFrom]
    dsimp only
    split
    · exact ih deduped
    · exact (List.prefix_append _ _).trans (ih _)

/-- A loop with a limit lists the first texts of what the loop without one does. -/
theorem dedupeNonEmptyFrom_some {limit : ℕ} {deduped : List (List Char)}
    (h : deduped.length < limit) (values : List (List Char)) :
    dedupeNonEmptyFrom (some limit) deduped values
      = (dedupeNonEmptyFrom none deduped values).take limit := by
  induction values generalizing deduped with
  | nil => exact (List.take_of_length_le (Nat.le_of_lt h)).symm
  | cons value values ih =>
    rw [dedupeNonEmptyFrom, dedupeNonEmptyFrom]
    dsimp only
    split
    · exact ih h
    · split
      · rename_i hfull
        rw [List.length_append, List.length_singleton] at hfull
        obtain ⟨later, hlater⟩ := isPrefix_dedupeNonEmptyFrom
          (deduped ++ [collapseSpace (stripChars pyIsSpace value)]) values
        rw [← hlater, List.take_left' (by rw [List.length_append, List.length_singleton]; omega)]
      · rename_i hroom
        exact ih (Nat.lt_of_not_le hroom)

theorem dedupeNonEmptyFrom_cons (deduped : List (List Char)) (value : List Char)
    (values : List (List Char)) : dedupeNonEmptyFrom none deduped (value :: values)
      = dedupeNonEmptyFrom none (dedupeNonEmptyFrom none deduped [value]) values := by
  rw [dedupeNonEmptyFrom, dedupeNonEmptyFrom]
  dsimp only
  split <;> rfl

theorem mem_dedupeNonEmptyFrom_singleton {deduped : List (List Char)} {value text : List Char}
    (hvalue : collapseSpace value = value)
    (h : text ∈ dedupeNonEmptyFrom none deduped [value]) : text ∈ deduped ∨ text = value := by
  rw [dedupeNonEmptyFrom, collapseSpace, splitWords_stripChars, ← collapseSpace, hvalue] at h
  dsimp only at h
  split at h
  · exact .inl h
  · exact (List.mem_append.mp h).imp_right List.mem_singleton.mp

/-- The texts that come before `limit` distinct ones are listed fit. -/
def FirstFit (limit maxLength : ℕ) (deduped texts : List (List Char)) : Prop :=
  ∀ before text after, texts = before ++ text :: after →
    (dedupeNonEmptyFrom none deduped before).length < limit → text.length ≤ maxLength

theorem firstFit_cons {limit maxLength : ℕ} {deduped texts : List (List Char)}
    {first : List Char} (hfits : first.length ≤ maxLength) :
    FirstFit limit maxLength deduped (first :: texts) ↔
      FirstFit limit maxLength (dedupeNonEmptyFrom none deduped [first]) texts := by
  constructor
  · rintro h before text after rfl hlength
    exact h (first :: before) text after rfl (by rwa [dedupeNonEmptyFrom_cons])
  · intro h before text after heq hlength
    cases before with
    | nil => exact (List.cons.inj heq).1 ▸ hfits
    | cons other before =>
      obtain ⟨rfl, rfl⟩ := List.cons.inj heq
      exact h before text after rfl (by rwa [← dedupeNonEmptyFrom_cons])

/-- **The first distinct texts fit** after they were cut exactly if none of them had to be cut. -/
theorem forall_take_truncate_iff {limit maxLength : ℕ} (hpos : 2 ≤ maxLength)
    {deduped : List (List Char)} (hdeduped : ∀ text ∈ deduped, text.length ≤ maxLength)
    {texts : List (List Char)} (hclean : ∀ text ∈ texts, collapseSpace text = text) :
    (∀ text ∈ (dedupeNonEmptyFrom none deduped (texts.map (truncate · maxLength))).take limit,
      text.length ≤ maxLength) ↔ FirstFit limit maxLength deduped texts := by
  induction texts generalizing deduped with
  | nil =>
    refine iff_of_true (fun text htext ↦ hdeduped text (List.mem_of_mem_take htext)) ?_
    rintro before text after heq
    exact absurd heq (by simp)
  | cons first texts ih =>
    have hfirst := hclean first List.mem_cons_self
    have hrest : ∀ text ∈ texts, collapseSpace text = text := fun text htext ↦
      hclean text (List.mem_cons_of_mem _ htext)
    rcases Nat.lt_or_ge maxLength first.length with hlong | hfits
    · have hover : maxLength < (collapseSpace first).length := by rwa [hfirst]
      obtain ⟨hcut, hlonger⟩ := truncate_of_lt hpos hover
      have hnew : truncate first maxLength ∉ deduped := fun hmem ↦
        Nat.not_lt.mpr (hdeduped _ hmem) hlonger
      obtain ⟨later, hlater⟩ := isPrefix_dedupeNonEmptyFrom (deduped ++ [truncate first maxLength])
        (texts.map (truncate · maxLength))
      rw [List.map_cons, dedupeNonEmptyFrom_cons_of_new hcut hnew, ← hlater, List.append_assoc]
      rcases Nat.lt_or_ge deduped.length limit with hroom | hfull
      · -- the long text is listed, and too long
        refine iff_of_false (fun h ↦ ?_) fun h ↦ ?_
        · refine Nat.not_lt.mpr (h (truncate first maxLength) ?_) hlonger
          rw [List.take_append]
          refine List.mem_append_right _ ?_
          rw [List.singleton_append, List.take_cons (by omega)]
          exact List.mem_cons_self
        · exact Nat.not_lt.mpr (h [] first texts rfl hroom) hlong
      · -- nothing more is listed
        refine iff_of_true (fun text htext ↦ ?_) fun before text after _ hlength ↦ ?_
        · rw [List.take_append_of_le_length hfull] at htext
          exact hdeduped text (List.mem_of_mem_take htext)
        · have hle := (isPrefix_dedupeNonEmptyFrom deduped before).length_le
          omega
    · rw [List.map_cons, truncate_of_le (by rwa [hfirst]), hfirst, dedupeNonEmptyFrom_cons,
        firstFit_cons hfits]
      refine ih (fun text htext ↦ ?_) hrest
      rcases mem_dedupeNonEmptyFrom_singleton hfirst htext with htext | rfl
      · exact hdeduped text htext
      · exact hfits

/-! ## Claims -/

/-- Where claims come from: the texts of the metadata, or else the lines of the answer. -/
def claimLines (evidence : CompilerEvidence) : List (List Char) :=
  match (metadataClaims unicode evidence.metadata).map String.toList with
  | [] => splitLines evidence.answer.toList
  | texts => texts

/-- The texts that claims are cut from: the lines without their markers that are long enough, or
else the answer as a whole without its marker. -/
def claimCandidates (evidence : CompilerEvidence) : List (List Char) :=
  let texts := ((claimLines unicode evidence).map (stripMarkdownNoise unicode)).filter
    (12 ≤ ·.length)
  if texts = [] ∧ stripChars pyIsSpace evidence.answer.toList ≠ [] then
    [stripMarkdownNoise unicode evidence.answer.toList]
  else texts

variable {unicode}

theorem collapseSpace_stripMarkdownNoise (value : List Char) :
    collapseSpace (stripMarkdownNoise unicode value) = stripMarkdownNoise unicode value := by
  rw [stripMarkdownNoise]
  split
  · rfl
  · exact collapseSpace_collapseSpace _

theorem collapseSpace_claimCandidate {evidence : CompilerEvidence} {text : List Char}
    (h : text ∈ claimCandidates unicode evidence) : collapseSpace text = text := by
  rw [claimCandidates] at h
  split at h
  · rw [List.mem_singleton.mp h]
    exact collapseSpace_stripMarkdownNoise _
  · obtain ⟨value, -, rfl⟩ := List.mem_map.mp (List.mem_of_mem_filter h)
    exact collapseSpace_stripMarkdownNoise value

theorem truncate_ne_nil {value : List Char} {maxLength : ℕ} (hpos : 2 ≤ maxLength)
    (h : collapseSpace value ≠ []) : truncate value maxLength ≠ [] := by
  rcases Nat.lt_or_ge maxLength (collapseSpace value).length with hlong | hfits
  · exact (truncate_of_lt hpos hlong).1.1
  · rwa [truncate_of_le hfits]

theorem filter_cleanClaim (values : List (List Char)) :
    (values.map (cleanClaim unicode)).filter (· ≠ [])
      = ((values.map (stripMarkdownNoise unicode)).filter (12 ≤ ·.length)).map
        (truncate · maxClaimLength) := by
  induction values with
  | nil => rfl
  | cons value values ih =>
    rw [List.map_cons, List.map_cons, cleanClaim]
    rcases Nat.lt_or_ge (stripMarkdownNoise unicode value).length 12 with hshort | hlong
    · rw [if_pos hshort, List.filter_cons_of_neg (by simp), ih,
        List.filter_cons_of_neg (by simpa using hshort)]
    · have hne : truncate (stripMarkdownNoise unicode value) maxClaimLength ≠ [] := by
        refine truncate_ne_nil (by decide) ?_
        rw [collapseSpace_stripMarkdownNoise]
        exact List.ne_nil_of_length_pos (by omega)
      rw [if_neg (Nat.not_lt.mpr hlong), List.filter_cons_of_pos (by simpa using hne), ih,
        List.filter_cons_of_pos (by simpa using hlong), List.map_cons]

/-- Claims are the first distinct candidates, cut. -/
theorem extractClaimTexts_eq (evidence : CompilerEvidence) :
    extractClaimTexts unicode evidence = dedupeNonEmpty
      ((claimCandidates unicode evidence).map (truncate · maxClaimLength))
        (some maxClaimsPerPage) := by
  have hclaims : extractClaimTexts unicode evidence = dedupeNonEmpty
      (if ((claimLines unicode evidence).map (cleanClaim unicode)).filter (· ≠ []) = [] ∧
          stripChars pyIsSpace evidence.answer.toList ≠ [] then
        [truncate (stripMarkdownNoise unicode evidence.answer.toList) maxClaimLength]
      else ((claimLines unicode evidence).map (cleanClaim unicode)).filter (· ≠ []))
        (some maxClaimsPerPage) := rfl
  rw [hclaims, filter_cleanClaim, claimCandidates, apply_ite (List.map (truncate · maxClaimLength))]
  simp only [List.map_eq_nil_iff, List.map_singleton]

/-! ## The limits -/

/-- The limits of claims and summaries. -/
structure WithinLimits (unicode : UnicodeData) (evidence : CompilerEvidence) : Prop where
  claims_count : (extractClaimTexts unicode evidence).length ≤ maxClaimsPerPage
  claims_nodup : (extractClaimTexts unicode evidence).Nodup
  claims_clean : ∀ claim ∈ extractClaimTexts unicode evidence, IsClean claim
  claims_length : ∀ claim ∈ extractClaimTexts unicode evidence, claim.length ≤ maxClaimLength
  summary_clean : IsClean (summaryFromAnswer unicode evidence.answer.toList)
  summary_length : (summaryFromAnswer unicode evidence.answer.toList).length ≤ maxSummaryLength
  /-- `_truncate` changes nothing but the white space of a text that fits. -/
  fits : ∀ text limit, text.length ≤ limit ∨ (collapseSpace text).length ≤ limit →
    truncate text limit = collapseSpace text

theorem isClean_summaryFromAnswer (answer : List Char) :
    IsClean (summaryFromAnswer unicode answer) := by
  rw [summaryFromAnswer]
  split
  · exact ⟨by decide, by decide⟩
  · rename_i hne
    rw [← collapseSpace_stripMarkdownNoise] at hne
    rcases Nat.lt_or_ge maxSummaryLength
      (collapseSpace (stripMarkdownNoise unicode answer)).length with hlong | hfits
    · exact (truncate_of_lt (by decide) hlong).1
    · rw [truncate_of_le hfits]
      exact isClean_collapseSpace hne

theorem length_summaryFromAnswer_le_iff (answer : List Char) :
    (summaryFromAnswer unicode answer).length ≤ maxSummaryLength ↔
      (stripMarkdownNoise unicode answer).length ≤ maxSummaryLength := by
  rw [summaryFromAnswer]
  split
  · rename_i hnil
    rw [hnil]
    exact iff_of_true (by decide) (Nat.zero_le _)
  · rcases Nat.lt_or_ge maxSummaryLength (stripMarkdownNoise unicode answer).length with
      hlong | hfits
    · have hover : maxSummaryLength < (collapseSpace (stripMarkdownNoise unicode answer)).length :=
        by rwa [collapseSpace_stripMarkdownNoise]
      exact iff_of_false (Nat.not_le.mpr (truncate_of_lt (by decide) hover).2)
        (Nat.not_le.mpr hlong)
    · rw [truncate_of_le (by rwa [collapseSpace_stripMarkdownNoise]),
        collapseSpace_stripMarkdownNoise]

variable (unicode)

/-- **When the limits hold**: no text had to be cut among the candidates for claims that come before
eight distinct ones, and the summary did not have to be cut either. -/
theorem withinLimits_iff (evidence : CompilerEvidence) :
    WithinLimits unicode evidence ↔
      FirstFit maxClaimsPerPage maxClaimLength [] (claimCandidates unicode evidence) ∧
        (stripMarkdownNoise unicode evidence.answer.toList).length ≤ maxSummaryLength := by
  have hlisted : extractClaimTexts unicode evidence = (dedupeNonEmptyFrom none []
      ((claimCandidates unicode evidence).map (truncate · maxClaimLength))).take
        maxClaimsPerPage := by
    rw [extractClaimTexts_eq, dedupeNonEmpty, dedupeNonEmptyFrom_some (by decide)]
  have hclaims : (∀ claim ∈ extractClaimTexts unicode evidence, claim.length ≤ maxClaimLength) ↔
      FirstFit maxClaimsPerPage maxClaimLength [] (claimCandidates unicode evidence) := by
    rw [hlisted]
    exact forall_take_truncate_iff (by decide) (fun _ h ↦ absurd h List.not_mem_nil)
      fun _ ↦ collapseSpace_claimCandidate
  rw [← hclaims, ← length_summaryFromAnswer_le_iff]
  constructor
  · exact fun h ↦ ⟨h.claims_length, h.summary_length⟩
  · rintro ⟨hclaims, hsummary⟩
    refine ⟨?_, ?_, ?_, hclaims, isClean_summaryFromAnswer _, hsummary, ?_⟩
    · rw [hlisted]
      exact List.length_take_le _ _
    · rw [extractClaimTexts_eq]
      exact nodup_dedupeNonEmpty _ _
    · rw [extractClaimTexts_eq]
      exact fun claim ↦ isClean_of_mem_dedupeNonEmpty
    · rintro text limit (hle | hle)
      · exact truncate_of_le (Nat.le_trans (length_collapseSpace_le text) hle)
      · exact truncate_of_le hle

def longWord : List Char := List.replicate 701 'a'

def longAnswer : CompilerEvidence where
  query := "q"
  answer := String.ofList longWord
  metadata := []
  sourceId := none
  sources := []

/-- A word is not changed by the cleaning, unless it ends in a colon. -/
theorem stripMarkdownNoise_word {word : List Char} (hword : IsWord word)
    (hcolon : word.getLast? ≠ some ':') : stripMarkdownNoise asciiData word = word := by
  have hwords : answerWords asciiData word = [word] := by
    rw [answerWords, hword.splitWords]
    rfl
  rw [stripMarkdownNoise_eq asciiData_decimal, hwords, joinWords_singleton, if_neg]
  rintro ⟨-, hlast⟩
  exact hcolon hlast

theorem isWord_longWord : IsWord longWord := by
  refine ⟨List.ne_nil_of_length_pos ?_, fun c hc ↦ ?_⟩
  · rw [longWord, List.length_replicate]
    omega
  · rw [List.eq_of_mem_replicate hc]
    decide

theorem claimCandidates_longAnswer : claimCandidates asciiData longAnswer = [longWord] := by
  have hanswer : longAnswer.answer.toList = longWord := String.toList_ofList
  have hline : IsLine longWord := fun c hc ↦ by
    rw [List.eq_of_mem_replicate hc]
    decide
  have hlines : claimLines asciiData longAnswer = [longWord] := by
    rw [← hline.splitLines_self isWord_longWord.1, ← hanswer]
    rfl
  have hcolon : longWord.getLast? ≠ some ':' := fun hlast ↦
    absurd (List.eq_of_mem_replicate (List.mem_of_getLast? hlast)) (by decide)
  have hlong : 12 ≤ longWord.length := by
    rw [longWord, List.length_replicate]
    omega
  rw [claimCandidates, hlines, List.map_singleton, stripMarkdownNoise_word isWord_longWord hcolon,
    List.filter_cons_of_pos (by simpa using hlong), List.filter_nil, if_neg]
  rintro ⟨hnil, -⟩
  cases hnil

/-- **A claim that is cut is longer** than the limit. -/
theorem long_claim_exceeds_limit : ¬WithinLimits asciiData longAnswer := by
  intro h
  have hlong : maxClaimLength < (collapseSpace longWord).length := by
    rw [collapseSpace, isWord_longWord.splitWords, joinWords_singleton, longWord,
      List.length_replicate]
    decide
  obtain ⟨hclean, hlonger⟩ := truncate_of_lt (by decide) hlong
  have hlisted : extractClaimTexts asciiData longAnswer = [truncate longWord maxClaimLength] := by
    rw [extractClaimTexts_eq, claimCandidates_longAnswer, List.map_singleton, dedupeNonEmpty,
      dedupeNonEmptyFrom_some (by decide),
      dedupeNonEmptyFrom_cons_of_new hclean List.not_mem_nil]
    rfl
  refine Nat.not_le.mpr hlonger (h.claims_length _ ?_)
  rw [hlisted]
  exact List.mem_cons_self

end KnowledgeAlakazam
