import KnowledgeAlakazam.Wiki.Links
import KnowledgeAlakazam.Wiki.SlugWords
import Mathlib.Data.List.TakeWhile

/-!
# Is a slug the address of its page?

The slug a page is stored under is handed out as its address, and every call that receives it,
`get_page`, `create_revision`, `get_backlinks` and the compiler's own calls, sends it through
`slugify_wiki_target` again. So the address works just if a slug is its own slug.

It is clean in every case: the words of a slug are letters and digits. But the text is normalised
before the characters that are no letters are deleted from it, and the deletion may bring together
characters that normalisation would have composed, such as the parts of a Korean syllable. The
exact condition, `stableAddress_iff`, is that normalising the words that are left after the
deletion changes nothing. The failing input is `unstable_jamo`.
-/

namespace KnowledgeAlakazam

variable (unicode : UnicodeData)

/-- `unicodedata.normalize("NFKC", page_part).strip().lower()`. -/
def normalForm (text : List Char) : List Char :=
  unicode.lower (stripChars pyIsSpace (unicode.nfkc text))

/-- What the first substitution of `slugify_wiki_target` leaves of a value. -/
def keptText (value : List Char) : List Char :=
  (normalForm unicode ((value.takeWhile (· != '|')).takeWhile (· != '#'))).filter
    (isSlugChar unicode)

/-- A letter or a digit: `\w` without the underscore. -/
def isSlugLetter (c : Char) : Bool := unicode.isWord c && c != '_'

def SlugWord (word : List Char) : Prop := word ≠ [] ∧ ∀ c ∈ word, isSlugLetter unicode c = true

/-- What slugs rely on in the Unicode database. -/
structure UnicodeData.Regular (unicode : UnicodeData) : Prop where
  /-- White space is not matched by `\w`. -/
  isWord_space : ∀ c, pyIsSpace c = true → unicode.isWord c = false
  /-- Nor are these. -/
  isWord_punctuation : ∀ c ∈ ['-', '|', '#'], unicode.isWord c = false
  /-- NFKC does not look beyond a hyphen. -/
  nfkc_hyphen : ∀ a b, unicode.nfkc (a ++ '-' :: b) = unicode.nfkc a ++ '-' :: unicode.nfkc b
  /-- Nor does `lower`. -/
  lower_hyphen : ∀ a b, unicode.lower (a ++ '-' :: b) = unicode.lower a ++ '-' :: unicode.lower b
  /-- A word of characters that occur in normalised texts may be composed when it is normalised,
  but stays a word. -/
  word : ∀ word, SlugWord unicode word → (∀ c ∈ word, ∃ text, c ∈ normalForm unicode text) →
    SlugWord unicode (unicode.nfkc word) ∧ SlugWord unicode (unicode.lower (unicode.nfkc word))

/-! ## The words of a slug -/

section Words

variable {unicode}

/-- The slug is the words of what the deletion leaves, joined by hyphens. -/
theorem slugifyChars_eq (value : List Char) :
    slugifyChars unicode value = hyphenated (slugWords (keptText unicode value)) :=
  strip_hyphenateRuns (keptText unicode value)

theorem slugWord_of_mem {value word : List Char} (h : word ∈ slugWords (keptText unicode value)) :
    SlugWord unicode word ∧ ∀ c ∈ word, ∃ text, c ∈ normalForm unicode text := by
  obtain ⟨hne, hword⟩ := mem_slugWords h
  refine ⟨⟨hne, fun c hc ↦ ?_⟩, fun c hc ↦ ⟨_, (List.mem_filter.mp (hword c hc).1).1⟩⟩
  obtain ⟨hmem, hgap⟩ := hword c hc
  have hkept := (List.mem_filter.mp hmem).2
  simp only [isSlugGap, Bool.or_eq_false_iff] at hgap
  rw [isSlugChar, hgap.1.1, hgap.2, Bool.or_false, Bool.or_false] at hkept
  rw [isSlugLetter, hkept, bne, hgap.1.2]
  rfl

variable (hr : unicode.Regular)

namespace UnicodeData.Regular
include hr

theorem not_gap {c : Char} (hc : isSlugLetter unicode c = true) : isSlugGap c = false := by
  rw [isSlugLetter, Bool.and_eq_true] at hc
  have hspace : pyIsSpace c = false := by
    by_contra h
    rw [hr.isWord_space c (by simpa using h)] at hc
    exact absurd hc.1 (by simp)
  have hhyphen : c ≠ '-' := by
    rintro rfl
    rw [hr.isWord_punctuation '-' (by simp)] at hc
    exact absurd hc.1 (by simp)
  have hunderscore : c ≠ '_' := by simpa using hc.2
  simp [isSlugGap, hspace, hhyphen, hunderscore]

theorem plain {words : List (List Char)} (hw : ∀ word ∈ words, SlugWord unicode word) :
    ∀ word ∈ words, word ≠ [] ∧ ∀ c ∈ word, isSlugGap c = false := fun word hword ↦
  ⟨(hw word hword).1, fun c hc ↦ hr.not_gap ((hw word hword).2 c hc)⟩

theorem of_mem_hyphenated {words : List (List Char)} (hw : ∀ word ∈ words, SlugWord unicode word)
    {c : Char} (hc : c ∈ hyphenated words) :
    isSlugChar unicode c = true ∧ pyIsSpace c = false ∧ c ≠ '|' ∧ c ≠ '#' ∧ c ≠ '_' := by
  rcases KnowledgeAlakazam.of_mem_hyphenated hc with rfl | ⟨word, hword, hmem⟩
  · refine ⟨?_, by decide, by decide, by decide, by decide⟩
    rw [isSlugChar]
    exact Bool.or_true _
  · have hletter := (hw word hword).2 c hmem
    have hgap := hr.not_gap hletter
    rw [isSlugLetter, Bool.and_eq_true] at hletter
    refine ⟨by simp [isSlugChar, hletter.1], ?_, ?_, ?_, by simpa using hletter.2⟩
    · simp only [isSlugGap, Bool.or_eq_false_iff] at hgap
      exact hgap.1.1
    · rintro rfl
      exact absurd hletter.1 (by rw [hr.isWord_punctuation '|' (by simp)]; simp)
    · rintro rfl
      exact absurd hletter.1 (by rw [hr.isWord_punctuation '#' (by simp)]; simp)

theorem slugifyChars_hyphenated {words : List (List Char)} (hne : words ≠ [])
    (hw : ∀ word ∈ words, SlugWord unicode word ∧
      ∀ c ∈ word, ∃ text, c ∈ normalForm unicode text) :
    slugifyChars unicode (hyphenated words)
      = hyphenated (words.map fun word ↦ unicode.lower (unicode.nfkc word)) := by
  have hword := fun word hword ↦ (hw word hword).1
  have hcomposed : ∀ word ∈ words.map unicode.nfkc, SlugWord unicode word := fun w hmem ↦ by
    obtain ⟨word, hmem', rfl⟩ := List.mem_map.mp hmem
    exact (hr.word word (hw word hmem').1 (hw word hmem').2).1
  have hlowered : ∀ word ∈ words.map fun word ↦ unicode.lower (unicode.nfkc word),
      SlugWord unicode word := fun w hmem ↦ by
    obtain ⟨word, hmem', rfl⟩ := List.mem_map.mp hmem
    exact (hr.word word (hw word hmem').1 (hw word hmem').2).2
  have hpipe : (hyphenated words).takeWhile (· != '|') = hyphenated words :=
    List.takeWhile_eq_self_iff.mpr fun c hc ↦ by simpa using (hr.of_mem_hyphenated hword hc).2.2.1
  have hhash : (hyphenated words).takeWhile (· != '#') = hyphenated words :=
    List.takeWhile_eq_self_iff.mpr fun c hc ↦ by
      simpa using (hr.of_mem_hyphenated hword hc).2.2.2.1
  have hstrip : stripChars pyIsSpace (hyphenated (words.map unicode.nfkc))
      = hyphenated (words.map unicode.nfkc) :=
    stripChars_eq_self fun c hc ↦ (hr.of_mem_hyphenated hcomposed hc).2.1
  have hnormal : normalForm unicode (hyphenated words)
      = hyphenated (words.map fun word ↦ unicode.lower (unicode.nfkc word)) := by
    rw [normalForm, map_hyphenated hr.nfkc_hyphen hne, hstrip,
      map_hyphenated hr.lower_hyphen (by simpa using hne), List.map_map]
    rfl
  have hkept : keptText unicode (hyphenated words)
      = hyphenated (words.map fun word ↦ unicode.lower (unicode.nfkc word)) := by
    rw [keptText, hpipe, hhash, hnormal]
    exact List.filter_eq_self.mpr fun c hc ↦ (hr.of_mem_hyphenated hlowered hc).1
  rw [slugifyChars_eq, hkept, slugWords_hyphenated (hr.plain hlowered)]

/-- A slug is its own slug just if normalising its words changes nothing. -/
theorem slugifyChars_slugifyChars_iff {value : List Char} (hne : slugifyChars unicode value ≠ []) :
    slugifyChars unicode (slugifyChars unicode value) = slugifyChars unicode value ↔
      ∀ word ∈ slugWords (keptText unicode value), unicode.lower (unicode.nfkc word) = word := by
  have hw : ∀ word ∈ slugWords (keptText unicode value), SlugWord unicode word ∧
      ∀ c ∈ word, ∃ text, c ∈ normalForm unicode text := fun _ hword ↦ slugWord_of_mem hword
  have hwords : slugWords (keptText unicode value) ≠ [] := by
    intro hnil
    rw [slugifyChars_eq, hnil] at hne
    exact hne rfl
  rw [slugifyChars_eq value, hr.slugifyChars_hyphenated hwords hw]
  constructor
  · intro heq
    have hlowered : ∀ word ∈ (slugWords (keptText unicode value)).map fun word ↦
        unicode.lower (unicode.nfkc word), SlugWord unicode word := fun w hmem ↦ by
      obtain ⟨word, hmem', rfl⟩ := List.mem_map.mp hmem
      exact (hr.word word (hw word hmem').1 (hw word hmem').2).2
    have hmap := congrArg slugWords heq
    rw [slugWords_hyphenated (hr.plain hlowered),
      slugWords_hyphenated (hr.plain fun word hword ↦ (hw word hword).1)] at hmap
    exact List.map_inj_left.mp (hmap.trans (List.map_id _).symm)
  · intro hsame
    exact congrArg hyphenated ((List.map_inj_left.mpr hsame).trans (List.map_id _))

end UnicodeData.Regular

structure CleanSlug (slug : List Char) : Prop where
  /-- No character that separates the parts of a wikilink, no white space and no underscore. -/
  plain : ∀ c ∈ slug, c ≠ '|' ∧ c ≠ '#' ∧ pyIsSpace c = false ∧ c ≠ '_'
  /-- No hyphen at the beginning. -/
  head : slug.head? ≠ some '-'
  /-- No hyphen at the end. -/
  last : slug.getLast? ≠ some '-'
  /-- No two hyphens in a row. -/
  undoubled : ¬['-', '-'] <:+: slug

include hr in
theorem cleanSlug_slugifyChars (value : List Char) : CleanSlug (slugifyChars unicode value) := by
  have hw : ∀ word ∈ slugWords (keptText unicode value), SlugWord unicode word :=
    fun word hword ↦ (slugWord_of_mem hword).1
  have hplain : ∀ word ∈ slugWords (keptText unicode value), word ≠ [] ∧ '-' ∉ word :=
    fun word hword ↦ ⟨(hw word hword).1, fun hmem ↦ absurd isSlugGap_hyphen
      (by rw [hr.not_gap ((hw word hword).2 '-' hmem)]; simp)⟩
  rw [slugifyChars_eq]
  refine ⟨fun c hc ↦ ?_, head?_hyphenated hplain, getLast?_hyphenated hplain,
    not_doubled_hyphenated hplain⟩
  obtain ⟨-, hspace, hpipe, hhash, hunderscore⟩ := hr.of_mem_hyphenated hw hc
  exact ⟨hpipe, hhash, hspace, hunderscore⟩

end Words

/-! ## The calls that receive a slug -/

/-- The calls that receive the slug of a page find the page, as long as no statement is
interrupted. -/
structure Resolves (S : WikiStore) (tenantId : String) (page : WikiPage) : Prop where
  getPage : ∀ s : Session WikiStore PyException, s.Idle S → s.outcomes = [] →
    (WikiService.getPage unicode tenantId page.slug s).1 = .ok ⟨page, S.currentOf page⟩
  createRevision : ∀ (c : RevisionContent) (s : Session WikiStore PyException),
    s.Idle S → s.outcomes = [] →
    match (WikiService.createRevision unicode tenantId page.slug c s).1 with
    | .ok detail => ∃ revision, detail = ⟨(setCurrentPatch revision.id).app page, some revision⟩
    | .error e => e.className ≠ "WikiPageNotFoundError"
  getBacklinks : ∀ (postgres : PostgresData) (s : Session WikiStore PyException),
    s.Idle S → s.outcomes = [] → (WikiService.getBacklinks unicode postgres tenantId page.slug s).1
      = .ok (S.backlinks postgres tenantId page.slug)

/-- The slug of a title or slug is a stable address. -/
structure StableAddress (x : String) : Prop where
  stable : slugifyWikiTarget unicode (slugifyWikiTarget unicode x) = slugifyWikiTarget unicode x
  clean : CleanSlug (slugifyWikiTarget unicode x).toList
  resolves : ∀ update : PageUpdate, orElse update.slug update.title = x →
    ∀ (S : WikiStore) (s s' : Session WikiStore PyException) (detail : WikiPageDetail),
      s.Idle S → WikiService.createOrUpdatePage unicode update s = (.ok detail, s') →
      Resolves unicode s'.committed update.tenantId detail.page

section Resolves

variable {unicode} {W : WikiStore} {tenantId slug : String} {page : WikiPage}

open Program WikiService WikiRepository

/-- Not the error of a lookup that found nothing. -/
private def Found (e : PyException) : Prop := e.className ≠ "WikiPageNotFoundError"

private theorem found_integrityError (constraint : String) : Found (integrityError constraint) :=
  show "IntegrityError" ≠ "WikiPageNotFoundError" by decide

private theorem found_valueError (text : String) : Found (valueError text) :=
  show "ValueError" ≠ "WikiPageNotFoundError" by decide

private theorem raisesOnly_upsertPageRevision (pageId : ℕ) (c : RevisionContent) :
    RaisesOnly Found (upsertPageRevision pageId c) := by
  refine (RaisesOnly.query _).bind fun no ↦ (RaisesOnly.query _).bind fun found ↦ ?_
  have hflush : RaisesOnly Found (flushRevision pageId no c found) := by
    cases found with
    | none =>
      refine RaisesOnly.freshId.bind fun id ↦ RaisesOnly.statement fun w e h ↦ ?_
      split at h
      · cases h
      · exact Except.error.inj h ▸ found_integrityError _
    | some revision =>
      have hoverwrite : RaisesOnly Found (overwriteRevision revision c) :=
        RaisesOnly.statement fun w e h ↦ absurd h (by simp)
      exact hoverwrite
  refine hflush.bind fun revision ↦ RaisesOnly.bind ?_ fun _ ↦ RaisesOnly.pure revision
  refine RaisesOnly.statement fun w e h ↦ ?_
  split at h
  · cases h
  · exact Except.error.inj h ▸ found_valueError _

private theorem raisesOnly_replaceLinksForPage (tenantId : String) (pageId : ℕ)
    (toSlugs : List String) : RaisesOnly Found (replaceLinksForPage tenantId pageId toSlugs) := by
  have hdrop : RaisesOnly Found (statement (α := Unit) fun w : WikiStore ↦
      .ok ((), w.dropLinks tenantId pageId)) := RaisesOnly.statement fun w e h ↦ by cases h
  refine hdrop.bind fun _ ↦ ?_
  refine RaisesOnly.mapM' fun toSlug _ ↦ RaisesOnly.freshId.bind fun id ↦ ?_
  refine RaisesOnly.statement fun w e h ↦ ?_
  split at h
  · cases h
  · exact Except.error.inj h ▸ found_integrityError _

/-- What `_require_slug` makes of a slug that is its own slug. -/
theorem requireSlug_of_stable (hslug : slugifyWikiTarget unicode slug = slug) (hne : slug ≠ "") :
    requireSlug unicode slug = .ok slug := by
  rw [requireSlug, hslug]
  exact if_neg hne

theorem requirePage_of_outcomes {s : Session WikiStore PyException} (hs : s.outcomes = [])
    (hpage : s.working.pageBySlug tenantId slug = some page) :
    requirePage tenantId slug s = (.ok page, s.autobegin) := by
  refine (bind_ok (query_of_outcomes hs _)).trans ?_
  rw [hpage]
  rfl

variable (hpage : W.pageBySlug tenantId slug = some page)
include hpage

variable {address : String} (hslug : requireSlug unicode address = .ok slug)
include hslug

theorem getPage_of_requireSlug {s : Session WikiStore PyException} (hs : s.Idle W)
    (houtcomes : s.outcomes = []) :
    (getPage unicode tenantId address s).1 = .ok ⟨page, W.currentOf page⟩ := by
  have hrequire := requirePage_of_outcomes houtcomes (hs.working.symm ▸ hpage)
  have hcurrent : getCurrentRevision tenantId slug s.autobegin
      = (.ok (W.currentOf page), s.autobegin.autobegin) := by
    have hquery := query_of_outcomes (s := s.autobegin) houtcomes fun w : WikiStore ↦
      w.currentRevision tenantId slug
    rw [show s.autobegin.working = W from hs.working, WikiStore.currentRevision, hpage] at hquery
    exact hquery
  have hrun : getPage unicode tenantId address s = (requirePage tenantId slug >>= fun page ↦
      getCurrentRevision tenantId slug >>= fun revision ↦ Pure.pure ⟨page, revision⟩) s := by
    rw [getPage, hslug]
    rfl
  rw [hrun, bind_ok hrequire, bind_ok hcurrent]
  rfl

omit hpage in
theorem getBacklinks_of_requireSlug (postgres : PostgresData)
    {s : Session WikiStore PyException} (hs : s.Idle W) (houtcomes : s.outcomes = []) :
    (getBacklinks unicode postgres tenantId address s).1
      = .ok (W.backlinks postgres tenantId slug) := by
  rw [getBacklinks, hslug]
  refine (congrArg Prod.fst (query_of_outcomes houtcomes _)).trans ?_
  rw [hs.working]

theorem createRevision_of_requireSlug (c : RevisionContent) {s : Session WikiStore PyException}
    (hs : s.Idle W) (houtcomes : s.outcomes = []) :
    match (createRevision unicode tenantId address c s).1 with
    | .ok detail => ∃ revision, detail = ⟨(setCurrentPatch revision.id).app page, some revision⟩
    | .error e => e.className ≠ "WikiPageNotFoundError" := by
  rcases hrun : createRevision unicode tenantId address c s with ⟨e | detail, s'⟩
  · rw [createRevision, hslug] at hrun
    obtain ⟨s₁, s₁', hworking, hsame, hbody⟩ := transaction_error (bind_ok rfl ▸ hrun)
    have hrequire := requirePage_of_outcomes (hsame.trans houtcomes)
      (show s₁.working.pageBySlug tenantId slug = some page by rw [hworking, hs.working, hpage])
    rw [bind_ok hrequire] at hbody
    have hwrite := ((raisesOnly_upsertPageRevision page.id c).bind fun revision ↦
      (raisesOnly_replaceLinksForPage tenantId page.id (linkTargets unicode c)).bind fun _ ↦
        RaisesOnly.pure (⟨(setCurrentPatch revision.id).app page, some revision⟩ :
          WikiPageDetail)) s₁.autobegin (hsame.trans houtcomes)
    rcases hbody with hbody | ⟨detail, hbody, hinterrupted⟩
    · rw [Triple, hbody] at hwrite
      exact hwrite.2
    · rw [Triple, hbody] at hwrite
      exact absurd hwrite hinterrupted
  · obtain ⟨_, -, resolved, found, hresolved, hfound, hwritten⟩ :=
      (outTx_createRevision unicode W tenantId address c).ok hs hrun
    obtain rfl := Except.ok.inj (hslug.symm.trans hresolved)
    obtain rfl := Option.some.inj (hpage.symm.trans hfound)
    obtain ⟨revision, rfl, -⟩ := hwritten.detail
    exact ⟨revision, rfl⟩

end Resolves

theorem resolves_of_stable {x : String}
    (hstable : slugifyWikiTarget unicode (slugifyWikiTarget unicode x)
      = slugifyWikiTarget unicode x)
    (hne : slugifyWikiTarget unicode x ≠ "") {update : PageUpdate}
    (hx : orElse update.slug update.title = x) {S : WikiStore}
    {s s' : Session WikiStore PyException} {detail : WikiPageDetail} (hs : s.Idle S)
    (hrun : WikiService.createOrUpdatePage unicode update s = (.ok detail, s')) :
    Resolves unicode s'.committed update.tenantId detail.page := by
  obtain ⟨S', hidle, slug, page, W₁, hslug, hprepared, hwritten⟩ :=
    (WikiService.outTx_createOrUpdatePage unicode S update).ok hs hrun
  obtain rfl : slugifyWikiTarget unicode x = slug := by
    rw [requireSlug, hx, if_neg hne] at hslug
    exact Except.ok.inj hslug
  have hrequire := requireSlug_of_stable hstable hne
  obtain ⟨hfound, hpageSlug⟩ := hwritten.pageBySlug hprepared.pageBySlug
  rw [hidle.committed]
  refine ⟨fun s hs houtcomes ↦ ?_, fun c s hs houtcomes ↦ ?_,
    fun postgres s hs houtcomes ↦ ?_⟩
  · rw [hpageSlug]
    exact getPage_of_requireSlug hfound hrequire hs houtcomes
  · rw [hpageSlug]
    exact createRevision_of_requireSlug hfound hrequire c hs houtcomes
  · rw [hpageSlug]
    exact getBacklinks_of_requireSlug hrequire postgres hs houtcomes

/-- **When a slug is a stable address**: just if normalising the words that the deletion of other
characters leaves changes nothing. -/
theorem stableAddress_iff (hr : unicode.Regular) (x : String)
    (hne : slugifyWikiTarget unicode x ≠ "") :
    StableAddress unicode x ↔
      ∀ word ∈ slugWords (keptText unicode x.toList), unicode.lower (unicode.nfkc word) = word := by
  have hchars : slugifyChars unicode x.toList ≠ [] :=
    fun hnil ↦ hne (congrArg String.ofList hnil)
  have hclean : CleanSlug (slugifyWikiTarget unicode x).toList := by
    rw [slugifyWikiTarget, String.toList_ofList]
    exact cleanSlug_slugifyChars hr x.toList
  have hstable : slugifyWikiTarget unicode (slugifyWikiTarget unicode x)
      = slugifyWikiTarget unicode x ↔ slugifyChars unicode (slugifyChars unicode x.toList)
        = slugifyChars unicode x.toList := by
    rw [slugifyWikiTarget, slugifyWikiTarget, String.toList_ofList]
    exact ⟨fun h ↦ by simpa using congrArg String.toList h, congrArg String.ofList⟩
  rw [← hr.slugifyChars_slugifyChars_iff hchars, ← hstable]
  constructor
  · exact fun h ↦ h.stable
  · intro h
    exact ⟨h, hclean, fun update hx S s s' detail hs hrun ↦
      resolves_of_stable unicode h hne hx hs hrun⟩

/-! ## Korean syllables -/

/-- NFKC on printable ASCII text with the letters U+1100 and U+1161, which compose. -/
def composeJamo : List Char → List Char
  | [] => []
  | c :: cs =>
    let composed := composeJamo cs
    if c = '\u1100' ∧ composed.head? = some '\u1161' then '\uac00' :: composed.tail
    else c :: composed

/-- What the functions of the text library do with such text. -/
def jamoData : UnicodeData :=
  { asciiData with
    nfkc := composeJamo
    isWord := fun c ↦ asciiData.isWord c || ['\u1100', '\u1161', '\uac00'].contains c }

theorem composeJamo_ne_nil {text : List Char} (hne : text ≠ []) : composeJamo text ≠ [] := by
  cases text with
  | nil => exact absurd rfl hne
  | cons c cs =>
    rw [composeJamo]
    split
    · exact List.cons_ne_nil _ _
    · exact List.cons_ne_nil _ _

theorem composeJamo_hyphen (front back : List Char) :
    composeJamo (front ++ '-' :: back) = composeJamo front ++ '-' :: composeJamo back := by
  induction front with
  | nil =>
    rw [List.nil_append, composeJamo, composeJamo, if_neg fun h ↦ absurd h.1 (by decide)]
    rfl
  | cons c cs ih =>
    rw [List.cons_append, composeJamo, composeJamo, ih]
    cases composeJamo cs with
    | nil =>
      rw [if_neg fun h ↦ absurd h.2 (by simp), if_neg fun h ↦ absurd h.2 (by simp)]
      rfl
    | cons d ds =>
      rw [List.cons_append, List.head?_cons, List.head?_cons, List.tail_cons, List.tail_cons,
        apply_ite (· ++ '-' :: composeJamo back)]
      rfl

theorem forall_mem_composeJamo {p : Char → Prop} (hp : p '\uac00') {text : List Char}
    (h : ∀ c ∈ text, p c) : ∀ c ∈ composeJamo text, p c := by
  induction text with
  | nil => exact fun c hc ↦ absurd hc (by simp [composeJamo])
  | cons d ds ih =>
    have hlater := ih fun c hc ↦ h c (List.mem_cons_of_mem d hc)
    intro c hc
    rw [composeJamo] at hc
    split at hc
    · rcases List.mem_cons.mp hc with rfl | hc
      · exact hp
      · exact hlater c (List.mem_of_mem_tail hc)
    · rcases List.mem_cons.mp hc with rfl | hc
      · exact h c List.mem_cons_self
      · exact hlater c hc

theorem isAlphanum_iff {c : Char} : c.isAlphanum = true ↔
    (65 ≤ c.val ∧ c.val ≤ 90 ∨ 97 ≤ c.val ∧ c.val ≤ 122) ∨ 48 ≤ c.val ∧ c.val ≤ 57 := by
  change ((decide (65 ≤ c.val ∧ c.val ≤ 90) || (decide (97 ≤ c.val) && decide (c.val ≤ 122))) ||
    (decide (48 ≤ c.val) && decide (c.val ≤ 57))) = true ↔ _
  simp only [Bool.or_eq_true, Bool.and_eq_true, decide_eq_true_eq]

theorem isAlphanum_toLower {c : Char} (h : c.isAlphanum = true) : c.toLower.isAlphanum = true := by
  by_cases hu : 65 ≤ c.val ∧ c.val ≤ 90
  · have hval : c.toLower.val = c.val + 32 := congrArg Char.val (dif_pos hu)
    rw [isAlphanum_iff, hval]
    refine Or.inl (Or.inr ?_)
    simp only [UInt32.le_iff_toNat_le, UInt32.toNat_add] at hu ⊢
    simp at hu ⊢
    omega
  · have hsame : c.toLower = c := dif_neg hu
    rwa [hsame]

theorem isAlphanum_of_space {c : Char} (h : pyIsSpace c = true) : c.isAlphanum = false := by
  rw [← Bool.not_eq_true, isAlphanum_iff]
  simp only [pyIsSpace, UInt32.le_iff_toNat_le] at h ⊢
  grind [Char.toNat_val]

theorem isSlugLetter_jamoData {c : Char} : isSlugLetter jamoData c = true ↔
    c.isAlphanum = true ∨ c ∈ ['\u1100', '\u1161', '\uac00'] := by
  rw [isSlugLetter, jamoData]
  by_cases hc : c = '_'
  · subst hc
    decide
  · simp [asciiData, hc]

theorem slugWord_lower_jamoData {word : List Char} (h : SlugWord jamoData word) :
    SlugWord jamoData (jamoData.lower word) := by
  refine ⟨by simpa [jamoData, asciiData] using h.1, fun c hc ↦ ?_⟩
  obtain ⟨d, hd, rfl⟩ := List.mem_map.mp hc
  rcases isSlugLetter_jamoData.mp (h.2 d hd) with hd | hd
  · exact isSlugLetter_jamoData.mpr (Or.inl (isAlphanum_toLower hd))
  · have hall : (['\u1100', '\u1161', '\uac00'].all fun x ↦
        isSlugLetter jamoData x.toLower) = true := by decide
    exact List.all_eq_true.mp hall d hd

theorem regular_jamoData : jamoData.Regular where
  isWord_space c hc := by
    have hletters : c ∉ ['\u1100', '\u1161', '\uac00'] := by
      intro hmem
      have hall : (['\u1100', '\u1161', '\uac00'].all fun x ↦ !pyIsSpace x) = true := by decide
      have hnot := List.all_eq_true.mp hall c hmem
      exact absurd hc (by simpa using hnot)
    have hunderscore : c ≠ '_' := by
      rintro rfl
      exact absurd hc (by decide)
    simp [jamoData, asciiData, isAlphanum_of_space hc, hunderscore] at hletters ⊢
    exact hletters
  isWord_punctuation c hc := by
    have hall : (['-', '|', '#'].all fun x ↦ !jamoData.isWord x) = true := by decide
    simpa using List.all_eq_true.mp hall c hc
  nfkc_hyphen := composeJamo_hyphen
  lower_hyphen front back := by
    rw [jamoData, asciiData]
    exact List.map_append
  word word hword _ := by
    have hcomposed : SlugWord jamoData (jamoData.nfkc word) :=
      ⟨composeJamo_ne_nil hword.1, forall_mem_composeJamo (by decide) hword.2⟩
    exact ⟨hcomposed, slugWord_lower_jamoData hcomposed⟩

/-- A title that is stable. -/
theorem stableAddress_alphaBeta : slugifyWikiTarget jamoData "Alpha Beta!" ≠ "" ∧
    StableAddress jamoData "Alpha Beta!" := by
  have hne : slugifyWikiTarget jamoData "Alpha Beta!" ≠ "" := by decide +kernel
  exact ⟨hne, (stableAddress_iff jamoData regular_jamoData _ hne).mpr (by decide +kernel)⟩

/-- A title with two letters that are brought together. -/
theorem unstable_jamo : slugifyWikiTarget jamoData "\u1100!\u1161" ≠ "" ∧
    ¬StableAddress jamoData "\u1100!\u1161" := by
  refine ⟨by decide +kernel, fun h ↦ ?_⟩
  have hchars := congrArg String.toList h.stable
  rw [slugifyWikiTarget, slugifyWikiTarget, String.toList_ofList, String.toList_ofList] at hchars
  exact absurd hchars (by decide +kernel)

/-- A page with a link whose target is brought together when it is asked for. -/
def linkToJamo : WikiLabel where
  call := .createOrUpdatePage
    { tenantId := "acme", slug := some "a", title := "A", pageType := "concept"
      status := some "draft"
      content :=
        { content := "[[\u1100!\u1161]]".toList, contentFormat := "markdown", contentJson := none
          summary := none, authorType := "human" } }
  outcomes := []

/-- The link is stored, and `get_backlinks` of the stored slug lists nothing. -/
theorem jamo_backlink_missed :
    let w := (run (WikiState.step jamoData) .initial [linkToJamo]).store
    LinksMirror jamoData w ∧ w.links.rows.map WikiLink.toSlug = ["\u1100\u1161"] ∧
      w.listedBacklinks jamoData asciiPostgres "acme" "\u1100\u1161" = [] := by
  decide +kernel

end KnowledgeAlakazam
