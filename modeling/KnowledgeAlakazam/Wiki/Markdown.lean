import KnowledgeAlakazam.Wiki.Evidence
import KnowledgeAlakazam.Wiki.Text

/-!
# The compiled page

The Markdown page that the compiler writes, and the claims it attaches. Claims come from the
metadata, or from the lines of the answer, or from the answer as a whole; every text is cleaned of
the marker of a heading or a list item, cut to a maximal length, and listed once.

Texts are lists of characters.
-/

namespace KnowledgeAlakazam

variable (unicode : UnicodeData)

/-- `MAX_CLAIMS_PER_PAGE`. -/
def maxClaimsPerPage : ℕ := 8

/-- `MAX_CLAIM_LENGTH`. -/
def maxClaimLength : ℕ := 700

/-- `MAX_SUMMARY_LENGTH`. -/
def maxSummaryLength : ℕ := 1200

/-- `MAX_RELATED_PAGES`. -/
def maxRelatedPages : ℕ := 8

/-- `MAX_KEY_CONCEPTS`. -/
def maxKeyConcepts : ℕ := 10

/-! ## Cleaning -/

/-- What a marker is followed by: white space, which belongs to the match. -/
def dropSpaces (text rest : List Char) : List Char :=
  match rest with
  | c :: _ => if pyIsSpace c then rest.dropWhile pyIsSpace else text
  | [] => text

/-- `re.sub(r"^#{1,6}\s+", "", text)`. -/
def dropHeading (text : List Char) : List Char :=
  let marks := text.takeWhile (· == '#')
  if 1 ≤ marks.length ∧ marks.length ≤ 6 then dropSpaces text (text.dropWhile (· == '#')) else text

/-- `re.sub(r"^\s*[-*+]\s+", "", text)`. -/
def dropBullet (text : List Char) : List Char :=
  match text.dropWhile pyIsSpace with
  | c :: rest => if c = '-' ∨ c = '*' ∨ c = '+' then dropSpaces text rest else text
  | [] => text

/-- `re.sub(r"^\s*\d+[.)]\s+", "", text)`. -/
def dropNumber (text : List Char) : List Char :=
  let isDecimal c := (unicode.decimal c).isSome
  let inner := text.dropWhile pyIsSpace
  match inner.takeWhile isDecimal, inner.dropWhile isDecimal with
  | _ :: _, c :: rest => if c = '.' ∨ c = ')' then dropSpaces text rest else text
  | _, _ => text

/-- `_strip_markdown_noise`. -/
def stripMarkdownNoise (value : List Char) : List Char :=
  let stripped := dropHeading (stripChars pyIsSpace value)
  let stripped := stripChars pyIsSpace (dropNumber unicode (dropBullet stripped))
  if stripped.getLast? = some ':' ∧ (splitWords stripped).length ≤ 5 then []
  else collapseSpace stripped

/-- `value[:stop]`; a negative `stop` counts from the end. -/
def sliceTo (value : List Char) : ℤ → List Char
  | .ofNat stop => value.take stop
  | .negSucc stop => value.take (value.length - (stop + 1))

theorem isPrefix_sliceTo (value : List Char) (stop : ℤ) : sliceTo value stop <+: value := by
  cases stop with
  | ofNat stop => exact List.take_prefix _ _
  | negSucc stop => exact List.take_prefix _ _

theorem sliceTo_pred (value : List Char) {maxLength : ℕ} (hpos : 0 < maxLength) :
    sliceTo value ((maxLength : ℤ) - 1) = value.take (maxLength - 1) := by
  rw [← Int.natCast_one, ← Int.ofNat_sub hpos]
  rfl

/-- `_truncate`. -/
def truncate (value : List Char) (maxLength : ℕ) : List Char :=
  let normalized := collapseSpace value
  if normalized.length ≤ maxLength then normalized
  else rstripChars pyIsSpace (sliceTo normalized ((maxLength : ℤ) - 1)) ++ "...".toList

/-- The loop of `_dedupe_non_empty`, after the values listed so far. -/
def dedupeNonEmptyFrom (limit : Option ℕ) (deduped : List (List Char)) :
    List (List Char) → List (List Char)
  | [] => deduped
  | value :: values =>
    let cleaned := collapseSpace (stripChars pyIsSpace value)
    if cleaned = [] ∨ cleaned ∈ deduped then dedupeNonEmptyFrom limit deduped values
    else
      let deduped := deduped ++ [cleaned]
      match limit with
      | some limit =>
        if limit ≤ deduped.length then deduped else dedupeNonEmptyFrom (some limit) deduped values
      | none => dedupeNonEmptyFrom none deduped values

/-- `_dedupe_non_empty`. -/
def dedupeNonEmpty (values : List (List Char)) (limit : Option ℕ) : List (List Char) :=
  dedupeNonEmptyFrom limit [] values

/-! ## The sections -/

/-- `_clean_claim`. -/
def cleanClaim (value : List Char) : List Char :=
  let value := stripMarkdownNoise unicode value
  if value.length < 12 then [] else truncate value maxClaimLength

/-- `_metadata_claims`. -/
def metadataClaims (metadata : List (PyValue × PyValue)) : List String :=
  ["claims", "source_backed_claims", "statements"].flatMap fun key ↦
    coerceClaimValues unicode (PyValue.lookup metadata key)

/-- `_extract_claim_texts`. -/
def extractClaimTexts (evidence : CompilerEvidence) : List (List Char) :=
  let answer := evidence.answer.toList
  let claims := match (metadataClaims unicode evidence.metadata).map String.toList with
    | [] => splitLines answer
    | claims => claims
  let claims := (claims.map (cleanClaim unicode)).filter (· ≠ [])
  let claims :=
    if claims = [] ∧ stripChars pyIsSpace answer ≠ [] then
      [truncate (stripMarkdownNoise unicode answer) maxClaimLength]
    else claims
  dedupeNonEmpty claims (some maxClaimsPerPage)

/-- `_summary_from_answer`. -/
def summaryFromAnswer (answer : List Char) : List Char :=
  let stripped := stripMarkdownNoise unicode answer
  if stripped = [] then "No summary was returned by the RAG evidence query.".toList
  else truncate stripped maxSummaryLength

/-- `_extract_key_concepts`. -/
def extractKeyConcepts (metadata : List (PyValue × PyValue)) (fallback : List Char) :
    List (List Char) :=
  let concepts := ["key_concepts", "concepts", "entities"].flatMap fun key ↦
    coerceNamedValues unicode (PyValue.lookup metadata key)
  match dedupeNonEmpty (concepts.map String.toList) (some maxKeyConcepts) with
  | [] => [fallback]
  | concepts => concepts

/-- `_source_page_title`. -/
def sourcePageTitle (sourceId : String) : String := "Source " ++ sourceId

/-- The loop of `_extract_related_pages`, after the slugs seen and with room for more pages. -/
def relatedPagesFrom (currentSlug : List Char) (seen : List (List Char)) :
    ℕ → List (List Char) → List (List Char)
  | 0, _ => []
  | _, [] => []
  | room + 1, page :: pages =>
    let slug := slugifyChars unicode page
    if slug = [] ∨ slug = currentSlug ∨ slug ∈ seen then
      relatedPagesFrom currentSlug seen (room + 1) pages
    else page :: relatedPagesFrom currentSlug (slug :: seen) room pages

/-- `_extract_related_pages`. -/
def extractRelatedPages (evidence : CompilerEvidence) (currentSlug : String) : List (List Char) :=
  let related := coerceNamedValues unicode (PyValue.lookup evidence.metadata "related_pages") ++
    (evidence.sources.filter fun source ↦ source.sourceId ≠ "rag-query").map fun source ↦
      sourcePageTitle source.sourceId
  relatedPagesFrom unicode currentSlug.toList [] maxRelatedPages (related.map String.toList)

/-- `_extract_open_questions`. -/
def extractOpenQuestions (metadata : List (PyValue × PyValue)) : List (List Char) :=
  let questions := coerceClaimValues unicode (PyValue.lookup metadata "open_questions")
  match dedupeNonEmpty (questions.map String.toList) (some maxClaimsPerPage) with
  | [] => ["No open questions were extracted from structured evidence.".toList]
  | questions => questions

/-- `_bullet_lines`. -/
def bulletLines (values : List (List Char)) : List Char :=
  let cleaned := match dedupeNonEmpty values none with
    | [] => ["No items extracted from structured evidence.".toList]
    | cleaned => cleaned
  ['\n'].intercalate (cleaned.map fun value ↦ "- ".toList ++ value)

/-- `_wikilink`. -/
def wikilink (value : List Char) : List Char :=
  let cleaned := ((value.filter (· != '[')).filter (· != ']')).map fun c ↦
    if c == '\n' then ' ' else c
  let cleaned := stripChars pyIsSpace cleaned
  if cleaned = [] then [] else "[[".toList ++ cleaned ++ "]]".toList

/-- `_render_page_markdown`. -/
def renderPageMarkdown (title currentSlug : String) (evidence : CompilerEvidence)
    (claims : List (List Char)) : List Char :=
  let relatedPages := extractRelatedPages unicode evidence currentSlug
  ['\n', '\n'].intercalate
    ["# ".toList ++ title.toList,
      "## Summary\n\n".toList ++ summaryFromAnswer unicode evidence.answer.toList,
      "## Key Concepts\n\n".toList ++
        bulletLines (extractKeyConcepts unicode evidence.metadata title.toList),
      "## Source-backed Claims\n\n".toList ++ bulletLines claims,
      "## Related Pages\n\n".toList ++ bulletLines (relatedPages.map wikilink),
      "## Open Questions\n\n".toList ++
        bulletLines (extractOpenQuestions unicode evidence.metadata)]

/-! ## Titles and slugs -/

/-- `_title_from_slug`. -/
def titleFromSlug (slug : String) : String :=
  let spaced := slug.toList.map fun c ↦ if c == '-' || c == '_' then ' ' else c
  let title := joinWords ((splitWords spaced).map unicode.capitalize)
  if title = [] then "Untitled" else String.ofList title

/-- `_resolve_target_slug`. -/
def resolveTargetSlug (targetSlug : Option String) (fallbackTitle : String) :
    Except PyException String :=
  let slug := slugifyWikiTarget unicode (orElse targetSlug fallbackTitle)
  if slug = "" then .error (valueError "target_slug cannot be empty") else .ok slug

/-- `_require_non_empty`. -/
def requireNonEmpty (value fieldName : String) : Except PyException String :=
  let stripped := strip value
  if stripped = "" then .error (valueError (fieldName ++ " cannot be empty")) else .ok stripped

/-- `_source_evidence_query`. -/
def sourceEvidenceQuery (sourceId : String) : String :=
  "Return source-backed evidence from document " ++ PyValue.reprText unicode sourceId ++
    ". Focus on facts, key concepts, relationships, and open questions."

/-- `_topic_evidence_query`. -/
def topicEvidenceQuery (topic : String) (sourceId : Option String) : String :=
  let about := "Return source-backed evidence about " ++ PyValue.reprText unicode topic
  let focus := "Focus on facts, key concepts, relationships, and open questions."
  match sourceId with
  | none | some "" => about ++ ". " ++ focus
  | some sourceId =>
    about ++ " from document " ++ PyValue.reprText unicode sourceId ++ ". " ++ focus

example : String.ofList (stripMarkdownNoise asciiData "##  1. Alpha   is\nsupported ".toList)
    = "Alpha is supported" := by decide +kernel

end KnowledgeAlakazam
