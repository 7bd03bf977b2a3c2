import KnowledgeAlakazam.Core.PyTree
import KnowledgeAlakazam.Wiki.Repository
import Mathlib.Data.List.Infix

/-!
# Evidence

What the compiler makes of the answer of a query: `_search_evidence` turns the metadata into JSON
(`_json_safe`) and reads the sources out of it (`_extract_sources`). The metadata is a tree that
comes from third-party code, so every value is coerced on the way. A number is read with `int`,
which refuses digits that are not decimal, and too many digits: that is the one way in which
reading the evidence raises.
-/

namespace KnowledgeAlakazam

variable (unicode : UnicodeData)

/-! ## JSON -/

mutual

/-- `_json_safe`. -/
def jsonSafe : PyValue → PyValue
  | .dict items => .dict (jsonSafeItems [] items)
  | .list items => .list (jsonSafeList items)
  | .tuple items => .list (jsonSafeList items)
  | .object text _ => .str text
  | .none => .none
  | .bool b => .bool b
  | .int i => .int i
  | .float x => .float x
  | .str text => .str text

def jsonSafeList : List PyValue → List PyValue
  | [] => []
  | item :: items => jsonSafe item :: jsonSafeList items

/-- The items of a mapping, after those done. -/
def jsonSafeItems (done : List (PyValue × PyValue)) :
    List (PyValue × PyValue) → List (PyValue × PyValue)
  | [] => done
  | (key, value) :: items =>
    jsonSafeItems (setItem done (key.toText unicode) (jsonSafe value)) items

end

/-- `_json_safe_dict`. -/
def jsonSafeDict (value : PyValue) : List (PyValue × PyValue) :=
  match jsonSafe unicode value with
  | .dict items => items
  | safe => [(.str "value", safe)]

/-! ## Coercions -/

/-- `_coerce_text`, of an item that may be missing. -/
def coerceText (value : Option PyValue) : Option String :=
  match value with
  | none | some .none => none
  | some value =>
    let text := strip (value.toText unicode)
    if text = "" then none else some text

/-- `_first_text`. -/
def firstText (item : List (PyValue × PyValue)) (keys : List String) : Option String :=
  keys.findSome? fun key ↦ coerceText unicode (PyValue.lookup item key)

/-- `sys.int_info.default_max_str_digits`. -/
def maxStrDigits : ℕ := 4300

/-- `int`, of the digits of a text. Its errors show 200 characters of the text. -/
def pyInt (text : List Char) : Except PyException ℤ :=
  let scanned := (text.takeWhile fun c ↦ (unicode.decimal c).isSome).length
  if maxStrDigits < scanned then
    .error (valueError ("Exceeds the limit (4300 digits) for integer string conversion: value has "
      ++ toString scanned ++ " digits; use sys.set_int_max_str_digits() to increase the limit"))
  else match text.mapM unicode.decimal with
  | some digits => .ok (digits.foldl (fun n d ↦ 10 * n + d) 0 : ℕ)
  | none => .error (valueError ("invalid literal for int() with base 10: " ++
      String.ofList ((unicode.repr text).take 200)))

/-- `_first_int`. -/
def firstInt (item : List (PyValue × PyValue)) : List String → Except PyException (Option ℤ)
  | [] => .ok none
  | key :: keys =>
    match PyValue.lookup item key with
    | some (.int i) => .ok (some i)
    | some (.str raw) =>
      let digits := stripChars pyIsSpace raw.toList
      if digits ≠ [] ∧ digits.all unicode.isDigit then (pyInt unicode digits).map some
      else firstInt item keys
    | _ => firstInt item keys

/-- `_first_mapping`. -/
def firstMapping (item : List (PyValue × PyValue)) (keys : List String) : Option PyValue :=
  keys.findSome? fun key ↦ match PyValue.lookup item key with
    | some (.dict items) => some (.dict (jsonSafeDict unicode (.dict items)))
    | _ => none

mutual

/-- The texts of a value: a string is one, a mapping has the text of its first key that has one,
and a sequence has those of its items. `_coerce_claim_values` and `_coerce_named_values` differ in
the keys. -/
def coerceValues (keys : List String) : PyValue → List String
  | .str text => [text]
  | .dict items => (firstText unicode items keys).toList
  | .list items => coerceValuesList keys items
  | .tuple items => coerceValuesList keys items
  | .none | .bool _ | .int _ | .float _ | .object _ _ => []

/-- The texts of the items of a sequence. -/
def coerceValuesList (keys : List String) : List PyValue → List String
  | [] => []
  | item :: items => coerceValues keys item ++ coerceValuesList keys items

end

/-- `_coerce_claim_values`, of an item that may be missing. -/
def coerceClaimValues (value : Option PyValue) : List String :=
  coerceValues unicode ["claim_text", "claim", "text", "statement"] (value.getD .none)

/-- `_coerce_named_values`, of an item that may be missing. -/
def coerceNamedValues (value : Option PyValue) : List String :=
  coerceValues unicode ["name", "title", "label", "entity_name", "concept"] (value.getD .none)

/-! ## Sources -/

/-- `SOURCE_COLLECTION_KEYS`. -/
def sourceCollectionKeys : List String :=
  ["sources", "source", "references", "citations", "chunks", "contexts", "documents",
    "retrieved_docs"]

/-- `SOURCE_ID_KEYS`. -/
def sourceIdKeys : List String := ["source_id", "doc_id", "document_id", "file_id", "id"]

/-- `DOCUMENT_URI_KEYS`. -/
def documentUriKeys : List String := ["document_uri", "uri", "url", "file_path", "path"]

/-- `CHUNK_ID_KEYS`. -/
def chunkIdKeys : List String := ["chunk_id", "chunk", "chunk_key"]

/-- `ENTITY_ID_KEYS`. -/
def entityIdKeys : List String := ["entity_id", "entity"]

/-- `RELATION_ID_KEYS`. -/
def relationIdKeys : List String := ["relation_id", "relation"]

/-- `ASSET_URL_KEYS`. -/
def assetUrlKeys : List String := ["asset_url", "image_url", "figure_url", "asset"]

/-- `PAGE_NO_KEYS`. -/
def pageNoKeys : List String := ["page_no", "page", "page_number"]

/-- `QUOTE_KEYS`. -/
def quoteKeys : List String := ["quote", "text", "content", "snippet"]

/-- `EvidenceSource`. -/
structure EvidenceSource where
  sourceId : String
  documentUri : Option String := none
  chunkId : Option String := none
  entityId : Option String := none
  relationId : Option String := none
  assetUrl : Option String := none
  pageNo : Option ℤ := none
  bbox : Option PyValue := none
  quote : Option String := none
  locator : Option PyValue := none

/-- `to_claim_source_input`. -/
def EvidenceSource.toClaimSourceInput (source : EvidenceSource) : ClaimSourceInput where
  sourceId := source.sourceId
  documentUri := source.documentUri
  chunkId := source.chunkId
  entityId := source.entityId
  relationId := source.relationId
  assetUrl := source.assetUrl
  pageNo := source.pageNo
  bbox := source.bbox
  quote := source.quote
  locator := source.locator

/-- `_has_source_identity`. -/
def hasSourceIdentity (items : List (PyValue × PyValue)) : Bool :=
  (sourceIdKeys ++ chunkIdKeys ++ documentUriKeys).any fun key ↦
    (PyValue.lookup items key).isSome

mutual

/-- `_flatten_source_items`. -/
def flattenSourceItems : PyValue → List PyValue
  | .str text => [.str text]
  | .dict items => if hasSourceIdentity items then [.dict items] else flattenSourceEntries items
  | .list items => flattenSourceList items
  | .tuple items => flattenSourceList items
  | .none | .bool _ | .int _ | .float _ | .object _ _ => []

/-- The source items in the items of a sequence. -/
def flattenSourceList : List PyValue → List PyValue
  | [] => []
  | item :: items => flattenSourceItems item ++ flattenSourceList items

/-- The source items in the values of a mapping. -/
def flattenSourceEntries : List (PyValue × PyValue) → List PyValue
  | [] => []
  | (_, value) :: items => flattenSourceItems value ++ flattenSourceEntries items

end

/-- `_source_candidate_items`. -/
def sourceCandidateItems (metadata : List (PyValue × PyValue)) : List PyValue :=
  (if hasSourceIdentity metadata then [.dict metadata] else []) ++
    sourceCollectionKeys.flatMap fun key ↦
      ((PyValue.lookup metadata key).map flattenSourceItems).getD []

/-- `_looks_like_uri`. -/
def looksLikeUri (value : String) : Bool :=
  decide ("://".toList <:+: value.toList) || "/".toList.isPrefixOf value.toList

/-- `_evidence_source_from_item`. -/
def evidenceSourceFromItem (fallbackSourceId : Option String) :
    PyValue → Except PyException (Option EvidenceSource)
  | .str item => .ok <| some
    { sourceId := orElse fallbackSourceId item
      documentUri := if looksLikeUri item then some item else none
      locator := some (.dict [(.str "raw_source", .str item),
        (.str "structured_source_ids_available", .bool false)]) }
  | .dict item =>
    let sourceId := (firstText unicode item sourceIdKeys).getD (fallbackSourceId.getD "")
    if sourceId = "" then .ok none
    else do
      let pageNo ← firstInt unicode item pageNoKeys
      return some
        { sourceId := sourceId
          documentUri := firstText unicode item documentUriKeys
          chunkId := firstText unicode item chunkIdKeys
          entityId := firstText unicode item entityIdKeys
          relationId := firstText unicode item relationIdKeys
          assetUrl := firstText unicode item assetUrlKeys
          pageNo := pageNo
          bbox := firstMapping unicode item ["bbox", "bounding_box"]
          quote := firstText unicode item quoteKeys
          locator := some (.dict [(.str "raw_source", jsonSafe unicode (.dict item)),
            (.str "structured_source_ids_available", .bool true)]) }
  | _ => .ok none

/-- The fields by which `_extract_sources` tells sources apart. -/
def EvidenceSource.key (source : EvidenceSource) :
    String × Option String × Option String × Option String × Option String :=
  (source.sourceId, source.chunkId, source.entityId, source.relationId, source.quote)

/-- The sources with a key that was not seen before. -/
def dedupeSources (seen : List (String × Option String × Option String × Option String ×
    Option String)) : List EvidenceSource → List EvidenceSource
  | [] => []
  | source :: sources =>
    if source.key ∈ seen then dedupeSources seen sources
    else source :: dedupeSources (source.key :: seen) sources

/-- The source that stands for a query without sources. -/
def fallbackSource (metadata : List (PyValue × PyValue)) (query : String)
    (fallbackSourceId : Option String) : EvidenceSource where
  sourceId := orElse (fallbackSourceId.map strip) "rag-query"
  locator := some (.dict
    [(.str "evidence_query", .str query),
      (.str "rag_metadata", jsonSafe unicode (.dict metadata)),
      (.str "structured_source_ids_available", .bool false),
      (.str "provenance_note", .str ("RAG runtime did not return chunk/entity provenance; " ++
        "raw query metadata is preserved here."))])

/-- `_extract_sources`. -/
def extractSources (metadata : List (PyValue × PyValue)) (query : String)
    (fallbackSourceId : Option String) : Except PyException (List EvidenceSource) := do
  let found ← (sourceCandidateItems metadata).mapM'
    (evidenceSourceFromItem unicode fallbackSourceId)
  match found.reduceOption with
  | [] => return [fallbackSource unicode metadata query fallbackSourceId]
  | sources => return dedupeSources [] sources

/-! ## The evidence -/

/-- `RAGQueryResult`. -/
structure RAGQueryResult where
  answer : String
  metadata : PyValue

/-- `CompilerEvidence`. -/
structure CompilerEvidence where
  query : String
  answer : String
  metadata : List (PyValue × PyValue)
  sourceId : Option String
  sources : List EvidenceSource

/-- `_search_evidence`, after the query. -/
def evidenceOf (query : String) (sourceId : Option String) (result : RAGQueryResult) :
    Except PyException CompilerEvidence := do
  let metadata := jsonSafeDict unicode result.metadata
  let sources ← extractSources unicode metadata query sourceId
  return ⟨query, result.answer, metadata, sourceId, sources⟩

/-- `_content_json`. -/
def contentJson (evidence : CompilerEvidence) : PyValue := .dict
  [(.str "compiler", .str "WikiCompiler"),
    (.str "evidence_query", .str evidence.query),
    (.str "source_id", (evidence.sourceId.map .str).getD .none),
    (.str "source_ids", .list (evidence.sources.map fun source ↦ .str source.sourceId)),
    (.str "rag_metadata", .dict evidence.metadata),
    (.str "provenance_limitations", .str ("Chunk, entity, and relation IDs are populated only " ++
      "when returned by the RAG runtime metadata."))]

end KnowledgeAlakazam
