import KnowledgeAlakazam.Core.JsonRoundTrip
import KnowledgeAlakazam.Ingest.Paths

/-!
# Documents that are texts

`TextFirstParser` reads Markdown and plain text files itself: as UTF-8, with or without a byte order
mark, and as Latin-1 if they are not UTF-8. What it read is the one item of its content list, and it
leaves two artifacts next to the output, the list as JSON and the text.

The parser can read any file (`exists_readText`), and its artifacts say the same as what it returns:
both are read back, by a reader that knows nothing of how they were written. There is one text that
the parser itself would not read back, one that begins with the character of the byte order mark:
its file began with two of them, and each reading takes one off (`readText_encode_iff`).
-/

namespace KnowledgeAlakazam

/-! ## Reading -/

/-- The bytes of a text that is written where lines end in a line feed. -/
def encodeUtf8 (text : List Char) : List UInt8 := text.flatMap String.utf8EncodeChar

/-- `"utf-8"` -/
def decodeUtf8 (bytes : List UInt8) : Option (List Char) :=
  bytes.toByteArray.utf8Decode?.map Array.toList

/-- `codecs.BOM_UTF8` -/
def byteOrderMark : List UInt8 := [0xef, 0xbb, 0xbf]

/-- `"utf-8-sig"`. Of a file that ends within a mark the decoder waits for the rest, and gives
nothing. -/
def decodeUtf8Sig (bytes : List UInt8) : Option (List Char) :=
  if bytes.length < 3 ∧ bytes <+: byteOrderMark then some []
  else if byteOrderMark <+: bytes then decodeUtf8 (bytes.drop 3)
  else decodeUtf8 bytes

/-- `"latin-1"` -/
def decodeLatin1 (bytes : List UInt8) : Option (List Char) :=
  some (bytes.map fun b ↦ Char.ofNat b.toNat)

/-- What text mode makes of the ends of lines. -/
def universalNewlines : List Char → List Char
  | '\r' :: '\n' :: rest => '\n' :: universalNewlines rest
  | '\r' :: rest => '\n' :: universalNewlines rest
  | c :: rest => c :: universalNewlines rest
  | [] => []

/-- `_read_text` -/
def readText (bytes : List UInt8) : Except PyException (List Char) :=
  match [decodeUtf8Sig, decodeUtf8, decodeLatin1].findSome? fun decode ↦ decode bytes with
  | some text => .ok (universalNewlines text)
  | none => .error ⟨"UnicodeDecodeError", "could not decode"⟩

/-! ## Writing -/

/-- A character of a string, with `ensure_ascii=False`. -/
def jsonRawEscape (c : Char) : List Char :=
  if c = '"' then ['\\', '"']
  else if c = '\\' then ['\\', '\\']
  else if c = '\n' then ['\\', 'n']
  else if c = '\r' then ['\\', 'r']
  else if c = '\t' then ['\\', 't']
  else if c = '\x0c' then ['\\', 'f']
  else if c = '\x08' then ['\\', 'b']
  else if c < ' ' then unicodeEscape c.toNat
  else [c]

def jsonRawString (text : String) : List Char :=
  '"' :: text.toList.flatMap jsonRawEscape ++ ['"']

/-- A new line, indented by two blanks a level. -/
def jsonLine (level : ℕ) : List Char := '\n' :: List.replicate (2 * level) ' '

mutual

/-- `json.dumps(value, ensure_ascii=False, indent=2)`, for a value at some level. -/
def dumpsIndented (level : ℕ) : PyValue → Option (List Char)
  | .none => some "null".toList
  | .bool b => some (if b then "true" else "false").toList
  | .int i => some (toString i).toList
  | .float x => some (jsonFloat x).toList
  | .str text => some (jsonRawString text)
  | .object _ _ => none
  | .list [] => some ['[', ']']
  | .tuple [] => some ['[', ']']
  | .dict [] => some ['\x7b', '\x7d']
  | .list items => (dumpsIndentedItems (level + 1) items).map fun parts ↦
    '[' :: [','].intercalate parts ++ jsonLine level ++ [']']
  | .tuple items => (dumpsIndentedItems (level + 1) items).map fun parts ↦
    '[' :: [','].intercalate parts ++ jsonLine level ++ [']']
  | .dict items => (dumpsIndentedEntries (level + 1) items).map fun parts ↦
    '\x7b' :: [','].intercalate parts ++ jsonLine level ++ ['\x7d']

/-- The items of a sequence, each on a line of its own. -/
def dumpsIndentedItems (level : ℕ) : List PyValue → Option (List (List Char))
  | [] => some []
  | item :: items => do
    let part ← dumpsIndented level item
    let parts ← dumpsIndentedItems level items
    return (jsonLine level ++ part) :: parts

def dumpsIndentedEntries (level : ℕ) : List (PyValue × PyValue) → Option (List (List Char))
  | [] => some []
  | (key, value) :: items => do
    let name ← jsonKey key
    let part ← dumpsIndented level value
    let parts ← dumpsIndentedEntries level items
    return (jsonLine level ++ jsonRawString name ++ ':' :: ' ' :: part) :: parts

end

/-! ## The parser -/

/-- The name in front of its suffix, and the suffix, as `pathlib` has them: a dot at either end of
the name does not begin one. -/
def splitSuffix (name : String) : List Char × List Char :=
  let suffix := (name.toList.reverse.takeWhile (· != '.')).reverse
  let stem := ((name.toList.reverse.dropWhile (· != '.')).drop 1).reverse
  if stem ≠ [] ∧ suffix ≠ [] then (stem, '.' :: suffix) else (name.toList, [])

example : splitSuffix "a.tar.gz" = ("a.tar".toList, ".gz".toList) := by decide

example : splitSuffix ".md" = (".md".toList, []) := by decide

/-- A file that the parser has written: its name, and its bytes. -/
abbrev Artifact := String × List UInt8

namespace TextFirstParser

variable (unicode : UnicodeData)

/-- `path.suffix.lower() in TEXT_FORMATS` -/
def IsText (path : Path) : Prop :=
  unicode.lower (splitSuffix path.name).2 ∈ [".md".toList, ".txt".toList]

instance (path : Path) : Decidable (IsText unicode path) :=
  inferInstanceAs (Decidable (_ ∈ [".md".toList, ".txt".toList]))

def contentList (path : Path) (text : List Char) : PyValue :=
  .list [.dict [(.str "type", .str "text"), (.str "text", .str (String.ofList text)),
    (.str "page_idx", .int 0), (.str "source_file", .str path.name)]]

/-- `_write_parser_artifacts`, into the output directory if there is one. -/
def writeParserArtifacts (path : Path) (toOutput : Bool) (content : PyValue) (text : List Char) :
    Except PyException (List Artifact) :=
  if toOutput then
    match dumpsIndented 0 content with
    | none => .error ⟨"TypeError", "Object is not JSON serializable"⟩
    | some json => .ok
      [(String.ofList ((splitSuffix path.name).1 ++ "_content_list.json".toList), encodeUtf8 json),
        (String.ofList ((splitSuffix path.name).1 ++ ".md".toList), encodeUtf8 text)]
  else .ok []

/-- `parse_text_file`, of a file with these bytes, if there is one: the content list, and what is
written. -/
def parseTextFile (path : Path) (file : Option (List UInt8)) (toOutput : Bool) :
    Except PyException (PyValue × List Artifact) :=
  if IsText unicode path then
    match file with
    | none => .error ⟨"FileNotFoundError", "Text file does not exist: " ++ "/".intercalate path⟩
    | some bytes => do
      let text ← readText bytes
      let artifacts ← writeParserArtifacts path toOutput (contentList path text) text
      return (contentList path text, artifacts)
  else
    .error ⟨"ValueError", "Unsupported text format: " ++ String.ofList (splitSuffix path.name).2⟩

/-- `parse_document`, over a parser for everything else. -/
def parseDocument (fallback : Path → Except PyException (PyValue × List Artifact)) (path : Path)
    (file : Option (List UInt8)) (toOutput : Bool) :
    Except PyException (PyValue × List Artifact) :=
  if IsText unicode path then parseTextFile unicode path file toOutput else fallback path

end TextFirstParser

/-! ## Texts are read back -/

theorem decodeUtf8_encodeUtf8 (text : List Char) : decodeUtf8 (encodeUtf8 text) = some text := by
  have hbytes : (encodeUtf8 text).toByteArray = text.utf8Encode := rfl
  rw [decodeUtf8, hbytes, List.utf8Decode?_utf8Encode, Option.map_some]

theorem universalNewlines_eq {text : List Char} (h : '\r' ∉ text) :
    universalNewlines text = text := by
  induction text with
  | nil => rfl
  | cons c text ih =>
    have hc : c ≠ '\r' := (List.ne_of_not_mem_cons h).symm
    rw [universalNewlines, ih (List.not_mem_of_not_mem_cons h)]
    · exact fun _ heq _ ↦ hc heq
    · exact hc

theorem not_mem_universalNewlines (text : List Char) : '\r' ∉ universalNewlines text := by
  fun_induction universalNewlines text with
  | case1 rest ih => exact List.not_mem_cons_of_ne_of_not_mem (by decide) ih
  | case2 rest hnext ih => exact List.not_mem_cons_of_ne_of_not_mem (by decide) ih
  | case3 c rest hpair hc ih => exact List.not_mem_cons_of_ne_of_not_mem (Ne.symm hc) ih
  | case4 => exact List.not_mem_nil

/-- **Every file can be read**: what is not UTF-8 is still Latin-1. -/
theorem exists_readText (bytes : List UInt8) :
    ∃ text, readText bytes = .ok text ∧ '\r' ∉ text := by
  cases hfound : [decodeUtf8Sig, decodeUtf8, decodeLatin1].findSome? fun decode ↦ decode bytes with
  | some text =>
    refine ⟨universalNewlines text, ?_, not_mem_universalNewlines text⟩
    rw [readText, hfound]
  | none =>
    have hlatin := List.findSome?_eq_none_iff.mp hfound decodeLatin1 (by simp)
    cases hlatin

/-- The first character of a text whose bytes go on like the mark, or end within it. -/
theorem eq_of_append_eq {c : Char} {rest : List Char} {after after' : List UInt8}
    (h : encodeUtf8 (c :: rest) ++ after = byteOrderMark ++ after') : c = '\ufeff' := by
  have hchar : ∀ (c : Char) (bytes : List UInt8),
      (encodeUtf8 [c] ++ bytes).toByteArray.utf8DecodeChar? 0 = some c := by
    intro c bytes
    rw [List.toByteArray_append]
    exact List.utf8DecodeChar?_utf8Encode_singleton_append
  have hmark : byteOrderMark = encodeUtf8 ['\ufeff'] := rfl
  have hfirst : encodeUtf8 (c :: rest) = encodeUtf8 [c] ++ encodeUtf8 rest := by
    rw [encodeUtf8, List.flatMap_cons, encodeUtf8, List.flatMap_singleton]
    rfl
  -- Both sides begin with a whole character, and the decoder reads just that one.
  rw [hmark, hfirst, List.append_assoc] at h
  have hboth := congrArg (fun bytes : List UInt8 ↦ bytes.toByteArray.utf8DecodeChar? 0) h
  rw [hchar, hchar] at hboth
  exact Option.some.inj hboth

theorem decodeUtf8Sig_mark (rest : List Char) :
    decodeUtf8Sig (encodeUtf8 ('\ufeff' :: rest)) = some rest := by
  have hbytes : encodeUtf8 ('\ufeff' :: rest) = byteOrderMark ++ encodeUtf8 rest := rfl
  have hlength : ¬(byteOrderMark ++ encodeUtf8 rest).length < 3 := by
    rw [List.length_append]
    exact Nat.not_lt.mpr (Nat.le_add_right 3 _)
  rw [hbytes, decodeUtf8Sig, if_neg fun h ↦ hlength h.1, if_pos (List.prefix_append _ _)]
  exact decodeUtf8_encodeUtf8 rest

theorem decodeUtf8Sig_encodeUtf8 {text : List Char} (h : text.head? ≠ some '\ufeff') :
    decodeUtf8Sig (encodeUtf8 text) = some text := by
  cases text with
  | nil => rfl
  | cons c rest =>
    have hc : c ≠ '\ufeff' := fun heq ↦ h (congrArg some heq)
    -- A text that ends within the mark would begin with its character, too.
    rw [decodeUtf8Sig, if_neg, if_neg]
    · exact decodeUtf8_encodeUtf8 (c :: rest)
    · rintro ⟨after', hafter⟩
      exact hc (eq_of_append_eq ((List.append_nil _).trans hafter.symm))
    · rintro ⟨-, after, hafter⟩
      exact hc (eq_of_append_eq (hafter.trans (List.append_nil _).symm))

theorem readText_of_sig {bytes : List UInt8} {text : List Char}
    (h : decodeUtf8Sig bytes = some text) (hreturn : '\r' ∉ text) :
    readText bytes = .ok text := by
  rw [readText, List.findSome?_cons, h]
  exact congrArg Except.ok (universalNewlines_eq hreturn)

/-- **A text is read back from its bytes**, unless it begins with the character of the mark. -/
theorem readText_encode_iff {text : List Char} (hreturn : '\r' ∉ text) :
    readText (encodeUtf8 text) = .ok text ↔ text.head? ≠ some '\ufeff' := by
  constructor
  · intro hread hmark
    obtain ⟨rest, rfl⟩ : ∃ rest, text = '\ufeff' :: rest := by
      cases text with
      | nil => cases hmark
      | cons c rest => exact ⟨rest, by rw [Option.some.inj hmark]⟩
    rw [readText_of_sig (decodeUtf8Sig_mark rest) (List.not_mem_of_not_mem_cons hreturn)] at hread
    exact absurd (congrArg List.length (Except.ok.inj hread)) (Nat.ne_of_lt (Nat.lt_succ_self _))
  · exact fun hmark ↦ readText_of_sig (decodeUtf8Sig_encodeUtf8 hmark) hreturn

/-! ## The list is read back -/

theorem readChar_jsonRawEscape (c : Char) (rest : List Char) :
    readChar (jsonRawEscape c ++ rest) = some (c, rest) := by
  have hescape : ∀ m, readChar (unicodeEscape m ++ rest) =
      readUnicode ((unicodeEscape m).drop 2 ++ rest) := fun _ ↦ rfl
  rw [jsonRawEscape]
  split_ifs with hquote hslash hline hreturn htab hfeed hback hcontrol
  · rw [hquote]; rfl
  · rw [hslash]; rfl
  · rw [hline]; rfl
  · rw [hreturn]; rfl
  · rw [htab]; rfl
  · rw [hfeed]; rfl
  · rw [hback]; rfl
  · have hlt : c.toNat < 0xd800 := Nat.lt_trans hcontrol (by decide)
    rw [hescape, readUnicode_unicodeEscape (.inl hlt), Char.ofNat_toNat]
  · simp only [List.cons_append, List.nil_append, readChar, if_neg hslash, if_neg hcontrol]

theorem jsonRawEscape_eq_cons (c : Char) : ∃ d ds, jsonRawEscape c = d :: ds ∧ d ≠ '"' := by
  rw [jsonRawEscape]
  split_ifs with hquote
  · exact ⟨_, _, rfl, by decide⟩
  · exact ⟨_, _, rfl, by decide⟩
  · exact ⟨_, _, rfl, by decide⟩
  · exact ⟨_, _, rfl, by decide⟩
  · exact ⟨_, _, rfl, by decide⟩
  · exact ⟨_, _, rfl, by decide⟩
  · exact ⟨_, _, rfl, by decide⟩
  · exact ⟨_, _, rfl, by decide⟩
  · exact ⟨_, _, rfl, hquote⟩

theorem not_mem_jsonRawEscape (c : Char) : '\r' ∉ jsonRawEscape c := by
  have hdigit : ∀ m, Nat.digitChar (m % 16) ≠ '\r' := by
    have hall : ∀ k < 16, Nat.digitChar k ≠ '\r' := by decide
    exact fun m ↦ hall _ (Nat.mod_lt m (by decide))
  rw [jsonRawEscape]
  split_ifs with hquote hslash hline hreturn
  · decide
  · decide
  · decide
  · decide
  · decide
  · decide
  · decide
  · simp [unicodeEscape, (hdigit _).symm]
  · exact fun h ↦ hreturn (List.mem_singleton.mp h).symm

theorem jsonRawString_append (text : String) (rest : List Char) :
    jsonRawString text ++ rest =
      '"' :: (text.toList.flatMap jsonRawEscape ++ '"' :: rest) := by
  rw [jsonRawString, List.cons_append, List.cons_append, List.append_assoc, List.singleton_append]

theorem not_mem_jsonRawString (text : String) : '\r' ∉ jsonRawString text := by
  rw [← List.append_nil (jsonRawString text), jsonRawString_append]
  refine List.not_mem_cons_of_ne_of_not_mem (by decide) fun h ↦ ?_
  rcases List.mem_append.mp h with h | h
  · obtain ⟨c, -, hc⟩ := List.mem_flatMap.mp h
    exact not_mem_jsonRawEscape c hc
  · exact absurd h (by decide)

section Reader

variable {floatOf : String → PyFloat} {fuel : ℕ} {text rest rest' : List Char}
  {item value : PyValue}

theorem readString_raw (text : String) (hfuel : text.toList.length < fuel) (rest : List Char) :
    readString fuel (text.toList.flatMap jsonRawEscape ++ '"' :: rest) =
      some (text.toList, rest) :=
  readString_flatMap_of readChar_jsonRawEscape jsonRawEscape_eq_cons hfuel

theorem readValue_raw (text : String) (hfuel : text.toList.length < fuel) (rest : List Char) :
    readValue floatOf (fuel + 1) (jsonRawString text ++ rest) = some (.str text, rest) := by
  rw [jsonRawString_append, readValue, if_pos rfl, readString_raw text hfuel, Option.map_some,
    String.ofList_toList]

theorem skipSpace_jsonLine (level : ℕ) (rest : List Char) :
    skipSpace (jsonLine level ++ rest) = skipSpace rest := by
  refine List.dropWhile_append_of_pos fun c hc ↦ ?_
  rw [jsonLine, List.mem_cons] at hc
  rcases hc with rfl | hc
  · rfl
  · rw [(List.mem_replicate.mp hc).2]
    rfl

/-- The last item of a list, with white space in front of the bracket. -/
theorem readItems_close (h : readValue floatOf fuel text = some (item, rest))
    (hclose : skipSpace rest = ']' :: rest') :
    readItems floatOf (fuel + 1) text = some ([item], rest') := by
  rw [readItems, h]
  simp only [Option.bind_eq_bind, Option.bind_some, hclose]
  rfl

/-- A field of an object, and what follows. -/
def jsonField (key : String) (part : List Char) : List Char :=
  jsonRawString key ++ ':' :: ' ' :: part

theorem skipSpace_raw (text : String) (rest : List Char) :
    skipSpace (jsonRawString text ++ rest) = jsonRawString text ++ rest := by
  rw [jsonRawString_append]
  exact skipSpace_cons rfl _

theorem readEntries_field (key : String) {part : List Char} {entries : List (String × PyValue)}
    {rest'' : List Char} (hkey : key.toList.length < fuel) (hspace : skipSpace part = part)
    (h : readValue floatOf fuel part = some (value, ',' :: rest'))
    (hrest : readEntries floatOf fuel (skipSpace rest') = some (entries, rest'')) :
    readEntries floatOf (fuel + 1) (jsonField key part) =
      some ((key, value) :: entries, rest'') := by
  have hblank : skipSpace (' ' :: part) = part := hspace
  rw [jsonField, jsonRawString_append,
    readEntries_more (readString_raw key hkey _) (hblank.symm ▸ h) hrest, String.ofList_toList]

theorem readEntries_close (key : String) {part : List Char} {rest'' : List Char}
    (hkey : key.toList.length < fuel) (hspace : skipSpace part = part)
    (h : readValue floatOf fuel part = some (value, rest'))
    (hclose : skipSpace rest' = '\x7d' :: rest'') :
    readEntries floatOf (fuel + 1) (jsonField key part) = some ([(key, value)], rest'') := by
  have hblank : skipSpace (' ' :: part) = part := hspace
  rw [jsonField, jsonRawString_append, readEntries, if_pos rfl, readString_raw key hkey]
  simp only [Option.bind_eq_bind, Option.bind_some, @skipSpace_cons ':' rfl, if_pos]
  rw [hblank, h]
  simp only [Option.bind_some, hclose, String.ofList_toList]
  rfl

end Reader

namespace TextFirstParser

/-- The fields of the item from the third on, in front of what follows the last one. -/
def lastFields (path : Path) (after : List Char) : List Char :=
  jsonField "page_idx" ((toString (0 : ℤ)).toList ++ ',' :: (jsonLine 2 ++
    jsonField "source_file" (jsonRawString path.name ++ after)))

def fields (path : Path) (text after : List Char) : List Char :=
  jsonField "type" (jsonRawString "text" ++ ',' :: (jsonLine 2 ++
    jsonField "text" (jsonRawString (String.ofList text) ++ ',' :: (jsonLine 2 ++
      lastFields path after))))

def contentText (path : Path) (text : List Char) : List Char :=
  '[' :: (jsonLine 1 ++ '\x7b' :: (jsonLine 2 ++
    fields path text (jsonLine 1 ++ '\x7d' :: (jsonLine 0 ++ [']']))))

theorem dumpsIndented_contentList (path : Path) (text : List Char) :
    dumpsIndented 0 (contentList path text) = some (contentText path text) := by
  rw [contentList, contentText, fields, lastFields]
  simp [dumpsIndented, dumpsIndentedItems, dumpsIndentedEntries, jsonKey, jsonField,
    List.intercalate_cons_cons]

variable {path : Path} {text : List Char} {fuel : ℕ} {after rest : List Char}

theorem skipSpace_jsonField (key : String) (part : List Char) :
    skipSpace (jsonLine 2 ++ jsonField key part) = jsonField key part :=
  (skipSpace_jsonLine 2 _).trans (skipSpace_raw key _)

theorem readEntries_lastFields (floatOf : String → PyFloat)
    (hname : path.name.toList.length < fuel) (hfuel : 11 < fuel)
    (hafter : skipSpace after = '\x7d' :: rest) :
    readEntries floatOf (fuel + 3) (skipSpace (jsonLine 2 ++ lastFields path after)) =
      some ([("page_idx", .int 0), ("source_file", .str path.name)], rest) := by
  have hsource : "source_file".toList.length = 11 := rfl
  have hpage : "page_idx".toList.length = 8 := rfl
  have hlast : readEntries floatOf (fuel + 2)
      (jsonField "source_file" (jsonRawString path.name ++ after)) =
      some ([("source_file", .str path.name)], rest) :=
    readEntries_close "source_file" (by omega) (skipSpace_raw path.name after)
      (readValue_raw path.name hname after) hafter
  rw [lastFields, skipSpace_jsonField]
  refine readEntries_field "page_idx" (by omega) ((@readsBack_int floatOf 0).skipSpace _)
    ((@readsBack_int floatOf 0).read (fuel + 2) _ ?_ (stops_cons (.inl rfl))) ?_
  · have hlength : (toString (0 : ℤ)).toList.length = 1 := rfl
    omega
  · rw [skipSpace_jsonField]
    exact hlast

/-- **The fields are read back.** -/
theorem readEntries_fields (floatOf : String → PyFloat) (htext : text.length < fuel)
    (hname : path.name.toList.length < fuel) (hfuel : 11 < fuel)
    (hafter : skipSpace after = '\x7d' :: rest) :
    readEntries floatOf (fuel + 5) (fields path text after) =
      some ([("type", .str "text"), ("text", .str (String.ofList text)), ("page_idx", .int 0),
        ("source_file", .str path.name)], rest) := by
  have hkind : "type".toList.length = 4 := rfl
  have hkey : "text".toList.length = 4 := rfl
  have hstring : (String.ofList text).toList.length < fuel + 2 := by
    rw [String.toList_ofList]
    omega
  rw [fields]
  refine readEntries_field "type" (by omega) (skipSpace_raw "text" _)
    (readValue_raw "text" (by omega) _) ?_
  rw [skipSpace_jsonField]
  refine readEntries_field "text" (by omega) (skipSpace_raw (String.ofList text) _)
    (readValue_raw (String.ofList text) hstring _) ?_
  exact readEntries_lastFields floatOf hname hfuel hafter

theorem length_contentText (path : Path) (text : List Char) :
    text.length + path.name.toList.length + 20 < (contentText path text).length := by
  have htext := length_le_flatMap jsonRawEscape_eq_cons text
  have hname := length_le_flatMap jsonRawEscape_eq_cons path.name.toList
  have hkind : (jsonRawString "type").length = 6 := rfl
  have hkey : (jsonRawString "text").length = 6 := rfl
  have hpage : (jsonRawString "page_idx").length = 10 := rfl
  have hsource : (jsonRawString "source_file").length = 13 := rfl
  simp only [contentText, fields, lastFields, jsonField, List.length_cons, List.length_append,
    hkind, hkey, hpage, hsource]
  simp only [jsonRawString, String.toList_ofList, List.length_cons, List.length_append]
  omega

/-- **The list is read back** from its JSON. -/
theorem loads_contentText (floatOf : String → PyFloat) (path : Path) (text : List Char) :
    loads floatOf (contentText path text) = some (contentList path text) := by
  -- The reader has as much fuel as its text is long, which is enough for the two texts in it.
  obtain ⟨fuel, hfuel⟩ := Nat.exists_eq_add_of_lt (length_contentText path text)
  let after : List Char := jsonLine 1 ++ '\x7d' :: (jsonLine 0 ++ [']'])
  have hafter : skipSpace after = '\x7d' :: (jsonLine 0 ++ [']']) :=
    (skipSpace_jsonLine 1 _).trans (skipSpace_cons rfl _)
  have hfields := @readEntries_fields path text (text.length + path.name.toList.length + fuel + 14)
    after _ floatOf (by omega) (by omega) (by omega) hafter
  have hline : ∀ rest, skipSpace (jsonLine 2 ++ fields path text rest) = fields path text rest :=
    fun rest ↦ skipSpace_jsonField "type" _
  have hobject : readValue floatOf (text.length + path.name.toList.length + fuel + 20)
      ('\x7b' :: (jsonLine 2 ++ fields path text after)) =
      some (.dict [(.str "type", .str "text"), (.str "text", .str (String.ofList text)),
        (.str "page_idx", .int 0), (.str "source_file", .str path.name)],
        jsonLine 0 ++ [']']) := by
    have hassign : assignItems [] [("type", .str "text"), ("text", .str (String.ofList text)),
        ("page_idx", .int 0), ("source_file", .str path.name)] =
        [(.str "type", .str "text"), (.str "text", .str (String.ofList text)),
          (.str "page_idx", .int 0), (.str "source_file", .str path.name)] :=
      assignItems_of_nodup (by simp)
    have hopen : ∃ tail, fields path text after = '"' :: tail := ⟨_, jsonRawString_append _ _⟩
    rw [readValue, if_neg (by decide), if_neg (by decide), if_pos rfl, hline, hfields]
    obtain ⟨tail, htail⟩ := hopen
    rw [htail, List.head?_cons, if_neg (by simp), Option.map_some, hassign]
  have hitems : readItems floatOf (text.length + path.name.toList.length + fuel + 21)
      ('\x7b' :: (jsonLine 2 ++ fields path text after)) = some ([_], []) :=
    readItems_close hobject ((skipSpace_jsonLine 0 _).trans (skipSpace_cons rfl []))
  have hbracket : skipSpace (jsonLine 1 ++ '\x7b' :: (jsonLine 2 ++ fields path text after)) =
      '\x7b' :: (jsonLine 2 ++ fields path text after) :=
    (skipSpace_jsonLine 1 _).trans (skipSpace_cons rfl _)
  have hvalue : readValue floatOf (text.length + path.name.toList.length + fuel + 22)
      (contentText path text) = some (contentList path text, []) := by
    rw [contentText, readValue, if_neg (by decide), if_pos rfl, hbracket, List.head?_cons,
      if_neg (by simp), hitems]
    rfl
  have hsteps : (contentText path text).length + 1 =
      text.length + path.name.toList.length + fuel + 22 := by
    omega
  have hstart : skipSpace (contentText path text) = contentText path text := skipSpace_cons rfl _
  rw [loads, hsteps, hstart, hvalue]
  rfl

theorem not_mem_contentText (path : Path) (text : List Char) : '\r' ∉ contentText path text := by
  have hline : ∀ level, '\r' ∉ jsonLine level := by
    intro level h
    rcases List.mem_cons.mp h with h | h
    · exact absurd h (by decide)
    · exact absurd (List.mem_replicate.mp h).2 (by decide)
  have hzero : '\r' ∉ (toString (0 : ℤ)).toList := by decide
  simp only [contentText, fields, lastFields, jsonField, List.mem_cons, List.mem_append, hline,
    not_mem_jsonRawString, hzero]
  decide

/-- **The artifacts say what the parser returns.** Whatever the bytes of a text file are, it is
parsed, and both artifacts are written: the JSON is read back as the content list, and the text as
the text of the list. What the parser itself would read of the second one is the same text, unless
the text begins with the character of the byte order mark; and the artifact is the file, byte by
byte, if the file is UTF-8 without a mark or a carriage return. -/
theorem artifacts_readBack (unicode : UnicodeData) (floatOf : String → PyFloat)
    (fallback : Path → Except PyException (PyValue × List Artifact)) (path : Path)
    (hpath : IsText unicode path) (bytes : List UInt8) :
    ∃ text json,
      parseDocument unicode fallback path (some bytes) true = .ok (contentList path text,
        [(String.ofList ((splitSuffix path.name).1 ++ "_content_list.json".toList),
            encodeUtf8 json),
          (String.ofList ((splitSuffix path.name).1 ++ ".md".toList), encodeUtf8 text)]) ∧
      readText bytes = .ok text ∧
      readText (encodeUtf8 json) = .ok json ∧ loads floatOf json = some (contentList path text) ∧
      decodeUtf8 (encodeUtf8 text) = some text ∧
      (readText (encodeUtf8 text) = .ok text ↔ text.head? ≠ some '\ufeff') ∧
      ∀ source, bytes = encodeUtf8 source → '\r' ∉ source → source.head? ≠ some '\ufeff' →
        encodeUtf8 text = bytes := by
  obtain ⟨text, hread, hreturn⟩ := exists_readText bytes
  have hjson : readText (encodeUtf8 (contentText path text)) = .ok (contentText path text) :=
    (readText_encode_iff (not_mem_contentText path text)).mpr (by simp [contentText])
  refine ⟨text, contentText path text, ?_, hread, hjson, loads_contentText floatOf path text,
    decodeUtf8_encodeUtf8 text, readText_encode_iff hreturn, ?_⟩
  · have hartifacts : writeParserArtifacts path true (contentList path text) text = .ok
        [(String.ofList ((splitSuffix path.name).1 ++ "_content_list.json".toList),
            encodeUtf8 (contentText path text)),
          (String.ofList ((splitSuffix path.name).1 ++ ".md".toList), encodeUtf8 text)] := by
      rw [writeParserArtifacts, if_pos rfl, dumpsIndented_contentList]
    rw [parseDocument, if_pos hpath, parseTextFile, if_pos hpath, hread]
    exact (congrArg (fun artifacts ↦ artifacts >>= fun written ↦
      Except.ok (contentList path text, written)) hartifacts).trans rfl
  · rintro source rfl hsource hmark
    rw [(readText_encode_iff hsource).mpr hmark] at hread
    rw [Except.ok.inj hread]

/-- A file with a mark and a carriage return. -/
def guideFile : List UInt8 := encodeUtf8 ('\ufeff' :: "# Guide\r\nCafé".toList)

/-- It is parsed as two lines, and so are its artifacts. -/
theorem guide_readBack : IsText asciiData ["guide.md"] ∧ ∃ json,
    parseDocument asciiData (fun _ ↦ .ok (.none, [])) ["guide.md"] (some guideFile) true =
      .ok (contentList ["guide.md"] "# Guide\nCafé".toList,
        [("guide_content_list.json", encodeUtf8 json),
          ("guide.md", encodeUtf8 "# Guide\nCafé".toList)]) ∧
    loads (fun _ ↦ .nan) json = some (contentList ["guide.md"] "# Guide\nCafé".toList) := by
  have hguide : IsText asciiData ["guide.md"] := by decide
  obtain ⟨text, json, hparse, hread, -, hloads, -⟩ := artifacts_readBack asciiData (fun _ ↦ .nan)
    (fun _ ↦ .ok (.none, [])) ["guide.md"] hguide guideFile
  have htext : readText guideFile = .ok "# Guide\nCafé".toList := by
    rw [readText, List.findSome?_cons, guideFile, decodeUtf8Sig_mark]
    rfl
  obtain rfl := Except.ok.inj (hread.symm.trans htext)
  exact ⟨hguide, json, hparse, hloads⟩

end TextFirstParser

end KnowledgeAlakazam
