import KnowledgeAlakazam.Core.JsonRoundTrip
import KnowledgeAlakazam.Log.Redaction

/-!
# Log lines

`JsonLogFormatter.format` writes the payload of a record as JSON. Whatever was logged, the line is
printable ASCII, so that no message and no extra can begin another line; and whoever reads the line
back finds the payload. In it every leaf of an extra is where it was, unless a secret key is above
it, and under a secret key there is the mark that replaces it.

The keys of a mapping need not be texts: the formatter takes the `str` of each, and of keys with one
text the last counts. So what is logged of an extra is addressed by the texts of its keys
(`textAt?`).
-/

namespace KnowledgeAlakazam

/-- `JsonLogFormatter.format`; `none` where it raises. -/
def JsonLogFormatter.format (unicode : UnicodeData) (record : LogRecord) : Option (List Char) :=
  dumps (.dict (logPayload unicode record))

/-! ## Paths -/

section Paths

open PyValue

theorem lookup_plainEntries (items : List (PyValue × PyValue)) (name : String) :
    lookup (plainEntries items) name = (lookup items name).map plain := by
  rw [plainEntries_eq, lookup, List.find?_map, Option.map_map, lookup, Option.map_map]
  rfl

theorem at?_plain {value node : PyValue} {path : List PathStep} (h : value.at? path = some node) :
    (plain value).at? path = some (plain node) := by
  induction path generalizing value with
  | nil =>
    rw [at?] at h ⊢
    rw [Option.some.inj h]
  | cons step path ih =>
    rcases at?_cons h with ⟨items, name, child, rfl, rfl, hlookup, hat⟩ |
      ⟨items, i, child, hitems, rfl, hitem, hat⟩
    · rw [plain, at?, lookup_plainEntries, hlookup]
      exact ih hat
    · have hplain : plain value = .list (items.map plain) := by
        rcases hitems with rfl | rfl
        · rw [plain, plainItems_eq]
        · rw [plain, plainItems_eq]
      rw [hplain, at?, List.getElem?_map, hitem]
      exact ih hat

theorem at?_append {value node : PyValue} {path path' : List PathStep}
    (h : value.at? path = some node) : value.at? (path ++ path') = node.at? path' := by
  induction path generalizing value with
  | nil =>
    rw [at?] at h
    rw [List.nil_append, Option.some.inj h]
  | cons step path ih =>
    rcases at?_cons h with ⟨items, name, child, rfl, rfl, hlookup, hat⟩ |
      ⟨items, i, child, hitems, rfl, hitem, hat⟩
    · rw [List.cons_append, at?, hlookup]
      exact ih hat
    · rcases hitems with rfl | rfl
      · rw [List.cons_append, at?, hitem]
        exact ih hat
      · rw [List.cons_append, at?, hitem]
        exact ih hat

variable (unicode : UnicodeData)

/-- What a mapping has under a text; of keys with one text the last counts. -/
def PyValue.textLookup (items : List (PyValue × PyValue)) (name : String) : Option PyValue :=
  ((items.filter fun item ↦ item.1.toText unicode == name).getLast?).map Prod.snd

def PyValue.textAt? : PyValue → List PathStep → Option PyValue
  | value, [] => some value
  | dict items, .key name :: path =>
    (textLookup unicode items name).bind fun value ↦ textAt? value path
  | list items, .index i :: path => items[i]?.bind fun item ↦ textAt? item path
  | tuple items, .index i :: path => items[i]?.bind fun item ↦ textAt? item path
  | _, _ :: _ => .none

variable {unicode}

theorem PyValue.textAt?_cons {value node : PyValue} {step : PathStep} {path : List PathStep}
    (h : textAt? unicode value (step :: path) = some node) :
    (∃ items name child, value = dict items ∧ step = .key name ∧
      textLookup unicode items name = some child ∧ textAt? unicode child path = some node) ∨
    ∃ items i child, (value = list items ∨ value = tuple items) ∧ step = .index i ∧
      items[i]? = some child ∧ textAt? unicode child path = some node := by
  rw [PyValue.textAt?.eq_def] at h
  split at h
  · rename_i heq
    cases heq
  · rename_i items name path heq
    cases heq
    obtain ⟨child, hlookup, hat⟩ := Option.bind_eq_some_iff.mp h
    exact .inl ⟨items, name, child, rfl, rfl, hlookup, hat⟩
  · rename_i items i path heq
    cases heq
    obtain ⟨child, hitem, hat⟩ := Option.bind_eq_some_iff.mp h
    exact .inr ⟨items, i, child, .inl rfl, rfl, hitem, hat⟩
  · rename_i items i path heq
    cases heq
    obtain ⟨child, hitem, hat⟩ := Option.bind_eq_some_iff.mp h
    exact .inr ⟨items, i, child, .inr rfl, rfl, hitem, hat⟩
  · cases h

theorem PyValue.exists_textLookup {items : List (PyValue × PyValue)} {name : String}
    (h : name ∈ items.map fun item ↦ item.1.toText unicode) :
    ∃ value, textLookup unicode items name = some value := by
  obtain ⟨item, hmem, hname⟩ := List.mem_map.mp h
  have hkept : item ∈ items.filter fun item ↦ item.1.toText unicode == name :=
    List.mem_filter.mpr ⟨hmem, beq_iff_eq.mpr hname⟩
  obtain ⟨last, hlast⟩ := Option.isSome_iff_exists.mp
    (List.getLast?_isSome.mpr (List.ne_nil_of_mem hkept))
  exact ⟨last.2, by rw [textLookup, hlast]; rfl⟩

/-- **The value under a text**, after all values were replaced and put into a mapping. -/
theorem PyValue.lookup_assignItems_map {items done : List (PyValue × PyValue)} {name : String}
    {value : PyValue} (h : textLookup unicode items name = some value)
    (f : String → PyValue → PyValue) :
    lookup (assignItems done (items.map fun item ↦
      (item.1.toText unicode, f (item.1.toText unicode) item.2))) name = some (f name value) := by
  obtain ⟨item, hlast, rfl⟩ := Option.map_eq_some_iff.mp h
  have hname : item.1.toText unicode = name :=
    beq_iff_eq.mp (List.mem_filter.mp (List.mem_of_getLast? hlast)).2
  rw [lookup_assignItems, List.filter_map, List.getLast?_map]
  have hsame : ((fun pair : String × PyValue ↦ pair.1 == name) ∘ fun item : PyValue × PyValue ↦
      (item.1.toText unicode, f (item.1.toText unicode) item.2)) =
      fun item ↦ item.1.toText unicode == name := rfl
  rw [hsame, hlast, Option.map_some, Option.map_some, Option.some_or, hname]

/-- The key that governs what is at a path. -/
def governing (key : String) (path : List PathStep) : String :=
  ((pathKeys path).getLast?).getD key

theorem governing_key (key name : String) (path : List PathStep) :
    governing key (.key name :: path) = governing name path := by
  rw [governing, governing, pathKeys, List.getLast?_cons, Option.getD_some]

theorem governing_mem (key : String) (path : List PathStep) :
    governing key path ∈ key :: pathKeys path := by
  rw [governing]
  cases h : (pathKeys path).getLast? with
  | none => exact List.mem_cons_self
  | some name => exact List.mem_cons_of_mem _ (List.mem_of_getLast? h)

end Paths

variable {unicode : UnicodeData}

/-- Below public keys the walk goes on. -/
theorem at?_sanitizeLogValue_of_public {key : String} {value node : PyValue}
    {path : List PyValue.PathStep} (h : value.textAt? unicode path = some node)
    (hpublic : ∀ name ∈ key :: PyValue.pathKeys path, isSecretField unicode name = false) :
    (sanitizeLogValue unicode key value).at? path =
      some (sanitizeLogValue unicode (governing key path) node) := by
  have hkey := hpublic key List.mem_cons_self
  induction path generalizing key value with
  | nil =>
    rw [PyValue.textAt?] at h
    rw [Option.some.inj h]
    rfl
  | cons step path ih =>
    rcases PyValue.textAt?_cons h with ⟨items, name, child, rfl, rfl, hlookup, hat⟩ |
      ⟨items, i, child, hitems, rfl, hitem, hat⟩
    · rw [sanitizeLogValue_dict hkey, PyValue.at?, governing_key,
        PyValue.lookup_assignItems_map hlookup (sanitizeLogValue unicode)]
      have hpublic' := fun name' hname' ↦ hpublic name' (List.mem_cons_of_mem _ hname')
      exact ih hat hpublic' (hpublic' name List.mem_cons_self)
    · have hsanitized : sanitizeLogValue unicode key value
          = .list (items.map (sanitizeLogValue unicode key)) := by
        rcases hitems with rfl | rfl
        · exact sanitizeLogValue_list hkey items
        · exact sanitizeLogValue_tuple hkey items
      rw [hsanitized, PyValue.at?, List.getElem?_map, hitem]
      exact ih hat hpublic hkey

/-! ## The payload can be written -/

theorem everywhere_sanitizeLogValue {p : PyValue → Prop} (hstr : ∀ text, p (.str text))
    (hlist : ∀ items, p (.list items))
    (hdict : ∀ pairs : List (String × PyValue), p (.dict (assignItems [] pairs)))
    {value : PyValue} (hleaves : value.Everywhere fun node ↦ node.IsLeaf → p node)
    (key : String) : (sanitizeLogValue unicode key value).Everywhere p := by
  -- Under a secret key everything becomes one text; elsewhere the shape is kept.
  have hsecret : ∀ {key : String} {value : PyValue}, isSecretField unicode key = true →
      (sanitizeLogValue unicode key value).Everywhere p := by
    intro key value h
    rw [sanitizeLogValue_of_secret h]
    have hleaf : (PyValue.str "[redacted]").IsLeaf := trivial
    exact (PyValue.everywhere_leaf hleaf).mpr (hstr _)
  have hitems : ∀ {key : String} {items : List PyValue},
      (∀ item ∈ items, (sanitizeLogValue unicode key item).Everywhere p) →
      (PyValue.list (items.map (sanitizeLogValue unicode key))).Everywhere p := by
    intro key items h
    refine PyValue.everywhere_list.mpr ⟨hlist _, fun item hmem ↦ ?_⟩
    obtain ⟨item, hitem, rfl⟩ := List.mem_map.mp hmem
    exact h item hitem
  induction value generalizing key with
  | leaf value hleaf =>
    cases h : isSecretField unicode key with
    | true => exact hsecret h
    | false =>
      rw [sanitizeLogValue_leaf h hleaf]
      exact (PyValue.everywhere_leaf hleaf).mpr (hleaves.self hleaf)
  | list items ih =>
    cases h : isSecretField unicode key with
    | true => exact hsecret h
    | false =>
      rw [sanitizeLogValue_list h]
      obtain ⟨-, hleaves⟩ := PyValue.everywhere_list.mp hleaves
      exact hitems fun item hmem ↦ ih item hmem (hleaves item hmem) key
  | tuple items ih =>
    cases h : isSecretField unicode key with
    | true => exact hsecret h
    | false =>
      rw [sanitizeLogValue_tuple h]
      obtain ⟨-, hleaves⟩ := PyValue.everywhere_tuple.mp hleaves
      exact hitems fun item hmem ↦ ih item hmem (hleaves item hmem) key
  | dict items ih =>
    cases h : isSecretField unicode key with
    | true => exact hsecret h
    | false =>
      rw [sanitizeLogValue_dict h]
      obtain ⟨-, hleaves⟩ := PyValue.everywhere_dict.mp hleaves
      refine PyValue.everywhere_dict.mpr ⟨hdict _, fun item hmem ↦ ?_⟩
      -- two keys may have the same text, and then only the later value is there
      obtain ⟨pair, hpair, rfl⟩ := (mem_assignItems hmem).resolve_left List.not_mem_nil
      obtain ⟨old, hold, rfl⟩ := List.mem_map.mp hpair
      exact ih old hold (hleaves old hold) _

/-- What the payload has of the record itself. -/
def recordItems (record : LogRecord) : List (PyValue × PyValue) :=
  let payload : List (PyValue × PyValue) :=
    [(.str "timestamp", .str record.timestamp), (.str "level", .str record.levelname),
      (.str "logger", .str record.name), (.str "message", .str record.message)]
  match record.exception with
  | some text => setItem payload "exception" (.str text)
  | none => payload

theorem logPayload_eq (record : LogRecord) : logPayload unicode record =
    assignItems (recordItems record) ((record.attributes.filter fun extra ↦
      isLogExtra extra.1).map fun extra ↦ (extra.1, sanitizeLogValue unicode extra.1 extra.2)) :=
  rfl

theorem mem_recordItems {record : LogRecord} {item : PyValue × PyValue}
    (h : item ∈ recordItems record) : ∃ key text, item = (.str key, .str text) := by
  have hbase : ∀ item' ∈ ([(.str "timestamp", .str record.timestamp),
      (.str "level", .str record.levelname), (.str "logger", .str record.name),
      (.str "message", .str record.message)] : List (PyValue × PyValue)),
      ∃ key text, item' = (.str key, .str text) := by
    intro item' hmem
    simp only [List.mem_cons, List.not_mem_nil, or_false] at hmem
    rcases hmem with rfl | rfl | rfl | rfl <;> exact ⟨_, _, rfl⟩
  rw [recordItems] at h
  split at h
  · rcases mem_setItem h with h | h
    · exact hbase item h
    · exact ⟨_, _, h⟩
  · exact hbase item h

theorem nodup_keys_recordItems (record : LogRecord) :
    ((recordItems record).map Prod.fst).Nodup := by
  have hbase : (([(.str "timestamp", .str record.timestamp),
      (.str "level", .str record.levelname), (.str "logger", .str record.name),
      (.str "message", .str record.message)] : List (PyValue × PyValue)).map Prod.fst).Nodup := by
    simp
  rw [recordItems]
  split
  · exact nodup_keys_setItem hbase
  · exact hbase

theorem stringKeyed_logPayload (record : LogRecord) : StringKeyed (logPayload unicode record) where
  str item hmem := by
    rw [logPayload_eq] at hmem
    rcases mem_assignItems hmem with hmem | ⟨pair, -, rfl⟩
    · obtain ⟨key, text, rfl⟩ := mem_recordItems hmem
      exact ⟨key, rfl⟩
    · exact ⟨pair.1, rfl⟩
  nodup := by
    rw [logPayload_eq]
    exact nodup_keys_assignItems (nodup_keys_recordItems record) _

theorem everywhere_logPayload {p : PyValue → Prop} (hstr : ∀ text, p (.str text))
    (hlist : ∀ items, p (.list items)) (hdict : ∀ items, StringKeyed items → p (.dict items))
    {record : LogRecord} (hleaves : ∀ extra ∈ record.attributes,
      extra.2.Everywhere fun node ↦ node.IsLeaf → p node) :
    (PyValue.dict (logPayload unicode record)).Everywhere p := by
  refine PyValue.everywhere_dict.mpr ⟨hdict _ (stringKeyed_logPayload record), fun item hmem ↦ ?_⟩
  rw [logPayload_eq] at hmem
  rcases mem_assignItems hmem with hmem | ⟨pair, hpair, rfl⟩
  · obtain ⟨key, text, rfl⟩ := mem_recordItems hmem
    have hleaf : (PyValue.str text).IsLeaf := trivial
    exact (PyValue.everywhere_leaf hleaf).mpr (hstr text)
  · obtain ⟨extra, hextra, rfl⟩ := List.mem_map.mp hpair
    have hpairs (pairs : List (String × PyValue)) : p (.dict (assignItems [] pairs)) :=
      hdict _ (stringKeyed_assignItems pairs)
    exact everywhere_sanitizeLogValue hstr hlist hpairs
      (hleaves extra (List.mem_filter.mp hextra).1) extra.1

/-! ## The line -/

/-- The extras of a record that are logged, as one mapping. -/
def LogRecord.extras (record : LogRecord) : List (PyValue × PyValue) :=
  (record.attributes.filter fun extra ↦ isLogExtra extra.1).map
    fun extra ↦ (.str extra.1, extra.2)

theorem logPayload_eq_extras (record : LogRecord) : logPayload unicode record =
    assignItems (recordItems record) (record.extras.map fun item ↦
      (item.1.toText unicode, sanitizeLogValue unicode (item.1.toText unicode) item.2)) := by
  rw [logPayload_eq, LogRecord.extras, List.map_map]
  rfl

theorem at?_logPayload {record : LogRecord} {name : String} {path : List PyValue.PathStep}
    {node : PyValue}
    (h : (PyValue.dict record.extras).textAt? unicode (.key name :: path) = some node)
    (hpublic : ∀ key ∈ name :: PyValue.pathKeys path, isSecretField unicode key = false) :
    (PyValue.dict (logPayload unicode record)).at? (.key name :: path) =
      some (sanitizeLogValue unicode (governing name path) node) := by
  obtain ⟨child, hlookup, hat⟩ := Option.bind_eq_some_iff.mp h
  rw [PyValue.at?, logPayload_eq_extras,
    PyValue.lookup_assignItems_map hlookup (sanitizeLogValue unicode)]
  exact at?_sanitizeLogValue_of_public hat hpublic

/-- A secret key of the extras has the mark in the payload, at any depth. -/
theorem at?_logPayload_secret {record : LogRecord} {path : List PyValue.PathStep}
    {items : List (PyValue × PyValue)} {name : String}
    (h : (PyValue.dict record.extras).textAt? unicode path = some (.dict items))
    (hpublic : ∀ key ∈ PyValue.pathKeys path, isSecretField unicode key = false)
    (hname : name ∈ items.map fun item ↦ item.1.toText unicode)
    (hsecret : isSecretField unicode name = true) :
    (PyValue.dict (logPayload unicode record)).at? (path ++ [.key name]) =
      some (.str "[redacted]") := by
  obtain ⟨value, hlookup⟩ := PyValue.exists_textLookup hname
  rw [← sanitizeLogValue_of_secret hsecret value]
  cases path with
  | nil =>
    -- the name of an extra
    obtain rfl := PyValue.dict.inj (Option.some.inj h)
    rw [List.nil_append, PyValue.at?, logPayload_eq_extras,
      PyValue.lookup_assignItems_map hlookup (sanitizeLogValue unicode)]
    rfl
  | cons step path =>
    -- a key in a mapping below an extra
    rcases PyValue.textAt?_cons h with ⟨_, first, _, -, rfl, -, -⟩ | ⟨_, _, _, hitems, -⟩
    · have hat := at?_logPayload h hpublic
      have hgoverning := hpublic _ (governing_mem first path)
      rw [sanitizeLogValue_dict hgoverning] at hat
      rw [at?_append hat, PyValue.at?,
        PyValue.lookup_assignItems_map hlookup (sanitizeLogValue unicode)]
      rfl
    · rcases hitems with heq | heq <;> cases heq

/-- **What a log line says.** Every record is one line of printable ASCII, and a JSON document: its
payload. In the document every leaf of an extra with no secret key above it is where it was, and
what is stored under a secret key, the name of the extra or a key further down, is replaced: it has
no influence on the line. -/
theorem JsonLogFormatter.format_readsBack (unicode : UnicodeData) {floatOf : String → PyFloat}
    (record : LogRecord)
    (hfloats : ∀ extra ∈ record.attributes, extra.2.Everywhere (ReadableFloat floatOf)) :
    (∃ line document, JsonLogFormatter.format unicode record = some line ∧
      IsPrintable line ∧ loads floatOf line = some document ∧
      document = plain (.dict (logPayload unicode record)) ∧
      ∀ path node, (PyValue.dict record.extras).textAt? unicode path = some node →
        (∀ key ∈ PyValue.pathKeys path, isSecretField unicode key = false) →
        (node.IsLeaf → document.at? path = some (plain node)) ∧
        ∀ items name, node = .dict items → name ∈ items.map (fun item ↦ item.1.toText unicode) →
          isSecretField unicode name = true →
          document.at? (path ++ [.key name]) = some (.str "[redacted]")) ∧
    ∀ attributes, record.attributes.map Prod.fst = attributes.map Prod.fst →
      (∀ extra extra', (extra, extra') ∈ record.attributes.zip attributes →
        AgreesOutsideSecrets unicode extra.1 extra.2 extra'.2) →
      JsonLogFormatter.format unicode { record with attributes := attributes } =
        JsonLogFormatter.format unicode record := by
  refine ⟨?_, fun attributes hkeys hagree ↦ ?_⟩
  · have hkeyed : (PyValue.dict (logPayload unicode record)).Everywhere
        (PyValue.IsDictOf StringKeyed) :=
      everywhere_logPayload (fun _ ↦ trivial) (fun _ ↦ trivial) (fun _ h ↦ h)
        fun extra hmem node hnode hleaf ↦ PyValue.isDictOf_leaf hleaf
    have hreadable : (PyValue.dict (logPayload unicode record)).Everywhere
        (ReadableFloat floatOf) :=
      everywhere_logPayload (fun _ ↦ trivial) (fun _ ↦ trivial) (fun _ _ ↦ trivial)
        fun extra hmem node hnode _ ↦ hfloats extra hmem node hnode
    obtain ⟨line, hline, hprint, hloads⟩ := loads_dumps hkeyed hreadable
    refine ⟨line, _, hline, hprint, hloads, rfl, fun path node hat hpublic ↦ ⟨fun hleaf ↦ ?_, ?_⟩⟩
    · cases path with
      | nil =>
        obtain rfl := Option.some.inj hat
        exact hleaf.elim
      | cons step path =>
        rcases PyValue.textAt?_cons hat with ⟨_, first, _, -, rfl, -, -⟩ | ⟨_, _, _, hitems, -⟩
        · have hplain := at?_plain (at?_logPayload hat hpublic)
          rwa [sanitizeLogValue_leaf (hpublic _ (governing_mem first path)) hleaf] at hplain
        · rcases hitems with heq | heq <;> cases heq
    · rintro items name rfl hname hsecret
      exact at?_plain (at?_logPayload_secret hat hpublic hname hsecret)
  · rw [JsonLogFormatter.format, ← logPayload_congr record hkeys hagree, JsonLogFormatter.format]

/-- A record with a text on two lines, a float, an extra that is secret itself and a mapping with
keys that are no texts. -/
def sampleRecord : LogRecord where
  timestamp := "2026-07-06"
  levelname := "INFO"
  name := "app.request"
  message := "one\n\"two\" é"
  exception := none
  attributes :=
    [("duration_ms", .float (.finite "1.5")), ("_x", .int 1), ("api_key", .str "k"),
      ("user", .dict [(.int 1, .str "a"), (.str "1", .str "b"), (.str "password", .str "p")])]

example : (JsonLogFormatter.format asciiData sampleRecord).map String.ofList =
    some ("\x7b\"timestamp\":\"2026-07-06\",\"level\":\"INFO\"," ++
      "\"logger\":\"app.request\",\"message\":\"one\\n\\\"two\\\" \\u00e9\"," ++
      "\"duration_ms\":1.5,\"api_key\":\"[redacted]\"," ++
      "\"user\":\x7b\"1\":\"b\",\"password\":\"[redacted]\"\x7d\x7d") := by
  decide +kernel

theorem readable_sampleRecord : ∀ extra ∈ sampleRecord.attributes,
    extra.2.Everywhere (ReadableFloat PyFloat.finite) := by
  have hduration : IsFloatText PyFloat.finite "1.5" :=
    ⟨⟨[], ['1'], ['.', '5'], [], .inl rfl, .inr ⟨⟨by decide, by simp⟩, by decide⟩,
      .inr ⟨['5'], ⟨by decide, by simp⟩, rfl⟩, .inl rfl, by decide, by decide⟩, rfl⟩
  have hleaf : ∀ {value : PyValue}, value.IsLeaf → ReadableFloat PyFloat.finite value →
      value.Everywhere (ReadableFloat PyFloat.finite) :=
    fun hleaf hvalue ↦ (PyValue.everywhere_leaf hleaf).mpr hvalue
  intro extra hmem
  simp only [sampleRecord, List.mem_cons, List.not_mem_nil, or_false] at hmem
  rcases hmem with rfl | rfl | rfl | rfl
  · exact hleaf trivial hduration
  · exact hleaf trivial trivial
  · exact hleaf trivial trivial
  · refine PyValue.everywhere_dict.mpr ⟨trivial, fun item hitem ↦ ?_⟩
    simp only [List.mem_cons, List.not_mem_nil, or_false] at hitem
    rcases hitem with rfl | rfl | rfl <;> exact hleaf trivial trivial

/-- The line of this record: the last of two keys with one text counts, and the extra that is secret
itself is replaced. -/
theorem sampleRecord_readsBack : ∃ line document,
    JsonLogFormatter.format asciiData sampleRecord = some line ∧
      loads PyFloat.finite line = some document ∧
      document.at? [.key "user", .key "1"] = some (.str "b") ∧
      document.at? [.key "api_key"] = some (.str "[redacted]") := by
  obtain ⟨⟨line, document, hline, -, hloads, -, hat⟩, -⟩ :=
    JsonLogFormatter.format_readsBack asciiData sampleRecord readable_sampleRecord
  refine ⟨line, document, hline, hloads, ?_, ?_⟩
  · exact (hat _ (.str "b") rfl (by decide +kernel)).1 trivial
  · exact (hat [] _ rfl (by decide +kernel)).2 _ "api_key" rfl (by decide +kernel)
      (by decide +kernel)

end KnowledgeAlakazam
