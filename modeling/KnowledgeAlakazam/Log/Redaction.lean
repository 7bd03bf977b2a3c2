import KnowledgeAlakazam.Core.PyTree
import Mathlib.Data.List.Infix

/-!
# Redacted logs

Extras of a log record are written as JSON. Whatever is stored under a key whose name contains a
secret marker is replaced, at any depth: `_sanitize_log_value` walks down the value with the name
of the key that governs it, which changes at every mapping and is handed on through sequences.

Two values that agree outside the secrets (`AgreesOutsideSecrets`) are therefore logged alike, and
what is not below a secret is logged as it is.
-/

namespace KnowledgeAlakazam

variable (unicode : UnicodeData)

/-- `_SECRET_FIELD_MARKERS`. -/
def secretFieldMarkers : List String :=
  ["authorization", "api_key", "password", "secret", "token", "cookie"]

/-- The test of `_sanitize_log_value`: the lower-cased name contains a secret marker. -/
def isSecretField (key : String) : Bool :=
  let lowered := unicode.lower key.toList
  secretFieldMarkers.any fun marker ↦ decide (marker.toList <:+: lowered)

mutual

/-- `_sanitize_log_value`. -/
def sanitizeLogValue (key : String) (value : PyValue) : PyValue :=
  if isSecretField unicode key then .str "[redacted]"
  else match value with
  | .dict items => .dict (sanitizeLogItems [] items)
  | .list items => .list (sanitizeLogList key items)
  | .tuple items => .list (sanitizeLogList key items)
  | value => value

def sanitizeLogList (key : String) : List PyValue → List PyValue
  | [] => []
  | item :: items => sanitizeLogValue key item :: sanitizeLogList key items

/-- The items of a mapping, after those done. -/
def sanitizeLogItems (done : List (PyValue × PyValue)) :
    List (PyValue × PyValue) → List (PyValue × PyValue)
  | [] => done
  | (itemKey, itemValue) :: items =>
    let name := itemKey.toText unicode
    sanitizeLogItems (setItem done name (sanitizeLogValue name itemValue)) items

end

/-! ## The record -/

/-- `_LOG_RECORD_RESERVED`. -/
def logRecordReserved : List String :=
  ["args", "asctime", "created", "exc_info", "exc_text", "filename", "funcName", "levelname",
    "levelno", "lineno", "module", "msecs", "message", "msg", "name", "pathname", "process",
    "processName", "relativeCreated", "stack_info", "thread", "threadName"]

/-- A log record: what its formatter reads of it, and its attributes. -/
structure LogRecord where
  /-- `datetime.fromtimestamp(record.created, UTC).isoformat()`. -/
  timestamp : String
  levelname : String
  name : String
  /-- `record.getMessage()`. -/
  message : String
  /-- `formatException(record.exc_info)`, if there is an exception. -/
  exception : Option String
  /-- `record.__dict__`. -/
  attributes : List (String × PyValue)

/-- The attribute is logged: it is an extra, and not one that starts with `_`. -/
def isLogExtra (key : String) : Bool :=
  !(logRecordReserved.contains key || "_".toList.isPrefixOf key.toList)

/-- The payload of `JsonLogFormatter.format`. -/
def logPayload (record : LogRecord) : List (PyValue × PyValue) :=
  let payload : List (PyValue × PyValue) :=
    [(.str "timestamp", .str record.timestamp), (.str "level", .str record.levelname),
      (.str "logger", .str record.name), (.str "message", .str record.message)]
  let payload := match record.exception with
    | some text => setItem payload "exception" (.str text)
    | none => payload
  assignItems payload ((record.attributes.filter fun extra ↦ isLogExtra extra.1).map
    fun extra ↦ (extra.1, sanitizeLogValue unicode extra.1 extra.2))

/-! ## The walk -/

section Walk

variable {unicode} {key : String}

theorem sanitizeLogValue_of_secret (h : isSecretField unicode key = true) (value : PyValue) :
    sanitizeLogValue unicode key value = .str "[redacted]" := by
  rw [sanitizeLogValue.eq_def, if_pos h]

theorem sanitizeLogValue_leaf (h : isSecretField unicode key = false) {value : PyValue}
    (hleaf : value.IsLeaf) : sanitizeLogValue unicode key value = value := by
  rw [sanitizeLogValue.eq_def, if_neg (ne_true_of_eq_false h)]
  split
  · exact hleaf.elim
  · exact hleaf.elim
  · exact hleaf.elim
  · rfl

theorem sanitizeLogList_eq (items : List PyValue) :
    sanitizeLogList unicode key items = items.map (sanitizeLogValue unicode key) := by
  induction items with
  | nil => rw [sanitizeLogList, List.map_nil]
  | cons item items ih => rw [sanitizeLogList, ih, List.map_cons]

theorem sanitizeLogItems_eq (done items : List (PyValue × PyValue)) :
    sanitizeLogItems unicode done items = assignItems done (items.map fun item ↦
      (item.1.toText unicode, sanitizeLogValue unicode (item.1.toText unicode) item.2)) := by
  induction items generalizing done with
  | nil => rw [sanitizeLogItems]; rfl
  | cons item items ih =>
    rw [sanitizeLogItems, ih]
    rfl

theorem sanitizeLogValue_list (h : isSecretField unicode key = false) (items : List PyValue) :
    sanitizeLogValue unicode key (.list items)
      = .list (items.map (sanitizeLogValue unicode key)) := by
  rw [sanitizeLogValue.eq_def, if_neg (ne_true_of_eq_false h)]
  exact congrArg _ (sanitizeLogList_eq items)

theorem sanitizeLogValue_tuple (h : isSecretField unicode key = false) (items : List PyValue) :
    sanitizeLogValue unicode key (.tuple items)
      = .list (items.map (sanitizeLogValue unicode key)) := by
  rw [sanitizeLogValue.eq_def, if_neg (ne_true_of_eq_false h)]
  exact congrArg _ (sanitizeLogList_eq items)

theorem sanitizeLogValue_dict (h : isSecretField unicode key = false)
    (items : List (PyValue × PyValue)) :
    sanitizeLogValue unicode key (.dict items) = .dict (assignItems [] (items.map fun item ↦
      (item.1.toText unicode, sanitizeLogValue unicode (item.1.toText unicode) item.2))) := by
  rw [sanitizeLogValue.eq_def, if_neg (ne_true_of_eq_false h)]
  exact congrArg _ (sanitizeLogItems_eq [] items)

end Walk

/-! ## Noninterference -/

/-- The values agree, except in what is stored under a key that is secret: the key they are stored
under themselves, or one further down. -/
inductive AgreesOutsideSecrets : String → PyValue → PyValue → Prop
  | secret {key : String} (value value' : PyValue) (h : isSecretField unicode key = true) :
    AgreesOutsideSecrets key value value'
  | refl (key : String) (value : PyValue) : AgreesOutsideSecrets key value value
  | list {key : String} {items items' : List PyValue} (hlength : items.length = items'.length)
    (h : ∀ item item', (item, item') ∈ items.zip items' → AgreesOutsideSecrets key item item') :
    AgreesOutsideSecrets key (.list items) (.list items')
  | tuple {key : String} {items items' : List PyValue} (hlength : items.length = items'.length)
    (h : ∀ item item', (item, item') ∈ items.zip items' → AgreesOutsideSecrets key item item') :
    AgreesOutsideSecrets key (.tuple items) (.tuple items')
  | dict {key : String} {items items' : List (PyValue × PyValue)}
    (hkeys : items.map Prod.fst = items'.map Prod.fst)
    (h : ∀ item item', (item, item') ∈ items.zip items' →
      AgreesOutsideSecrets (item.1.toText unicode) item.2 item'.2) :
    AgreesOutsideSecrets key (.dict items) (.dict items')

variable {unicode}

/-- Nothing is to be shown of what is stored under a secret. -/
theorem sanitizeLogValue_eq_of_public {key : String} {value value' : PyValue}
    (h : isSecretField unicode key = false →
      sanitizeLogValue unicode key value = sanitizeLogValue unicode key value') :
    sanitizeLogValue unicode key value = sanitizeLogValue unicode key value' := by
  cases hsecret : isSecretField unicode key with
  | true => rw [sanitizeLogValue_of_secret hsecret, sanitizeLogValue_of_secret hsecret]
  | false => exact h hsecret

/-- **What is secret does not show.** Values that agree outside the secrets are logged alike. -/
theorem sanitizeLogValue_congr {key : String} {value value' : PyValue}
    (h : AgreesOutsideSecrets unicode key value value') :
    sanitizeLogValue unicode key value = sanitizeLogValue unicode key value' := by
  induction h with
  | secret value value' h => rw [sanitizeLogValue_of_secret h, sanitizeLogValue_of_secret h]
  | refl => rfl
  | list hlength h ih =>
    refine sanitizeLogValue_eq_of_public fun hpublic ↦ ?_
    rw [sanitizeLogValue_list hpublic, sanitizeLogValue_list hpublic,
      map_eq_map_of_zip hlength ih]
  | tuple hlength h ih =>
    refine sanitizeLogValue_eq_of_public fun hpublic ↦ ?_
    rw [sanitizeLogValue_tuple hpublic, sanitizeLogValue_tuple hpublic,
      map_eq_map_of_zip hlength ih]
  | dict hkeys h ih =>
    have hlength := congrArg List.length hkeys
    rw [List.length_map, List.length_map] at hlength
    refine sanitizeLogValue_eq_of_public fun hpublic ↦ ?_
    rw [sanitizeLogValue_dict hpublic, sanitizeLogValue_dict hpublic]
    refine congrArg (fun pairs ↦ PyValue.dict (assignItems [] pairs)) ?_
    refine map_eq_map_of_zip hlength fun item item' hmem ↦ ?_
    rw [ih item item' hmem, eq_of_mem_zip hkeys hmem]

/-! ## What is kept -/

/-- **What is not secret shows.** A leaf with no secret key above it is logged as it is. -/
theorem at?_sanitizeLogValue {key : String} {value leaf : PyValue} {path : List PyValue.PathStep}
    (hkeyed : value.Everywhere (PyValue.IsDictOf StringKeyed)) (hleaf : leaf.IsLeaf)
    (h : value.at? path = some leaf)
    (hpublic : ∀ name ∈ key :: PyValue.pathKeys path, isSecretField unicode name = false) :
    (sanitizeLogValue unicode key value).at? path = some leaf := by
  have hkey := hpublic key List.mem_cons_self
  induction path generalizing key value with
  | nil =>
    rw [PyValue.at?] at h
    rw [Option.some.inj h, sanitizeLogValue_leaf hkey hleaf]
    rfl
  | cons step path ih =>
    rcases PyValue.at?_cons h with ⟨items, name, child, rfl, rfl, hlookup, hat⟩ |
      ⟨items, i, child, hitems, rfl, hitem, hat⟩
    · obtain ⟨hdict, hvalues⟩ := PyValue.everywhere_dict.mp hkeyed
      obtain ⟨hmem, hlookup'⟩ := lookup_map hlookup fun item ↦
        sanitizeLogValue unicode (item.1.toText unicode) item.2
      rw [sanitizeLogValue_dict hkey, assignItems_comprehension unicode hdict, PyValue.at?,
        hlookup']
      have hpublic' := fun name' hname' ↦ hpublic name' (List.mem_cons_of_mem _ hname')
      exact ih (hvalues _ hmem) hat hpublic' (hpublic' name List.mem_cons_self)
    · have hsanitized : sanitizeLogValue unicode key value
          = .list (items.map (sanitizeLogValue unicode key)) := by
        rcases hitems with rfl | rfl
        · exact sanitizeLogValue_list hkey items
        · exact sanitizeLogValue_tuple hkey items
      have hchild : child.Everywhere (PyValue.IsDictOf StringKeyed) := by
        have hmem := List.mem_of_getElem? hitem
        rcases hitems with rfl | rfl
        · exact (PyValue.everywhere_list.mp hkeyed).2 child hmem
        · exact (PyValue.everywhere_tuple.mp hkeyed).2 child hmem
      rw [hsanitized, PyValue.at?, List.getElem?_map, hitem]
      exact ih hchild hat hpublic hkey

/-! ## The extras of a record -/

/-- An extra of a log record: a key, and a value whose mappings have string keys. -/
structure LogExtra where
  key : String
  value : PyValue
  stringKeyed : value.Everywhere (PyValue.IsDictOf StringKeyed)

/-- The secrets of a record have no influence on its payload. -/
theorem logPayload_congr (record : LogRecord) {attributes : List (String × PyValue)}
    (hkeys : record.attributes.map Prod.fst = attributes.map Prod.fst)
    (h : ∀ extra extra', (extra, extra') ∈ record.attributes.zip attributes →
      AgreesOutsideSecrets unicode extra.1 extra.2 extra'.2) :
    logPayload unicode record = logPayload unicode { record with attributes := attributes } := by
  -- an attribute is left out for its key, before or after its value was replaced
  have hcomm : ∀ extras : List (String × PyValue),
      (extras.filter fun extra ↦ isLogExtra extra.1).map
          (fun extra ↦ (extra.1, sanitizeLogValue unicode extra.1 extra.2))
        = (extras.map fun extra ↦ (extra.1, sanitizeLogValue unicode extra.1 extra.2)).filter
          fun extra ↦ isLogExtra extra.1 := fun extras ↦ by
    rw [List.filter_map]
    rfl
  have hlength := congrArg List.length hkeys
  rw [List.length_map, List.length_map] at hlength
  have hsame : record.attributes.map
        (fun extra ↦ (extra.1, sanitizeLogValue unicode extra.1 extra.2))
      = attributes.map fun extra ↦ (extra.1, sanitizeLogValue unicode extra.1 extra.2) := by
    refine map_eq_map_of_zip hlength fun extra extra' hmem ↦ ?_
    rw [sanitizeLogValue_congr (h extra extra' hmem), eq_of_mem_zip hkeys hmem]
  rw [logPayload, logPayload, hcomm, hcomm, hsame]

variable (unicode)

/-- **Redaction.** What is stored under a secret key, at any depth, has no influence on what is
logged of an extra, and every leaf with no secret key above it is logged where it was. -/
theorem sanitizeLogValue_noninterference (extra : LogExtra) :
    (∀ value', AgreesOutsideSecrets unicode extra.key extra.value value' →
      sanitizeLogValue unicode extra.key value' = sanitizeLogValue unicode extra.key extra.value) ∧
    ∀ path leaf, extra.value.at? path = some leaf → leaf.IsLeaf →
      (∀ name ∈ extra.key :: PyValue.pathKeys path, isSecretField unicode name = false) →
      (sanitizeLogValue unicode extra.key extra.value).at? path = some leaf :=
  ⟨fun _ hagree ↦ (sanitizeLogValue_congr hagree).symm,
    fun _ _ hat hleaf hpublic ↦ at?_sanitizeLogValue extra.stringKeyed hleaf hat hpublic⟩

def requestExtra : LogExtra where
  key := "request"
  value := .dict [(.str "headers", .list [.dict [(.str "X-Auth-Token", .str "s3cr3t"),
    (.str "n", .int 1)]]), (.str "sizes", .tuple [.int 2, .int 3])]
  stringKeyed := by
    have hleaf : ∀ {value : PyValue}, value.IsLeaf →
        value.Everywhere (PyValue.IsDictOf StringKeyed) :=
      fun hleaf ↦ (PyValue.everywhere_leaf hleaf).mpr (PyValue.isDictOf_leaf hleaf)
    have hinner : (PyValue.dict [(.str "X-Auth-Token", .str "s3cr3t"),
        (.str "n", .int 1)]).Everywhere (PyValue.IsDictOf StringKeyed) := by
      refine PyValue.everywhere_dict.mpr ⟨⟨by simp, by simp⟩, fun item hitem ↦ ?_⟩
      simp only [List.mem_cons, List.not_mem_nil, or_false] at hitem
      rcases hitem with rfl | rfl <;> exact hleaf trivial
    refine PyValue.everywhere_dict.mpr ⟨⟨by simp, by simp⟩, fun item hitem ↦ ?_⟩
    simp only [List.mem_cons, List.not_mem_nil, or_false] at hitem
    rcases hitem with rfl | rfl
    · refine PyValue.everywhere_list.mpr ⟨trivial, fun value hvalue ↦ ?_⟩
      exact List.mem_singleton.mp hvalue ▸ hinner
    · refine PyValue.everywhere_tuple.mpr ⟨trivial, fun value hvalue ↦ ?_⟩
      simp only [List.mem_cons, List.not_mem_nil, or_false] at hvalue
      rcases hvalue with rfl | rfl <;> exact hleaf trivial

/-- The number beside the token is logged where it was. -/
theorem requestExtra_kept : (sanitizeLogValue asciiData requestExtra.key requestExtra.value).at?
    [.key "headers", .index 0, .key "n"] = some (.int 1) :=
  (sanitizeLogValue_noninterference asciiData requestExtra).2 _ _ rfl trivial (by decide +kernel)

example : sanitizeLogValue asciiData requestExtra.key requestExtra.value
    = .dict [(.str "headers", .list [.dict [(.str "X-Auth-Token", .str "[redacted]"),
        (.str "n", .int 1)]]),
      (.str "sizes", .list [.int 2, .int 3])] := rfl

end KnowledgeAlakazam
