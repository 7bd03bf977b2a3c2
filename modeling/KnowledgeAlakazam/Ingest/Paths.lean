import KnowledgeAlakazam.Core.PyValue
import KnowledgeAlakazam.Ingest.Queue
import Mathlib.Data.List.Sort

/-!
# Paths and object keys

Tenant and source ids become directory names and parts of object keys, so both the ingest service
and the asset store insist that they are single path segments. A local path is the list of its
parts. The validation errors carry the field they name; `message` is the text the client sees.

The result of the module is that two documents never share an asset: the key under which a worker
uploads a file determines the tenant and the source (`underPrefix_outputAssetKey`).
-/

namespace KnowledgeAlakazam

/-- A local path, as its parts. -/
abbrev Path := List String

/-- `Path(...).name`: the last part, empty if there is none. -/
def Path.name (p : Path) : String := p.getLast?.getD ""

/-- `path / segment`, for a segment without a slash: a single dot adds nothing. -/
def Path.child (p : Path) (segment : String) : Path := if segment = "." then p else p ++ [segment]

/-- `as_posix` of a relative path. -/
def Path.asPosix (p : Path) : String := if p = [] then "." else "/".intercalate p

/-- `PurePosixPath(text)`: the parts between slashes, without empty parts and single dots. -/
def Path.ofString (text : String) : Path :=
  ((text.toList.splitOn '/').map String.ofList).filter fun part ↦ part != "" && part != "."

/-- The `ValueError`s and `IngestInputFileError`s of path handling. -/
inductive PathError where
  | empty (name : String)
  | notPathSegment (name : String)
  | relativeMarker (name : String)
  | notKeySegment (name : String)
  | noRawKeyFilename
  | rawKeyFilenameNotSegment
  | outsideOutputTree (root : String)
  | inputFileNotFound (path : String)
  | invalidInputFilename
deriving DecidableEq

def PathError.message : PathError → String
  | empty name => name ++ " must not be empty"
  | notPathSegment name => name ++ " must be a single path segment"
  | relativeMarker name => name ++ " must not be a relative path marker"
  | notKeySegment name => name ++ " must be a single object-key segment"
  | noRawKeyFilename => "raw_key must include a filename"
  | rawKeyFilenameNotSegment => "raw_key filename must be a single path segment"
  | outsideOutputTree root => "Asset path must be inside output tree: " ++ root
  | inputFileNotFound path => "Input file not found: " ++ path
  | invalidInputFilename => "Input filename is invalid"

/-- The text contains a slash or a backslash. -/
def hasSeparator (s : String) : Bool := s.toList.contains '/' || s.toList.contains '\\'

/-- `_safe_path_segment`, which the ingest service and the worker each define. -/
def safePathSegment (value name : String) : Except PathError String :=
  let segment := strip value
  if segment = "" then .error (.empty name)
  else if hasSeparator segment then .error (.notPathSegment name)
  else if segment = "." ∨ segment = ".." then .error (.relativeMarker name)
  else .ok segment

/-- `_safe_filename`, of the name of the input path. -/
def safeFilename (value : String) : Except PathError String :=
  let filename := strip (Path.ofString value).name
  if filename = "" ∨ filename = "." ∨ filename = ".." then .error .invalidInputFilename
  else .ok filename

/-- `_safe_filename_from_key`. -/
def safeFilenameFromKey (key : String) : Except PathError String :=
  let strippedKey := strip key
  if strippedKey = "" ∨ strippedKey.toList.getLast? = some '/' then .error .noRawKeyFilename
  else
    let filename := strip (Path.ofString strippedKey).name
    if filename = "" ∨ filename = "." ∨ filename = ".." then .error .noRawKeyFilename
    else if hasSeparator filename then .error .rawKeyFilenameNotSegment
    else .ok filename

/-- `S3AssetStore._key_segment`: no objection to relative markers. -/
def keySegment (value name : String) : Except PathError String :=
  let segment := strip value
  if segment = "" then .error (.empty name)
  else if hasSeparator segment then .error (.notKeySegment name)
  else .ok segment

/-- `S3AssetStore.raw_document_key`. -/
def rawDocumentKey (localPath : Path) (tenantId sourceId : String) : Except PathError String := do
  let tenant ← keySegment tenantId "tenant_id"
  let source ← keySegment sourceId "source_id"
  let filename ← keySegment localPath.name "filename"
  return tenant ++ "/" ++ source ++ "/" ++ filename

/-- The keys of the assets of a document start with this. -/
def assetPrefix (tenant source : String) : String := "output/" ++ tenant ++ "/" ++ source ++ "/"

/-- `S3AssetStore.output_asset_key`. -/
def outputAssetKey (localOutputRoot localAssetPath : Path) (tenantId sourceId : String) :
    Except PathError String := do
  let tenant ← keySegment tenantId "tenant_id"
  let source ← keySegment sourceId "source_id"
  let sourceOutputRoot := (localOutputRoot.child tenant).child source
  if sourceOutputRoot <+: localAssetPath then
    return assetPrefix tenant source ++
      Path.asPosix (localAssetPath.drop sourceOutputRoot.length)
  else throw (.outsideOutputTree ("/".intercalate sourceOutputRoot))

/-! ## Segments -/

theorem safePathSegment_ok {value name segment : String}
    (h : safePathSegment value name = .ok segment) :
    segment = strip value ∧ segment ≠ "" ∧ '/' ∉ segment.toList := by
  rw [safePathSegment] at h
  split at h
  · exact nomatch h
  · rename_i hne
    split at h
    · exact nomatch h
    · rename_i hsep
      split at h
      · exact nomatch h
      · obtain rfl := Except.ok.inj h
        refine ⟨rfl, hne, fun hmem ↦ hsep ?_⟩
        rw [hasSeparator, Bool.or_eq_true]
        exact Or.inl (List.contains_iff_mem.mpr hmem)

/-- A value that is its own path segment: what the service stores as tenant and source. -/
def IsSegment (value : String) : Prop := ∃ name, safePathSegment value name = .ok value

theorem IsSegment.strip_eq {value : String} (h : IsSegment value) : strip value = value := by
  obtain ⟨name, h⟩ := h
  exact (safePathSegment_ok h).1.symm

theorem IsSegment.slash_not_mem {value : String} (h : IsSegment value) : '/' ∉ value.toList := by
  obtain ⟨name, h⟩ := h
  exact (safePathSegment_ok h).2.2

/-- Validation is idempotent: what it returns is a segment. -/
theorem isSegment_of_ok {value name segment : String}
    (h : safePathSegment value name = .ok segment) : IsSegment segment := by
  refine ⟨name, ?_⟩
  have hseg := (safePathSegment_ok h).1
  rw [safePathSegment, ← hseg] at h
  rw [safePathSegment, hseg, strip_strip, ← hseg]
  exact h

theorem eq_of_safePathSegment {value name segment : String} (hv : IsSegment value)
    (h : safePathSegment value name = .ok segment) : segment = value :=
  (safePathSegment_ok h).1.trans hv.strip_eq

theorem keySegment_of_isSegment {value : String} (h : IsSegment value) (name : String) :
    keySegment value name = .ok value := by
  obtain ⟨other, h⟩ := h
  rw [safePathSegment] at h
  rw [keySegment]
  split at h
  · exact nomatch h
  · rename_i hne
    split at h
    · exact nomatch h
    · rename_i hsep
      split at h
      · exact nomatch h
      · rw [if_neg hne, if_neg hsep]
        exact h

theorem keySegment_ok {value name segment : String} (h : keySegment value name = .ok segment) :
    segment = strip value := by
  rw [keySegment] at h
  split at h
  · exact nomatch h
  · split at h
    · exact nomatch h
    · exact (Except.ok.inj h).symm

theorem rawDocumentKey_segments {localPath : Path} {tenantId sourceId key : String}
    (h : rawDocumentKey localPath tenantId sourceId = .ok key) :
    ∃ tenant source filename, keySegment tenantId "tenant_id" = .ok tenant ∧
      keySegment sourceId "source_id" = .ok source ∧
      keySegment localPath.name "filename" = .ok filename ∧
      key = tenant ++ "/" ++ source ++ "/" ++ filename := by
  rw [rawDocumentKey] at h
  obtain ⟨tenant, htenant, h⟩ := exists_of_bind_eq_ok h
  obtain ⟨source, hsource, h⟩ := exists_of_bind_eq_ok h
  obtain ⟨filename, hfile, h⟩ := exists_of_bind_eq_ok h
  exact ⟨tenant, source, filename, htenant, hsource, hfile, (Except.ok.inj h).symm⟩

theorem rawDocumentKey_ok {localPath : Path} {tenantId sourceId key : String}
    (h : rawDocumentKey localPath tenantId sourceId = .ok key) :
    key = strip tenantId ++ "/" ++ strip sourceId ++ "/" ++ strip localPath.name := by
  obtain ⟨tenant, source, filename, htenant, hsource, hfile, hkey⟩ := rawDocumentKey_segments h
  rw [hkey, keySegment_ok htenant, keySegment_ok hsource, keySegment_ok hfile]

/-! ## File names

A file name passes `_safe_filename` and then, as the end of the raw key, `_key_segment`. Only the
two checks together make it a path segment, which is what the worker asks of it. -/

/-- A name that stands for itself in a path. -/
structure IsComponent (part : String) : Prop where
  ne_empty : part ≠ ""
  slash_not_mem : '/' ∉ part.toList
  ne_dot : part ≠ "."
  ne_dots : part ≠ ".."

instance (part : String) : Decidable (IsComponent part) :=
  decidable_of_iff (part ≠ "" ∧ '/' ∉ part.toList ∧ part ≠ "." ∧ part ≠ "..")
    ⟨fun h ↦ ⟨h.1, h.2.1, h.2.2.1, h.2.2.2⟩, fun h ↦ ⟨h.1, h.2, h.3, h.4⟩⟩

theorem isSegment_iff {value : String} : IsSegment value ↔ strip value = value ∧ value ≠ "" ∧
    hasSeparator value = false ∧ ¬(value = "." ∨ value = "..") := by
  constructor
  · intro h
    have hstrip := h.strip_eq
    obtain ⟨name, h⟩ := h
    rw [safePathSegment, hstrip] at h
    refine ⟨hstrip, ?_⟩
    split at h
    · exact nomatch h
    · rename_i hne
      split at h
      · exact nomatch h
      · rename_i hsep
        split at h
        · exact nomatch h
        · rename_i hmarker
          exact ⟨hne, Bool.eq_false_iff.mpr hsep, hmarker⟩
  · rintro ⟨hstrip, hne, hsep, hmarker⟩
    refine ⟨"", ?_⟩
    rw [safePathSegment, hstrip, if_neg hne, if_neg (by rw [hsep]; simp), if_neg hmarker]

theorem IsSegment.child {value : String} (h : IsSegment value) (p : Path) :
    p.child value = p ++ [value] :=
  if_neg fun hdot ↦ (isSegment_iff.mp h).2.2.2 (.inl hdot)

theorem child_child {tenant source : String} (ht : IsSegment tenant) (hs : IsSegment source)
    (p : Path) :
    (p.child tenant).child source = p ++ [tenant, source] := by
  rw [ht.child, hs.child, List.append_assoc]
  rfl

theorem IsSegment.safePathSegment_eq {value : String} (h : IsSegment value) (name : String) :
    safePathSegment value name = .ok value := by
  obtain ⟨hstrip, hne, hsep, hmarker⟩ := isSegment_iff.mp h
  rw [safePathSegment, hstrip, if_neg hne, if_neg (by rw [hsep]; simp), if_neg hmarker]

theorem IsSegment.isComponent {value : String} (h : IsSegment value) : IsComponent value := by
  obtain ⟨-, hne, -, hmarker⟩ := isSegment_iff.mp h
  obtain ⟨hdot, hdots⟩ := not_or.mp hmarker
  exact ⟨hne, h.slash_not_mem, hdot, hdots⟩

theorem isSegment_of_safeFilenameFromKey {key filename : String}
    (h : safeFilenameFromKey key = .ok filename) : IsSegment filename := by
  rw [safeFilenameFromKey] at h
  dsimp only at h
  split at h
  · exact nomatch h
  · split at h
    · exact nomatch h
    · rename_i hmarker
      split at h
      · exact nomatch h
      · rename_i hsep
        obtain ⟨hne, hmarker⟩ := not_or.mp hmarker
        obtain rfl := Except.ok.inj h
        exact isSegment_iff.mpr ⟨strip_strip _, hne, Bool.eq_false_iff.mpr hsep, hmarker⟩

theorem keySegment_separator {value name segment : String}
    (h : keySegment value name = .ok segment) : hasSeparator segment = false := by
  rw [keySegment] at h
  split at h
  · exact nomatch h
  · split at h
    · exact nomatch h
    · rename_i hsep
      rw [← Except.ok.inj h]
      exact Bool.eq_false_iff.mpr hsep

/-- `_safe_filename` lets backslashes pass, which `_key_segment` refuses. -/
theorem isSegment_of_safeFilename {value name filename segment : String}
    (h : safeFilename value = .ok filename) (hkey : keySegment filename name = .ok segment) :
    IsSegment filename := by
  have hsep := keySegment_separator hkey
  rw [safeFilename] at h
  split at h
  · exact nomatch h
  · rename_i hmarker
    obtain ⟨hne, hmarker⟩ := not_or.mp hmarker
    obtain rfl := Except.ok.inj h
    rw [keySegment_ok hkey, strip_strip] at hsep
    exact isSegment_iff.mpr ⟨strip_strip _, hne, hsep, hmarker⟩

theorem name_append_singleton (dir : Path) (part : String) : (dir ++ [part]).name = part := by
  rw [Path.name, List.getLast?_concat, Option.getD_some]

theorem name_staged (dir : Path) (tenant source filename : String) :
    (dir ++ [tenant, source, filename]).name = filename := by
  have hsplit : dir ++ [tenant, source, filename] = (dir ++ [tenant, source]) ++ [filename] := by
    rw [List.append_assoc, List.cons_append, List.cons_append, List.nil_append]
  rw [hsplit, name_append_singleton]

theorem rawKey_eq (tenant source filename : String) :
    tenant ++ "/" ++ source ++ "/" ++ filename = "/".intercalate [tenant, source, filename] := by
  simp [String.intercalate_cons_cons, String.append_assoc]

section RawKey

variable {tenant source filename : String}

private theorem toList_rawKey : (tenant ++ "/" ++ source ++ "/" ++ filename).toList
    = tenant.toList ++ ('/' :: source.toList ++ ['/'] ++ filename.toList) := by
  simp

theorem splitOn_rawKey (ht : IsSegment tenant) (hs : IsSegment source) (hf : IsSegment filename) :
    (tenant ++ "/" ++ source ++ "/" ++ filename).toList.splitOn '/'
      = [tenant.toList, source.toList, filename.toList] := by
  have hparts : ∀ part ∈ [tenant, source, filename], '/' ∉ part.toList := by
    simpa using ⟨ht.slash_not_mem, hs.slash_not_mem, hf.slash_not_mem⟩
  rw [rawKey_eq, splitOn_intercalate rfl hparts (List.cons_ne_nil _ _)]
  rfl

private theorem toList_ne_nil {value : String} (h : IsSegment value) : value.toList ≠ [] :=
  fun hnil ↦ h.isComponent.ne_empty (by simpa using hnil)

theorem strip_rawKey (ht : IsSegment tenant) (hf : IsSegment filename) :
    strip (tenant ++ "/" ++ source ++ "/" ++ filename)
      = tenant ++ "/" ++ source ++ "/" ++ filename := by
  have hchars : ∀ {value : String}, IsSegment value →
      stripChars pyIsSpace value.toList = value.toList := by
    intro value h
    conv_rhs => rw [← h.strip_eq, strip, String.toList_ofList]
  rw [strip, toList_rawKey, stripChars_append (hchars ht) (hchars hf) (toList_ne_nil ht)
    (toList_ne_nil hf), ← toList_rawKey, String.ofList_toList]

theorem name_rawKey (ht : IsSegment tenant) (hs : IsSegment source) (hf : IsSegment filename) :
    (Path.ofString (tenant ++ "/" ++ source ++ "/" ++ filename)).name = filename := by
  have hkeep : [filename].filter (fun part ↦ part != "" && part != ".") = [filename] := by
    refine List.filter_eq_self.mpr fun part hpart ↦ ?_
    obtain rfl := List.mem_singleton.mp hpart
    simpa using ⟨hf.isComponent.ne_empty, hf.isComponent.ne_dot⟩
  have hparts : [tenant.toList, source.toList, filename.toList].map String.ofList
      = [tenant, source] ++ [filename] := by
    simp
  rw [Path.ofString, splitOn_rawKey ht hs hf, hparts, List.filter_append, hkeep,
    name_append_singleton]

/-- **The worker finds the file name in the key** that the API made. -/
theorem safeFilenameFromKey_rawKey (ht : IsSegment tenant) (hs : IsSegment source)
    (hf : IsSegment filename) :
    safeFilenameFromKey (tenant ++ "/" ++ source ++ "/" ++ filename) = .ok filename := by
  obtain ⟨hstrip, hne, hsep, hmarker⟩ := isSegment_iff.mp hf
  have hempty : tenant ++ "/" ++ source ++ "/" ++ filename ≠ "" := by
    intro h
    have hnil := congrArg String.toList h
    rw [toList_rawKey] at hnil
    exact absurd hnil (by simp)
  have hend : (tenant ++ "/" ++ source ++ "/" ++ filename).toList.getLast? ≠ some '/' := by
    rw [toList_rawKey, ← List.append_assoc, List.getLast?_append_of_ne_nil _ (toList_ne_nil hf)]
    exact fun h ↦ hf.slash_not_mem (List.mem_of_getLast? h)
  rw [safeFilenameFromKey, strip_rawKey ht hf]
  dsimp only
  rw [if_neg (not_or.mpr ⟨hempty, hend⟩), name_rawKey ht hs hf, hstrip,
    if_neg (not_or.mpr ⟨hne, hmarker⟩), if_neg (by rw [hsep]; simp)]

end RawKey

/-! ## Two documents never share an asset -/

/-- The key is one of the assets of a document. -/
def UnderPrefix (key tenant source : String) : Prop :=
  (assetPrefix tenant source).toList <+: key.toList

instance (key tenant source : String) : Decidable (UnderPrefix key tenant source) :=
  inferInstanceAs (Decidable (_ <+: _))

theorem outputAssetKey_ok {root path : Path} {tenantId sourceId key : String}
    (h : outputAssetKey root path tenantId sourceId = .ok key) :
    ∃ rest, key = assetPrefix (strip tenantId) (strip sourceId) ++ rest := by
  rw [outputAssetKey] at h
  obtain ⟨tenant, htenant, h⟩ := exists_of_bind_eq_ok h
  obtain ⟨source, hsource, h⟩ := exists_of_bind_eq_ok h
  dsimp only at h
  split at h
  · rw [← keySegment_ok htenant, ← keySegment_ok hsource]
    exact ⟨_, (Except.ok.inj h).symm⟩
  · exact nomatch h

theorem eq_of_append_slash {a a' x y : List Char} (ha : '/' ∉ a) (ha' : '/' ∉ a')
    (h : a ++ '/' :: x = a' ++ '/' :: y) : a = a' ∧ x = y := by
  induction a generalizing a' with
  | nil =>
    cases a' with
    | nil => exact ⟨rfl, (List.cons.inj h).2⟩
    | cons c a' => exact absurd ((List.cons.inj h).1 ▸ List.mem_cons_self) ha'
  | cons c a ih =>
    cases a' with
    | nil => exact absurd ((List.cons.inj h).1 ▸ List.mem_cons_self) ha
    | cons c' a' =>
      obtain ⟨hc, htail⟩ := List.cons.inj h
      obtain ⟨heq, hrest⟩ := ih (fun hm ↦ ha (List.mem_cons_of_mem _ hm))
        (fun hm ↦ ha' (List.mem_cons_of_mem _ hm)) htail
      exact ⟨by rw [hc, heq], hrest⟩

private theorem toList_assetPrefix (tenant source : String) :
    (assetPrefix tenant source).toList
      = "output/".toList ++ (tenant.toList ++ '/' :: (source.toList ++ ['/'])) := by
  simp [assetPrefix]

/-- **A key determines its document**, if tenants and sources are segments. -/
theorem underPrefix_outputAssetKey {tenant source tenant' source' rest : String}
    (ht : IsSegment tenant) (hs : IsSegment source) (ht' : IsSegment tenant')
    (hs' : IsSegment source')
    (h : UnderPrefix (assetPrefix tenant' source' ++ rest) tenant source) :
    tenant = tenant' ∧ source = source' := by
  obtain ⟨tail, htail⟩ := h
  simp only [String.toList_append, toList_assetPrefix, List.append_assoc, List.cons_append,
    List.append_cancel_left_eq] at htail
  obtain ⟨htenant, htail⟩ := eq_of_append_slash ht.slash_not_mem ht'.slash_not_mem htail
  obtain ⟨hsource, -⟩ := eq_of_append_slash hs.slash_not_mem hs'.slash_not_mem htail
  exact ⟨String.toList_inj.mp htenant, String.toList_inj.mp hsource⟩

end KnowledgeAlakazam
