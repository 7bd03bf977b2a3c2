import KnowledgeAlakazam.Ingest.Reingest

/-!
# Documents stay in their directories, and their keys do not collide

Tenants, sources and file names come from the outside, and so does the raw key of a ticket. What
`prepare_document` and `prepared_document_for_job` accept names a file two directories below the
input root and a directory below the output root: every part that they append is a single
component (`IsComponent`), and it is checked after the last `strip`.

Keys are joined components, and joining is injective (`intercalate_injective`). A raw key has
three components. An asset key has at least four, so the two never meet, not even in one bucket
and for a tenant that calls itself `output`.
-/

namespace KnowledgeAlakazam

/-! ## Directories -/

def PathError.className : PathError → String
  | inputFileNotFound _ => "IngestInputFileError"
  | invalidInputFilename => "IngestInputFileError"
  | _ => "ValueError"

/-- The paths of a document are single components below the roots. -/
structure Confined (settings : Settings) (prepared : PreparedDocument) : Prop where
  tenant : IsComponent prepared.tenantId
  source : IsComponent prepared.sourceId
  filename : IsComponent prepared.stagedPath.name
  stagedPath : prepared.stagedPath = settings.ragInputDir
    ++ [prepared.tenantId, prepared.sourceId, prepared.stagedPath.name]
  outputDir : prepared.outputDir
    = settings.ragOutputDir ++ [prepared.tenantId, prepared.sourceId]

/-- The result is a document with confined paths, or one of the two exceptions. -/
def Confines (settings : Settings) : Except PathError PreparedDocument → Prop
  | .error e => e.className = "ValueError" ∨ e.className = "IngestInputFileError"
  | .ok prepared => Confined settings prepared

theorem PathError.className_cases (e : PathError) :
    e.className = "ValueError" ∨ e.className = "IngestInputFileError" := by
  cases e <;> simp [PathError.className]

theorem PreparedFrom.confined {site : Site} {request : UploadRequest} {prepared : PreparedDocument}
    {filename : String} (h : PreparedFrom site request prepared filename) :
    Confined site.settings prepared where
  tenant := (isSegment_of_ok h.tenant).isComponent
  source := (isSegment_of_ok h.source).isComponent
  filename := by
    rw [h.name_stagedPath]
    exact h.isSegment_filename.isComponent
  stagedPath := by rw [h.name_stagedPath, h.stagedPath]
  outputDir := h.outputDir

theorem PreparedForJob.confined {site : Site} {ticket : ClaimedIngestJob}
    {prepared : PreparedDocument} {filename : String}
    (h : PreparedForJob site ticket prepared filename) : Confined site.settings prepared := by
  have hname : prepared.stagedPath.name = filename := by rw [h.stagedPath, name_staged]
  refine ⟨(isSegment_of_ok h.tenant).isComponent, (isSegment_of_ok h.source).isComponent, ?_, ?_,
    h.outputDir⟩
  · rw [hname]
    exact (isSegment_of_safeFilenameFromKey h.filename_eq).isComponent
  · rw [hname, h.stagedPath]

/-- `prepare_document` confines every request. -/
theorem confines_prepareDocument (site : Site) (request : UploadRequest) :
    Confines site.settings (prepareDocument site request) := by
  cases h : prepareDocument site request with
  | error e => exact e.className_cases
  | ok prepared =>
    obtain ⟨filename, hfrom⟩ := preparedFrom_of_prepareDocument h
    exact hfrom.confined

/-- `prepared_document_for_job` confines every ticket, whatever its raw key. -/
theorem confines_preparedDocumentForJob (site : Site) (ticket : ClaimedIngestJob) :
    Confines site.settings (preparedDocumentForJob site ticket) := by
  cases h : preparedDocumentForJob site ticket with
  | error e => exact e.className_cases
  | ok prepared =>
    obtain ⟨filename, hjob⟩ := preparedForJob_of_preparedDocumentForJob h
    exact hjob.confined

theorem IsPrepared.confined {store : S3AssetStore} {prepared : PreparedDocument}
    (h : IsPrepared store prepared) : Confined store.settings prepared := by
  obtain ⟨site, hsite, ⟨request, h⟩ | ⟨job, h⟩⟩ := h
  · have hconfines := confines_prepareDocument site request
    rw [h, hsite] at hconfines
    exact hconfines
  · have hconfines := confines_preparedDocumentForJob site job
    rw [h, hsite] at hconfines
    exact hconfines

/-! ## Keys -/

def PreparedDocument.joinedKey (prepared : PreparedDocument) : String :=
  prepared.tenantId ++ "/" ++ prepared.sourceId ++ "/" ++ prepared.stagedPath.name

/-- A document that `prepare_document` or `prepared_document_for_job` accepted. -/
structure AcceptedDocument where
  store : S3AssetStore
  prepared : PreparedDocument
  isPrepared : IsPrepared store prepared

/-- A disk on which the entries of directories have names. The first part of a path may be the
root of the disk. -/
structure NamedDisk extends Disk where
  isComponent : ∀ file ∈ files.files, ∀ part ∈ file.1.tail, IsComponent part

/-- A call of `upload_output_tree` for an accepted document. -/
structure TreeUpload extends AcceptedDocument where
  disk : NamedDisk
  bucket : Option PyException
  upload : Path → Option PyException

/-- The objects that the call puts into the bucket, each with the relative path of its file. -/
def TreeUpload.objects (u : TreeUpload) : List (Path × PutObject) :=
  ((u.disk.walk u.prepared.outputDir).map fun file ↦ file.1.drop u.prepared.outputDir.length).zip
    (u.store.uploadOutputTree u.disk.toDisk u.bucket u.upload u.prepared.tenantId
      u.prepared.sourceId).1

theorem rawKey_of_prepareDocument {site : Site} {request : UploadRequest}
    {prepared : PreparedDocument} (h : prepareDocument site request = .ok prepared) :
    prepared.rawKey = prepared.joinedKey := by
  obtain ⟨filename, hfrom⟩ := preparedFrom_of_prepareDocument h
  rw [hfrom.rawKey_eq, PreparedDocument.joinedKey, hfrom.name_stagedPath]

/-- An asset key is its components, joined. -/
theorem relativeKey_eq {tenant source : String} {path : Path} (h : path ≠ []) :
    relativeKey tenant source path = "/".intercalate ("output" :: tenant :: source :: path) := by
  cases path with
  | nil => exact absurd rfl h
  | cons part path =>
    simp [relativeKey, Path.asPosix, assetPrefix, String.intercalate_cons_cons, String.append_assoc]

theorem isComponent_output : IsComponent "output" := ⟨by decide, by decide, by decide, by decide⟩

def rawParts (prepared : PreparedDocument) : List String :=
  [prepared.tenantId, prepared.sourceId, prepared.stagedPath.name]

def assetParts (prepared : PreparedDocument) (path : Path) : List String :=
  "output" :: prepared.tenantId :: prepared.sourceId :: path

theorem Confined.isComponent_rawParts {settings : Settings} {prepared : PreparedDocument}
    (h : Confined settings prepared) : ∀ part ∈ rawParts prepared, IsComponent part := by
  intro part hpart
  rcases List.mem_cons.mp hpart with rfl | hpart
  · exact h.tenant
  · rcases List.mem_cons.mp hpart with rfl | hpart
    · exact h.source
    · obtain rfl := List.mem_singleton.mp hpart
      exact h.filename

theorem Confined.isComponent_assetParts {settings : Settings} {prepared : PreparedDocument}
    (h : Confined settings prepared) {path : Path} (hpath : ∀ part ∈ path, IsComponent part) :
    ∀ part ∈ assetParts prepared path, IsComponent part := by
  intro part hpart
  rcases List.mem_cons.mp hpart with rfl | hpart
  · exact isComponent_output
  · rcases List.mem_cons.mp hpart with rfl | hpart
    · exact h.tenant
    · rcases List.mem_cons.mp hpart with rfl | hpart
      · exact h.source
      · exact hpath part hpart

theorem eq_of_joined {parts parts' : List String} (hparts : ∀ part ∈ parts, IsComponent part)
    (hparts' : ∀ part ∈ parts', IsComponent part) (hne : parts ≠ []) (hne' : parts' ≠ [])
    (h : "/".intercalate parts = "/".intercalate parts') : parts = parts' :=
  intercalate_injective (c := '/') rfl (fun part hpart ↦ (hparts part hpart).slash_not_mem)
    (fun part hpart ↦ (hparts' part hpart).slash_not_mem) hne hne' h

/-! ### The objects of a tree -/

/-- The loop puts the file of a relative path under the key of the path. -/
theorem mem_zip_uploadFiles {store : S3AssetStore} {upload : Path → Option PyException}
    {tenant source : String} (ht : IsSegment tenant) (hs : IsSegment source)
    {files : List LocalFile} {path : Path} {object : PutObject}
    (h : (path, object) ∈ (files.map Prod.fst).zip (store.uploadFiles upload tenant source
      (files.map fun file ↦
        (store.settings.ragOutputDir ++ [tenant, source] ++ file.1, file.2))).1) :
    path ∈ files.map Prod.fst ∧ object.key = relativeKey tenant source path := by
  induction files with
  | nil => exact absurd h List.not_mem_nil
  | cons file files ih =>
    simp only [List.map_cons, S3AssetStore.uploadFiles, outputAssetKey_relative ht hs] at h ⊢
    split at h
    · exact absurd h (by simp)
    · rcases List.mem_cons.mp h with heq | h
      · obtain ⟨rfl, rfl⟩ := Prod.mk.inj heq
        exact ⟨List.mem_cons_self, rfl⟩
      · obtain ⟨hpath, hkey⟩ := ih h
        exact ⟨List.mem_cons_of_mem _ hpath, hkey⟩

theorem objects_uploadOutputTree (store : S3AssetStore) (disk : Disk) {tenant source : String}
    (ht : IsSegment tenant) (hs : IsSegment source) (bucket : Option PyException)
    (upload : Path → Option PyException) :
    (store.uploadOutputTree disk bucket upload tenant source).1 = [] ∨
      (store.uploadOutputTree disk bucket upload tenant source).1
        = (store.uploadFiles upload tenant source
            (disk.walk (store.settings.ragOutputDir ++ [tenant, source]))).1 := by
  rw [S3AssetStore.uploadOutputTree, keySegment_of_isSegment ht, keySegment_of_isSegment hs]
  dsimp only
  rw [child_child ht hs]
  split
  · cases bucket with
    | some e => exact Or.inl rfl
    | none => exact Or.inr rfl
  · exact Or.inl rfl

theorem isComponent_of_mem_relative (disk : NamedDisk) {dir path : Path} (hdir : dir ≠ [])
    (h : path ∈ (disk.relative dir).map Prod.fst) :
    path ≠ [] ∧ ∀ part ∈ path, IsComponent part := by
  obtain ⟨_, hrelative, rfl⟩ := List.mem_map.mp h
  obtain ⟨file, hfile, rfl⟩ := List.mem_map.mp hrelative
  obtain ⟨hmem, hbelow⟩ := List.mem_filter.mp hfile
  obtain ⟨⟨path, hpath⟩, hne⟩ : dir <+: file.1 ∧ file.1 ≠ dir := by simpa using hbelow
  dsimp only
  rw [← hpath, List.drop_left]
  refine ⟨fun hnil ↦ hne (by rw [← hpath, hnil, List.append_nil]), fun part hpart ↦ ?_⟩
  refine disk.isComponent file hmem part ?_
  rw [← hpath, List.tail_append_of_ne_nil hdir]
  exact List.mem_append_right _ hpart

theorem TreeUpload.mem_objects {u : TreeUpload} {path : Path} {object : PutObject}
    (h : (path, object) ∈ u.objects) : path ≠ [] ∧ (∀ part ∈ path, IsComponent part) ∧
      object.key = "/".intercalate (assetParts u.prepared path) := by
  obtain ⟨ht, hs, hdir⟩ := u.isPrepared.segments
  obtain ⟨files, hperm, hwalk⟩ := exists_walk_eq u.disk.toDisk u.prepared.outputDir
  have hpaths : (u.disk.walk u.prepared.outputDir).map
      (fun file ↦ file.1.drop u.prepared.outputDir.length) = files.map Prod.fst := by
    rw [hwalk, List.map_map]
    exact List.map_congr_left fun file _ ↦ List.drop_left
  rw [TreeUpload.objects, hpaths] at h
  rcases objects_uploadOutputTree u.store u.disk.toDisk ht hs u.bucket u.upload with hnil | hloop
  · rw [hnil, List.zip_nil_right] at h
    exact absurd h List.not_mem_nil
  · rw [hloop, ← hdir, hwalk, hdir] at h
    obtain ⟨hpath, hkey⟩ := mem_zip_uploadFiles ht hs h
    obtain ⟨hne, hcomponents⟩ := isComponent_of_mem_relative u.disk
      (by rw [hdir]; exact List.append_ne_nil_of_right_ne_nil _ (List.cons_ne_nil _ _))
      ((hperm.map _).mem_iff.mp hpath)
    exact ⟨hne, hcomponents, by rw [hkey, relativeKey_eq hne, assetParts]⟩

/-! ## Keys do not collide -/

theorem joinedKey_eq (prepared : PreparedDocument) :
    prepared.joinedKey = "/".intercalate (rawParts prepared) := rawKey_eq _ _ _

theorem rawParts_injective {a b : AcceptedDocument}
    (h : a.prepared.joinedKey = b.prepared.joinedKey) :
    rawParts a.prepared = rawParts b.prepared := by
  rw [joinedKey_eq, joinedKey_eq] at h
  exact eq_of_joined a.isPrepared.confined.isComponent_rawParts
    b.isPrepared.confined.isComponent_rawParts (List.cons_ne_nil _ _) (List.cons_ne_nil _ _) h

theorem assetParts_injective {u v : TreeUpload} {x y : Path × PutObject} (hx : x ∈ u.objects)
    (hy : y ∈ v.objects) (h : x.2.key = y.2.key) :
    assetParts u.prepared x.1 = assetParts v.prepared y.1 := by
  obtain ⟨-, hxparts, hxkey⟩ := TreeUpload.mem_objects hx
  obtain ⟨-, hyparts, hykey⟩ := TreeUpload.mem_objects hy
  rw [hxkey, hykey] at h
  exact eq_of_joined (u.isPrepared.confined.isComponent_assetParts hxparts)
    (v.isPrepared.confined.isComponent_assetParts hyparts) (List.cons_ne_nil _ _)
    (List.cons_ne_nil _ _) h

/-- A raw key has three components, an asset key more. -/
theorem joinedKey_ne_asset (a : AcceptedDocument) {u : TreeUpload} {x : Path × PutObject}
    (hx : x ∈ u.objects) : a.prepared.joinedKey ≠ x.2.key := by
  obtain ⟨hne, hparts, hkey⟩ := TreeUpload.mem_objects hx
  intro h
  rw [joinedKey_eq, hkey] at h
  have heq := eq_of_joined a.isPrepared.confined.isComponent_rawParts
    (u.isPrepared.confined.isComponent_assetParts hparts) (List.cons_ne_nil _ _)
    (List.cons_ne_nil _ _) h
  simp only [rawParts, assetParts, List.cons.injEq] at heq
  exact hne heq.2.2.2.symm

/-- **Main result.** What is accepted stays in its directories, and its keys are its own: raw keys
determine the tenant, the source and the file name, asset keys the tenant, the source and the
relative path, and no raw key is an asset key. -/
theorem confined_and_distinct :
    (∀ site request, Confines site.settings (prepareDocument site request)) ∧
    (∀ site ticket, Confines site.settings (preparedDocumentForJob site ticket)) ∧
    (∀ site request, ∀ prepared, prepareDocument site request = .ok prepared →
      prepared.rawKey = prepared.joinedKey) ∧
    (∀ a b : AcceptedDocument, a.prepared.joinedKey = b.prepared.joinedKey →
      a.prepared.tenantId = b.prepared.tenantId ∧ a.prepared.sourceId = b.prepared.sourceId ∧
        a.prepared.stagedPath.name = b.prepared.stagedPath.name) ∧
    (∀ u v : TreeUpload, ∀ x ∈ u.objects, ∀ y ∈ v.objects, x.2.key = y.2.key →
      u.prepared.tenantId = v.prepared.tenantId ∧ u.prepared.sourceId = v.prepared.sourceId ∧
        x.1 = y.1) ∧
    ∀ (a : AcceptedDocument) (u : TreeUpload), ∀ x ∈ u.objects,
      a.prepared.joinedKey ≠ x.2.key := by
  refine ⟨confines_prepareDocument, confines_preparedDocumentForJob,
    fun site request prepared h ↦ rawKey_of_prepareDocument h, fun a b h ↦ ?_,
    fun u v x hx y hy h ↦ ?_, fun a u x hx ↦ joinedKey_ne_asset a hx⟩
  · have hparts := rawParts_injective h
    simp only [rawParts, List.cons.injEq] at hparts
    exact ⟨hparts.1, hparts.2.1, hparts.2.2.1⟩
  · have hparts := assetParts_injective hx hy h
    simp only [assetParts, List.cons.injEq] at hparts
    exact ⟨hparts.2.1, hparts.2.2.1, hparts.2.2.2⟩

/-! ### A tenant named `output` -/

def sharedStore : S3AssetStore :=
  ⟨⟨["data", "inputs"], ["data", "outputs"], "raw", "raw"⟩, "http://minio:9000", fun _ ↦ none⟩

/-- A document whose raw key looks like the directory of another document's assets. -/
def outputTenant : AcceptedDocument where
  store := sharedStore
  prepared := ⟨"output", "acme", ["data", "inputs", "output", "acme", "manual"],
    ["data", "outputs", "output", "acme"], "raw", "output/acme/manual"⟩
  isPrepared := ⟨⟨sharedStore.settings, fun _ ↦ "", .withDefaults⟩, rfl,
    Or.inl ⟨⟨["manual"], true, "", "output", some "acme"⟩, rfl⟩⟩

/-- The upload of the assets of the other document. -/
def manualUpload : TreeUpload where
  store := sharedStore
  prepared := manualPrepared
  isPrepared := ⟨⟨sharedStore.settings, fun _ ↦ "", .withDefaults⟩, rfl,
    Or.inl ⟨⟨["manual.pdf"], true, "", "acme", some "manual"⟩, rfl⟩⟩
  disk := ⟨manualDisk twoPages, by decide +kernel⟩
  bucket := none
  upload _ := none

/-- The keys of the two documents lie close together, and differ. -/
theorem outputTenant_apart : ∃ x ∈ manualUpload.objects, ∃ y ∈ manualUpload.objects,
    outputTenant.prepared.joinedKey = "output/acme/manual" ∧
      x.2.key = "output/acme/manual/page-1.md" ∧ y.2.key = "output/acme/manual/page-2.md" ∧
      outputTenant.prepared.joinedKey ≠ manualUpload.prepared.joinedKey ∧ x.2.key ≠ y.2.key ∧
      outputTenant.prepared.joinedKey ≠ x.2.key := by
  obtain ⟨x, hx, y, hy, hxkey, hykey, hxy⟩ : ∃ x ∈ manualUpload.objects,
      ∃ y ∈ manualUpload.objects, x.2.key = "output/acme/manual/page-1.md" ∧
        y.2.key = "output/acme/manual/page-2.md" ∧ x.1 ≠ y.1 := by
    decide +kernel
  obtain ⟨-, -, -, hraw, hasset, hapart⟩ := confined_and_distinct
  refine ⟨x, hx, y, hy, by decide +kernel, hxkey, hykey, fun h ↦ ?_, fun h ↦ ?_,
    hapart outputTenant manualUpload x hx⟩
  · exact absurd (hraw outputTenant manualUpload.toAcceptedDocument h).1 (by decide)
  · exact hxy (hasset manualUpload manualUpload x hx y hy h).2.2

end KnowledgeAlakazam
