import KnowledgeAlakazam.Ingest.Custody

/-!
# Re-ingesting a document

A document that is ingested again is parsed into the directory of the earlier runs, and the upload
walks whatever it finds there. `process_prepared_document` is modelled on the disk of one machine:
the directory is created if it does not exist, the parser writes its files over what is there, and
every file of the tree goes into the asset bucket.

A call publishes what its own run wrote if and only if the run wrote again every file of the runs
before it (`publishesExactly_iff`). Otherwise it publishes stale assets as well.
-/

namespace KnowledgeAlakazam

/-! ## Files -/

/-- Files with distinct paths. -/
structure FileSet where
  files : List LocalFile
  nodup : (files.map Prod.fst).Nodup

namespace FileSet

def paths (s : FileSet) : List Path := s.files.map Prod.fst

theorem mem_paths {s : FileSet} {p : Path} : p ∈ s.paths ↔ ∃ content, (p, content) ∈ s.files := by
  rw [paths, List.mem_map]
  constructor
  · rintro ⟨⟨_, content⟩, hfile, rfl⟩
    exact ⟨content, hfile⟩
  · rintro ⟨content, hfile⟩
    exact ⟨_, hfile, rfl⟩

theorem nodup_overlay (old new : FileSet) :
    ((old.files.filter (fun file ↦ file.1 ∉ new.paths) ++ new.files).map Prod.fst).Nodup := by
  rw [List.map_append]
  refine List.nodup_append.mpr ⟨old.nodup.sublist (List.filter_sublist.map _), new.nodup, ?_⟩
  intro p hp q hq heq
  obtain ⟨file, hfile, rfl⟩ := List.mem_map.mp hp
  have hnot : file.1 ∉ new.paths := by simpa using (List.mem_filter.mp hfile).2
  exact hnot (heq ▸ hq)

/-- The files, with others written over them. -/
def overlay (old new : FileSet) : FileSet where
  files := old.files.filter (fun file ↦ file.1 ∉ new.paths) ++ new.files
  nodup := nodup_overlay old new

theorem nodup_under (s : FileSet) (dir : Path) :
    ((s.files.map fun file ↦ (dir ++ file.1, file.2)).map Prod.fst).Nodup := by
  rw [List.map_map, show (Prod.fst ∘ fun file : LocalFile ↦ (dir ++ file.1, file.2))
    = (dir ++ ·) ∘ Prod.fst from rfl, ← List.map_map]
  exact s.nodup.map (List.append_right_injective dir)

/-- Files with relative paths, in a directory. -/
def under (s : FileSet) (dir : Path) : FileSet where
  files := s.files.map fun file ↦ (dir ++ file.1, file.2)
  nodup := s.nodup_under dir

end FileSet

/-- What a run of the parser writes: at least one file, each with a name below the directory. -/
structure ParserRun extends FileSet where
  ne_nil : files ≠ []
  below : ∀ file ∈ files, file.1 ≠ []

structure Disk where
  files : FileSet
  directories : List Path

namespace Disk

/-- `mkdir(parents=True, exist_ok=True)`. -/
def mkdir (disk : Disk) (dir : Path) : Disk :=
  { disk with directories := dir.inits ++ disk.directories }

/-- The parser writes its files below a directory. -/
def write (disk : Disk) (dir : Path) (run : ParserRun) : Disk :=
  { disk with files := disk.files.overlay (run.under dir) }

def filesBelow (disk : Disk) (dir : Path) : List LocalFile :=
  disk.files.files.filter fun file ↦ dir <+: file.1 ∧ file.1 ≠ dir

/-- `sorted(item for item in dir.rglob("*") if item.is_file())`, with the contents. -/
def walk (disk : Disk) (dir : Path) : List LocalFile :=
  (disk.filesBelow dir).insertionSort fun a b ↦ a.1 ≤ b.1

end Disk

/-! ## The asset store -/

def percentByte (b : UInt8) : List Char :=
  ['%', (Nat.digitChar (b.toNat / 16)).toUpper, (Nat.digitChar (b.toNat % 16)).toUpper]

/-- `urllib.parse.quote`, with the characters that are safe besides the usual ones. -/
def quote (safe : Char → Bool) (text : List Char) : List Char :=
  text.flatMap fun c ↦
    if c.isAlphanum || c == '_' || c == '.' || c == '-' || c == '~' || safe c then [c]
    else (String.utf8EncodeChar c).flatMap percentByte

/-- `S3AssetStore`: what its methods read, and `mimetypes.guess_type` without the encoding. -/
structure S3AssetStore where
  settings : Settings
  s3EndpointUrl : String
  guessType : String → Option String

/-- `AssetUploadResult`. -/
structure AssetUploadResult where
  bucket : String
  key : String
  localPath : Path
  contentType : String
  sizeBytes : ℕ
  url : String
deriving DecidableEq

/-- An object that was put into a bucket. -/
structure PutObject where
  bucket : String
  key : String
  content : String
  contentType : String
deriving DecidableEq

namespace S3AssetStore

variable (store : S3AssetStore)

/-- `_content_type`. -/
def contentType (path : Path) : String :=
  orElse (store.guessType path.name) "application/octet-stream"

/-- `public_asset_url`. -/
def publicAssetUrl (bucket key : String) : String :=
  let quotedBucket := quote (fun _ ↦ false) (stripChars (· == '/') bucket.toList)
  let quotedKey := quote (· == '/') (key.toList.dropWhile (· == '/'))
  String.ofList (rstripChars (· == '/') store.s3EndpointUrl.toList ++
    '/' :: quotedBucket ++ '/' :: quotedKey)

/-- The object that the upload of a file puts into the asset bucket. -/
def objectOf (key : String) (file : LocalFile) : PutObject :=
  ⟨store.settings.s3BucketAssets, key, file.2, store.contentType file.1⟩

/-- The result of the upload of a file. -/
def resultOf (key : String) (file : LocalFile) : AssetUploadResult where
  bucket := store.settings.s3BucketAssets
  key := key
  localPath := file.1
  contentType := store.contentType file.1
  sizeBytes := file.2.utf8ByteSize
  url := store.publicAssetUrl store.settings.s3BucketAssets key

/-- The loop of `upload_output_tree`: what it puts into the bucket, and its result. -/
def uploadFiles (upload : Path → Option PyException) (tenantId sourceId : String) :
    List LocalFile → List PutObject × Except PyException (List AssetUploadResult)
  | [] => ([], .ok [])
  | file :: files =>
    match outputAssetKey store.settings.ragOutputDir file.1 tenantId sourceId with
    | .error e => ([], .error e.toException)
    | .ok key =>
      match upload file.1 with
      | some e => ([], .error e)
      | none =>
        let rest := uploadFiles upload tenantId sourceId files
        (store.objectOf key file :: rest.1, rest.2.map (store.resultOf key file :: ·))

/-- `upload_output_tree`, given how `_assert_bucket_exists` and the uploads end. -/
def uploadOutputTree (disk : Disk) (bucket : Option PyException)
    (upload : Path → Option PyException) (tenantId sourceId : String) :
    List PutObject × Except PyException (List AssetUploadResult) :=
  match keySegment tenantId "tenant_id", keySegment sourceId "source_id" with
  | .ok tenant, .ok source =>
    let sourceOutputRoot := (store.settings.ragOutputDir.child tenant).child source
    if sourceOutputRoot ∈ disk.directories then
      match bucket with
      | some e => ([], .error e)
      | none => store.uploadFiles upload tenantId sourceId (disk.walk sourceOutputRoot)
    else
      ([], .error ⟨"S3AssetFileNotFoundError",
        "Output tree not found: " ++ "/".intercalate sourceOutputRoot⟩)
  | .error e, _ => ([], .error e.toException)
  | .ok _, .error e => ([], .error e.toException)

end S3AssetStore

/-! ## The call -/

/-- A call of `process_prepared_document`: its document, what the parser writes, and what raises
in the code outside. -/
structure ParseCall where
  prepared : PreparedDocument
  hasRegistry : Bool
  mkdir : Option PyException
  runtime : Option PyException
  written : ParserRun
  parse : Option PyException
  bucket : Option PyException
  upload : Path → Option PyException

/-- What a call leaves: the disk, the objects it put, and its result. -/
structure Published where
  disk : Disk
  objects : List PutObject
  outcome : Except PyException (List AssetUploadResult)

/-- `process_prepared_document`. -/
def processPreparedDocument (store : S3AssetStore) (disk : Disk) (call : ParseCall) : Published :=
  if call.hasRegistry = false then
    ⟨disk, [], .error ⟨"IngestError", "RAG runtime registry is not configured"⟩⟩
  else match call.mkdir with
    | some e => ⟨disk, [], .error e⟩
    | none =>
      let disk := disk.mkdir call.prepared.outputDir
      match call.runtime with
      | some e => ⟨disk, [], .error e⟩
      | none =>
        let disk := disk.write call.prepared.outputDir call.written
        match call.parse with
        | some e => ⟨disk, [], .error e⟩
        | none =>
          let uploaded := store.uploadOutputTree disk call.bucket call.upload
            call.prepared.tenantId call.prepared.sourceId
          ⟨disk, uploaded.1, uploaded.2⟩

/-- The document was prepared by `prepare_document` or by `prepared_document_for_job`. -/
def IsPrepared (store : S3AssetStore) (prepared : PreparedDocument) : Prop :=
  ∃ site : Site, site.settings = store.settings ∧
    ((∃ request, prepareDocument site request = .ok prepared) ∨
      ∃ job, preparedDocumentForJob site job = .ok prepared)

/-- The call is about a document of a tenant and a source. -/
structure IsAbout (store : S3AssetStore) (tenant source : String) (call : ParseCall) : Prop where
  prepared : IsPrepared store call.prepared
  tenant : call.prepared.tenantId = tenant
  source : call.prepared.sourceId = source

variable {store : S3AssetStore} {disk : Disk} {call : ParseCall} {tenant source : String}

theorem IsPrepared.segments {prepared : PreparedDocument} (h : IsPrepared store prepared) :
    IsSegment prepared.tenantId ∧ IsSegment prepared.sourceId ∧ prepared.outputDir
      = store.settings.ragOutputDir ++ [prepared.tenantId, prepared.sourceId] := by
  obtain ⟨site, hsite, ⟨request, h⟩ | ⟨job, h⟩⟩ := h
  · obtain ⟨filename, hfrom⟩ := preparedFrom_of_prepareDocument h
    exact ⟨isSegment_of_ok hfrom.tenant, isSegment_of_ok hfrom.source, hsite ▸ hfrom.outputDir⟩
  · obtain ⟨htenant, hsource, hdir⟩ := preparedDocumentForJob_ok h
    exact ⟨isSegment_of_ok htenant, isSegment_of_ok hsource, hsite ▸ hdir⟩

/-! ## What a call publishes -/

/-- The key of a file with a relative path. -/
def relativeKey (tenant source : String) (path : Path) : String :=
  assetPrefix tenant source ++ path.asPosix

/-- The object that the upload of a file with a relative path should put. -/
def S3AssetStore.relativeObject (store : S3AssetStore) (dir : Path) (tenant source : String)
    (file : LocalFile) : PutObject :=
  store.objectOf (relativeKey tenant source file.1) (dir ++ file.1, file.2)

/-- The result of the upload of a file with a relative path. -/
def S3AssetStore.relativeResult (store : S3AssetStore) (dir : Path) (tenant source : String)
    (file : LocalFile) : AssetUploadResult :=
  store.resultOf (relativeKey tenant source file.1) (dir ++ file.1, file.2)

/-- The call uploads and returns exactly the files its run wrote, each once. -/
def PublishesExactly (store : S3AssetStore) (disk : Disk) (call : ParseCall) : Prop :=
  ∃ assets, (processPreparedDocument store disk call).outcome = .ok assets ∧
    assets.Perm (call.written.files.map (store.relativeResult call.prepared.outputDir
      call.prepared.tenantId call.prepared.sourceId)) ∧
    (processPreparedDocument store disk call).objects.Perm
      (call.written.files.map (store.relativeObject call.prepared.outputDir
        call.prepared.tenantId call.prepared.sourceId))

/-- The files below a directory, with their paths relative to it. -/
def Disk.relative (disk : Disk) (dir : Path) : List LocalFile :=
  (disk.filesBelow dir).map fun file ↦ (file.1.drop dir.length, file.2)

theorem outputAssetKey_relative (ht : IsSegment tenant) (hs : IsSegment source) (root : Path)
    (path : Path) :
    outputAssetKey root (root ++ [tenant, source] ++ path) tenant source
      = .ok (relativeKey tenant source path) := by
  rw [outputAssetKey, keySegment_of_isSegment ht, keySegment_of_isSegment hs]
  dsimp only [bind, Except.bind]
  rw [child_child ht hs, if_pos (List.prefix_append ..), List.drop_left]
  rfl

theorem uploadFiles_ok (ht : IsSegment tenant) (hs : IsSegment source)
    {upload : Path → Option PyException} {files : List LocalFile}
    {assets : List AssetUploadResult}
    (h : (store.uploadFiles upload tenant source (files.map fun file ↦
      (store.settings.ragOutputDir ++ [tenant, source] ++ file.1, file.2))).2 = .ok assets) :
    assets = files.map (store.relativeResult (store.settings.ragOutputDir ++ [tenant, source])
        tenant source) ∧
      (store.uploadFiles upload tenant source (files.map fun file ↦
        (store.settings.ragOutputDir ++ [tenant, source] ++ file.1, file.2))).1
        = files.map (store.relativeObject (store.settings.ragOutputDir ++ [tenant, source])
            tenant source) := by
  induction files generalizing assets with
  | nil => exact ⟨(Except.ok.inj h).symm, rfl⟩
  | cons file files ih =>
    simp only [List.map_cons, S3AssetStore.uploadFiles, outputAssetKey_relative ht hs] at h ⊢
    split at h
    · exact absurd h (by simp)
    · rename_i hnone
      cases hrest : (store.uploadFiles upload tenant source (files.map fun file ↦
          (store.settings.ragOutputDir ++ [tenant, source] ++ file.1, file.2))).2 with
      | error e => rw [hrest] at h; exact absurd h (by simp [Except.map])
      | ok rest =>
        obtain ⟨hassets, hobjects⟩ := ih hrest
        rw [hrest] at h
        rw [← Except.ok.inj h, hassets, hobjects]
        exact ⟨rfl, rfl⟩

/-- The files of earlier runs that a run does not write again. -/
def Disk.leftover (disk : Disk) (dir : Path) (run : ParserRun) : List LocalFile :=
  (disk.relative dir).filter fun file ↦ file.1 ∉ run.paths

theorem mem_paths_under {run : ParserRun} {dir path : Path} :
    dir ++ path ∈ (run.under dir).paths ↔ path ∈ run.paths := by
  rw [FileSet.mem_paths, FileSet.mem_paths]
  constructor
  · rintro ⟨content, hfile⟩
    obtain ⟨file, hmem, heq⟩ := List.mem_map.mp hfile
    obtain ⟨hpath, -⟩ := Prod.mk.inj heq
    exact ⟨file.2, List.append_cancel_left hpath ▸ hmem⟩
  · rintro ⟨content, hfile⟩
    exact ⟨content, List.mem_map.mpr ⟨_, hfile, rfl⟩⟩

/-- The files below the directory after a run: what is left over, and what the run wrote. -/
theorem relative_write (disk : Disk) (dir : Path) (run : ParserRun) :
    (disk.write dir run).relative dir = disk.leftover dir run ++ run.files := by
  have hnew : (run.under dir).files.filter (fun file ↦ dir <+: file.1 ∧ file.1 ≠ dir)
      = (run.under dir).files := by
    rw [List.filter_eq_self]
    intro file hfile
    obtain ⟨file, hmem, rfl⟩ := List.mem_map.mp hfile
    rw [decide_eq_true_eq]
    exact ⟨List.prefix_append .., fun heq ↦ run.below file hmem (List.append_right_eq_self.mp heq)⟩
  have hrelative : (run.under dir).files.map (fun file ↦ (file.1.drop dir.length, file.2))
      = run.files := by
    rw [FileSet.under, List.map_map]
    conv_rhs => rw [← List.map_id run.files]
    refine List.map_congr_left fun file _ ↦ ?_
    rw [Function.comp_apply, List.drop_left, id]
  rw [Disk.relative, Disk.filesBelow, Disk.write, FileSet.overlay, List.filter_append, hnew,
    List.map_append, hrelative, Disk.leftover, Disk.relative, Disk.filesBelow, List.filter_map,
    List.filter_filter, List.filter_filter]
  congr 2
  refine List.filter_congr fun file _ ↦ ?_
  by_cases hbelow : dir <+: file.1
  · obtain ⟨path, hpath⟩ := hbelow
    rw [Function.comp_apply, ← hpath, List.drop_left]
    simp only [mem_paths_under, Bool.and_comm]
  · simp [hbelow]

theorem exists_walk_eq (disk : Disk) (dir : Path) :
    ∃ files : List LocalFile, files.Perm (disk.relative dir) ∧
      disk.walk dir = files.map fun file ↦ (dir ++ file.1, file.2) := by
  refine ⟨(disk.walk dir).map fun file ↦ (file.1.drop dir.length, file.2),
    (List.perm_insertionSort _ _).map _, ?_⟩
  rw [List.map_map]
  conv_lhs => rw [← List.map_id (disk.walk dir)]
  refine List.map_congr_left fun file hfile ↦ ?_
  have hmem : file ∈ disk.filesBelow dir := (List.perm_insertionSort _ _).mem_iff.mp hfile
  have hbelow : dir <+: file.1 ∧ file.1 ≠ dir := by simpa using (List.mem_filter.mp hmem).2
  rw [Function.comp_apply, ← List.prefix_append_drop hbelow.1, id]

def Disk.parsed (disk : Disk) (call : ParseCall) : Disk :=
  (disk.mkdir call.prepared.outputDir).write call.prepared.outputDir call.written

theorem processPreparedDocument_ok {assets : List AssetUploadResult}
    (h : (processPreparedDocument store disk call).outcome = .ok assets) :
    ∃ uploaded, processPreparedDocument store disk call
        = ⟨disk.parsed call, uploaded.1, uploaded.2⟩ ∧
      uploaded = store.uploadOutputTree (disk.parsed call) call.bucket call.upload
        call.prepared.tenantId call.prepared.sourceId := by
  refine ⟨_, ?_, rfl⟩
  rw [processPreparedDocument] at h ⊢
  split at h
  · exact absurd h (by simp)
  · rename_i hregistry
    rw [if_neg hregistry]
    cases hmkdir : call.mkdir with
    | some e => rw [hmkdir] at h; exact absurd h (by simp)
    | none =>
      cases hruntime : call.runtime with
      | some e => rw [hmkdir, hruntime] at h; exact absurd h (by simp)
      | none =>
        cases hparse : call.parse with
        | some e => rw [hmkdir, hruntime, hparse] at h; exact absurd h (by simp)
        | none => rfl

theorem uploadOutputTree_ok (ht : IsSegment tenant) (hs : IsSegment source)
    {bucket : Option PyException} {upload : Path → Option PyException}
    {assets : List AssetUploadResult}
    (h : (store.uploadOutputTree disk bucket upload tenant source).2 = .ok assets) :
    store.uploadOutputTree disk bucket upload tenant source
      = store.uploadFiles upload tenant source
          (disk.walk (store.settings.ragOutputDir ++ [tenant, source])) := by
  rw [S3AssetStore.uploadOutputTree, keySegment_of_isSegment ht, keySegment_of_isSegment hs] at h ⊢
  dsimp only at h ⊢
  rw [child_child ht hs] at h ⊢
  split at h
  · rename_i hdir
    rw [if_pos hdir]
    cases hbucket : bucket with
    | some e => rw [hbucket] at h; exact absurd h (by simp)
    | none => rfl
  · exact absurd h (by simp)

/-- What a call that succeeds has done, with these files. -/
structure Succeeded (store : S3AssetStore) (disk : Disk) (call : ParseCall)
    (assets : List AssetUploadResult) (files : List LocalFile) : Prop where
  perm : files.Perm (disk.leftover call.prepared.outputDir call.written ++ call.written.files)
  assets_eq : assets = files.map (store.relativeResult call.prepared.outputDir
    call.prepared.tenantId call.prepared.sourceId)
  objects_eq : (processPreparedDocument store disk call).objects
    = files.map (store.relativeObject call.prepared.outputDir call.prepared.tenantId
      call.prepared.sourceId)
  disk_eq : (processPreparedDocument store disk call).disk = disk.parsed call

theorem succeeded_of_ok (hprepared : IsPrepared store call.prepared)
    {assets : List AssetUploadResult}
    (h : (processPreparedDocument store disk call).outcome = .ok assets) :
    ∃ files, Succeeded store disk call assets files := by
  obtain ⟨ht, hs, hdir⟩ := hprepared.segments
  obtain ⟨uploaded, hprocess, huploaded⟩ := processPreparedDocument_ok h
  rw [hprocess] at h
  have hupload := h
  rw [huploaded] at hupload
  rw [uploadOutputTree_ok ht hs hupload] at huploaded
  obtain ⟨files, hperm, hwalk⟩ := exists_walk_eq (disk.parsed call) call.prepared.outputDir
  rw [hdir] at hwalk
  rw [hwalk] at huploaded
  rw [huploaded] at h
  obtain ⟨hassets, hobjects⟩ := uploadFiles_ok ht hs h
  refine ⟨files, ?_, ?_, ?_, by rw [hprocess]⟩
  · rw [Disk.parsed, relative_write] at hperm
    exact hperm
  · rw [hassets, hdir]
  · rw [hprocess, hdir, ← hobjects, huploaded]

/-- **One call.** It publishes exactly what its run wrote if and only if nothing was left over. -/
theorem publishesExactly_iff_leftover (hprepared : IsPrepared store call.prepared)
    {assets : List AssetUploadResult}
    (h : (processPreparedDocument store disk call).outcome = .ok assets) :
    PublishesExactly store disk call ↔
      disk.leftover call.prepared.outputDir call.written = [] := by
  obtain ⟨files, hcall⟩ := succeeded_of_ok hprepared h
  constructor
  · rintro ⟨assets', hassets', hperm, -⟩
    obtain rfl := Except.ok.inj (h.symm.trans hassets')
    rw [hcall.assets_eq] at hperm
    have hlength := hcall.perm.length_eq
    have hlength' := hperm.length_eq
    rw [List.length_map, List.length_map] at hlength'
    rw [List.length_append] at hlength
    exact List.eq_nil_of_length_eq_zero (by omega)
  · intro hleft
    have hperm := hcall.perm
    rw [hleft, List.nil_append] at hperm
    refine ⟨assets, h, ?_, ?_⟩
    · rw [hcall.assets_eq]
      exact hperm.map _
    · rw [hcall.objects_eq]
      exact hperm.map _

/-! ## Histories -/

/-- The disk after a sequence of calls for a tenant and a source, all of which succeeded, with the
runs of the parser, newest first. At first the directory is empty, and nobody else writes there. -/
inductive History (store : S3AssetStore) (tenant source : String) :
    Disk → List ParserRun → Prop
  | start {disk : Disk} (hempty : disk.relative (store.settings.ragOutputDir ++ [tenant, source])
      = []) : History store tenant source disk []
  | elsewhere {disk disk' : Disk} {runs : List ParserRun}
      (h : History store tenant source disk runs)
      (hsame : disk'.relative (store.settings.ragOutputDir ++ [tenant, source])
        = disk.relative (store.settings.ragOutputDir ++ [tenant, source])) :
      History store tenant source disk' runs
  | call {disk : Disk} {runs : List ParserRun} {call : ParseCall}
      {assets : List AssetUploadResult} (h : History store tenant source disk runs)
      (habout : IsAbout store tenant source call)
      (hok : (processPreparedDocument store disk call).outcome = .ok assets) :
      History store tenant source (processPreparedDocument store disk call).disk
        (call.written :: runs)

theorem IsAbout.outputDir_eq (h : IsAbout store tenant source call) :
    call.prepared.outputDir = store.settings.ragOutputDir ++ [tenant, source] := by
  rw [h.prepared.segments.2.2, h.tenant, h.source]

theorem History.exists_mem_paths {runs : List ParserRun}
    (h : History store tenant source disk runs) (path : Path) :
    path ∈ (disk.relative (store.settings.ragOutputDir ++ [tenant, source])).map Prod.fst ↔
      ∃ run ∈ runs, path ∈ run.paths := by
  induction h with
  | start hempty => simp [hempty]
  | elsewhere _ hsame ih => rw [hsame, ih]
  | @call disk runs call assets _ habout hok ih =>
    obtain ⟨files, hcall⟩ := succeeded_of_ok habout.prepared hok
    rw [hcall.disk_eq, Disk.parsed, ← habout.outputDir_eq, relative_write, List.map_append,
      List.mem_append, habout.outputDir_eq]
    constructor
    · rintro (hold | hnew)
      · obtain ⟨file, hfile, rfl⟩ := List.mem_map.mp hold
        obtain ⟨run, hrun, hpath⟩ :=
          ih.mp (List.mem_map_of_mem (List.mem_filter.mp hfile).1)
        exact ⟨run, List.mem_cons_of_mem _ hrun, hpath⟩
      · exact ⟨call.written, List.mem_cons_self, hnew⟩
    · rintro ⟨run, hrun, hpath⟩
      by_cases hnew : path ∈ call.written.paths
      · exact Or.inr hnew
      · rcases List.mem_cons.mp hrun with rfl | hrun
        · exact absurd hpath hnew
        · obtain ⟨file, hfile, rfl⟩ := List.mem_map.mp (ih.mpr ⟨run, hrun, hpath⟩)
          exact Or.inl (List.mem_map_of_mem (List.mem_filter.mpr ⟨hfile, by simpa using hnew⟩))

/-- **Main result.** After any sequence of successful calls, a successful call publishes exactly
what its run wrote if and only if the run wrote every file of the earlier runs again. -/
theorem publishesExactly_iff {runs : List ParserRun} {assets : List AssetUploadResult}
    (h : History store tenant source disk runs) (habout : IsAbout store tenant source call)
    (hok : (processPreparedDocument store disk call).outcome = .ok assets) :
    PublishesExactly store disk call ↔
      ∀ run ∈ runs, ∀ path ∈ run.paths, path ∈ call.written.paths := by
  rw [publishesExactly_iff_leftover habout.prepared hok, Disk.leftover, List.filter_eq_nil_iff,
    habout.outputDir_eq]
  constructor
  · intro hleft run hrun path hpath
    obtain ⟨file, hfile, rfl⟩ := List.mem_map.mp ((h.exists_mem_paths path).mpr ⟨run, hrun, hpath⟩)
    simpa using hleft file hfile
  · intro hagain file hfile
    obtain ⟨run, hrun, hpath⟩ := (h.exists_mem_paths file.1).mp (List.mem_map_of_mem hfile)
    simpa using hagain run hrun _ hpath

/-! ### A manual that loses a page -/

/-- The settings of the demonstration. -/
def manualSettings : Settings := ⟨["data", "inputs"], ["data", "outputs"], "raw", "assets"⟩

def manualStore : S3AssetStore :=
  ⟨manualSettings, "http://minio:9000", fun _ ↦ some "text/markdown"⟩

def manualPrepared : PreparedDocument where
  tenantId := "acme"
  sourceId := "manual"
  stagedPath := ["data", "inputs", "acme", "manual", "manual.pdf"]
  outputDir := ["data", "outputs", "acme", "manual"]
  rawBucket := "raw"
  rawKey := "acme/manual/manual.pdf"

theorem isPrepared_manualPrepared : IsPrepared manualStore manualPrepared :=
  ⟨⟨manualSettings, fun _ ↦ "", .withDefaults⟩, rfl,
    Or.inl ⟨⟨["manual.pdf"], true, "", "acme", some "manual"⟩, rfl⟩⟩

def onePage : ParserRun := ⟨⟨[(["page-1.md"], "one")], by decide⟩, by decide, by decide⟩

def twoPages : ParserRun :=
  ⟨⟨[(["page-1.md"], "one"), (["page-2.md"], "two")], by decide⟩, by decide, by decide⟩

def manualCall (run : ParserRun) : ParseCall :=
  ⟨manualPrepared, true, none, none, run, none, none, fun _ ↦ none⟩

def emptyDisk : Disk := ⟨⟨[], List.nodup_nil⟩, []⟩

theorem isAbout_manualCall (run : ParserRun) :
    IsAbout manualStore "acme" "manual" (manualCall run) :=
  ⟨isPrepared_manualPrepared, rfl, rfl⟩

theorem start_emptyDisk : History manualStore "acme" "manual" emptyDisk [] := .start rfl

def manualDisk (run : ParserRun) : Disk :=
  (processPreparedDocument manualStore emptyDisk (manualCall run)).disk

/-- A manual that grows is published as it is. -/
theorem growing_manual_published :
    ∃ assets, History manualStore "acme" "manual" (manualDisk onePage) [onePage] ∧
      IsAbout manualStore "acme" "manual" (manualCall twoPages) ∧
      (processPreparedDocument manualStore (manualDisk onePage) (manualCall twoPages)).outcome
        = .ok assets ∧
      PublishesExactly manualStore (manualDisk onePage) (manualCall twoPages) := by
  have hhistory : History manualStore "acme" "manual" (manualDisk onePage) [onePage] :=
    .call start_emptyDisk (isAbout_manualCall onePage) rfl
  refine ⟨_, hhistory, isAbout_manualCall twoPages, rfl, ?_⟩
  exact (publishesExactly_iff hhistory (isAbout_manualCall twoPages) rfl).mpr (by decide)

/-- The second call parses one page and publishes two. -/
theorem stale_page_published :
    History manualStore "acme" "manual" (manualDisk twoPages) [twoPages] ∧
      IsAbout manualStore "acme" "manual" (manualCall onePage) ∧
      (∃ assets, (processPreparedDocument manualStore (manualDisk twoPages)
          (manualCall onePage)).outcome = .ok assets ∧
        assets.map AssetUploadResult.key
          = ["output/acme/manual/page-1.md", "output/acme/manual/page-2.md"]) ∧
      ¬ PublishesExactly manualStore (manualDisk twoPages) (manualCall onePage) := by
  have hhistory : History manualStore "acme" "manual" (manualDisk twoPages) [twoPages] :=
    .call start_emptyDisk (isAbout_manualCall twoPages) rfl
  refine ⟨hhistory, isAbout_manualCall onePage, ⟨_, rfl, by decide +kernel⟩, ?_⟩
  rintro ⟨assets, hassets, hperm, -⟩
  have hlength := hperm.length_eq
  rw [← Except.ok.inj hassets] at hlength
  exact absurd hlength (by decide)

end KnowledgeAlakazam
