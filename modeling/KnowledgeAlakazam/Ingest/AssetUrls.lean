import KnowledgeAlakazam.Core.JsonText
import KnowledgeAlakazam.Ingest.Confinement

/-!
# Asset URLs

An upload answers with a URL for each asset. The names in it are those of files that a parser
wrote, so they may hold any characters, those with a meaning in a URL among them; `public_asset_url`
quotes them. Whoever asks for the URL reads it the other way: the path ends where a query or a
fragment begins, its first part is the bucket, the rest is the key, and both are unquoted.

Every URL is read as the bucket and the key of the object that was put (`resolve_publicAssetUrl`),
so that different assets have different URLs (`assetUrls_faithful`).
-/

namespace KnowledgeAlakazam

/-! ## Unquoting -/

/-- `urllib.parse.unquote_to_bytes`. -/
def unquoteToBytes : List Char → List UInt8
  | '%' :: a :: b :: rest =>
    match hexValue a, hexValue b with
    | some high, some low => UInt8.ofNat (16 * high + low) :: unquoteToBytes rest
    -- what is no escape is taken as it is
    | _, _ => String.utf8EncodeChar '%' ++ unquoteToBytes (a :: b :: rest)
  | c :: rest => String.utf8EncodeChar c ++ unquoteToBytes rest
  | [] => []

/-- The text that a quoted text stands for, if its bytes are UTF-8. -/
def unquote (text : List Char) : Option (List Char) :=
  (unquoteToBytes text).toByteArray.utf8Decode?.map Array.toList

theorem unquoteToBytes_cons {c : Char} (hc : c ≠ '%') (rest : List Char) :
    unquoteToBytes (c :: rest) = String.utf8EncodeChar c ++ unquoteToBytes rest := by
  rw [unquoteToBytes]
  exact fun a b rest' heq _ ↦ hc heq

theorem hexValue_toUpper {k : ℕ} (hk : k < 16) :
    hexValue (Nat.digitChar k).toUpper = some k := by
  have hall : ∀ k < 16, hexValue (Nat.digitChar k).toUpper = some k := by decide
  exact hall k hk

theorem unquoteToBytes_percentByte (b : UInt8) (rest : List Char) :
    unquoteToBytes (percentByte b ++ rest) = b :: unquoteToBytes rest := by
  have hb : b.toNat < 256 := b.toNat_lt
  have hhigh := hexValue_toUpper (k := b.toNat / 16) (by omega)
  have hlow := hexValue_toUpper (k := b.toNat % 16) (by omega)
  have hvalue : 16 * (b.toNat / 16) + b.toNat % 16 = b.toNat := Nat.div_add_mod _ _
  simp only [percentByte, List.cons_append, List.nil_append, unquoteToBytes, hhigh, hlow, hvalue,
    UInt8.ofNat_toNat]

theorem unquoteToBytes_flatMap (bytes : List UInt8) (rest : List Char) :
    unquoteToBytes (bytes.flatMap percentByte ++ rest) = bytes ++ unquoteToBytes rest := by
  induction bytes with
  | nil => rfl
  | cons b bytes ih =>
    rw [List.flatMap_cons, List.append_assoc, unquoteToBytes_percentByte, ih, List.cons_append]

variable {safe : Char → Bool}

theorem unquoteToBytes_quote (hsafe : safe '%' = false) (text : List Char) :
    unquoteToBytes (quote safe text) = text.flatMap String.utf8EncodeChar := by
  induction text with
  | nil => rfl
  | cons c text ih =>
    rw [quote, List.flatMap_cons, List.flatMap_cons, ← quote]
    split
    · rename_i hplain
      have hc : c ≠ '%' := by
        rintro rfl
        rw [hsafe] at hplain
        exact absurd hplain (by decide)
      rw [List.singleton_append, unquoteToBytes_cons hc, ih]
    · rw [unquoteToBytes_flatMap, ih]

theorem unquote_quote (hsafe : safe '%' = false) (text : List Char) :
    unquote (quote safe text) = some text := by
  have hbytes : (text.flatMap String.utf8EncodeChar).toByteArray = text.utf8Encode := rfl
  rw [unquote, unquoteToBytes_quote hsafe, hbytes, List.utf8Decode?_utf8Encode, Option.map_some]

/-- A character that ends a part of a URL is not in a quoted text, unless it is safe. -/
theorem not_mem_quote {d : Char} (hd : d = '/' ∨ d = '?' ∨ d = '#') (hsafe : safe d = false)
    (text : List Char) : d ∉ quote safe text := by
  have hhex : ∀ k < 16, (Nat.digitChar k).toUpper ≠ d := by
    have hall : ∀ k < 16, (Nat.digitChar k).toUpper ∉ ['/', '?', '#'] := by decide
    intro k hk heq
    refine hall k hk ?_
    rw [heq]
    simpa using hd
  intro hmem
  obtain ⟨c, -, hc⟩ := List.mem_flatMap.mp hmem
  split at hc
  · rename_i hplain
    obtain rfl := List.mem_singleton.mp hc
    rw [hsafe] at hplain
    rcases hd with rfl | rfl | rfl <;> exact absurd hplain (by decide)
  · obtain ⟨b, -, hb⟩ := List.mem_flatMap.mp hc
    have hlt : b.toNat < 256 := b.toNat_lt
    rw [percentByte, List.mem_cons, List.mem_cons, List.mem_singleton] at hb
    rcases hb with rfl | hb | hb
    · rcases hd with h | h | h <;> exact absurd h (by decide)
    · exact hhex _ (by omega) hb.symm
    · exact hhex _ (by omega) hb.symm

/-! ## Reading a URL -/

namespace S3AssetStore

variable (store : S3AssetStore)

/-- Where the URLs of the store begin. -/
def base : List Char := rstripChars (· == '/') store.s3EndpointUrl.toList ++ ['/']

/-- The bucket and the key that a URL asks for. -/
def resolve (url : String) : Option (String × String) := do
  let path := (← url.toList.dropPrefix? store.base).takeWhile fun c ↦ c != '?' && c != '#'
  let bucket ← unquote (path.takeWhile (· != '/'))
  let key ← unquote ((path.dropWhile (· != '/')).drop 1)
  return (String.ofList bucket, String.ofList key)

/-- **A URL is read as what it was made of**: the bucket and the key, without the slashes around the
bucket and before the key. -/
theorem resolve_publicAssetUrl (bucket key : String) :
    store.resolve (store.publicAssetUrl bucket key) =
      some (String.ofList (stripChars (· == '/') bucket.toList),
        String.ofList (key.toList.dropWhile (· == '/'))) := by
  have hurl : (store.publicAssetUrl bucket key).toList = store.base ++
      (quote (fun _ ↦ false) (stripChars (· == '/') bucket.toList) ++
        '/' :: quote (· == '/') (key.toList.dropWhile (· == '/'))) := by
    rw [publicAssetUrl, String.toList_ofList, base]
    simp only [List.append_assoc, List.cons_append, List.nil_append]
  have hdrop : ∀ rest : List Char, (store.base ++ rest).dropPrefix? store.base = some rest :=
    fun rest ↦ List.dropPrefix?_eq_some_iff.mpr ⟨store.base, rfl, beq_self_eq_true _⟩
  set b := stripChars (· == '/') bucket.toList
  set k := key.toList.dropWhile (· == '/')
  -- nothing in the path begins a query or a fragment, and the bucket has no slash
  have hpath : ∀ c ∈ quote (fun _ ↦ false) b ++ '/' :: quote (· == '/') k,
      (c != '?' && c != '#') = true := by
    intro c hc
    have hquoted : ∀ d, d = '?' ∨ d = '#' → c ≠ d := by
      rintro d hd rfl
      rcases List.mem_append.mp hc with hc | hc
      · exact not_mem_quote (.inr hd) rfl b hc
      · rcases List.mem_cons.mp hc with rfl | hc
        · exact absurd hd (by decide)
        · exact not_mem_quote (.inr hd) (by rcases hd with rfl | rfl <;> rfl) k hc
    rw [Bool.and_eq_true, bne_iff_ne, bne_iff_ne]
    exact ⟨hquoted '?' (.inl rfl), hquoted '#' (.inr rfl)⟩
  have hbucket : ∀ c ∈ quote (fun _ ↦ false) b, (c != '/') = true := fun c hc ↦
    bne_iff_ne.mpr fun heq ↦ not_mem_quote (.inl rfl) rfl b (heq ▸ hc)
  rw [resolve, hurl, hdrop]
  dsimp only [Option.bind_eq_bind, Option.bind_some]
  rw [List.takeWhile_eq_self_iff.mpr hpath, List.takeWhile_append_of_pos hbucket,
    List.dropWhile_append_of_pos hbucket, List.takeWhile_cons_of_neg (by decide), List.append_nil,
    List.dropWhile_cons_of_neg (by decide), List.drop_one, List.tail_cons, unquote_quote rfl,
    unquote_quote rfl]
  rfl

end S3AssetStore

/-! ## The URLs of an upload -/

/-- The call of `upload_output_tree`: what it puts, and its result. -/
def TreeUpload.run (u : TreeUpload) :
    List PutObject × Except PyException (List AssetUploadResult) :=
  u.store.uploadOutputTree u.disk.toDisk u.bucket u.upload u.prepared.tenantId u.prepared.sourceId

namespace TreeUpload

variable {u v : TreeUpload}

theorem run_ok {assets : List AssetUploadResult} (h : u.run.2 = .ok assets) :
    ∃ files : List LocalFile, files.Perm (u.disk.relative u.prepared.outputDir) ∧
      assets = files.map (u.store.relativeResult u.prepared.outputDir u.prepared.tenantId
        u.prepared.sourceId) ∧
      u.run.1 = files.map (u.store.relativeObject u.prepared.outputDir u.prepared.tenantId
        u.prepared.sourceId) := by
  obtain ⟨ht, hs, hdir⟩ := u.isPrepared.segments
  obtain ⟨files, hperm, hwalk⟩ := exists_walk_eq u.disk.toDisk u.prepared.outputDir
  rw [hdir] at hwalk
  have hrun : u.run = u.store.uploadFiles u.upload u.prepared.tenantId u.prepared.sourceId
      (files.map fun file ↦ (u.store.settings.ragOutputDir ++
        [u.prepared.tenantId, u.prepared.sourceId] ++ file.1, file.2)) := by
    rw [← hwalk]
    exact uploadOutputTree_ok ht hs h
  rw [hrun] at h ⊢
  rw [hdir]
  exact ⟨files, hdir ▸ hperm, uploadFiles_ok ht hs h⟩

/-- The key of a file that was found: its components are those of the document and of its path. -/
theorem key_eq {path : Path} (h : path ∈ (u.disk.relative u.prepared.outputDir).map Prod.fst) :
    (∀ part ∈ path, IsComponent part) ∧ relativeKey u.prepared.tenantId u.prepared.sourceId path =
      "/".intercalate (assetParts u.prepared path) := by
  obtain ⟨-, -, hdir⟩ := u.isPrepared.segments
  have hne : u.prepared.outputDir ≠ [] := by
    rw [hdir]
    exact List.append_ne_nil_of_right_ne_nil _ (List.cons_ne_nil _ _)
  obtain ⟨hpath, hparts⟩ := isComponent_of_mem_relative u.disk hne h
  exact ⟨hparts, relativeKey_eq hpath⟩

theorem resolve_url (u : TreeUpload) (file : LocalFile) :
    u.store.resolve (u.store.relativeResult u.prepared.outputDir u.prepared.tenantId
        u.prepared.sourceId file).url =
      some (String.ofList (stripChars (· == '/') u.store.settings.s3BucketAssets.toList),
        relativeKey u.prepared.tenantId u.prepared.sourceId file.1) := by
  have hkey : (relativeKey u.prepared.tenantId u.prepared.sourceId file.1).toList.dropWhile
      (· == '/') = (relativeKey u.prepared.tenantId u.prepared.sourceId file.1).toList := by
    simp [relativeKey, assetPrefix]
  rw [S3AssetStore.relativeResult, S3AssetStore.resultOf, S3AssetStore.resolve_publicAssetUrl,
    hkey, String.ofList_toList]

theorem mem_files {file : LocalFile} (h : file ∈ u.disk.relative u.prepared.outputDir) :
    (u.prepared.outputDir ++ file.1, file.2) ∈ u.disk.files.files := by
  obtain ⟨found, hfound, rfl⟩ := List.mem_map.mp h
  obtain ⟨hmem, hbelow⟩ := List.mem_filter.mp hfound
  have hbelow : u.prepared.outputDir <+: found.1 ∧ found.1 ≠ u.prepared.outputDir := by
    simpa using hbelow
  dsimp only
  rw [← List.prefix_append_drop hbelow.1]
  exact hmem

end TreeUpload

/-- **The URLs of uploads.** Each URL is read as the bucket and the key of an object that was put,
with the content of the asset's file. Under one endpoint two URLs are the same only if the assets
are those of one file of one document. -/
theorem assetUrls_faithful (u v : TreeUpload)
    (hendpoint : u.store.s3EndpointUrl = v.store.s3EndpointUrl)
    {assets assets' : List AssetUploadResult} (hu : u.run.2 = .ok assets)
    (hv : v.run.2 = .ok assets') :
    List.Forall₂ (fun asset object ↦ (asset.localPath, object.content) ∈ u.disk.files.files ∧
      u.store.resolve asset.url = some
        (String.ofList (stripChars (· == '/') object.bucket.toList), object.key)) assets u.run.1 ∧
    ∀ a ∈ assets, ∀ b ∈ assets', a.url = b.url →
      u.prepared.tenantId = v.prepared.tenantId ∧ u.prepared.sourceId = v.prepared.sourceId ∧
        ∃ path, a.localPath = u.prepared.outputDir ++ path ∧
          b.localPath = v.prepared.outputDir ++ path := by
  obtain ⟨files, hperm, rfl, hobjects⟩ := TreeUpload.run_ok hu
  obtain ⟨files', hperm', rfl, -⟩ := TreeUpload.run_ok hv
  constructor
  · rw [hobjects, List.forall₂_map_left_iff, List.forall₂_map_right_iff, List.forall₂_same]
    exact fun file hfile ↦
      ⟨TreeUpload.mem_files (hperm.mem_iff.mp hfile), TreeUpload.resolve_url u file⟩
  · intro a ha b hb hurl
    obtain ⟨file, hfile, rfl⟩ := List.mem_map.mp ha
    obtain ⟨file', hfile', rfl⟩ := List.mem_map.mp hb
    have hresolve : u.store.resolve = v.store.resolve := by
      funext url
      rw [S3AssetStore.resolve, S3AssetStore.resolve, S3AssetStore.base, S3AssetStore.base,
        hendpoint]
    have hread := TreeUpload.resolve_url u file
    rw [hurl, hresolve, TreeUpload.resolve_url v file', Option.some.injEq, Prod.mk.injEq] at hread
    obtain ⟨hparts, hkey⟩ := TreeUpload.key_eq (List.mem_map_of_mem (hperm.mem_iff.mp hfile))
    obtain ⟨hparts', hkey'⟩ := TreeUpload.key_eq (List.mem_map_of_mem (hperm'.mem_iff.mp hfile'))
    have hjoined := hread.2
    rw [hkey, hkey'] at hjoined
    have heq := eq_of_joined (v.isPrepared.confined.isComponent_assetParts hparts')
      (u.isPrepared.confined.isComponent_assetParts hparts) (List.cons_ne_nil _ _)
      (List.cons_ne_nil _ _) hjoined
    simp only [assetParts, List.cons.injEq] at heq
    exact ⟨heq.2.1.symm, heq.2.2.1.symm, file.1, rfl, by rw [← heq.2.2.2]; rfl⟩

/-- A page with a name that a URL cannot hold as it is. -/
def questionUpload : TreeUpload where
  toAcceptedDocument := manualUpload.toAcceptedDocument
  disk := ⟨manualDisk ⟨⟨[(["page 1?#é%2F.md"], "one")], by decide⟩, by decide, by decide⟩,
    by decide +kernel⟩
  bucket := none
  upload _ := none

/-- The URL of the page, and what it is read as. -/
theorem questionUpload_resolves : ∃ asset object, questionUpload.run = ([object], .ok [asset]) ∧
    asset.url = "http://minio:9000/raw/output/acme/manual/page%201%3F%23%C3%A9%252F.md" ∧
    sharedStore.resolve asset.url = some ("raw", "output/acme/manual/page 1?#é%2F.md") := by
  obtain ⟨asset, object, hrun, hurl, hobject⟩ : ∃ asset object,
      questionUpload.run = ([object], .ok [asset]) ∧
        asset.url = "http://minio:9000/raw/output/acme/manual/page%201%3F%23%C3%A9%252F.md" ∧
        object.bucket = "raw" ∧ object.key = "output/acme/manual/page 1?#é%2F.md" :=
    ⟨_, _, rfl, by decide +kernel, rfl, by decide +kernel⟩
  refine ⟨asset, object, hrun, hurl, ?_⟩
  have hu : questionUpload.run.2 = .ok [asset] := by rw [hrun]
  obtain ⟨hall, -⟩ := assetUrls_faithful questionUpload questionUpload rfl hu hu
  rw [hrun, List.forall₂_cons] at hall
  obtain ⟨⟨-, hread⟩, -⟩ := hall
  rw [hobject.1, hobject.2] at hread
  exact hread

end KnowledgeAlakazam
