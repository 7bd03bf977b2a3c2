import KnowledgeAlakazam.Ingest.Custody
import KnowledgeAlakazam.Wiki.Store
import Mathlib.Logic.Function.Basic
import Mathlib.Logic.Relation

/-!
# One tenant in three layers

A tenant id arrives at the API as an arbitrary string, and three layers make a key of it, each in
its own way. The registry of RAG runtimes maps it to a workspace: the stripped id, made readable
and cut short, with a digest. The ingest service strips it and insists on a path segment. The wiki
compares it as it is.

The first two agree on who is who (`workspaceForTenant_eq_iff`, `places_eq_iff`). The wiki does
not: two ids that differ in white space at their ends share a runtime and the ingested documents,
but not the pages that were compiled from them.
-/

namespace KnowledgeAlakazam

variable (hexdigest : String → String)

/-! ## Workspaces -/

/-- `[A-Za-z0-9_.-]`. -/
def isWorkspaceChar (c : Char) : Bool := c.isAlphanum || c == '_' || c == '.' || c == '-'

/-- The runs of characters that a workspace may not contain, each replaced by one underscore:
`re.sub(r"[^A-Za-z0-9_.-]+", "_", text)`. -/
def underscoreRuns : List Char → List Char
  | [] => []
  | c :: cs =>
    if isWorkspaceChar c then c :: underscoreRuns cs
    -- a run is replaced where it ends
    else if cs.head?.any (!isWorkspaceChar ·) then underscoreRuns cs
    else '_' :: underscoreRuns cs

/-- The readable part of a workspace's name, before it is cut. -/
def normalizedTenant (stripped : String) : List Char :=
  let normalized := stripChars (fun c ↦ c == '.' || c == '_' || c == '-')
    (underscoreRuns stripped.toList)
  if normalized = [] then "tenant".toList else normalized

/-- `hashlib.sha256(...).hexdigest()[:12]`. -/
def tenantDigest (stripped : String) : String :=
  String.ofList ((hexdigest stripped).toList.take 12)

/-- `workspace_for_tenant`. -/
def workspaceForTenant (tenantId : String) : Except PyException String :=
  let stripped := strip tenantId
  if stripped = "" then .error ⟨"ValueError", "tenant_id must not be empty"⟩
  else .ok ("tenant_" ++ String.ofList ((normalizedTenant stripped).take 40) ++ "_" ++
    tenantDigest hexdigest stripped)

example : (normalizedTenant (strip " tenant/a b ")) = "tenant_a_b".toList := by decide +kernel

/-- The hypotheses on the digest: it has 64 digits, and twelve of them tell the two ids apart. -/
structure TellsApart (t₁ t₂ : String) : Prop where
  length : ∀ text, (hexdigest text).length = 64
  inj : tenantDigest hexdigest (strip t₁) = tenantDigest hexdigest (strip t₂) → strip t₁ = strip t₂

variable {hexdigest} {t₁ t₂ : String}

theorem length_tenantDigest (h : ∀ text, (hexdigest text).length = 64) (stripped : String) :
    (tenantDigest hexdigest stripped).toList.length = 12 := by
  rw [tenantDigest, String.toList_ofList, List.length_take, String.length_toList, h]
  rfl

/-- Names that end in a digest have the same end. -/
theorem eq_of_append_tenantDigest (h : ∀ text, (hexdigest text).length = 64) {a b s s' : String}
    (heq : a ++ tenantDigest hexdigest s = b ++ tenantDigest hexdigest s') :
    tenantDigest hexdigest s = tenantDigest hexdigest s' := by
  rw [← String.toList_inj, String.toList_append, String.toList_append] at heq
  have hlength : (tenantDigest hexdigest s).toList.length
      = (tenantDigest hexdigest s').toList.length := by
    rw [length_tenantDigest h, length_tenantDigest h]
  exact String.toList_inj.mp (List.append_inj' heq hlength).2

/-- Two workspaces are the same if the stripped ids are: the digest is the end of the name. -/
theorem workspaceForTenant_eq_iff (h : TellsApart hexdigest t₁ t₂) (h₁ : strip t₁ ≠ "")
    (h₂ : strip t₂ ≠ "") :
    workspaceForTenant hexdigest t₁ = workspaceForTenant hexdigest t₂ ↔ strip t₁ = strip t₂ := by
  constructor
  · intro heq
    rw [workspaceForTenant, workspaceForTenant, if_neg h₁, if_neg h₂, Except.ok.injEq] at heq
    exact h.inj (eq_of_append_tenantDigest h.length heq)
  · intro heq
    rw [workspaceForTenant, workspaceForTenant, heq]

/-! ## The registry -/

/-- `RAGRuntimeRegistry`: the runtimes by workspace, numbered in the order of their creation. Every
runtime belongs to one workspace. -/
structure RAGRuntimeRegistry where
  disabled : Bool
  runtimes : String → Option ℕ
  created : ℕ
  lt_created : ∀ {workspace runtime}, runtimes workspace = some runtime → runtime < created
  workspace_unique : ∀ {workspace workspace' runtime}, runtimes workspace = some runtime →
    runtimes workspace' = some runtime → workspace = workspace'

namespace RAGRuntimeRegistry

variable (r : RAGRuntimeRegistry) (workspace : String)

theorem lt_created_update {other : String} {runtime : ℕ}
    (h : Function.update r.runtimes workspace (some r.created) other = some runtime) :
    runtime < r.created + 1 := by
  rw [Function.update_apply] at h
  split at h
  · rw [← Option.some.inj h]
    exact Nat.lt_succ_self _
  · exact Nat.lt_succ_of_lt (r.lt_created h)

theorem workspace_unique_update {u v : String} {runtime : ℕ}
    (hu : Function.update r.runtimes workspace (some r.created) u = some runtime)
    (hv : Function.update r.runtimes workspace (some r.created) v = some runtime) : u = v := by
  rw [Function.update_apply] at hu hv
  split at hu <;> split at hv
  · rename_i hu' hv'
    rw [hu', hv']
  -- the new runtime is not one of the old ones
  · exact absurd (r.lt_created hv) (by rw [← Option.some.inj hu]; exact lt_irrefl _)
  · exact absurd (r.lt_created hu) (by rw [← Option.some.inj hv]; exact lt_irrefl _)
  · exact r.workspace_unique hu hv

/-- `_runtime_factory` and the entry into the dictionary. -/
def create : RAGRuntimeRegistry where
  disabled := r.disabled
  runtimes := Function.update r.runtimes workspace (some r.created)
  created := r.created + 1
  lt_created := r.lt_created_update workspace
  workspace_unique := r.workspace_unique_update workspace

/-- What `get` does under its lock. -/
def acquire : ℕ × RAGRuntimeRegistry :=
  match r.runtimes workspace with
  | some runtime => (runtime, r)
  | none => (r.created, r.create workspace)

variable (hexdigest) in
/-- `get`, with the outcome of `runtime.initialize()`. -/
def get (tenantId : String) (outcome : Except PyException Unit) :
    Except PyException ℕ × RAGRuntimeRegistry :=
  if r.disabled then
    (.error ⟨"RAGRuntimeDisabledError", "RAG runtime is disabled by RAG_RUNTIME_DISABLED=true"⟩, r)
  else match workspaceForTenant hexdigest tenantId with
    | .error e => (.error e, r)
    | .ok workspace =>
      (outcome.map fun _ ↦ (r.acquire workspace).1, (r.acquire workspace).2)

def fresh : RAGRuntimeRegistry where
  disabled := false
  runtimes _ := none
  created := 0
  lt_created h := absurd h (by simp)
  workspace_unique h := absurd h (by simp)

variable {r workspace}

theorem runtimes_acquire :
    (r.acquire workspace).2.runtimes workspace = some (r.acquire workspace).1 := by
  rw [acquire]
  split
  · assumption
  · exact Function.update_self ..

theorem runtimes_acquire_of_some {other : String} {runtime : ℕ}
    (h : r.runtimes other = some runtime) :
    (r.acquire workspace).2.runtimes other = some runtime := by
  rw [acquire]
  split
  · exact h
  · rename_i hnone
    have hne : other ≠ workspace := fun heq ↦ by simp [heq, hnone] at h
    exact (Function.update_of_ne hne ..).trans h

/-- The runtime of a workspace is given to this workspace only. -/
theorem acquire_eq_iff {other : String} {runtime : ℕ} (h : r.runtimes other = some runtime) :
    runtime = (r.acquire workspace).1 ↔ other = workspace := by
  have hother : (r.acquire workspace).2.runtimes other = some runtime :=
    runtimes_acquire_of_some h
  have hown : (r.acquire workspace).2.runtimes workspace = some (r.acquire workspace).1 :=
    runtimes_acquire
  constructor
  · intro heq
    rw [heq] at hother
    exact (r.acquire workspace).2.workspace_unique hother hown
  · intro heq
    rw [heq, hown] at hother
    exact (Option.some.inj hother).symm

theorem get_ok {tenantId : String} {outcome : Except PyException Unit} {runtime : ℕ}
    (h : (r.get hexdigest tenantId outcome).1 = .ok runtime) :
    ∃ workspace, workspaceForTenant hexdigest tenantId = .ok workspace ∧
      runtime = (r.acquire workspace).1 ∧
      (r.get hexdigest tenantId outcome).2 = (r.acquire workspace).2 := by
  rw [get] at h ⊢
  split at h
  · exact absurd h (by simp)
  · rename_i henabled
    rw [if_neg henabled]
    cases hworkspace : workspaceForTenant hexdigest tenantId with
    | error e => rw [hworkspace] at h; exact absurd h (by simp)
    | ok workspace =>
      rw [hworkspace] at h
      refine ⟨workspace, rfl, ?_, rfl⟩
      cases outcome with
      | error e => exact absurd h (by simp [Except.map])
      | ok => exact (Except.ok.inj h).symm

theorem runtimes_get_of_some {tenantId other : String} {outcome : Except PyException Unit}
    {runtime : ℕ} (h : r.runtimes other = some runtime) :
    (r.get hexdigest tenantId outcome).2.runtimes other = some runtime := by
  rw [get]
  split
  · exact h
  · split
    · exact h
    · exact runtimes_acquire_of_some h

end RAGRuntimeRegistry

variable (hexdigest) in
/-- Somebody calls `get`. -/
def Gets (r r' : RAGRuntimeRegistry) : Prop :=
  ∃ tenantId outcome, r' = (r.get hexdigest tenantId outcome).2

variable (hexdigest t₁ t₂) in
/-- The registry gives two tenants the same runtime, whatever calls come in between. -/
def SameRuntime : Prop :=
  ∀ (r r' : RAGRuntimeRegistry) outcome outcome' runtime runtime',
    (r.get hexdigest t₁ outcome).1 = .ok runtime →
    Relation.ReflTransGen (Gets hexdigest) (r.get hexdigest t₁ outcome).2 r' →
    (r'.get hexdigest t₂ outcome').1 = .ok runtime' → runtime = runtime'

theorem runtimes_of_gets {r r' : RAGRuntimeRegistry} {workspace : String} {runtime : ℕ}
    (hgets : Relation.ReflTransGen (Gets hexdigest) r r')
    (h : r.runtimes workspace = some runtime) : r'.runtimes workspace = some runtime := by
  induction hgets with
  | refl => exact h
  | tail _ hget ih =>
    obtain ⟨tenantId, outcome, rfl⟩ := hget
    exact RAGRuntimeRegistry.runtimes_get_of_some ih

/-- **Runtimes and workspaces.** Two tenants share their runtime if they share the workspace. -/
theorem sameRuntime_iff (h₁ : strip t₁ ≠ "") (h₂ : strip t₂ ≠ "") :
    SameRuntime hexdigest t₁ t₂ ↔
      workspaceForTenant hexdigest t₁ = workspaceForTenant hexdigest t₂ := by
  constructor
  · intro hsame
    obtain ⟨w₁, hw₁⟩ : ∃ w, workspaceForTenant hexdigest t₁ = .ok w :=
      ⟨_, by rw [workspaceForTenant, if_neg h₁]⟩
    obtain ⟨w₂, hw₂⟩ : ∃ w, workspaceForTenant hexdigest t₂ = .ok w :=
      ⟨_, by rw [workspaceForTenant, if_neg h₂]⟩
    -- the two calls, one after the other, on a registry with no runtimes
    let r := RAGRuntimeRegistry.fresh
    have hfirst : r.get hexdigest t₁ (.ok ()) = (.ok (r.acquire w₁).1, (r.acquire w₁).2) := by
      rw [RAGRuntimeRegistry.get, hw₁]
      rfl
    have hsecond : (((r.acquire w₁).2).get hexdigest t₂ (.ok ())).1
        = .ok ((r.acquire w₁).2.acquire w₂).1 := by
      rw [RAGRuntimeRegistry.get, hw₂]
      rfl
    have heq := hsame r _ (.ok ()) (.ok ()) _ _ (congrArg Prod.fst hfirst) .refl
      (by rw [hfirst, hsecond])
    rw [hw₁, hw₂, (RAGRuntimeRegistry.acquire_eq_iff RAGRuntimeRegistry.runtimes_acquire).mp heq]
  · intro hworkspace r r' outcome outcome' runtime runtime' hget hgets hget'
    obtain ⟨w₁, hw₁, rfl, hr⟩ := RAGRuntimeRegistry.get_ok hget
    obtain ⟨w₂, hw₂, rfl, -⟩ := RAGRuntimeRegistry.get_ok hget'
    rw [hr] at hgets
    have hkept := runtimes_of_gets hgets RAGRuntimeRegistry.runtimes_acquire
    refine (RAGRuntimeRegistry.acquire_eq_iff hkept).mpr ?_
    rw [hw₁, hw₂] at hworkspace
    exact Except.ok.inj hworkspace

/-! ## The ingest service -/

/-- Two documents are kept in the same place if and only if a condition holds, for each of the
places: the row of `ingest_job`, the raw object, the assets, the staged copy and the output. -/
structure PlacesAgree (same : Prop) (d d' : PreparedDocument) : Prop where
  jobKey : same ↔ (d.tenantId, d.sourceId) = (d'.tenantId, d'.sourceId)
  rawKey : same ↔ d.rawKey = d'.rawKey
  assets : same ↔ assetPrefix d.tenantId d.sourceId = assetPrefix d'.tenantId d'.sourceId
  staged : same ↔ d.stagedPath = d'.stagedPath
  output : same ↔ d.outputDir = d'.outputDir

theorem tenant_eq_of_rawDocumentKey {path path' : Path} {tenant source tenant' source' key : String}
    (ht : IsSegment tenant) (ht' : IsSegment tenant')
    (h : rawDocumentKey path tenant source = .ok key)
    (h' : rawDocumentKey path' tenant' source' = .ok key) : tenant = tenant' := by
  have heq := (rawDocumentKey_ok h).symm.trans (rawDocumentKey_ok h')
  rw [ht.strip_eq, ht'.strip_eq, ← String.toList_inj] at heq
  simp only [String.toList_append, List.append_assoc] at heq
  exact String.toList_inj.mp (eq_of_append_slash ht.slash_not_mem ht'.slash_not_mem heq).1

theorem eq_of_append_pair {root : Path} {tenant source tenant' source' : String} {rest rest' : Path}
    (h : root ++ tenant :: source :: rest = root ++ tenant' :: source' :: rest') :
    tenant = tenant' := (List.cons.inj (List.append_cancel_left h)).1

/-- **One document, two tenants.** The service keeps the documents in the same place if the
stripped ids are the same. -/
theorem places_eq_iff {site : Site} {request : UploadRequest} {d d' : PreparedDocument}
    (h : prepareDocument site { request with tenantId := t₁ } = .ok d)
    (h' : prepareDocument site { request with tenantId := t₂ } = .ok d') :
    PlacesAgree (strip t₁ = strip t₂) d d' := by
  obtain ⟨filename, hd⟩ := preparedFrom_of_prepareDocument h
  obtain ⟨filename', hd'⟩ := preparedFrom_of_prepareDocument h'
  have htenant := (safePathSegment_ok hd.tenant).1
  have htenant' := (safePathSegment_ok hd'.tenant).1
  have hsource : d.sourceId = d'.sourceId := Except.ok.inj (hd.source.symm.trans hd'.source)
  have hfile : filename = filename' :=
    Except.ok.inj (hd.filename_eq.symm.trans hd'.filename_eq)
  -- What reaches the places is the stripped tenant, as one segment of a path.
  have hsame : strip t₁ = strip t₂ ↔ d.tenantId = d'.tenantId := by rw [htenant, htenant']
  have ht := isSegment_of_ok hd.tenant
  have ht' := isSegment_of_ok hd'.tenant
  have hstaged : d.tenantId = d'.tenantId → d.stagedPath = d'.stagedPath := fun heq ↦ by
    rw [hd.stagedPath, hd'.stagedPath, heq, hsource, hfile]
  constructor
  · rw [hsame, hsource]
    exact ⟨fun heq ↦ by rw [heq], fun heq ↦ congrArg Prod.fst heq⟩
  · rw [hsame]
    constructor
    · intro heq
      have hkey := hd.rawKey
      rw [hstaged heq, heq, hsource] at hkey
      exact Except.ok.inj (hkey.symm.trans hd'.rawKey)
    · intro heq
      exact tenant_eq_of_rawDocumentKey ht ht' hd.rawKey (heq ▸ hd'.rawKey)
  · rw [hsame, hsource]
    constructor
    · intro heq
      rw [heq]
    · intro heq
      have hs' := isSegment_of_ok hd'.source
      have hunder : UnderPrefix (assetPrefix d'.tenantId d'.sourceId ++ "") d.tenantId
          d'.sourceId := by
        rw [UnderPrefix, heq, String.append_empty]
      exact (underPrefix_outputAssetKey ht hs' ht' hs' hunder).1
  · rw [hsame]
    refine ⟨hstaged, fun heq ↦ ?_⟩
    rw [hd.stagedPath, hd'.stagedPath] at heq
    exact eq_of_append_pair heq
  · rw [hsame, hd.outputDir, hd'.outputDir, hsource]
    exact ⟨fun heq ↦ by rw [heq], fun heq ↦ eq_of_append_pair heq⟩

/-! ## The wiki -/

variable (t₁ t₂) in
/-- The wiki takes two tenants for one: it finds the same pages under either. -/
def SameWikiTenant : Prop :=
  ∀ (w : WikiStore) (slug : String), w.pageBySlug t₁ slug = w.pageBySlug t₂ slug

theorem sameWikiTenant_iff : SameWikiTenant t₁ t₂ ↔ t₁ = t₂ := by
  constructor
  · intro hsame
    let page : WikiPage := ⟨0, t₁, "", "", "", "", none⟩
    let w : WikiStore := { WikiStore.empty with pages := Table.empty.add page }
    have hrows : w.pages.rows = [page] := Table.Free.rows_add ⟨rfl, rfl⟩
    have hfirst : w.pageBySlug t₁ "" = some page :=
      Table.lookup_eq_some.mpr ⟨by rw [hrows]; exact List.mem_singleton_self _, rfl⟩
    rw [hsame w ""] at hfirst
    exact congrArg Prod.fst (Table.unique_of_lookup hfirst)
  · intro heq w slug
    rw [heq]

/-! ## All three -/

variable (hexdigest t₁ t₂) in
/-- The three layers agree on whether two ids are one tenant. -/
structure TenantsAgree : Prop where
  registry : workspaceForTenant hexdigest t₁ = workspaceForTenant hexdigest t₂ ↔
    SameRuntime hexdigest t₁ t₂
  ingest : ∀ (site : Site) (request : UploadRequest) (d d' : PreparedDocument),
    prepareDocument site { request with tenantId := t₁ } = .ok d →
    prepareDocument site { request with tenantId := t₂ } = .ok d' →
    PlacesAgree (workspaceForTenant hexdigest t₁ = workspaceForTenant hexdigest t₂) d d'
  wiki : workspaceForTenant hexdigest t₁ = workspaceForTenant hexdigest t₂ ↔
    SameWikiTenant t₁ t₂

/-- **Main result.** The layers agree about two ids unless white space at the ends is all that
tells them apart. -/
theorem tenantsAgree_iff (h : TellsApart hexdigest t₁ t₂) (h₁ : strip t₁ ≠ "")
    (h₂ : strip t₂ ≠ "") :
    TenantsAgree hexdigest t₁ t₂ ↔ (strip t₁ = strip t₂ → t₁ = t₂) := by
  have hworkspace := workspaceForTenant_eq_iff h h₁ h₂
  constructor
  · intro hagree heq
    exact sameWikiTenant_iff.mp (hagree.wiki.mp (hworkspace.mpr heq))
  · intro hstrip
    refine ⟨(sameRuntime_iff h₁ h₂).symm, fun site request d d' hd hd' ↦ ?_, ?_⟩
    · rw [hworkspace]
      exact places_eq_iff hd hd'
    · rw [hworkspace, sameWikiTenant_iff]
      exact ⟨hstrip, fun heq ↦ by rw [heq]⟩

def demoDigest (text : String) : String :=
  if text = "acme" then "822b33ad87c148a0a20a5ba7cd5ebcaa68d36a18e7aad165554903f52ca82757"
  else if text = "globex" then "5bc1a08d28e40fe79ca3ecb077b3bd14ff00df9bad0c4a0d74ecd0805ecf0b1f"
  else "0000000000000000000000000000000000000000000000000000000000000000"

theorem length_demoDigest (text : String) : (demoDigest text).length = 64 := by
  rw [demoDigest]
  split
  · decide
  · split <;> decide

theorem strip_acme : strip "acme" = "acme" := by decide

theorem strip_globex : strip "globex" = "globex" := by decide

theorem strip_space_acme : strip " acme" = "acme" := by decide

/-- Two different tenants are different everywhere. -/
theorem tenantsAgree_acme_globex :
    (∀ text, (demoDigest text).length = 64) ∧ strip "acme" ≠ "" ∧ strip "globex" ≠ "" ∧
      TenantsAgree demoDigest "acme" "globex" := by
  have hne : strip "acme" ≠ strip "globex" := by rw [strip_acme, strip_globex]; decide
  have h₁ : strip "acme" ≠ "" := by rw [strip_acme]; decide
  have h₂ : strip "globex" ≠ "" := by rw [strip_globex]; decide
  have hapart : TellsApart demoDigest "acme" "globex" :=
    ⟨length_demoDigest, fun heq ↦ absurd heq (by
      rw [strip_acme, strip_globex, tenantDigest, tenantDigest, demoDigest, demoDigest]
      decide)⟩
  exact ⟨length_demoDigest, h₁, h₂,
    (tenantsAgree_iff hapart h₁ h₂).mpr fun heq ↦ absurd heq hne⟩

/-- A space is enough: one runtime and one directory, but two wikis. -/
theorem tenants_disagree :
    strip " acme" ≠ "" ∧ strip "acme" ≠ "" ∧ TellsApart demoDigest " acme" "acme" ∧
      workspaceForTenant demoDigest " acme" = workspaceForTenant demoDigest "acme" ∧
      ¬ SameWikiTenant " acme" "acme" ∧ ¬ TenantsAgree demoDigest " acme" "acme" := by
  have hstrip : strip " acme" = strip "acme" := by rw [strip_acme, strip_space_acme]
  have hworkspace : workspaceForTenant demoDigest " acme" = workspaceForTenant demoDigest "acme" :=
    by rw [workspaceForTenant, workspaceForTenant, hstrip]
  have hwiki : ¬ SameWikiTenant " acme" "acme" := by rw [sameWikiTenant_iff]; decide
  have hne : strip "acme" ≠ "" := by rw [strip_acme]; decide
  exact ⟨hstrip ▸ hne, hne, ⟨length_demoDigest, fun _ ↦ hstrip⟩, hworkspace, hwiki,
    fun hagree ↦ hwiki (hagree.wiki.mp hworkspace)⟩

end KnowledgeAlakazam
