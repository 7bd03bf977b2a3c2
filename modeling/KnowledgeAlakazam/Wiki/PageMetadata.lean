import KnowledgeAlakazam.Wiki.CompileJobs
import KnowledgeAlakazam.Wiki.SlugStability

/-!
# What an update makes of a page

An update of a page that exists should keep what the caller did not supply. There are two callers
that supply neither the type nor the status of the page: a compile, and a `POST /wiki/pages`
without these fields. Both end in `create_or_update_page`, where a status of `None` means that the
status is kept. A page type always replaces the old one, and there are defaults on the way: the
service's own for the page type, and those of the request schema for both.

What an update touches is stated once (`OnlyPage`): one page, one new revision, the links of the
page, and new claims with their sources. `keepsMetadata_iff` then says exactly when an update keeps
type and status: the page has the values that the defaults on its way have. The failing calls are
`compile_resets_page_type` and `post_unpublishes_page`.
-/

namespace KnowledgeAlakazam

open Program WikiRepository WikiService

/-! ## The request -/

/-- An error that FastAPI reports of a field of a request; the only constraints are lengths. -/
structure FieldError where
  type : String
  loc : List String
  msg : String
  input : String
  minLength : ℕ
deriving DecidableEq

/-- The fields that are given and shorter than their `min_length`, in the order of the schema. -/
def tooShort (location : String) (fields : List (String × Option String)) : List FieldError :=
  (fields.filter fun field ↦ field.2 = some "").map fun field ↦
    { type := "string_too_short"
      loc := [location, field.1]
      msg := "String should have at least 1 character"
      input := ""
      minLength := 1 }

/-- What a schema makes of a request: the payload, or everything that is wrong with its fields. -/
def checkedFields {α : Type} (location : String) (fields : List (String × Option String))
    (payload : α) : Except (List FieldError) α :=
  if tooShort location fields = [] then .ok payload else .error (tooShort location fields)

theorem checkedFields_ok {α : Type} {location : String}
    {fields : List (String × Option String)} {payload a : α}
    (h : checkedFields location fields payload = .ok a) : payload = a := by
  unfold checkedFields at h
  split at h
  · exact Except.ok.inj h
  · cases h

/-- The body of `POST /wiki/pages`; a field that has a default may be absent. -/
structure WikiPageCreateBody where
  tenantId : String
  title : String
  slug : Option String := none
  content : Option (List Char) := none
  contentFormat : Option String := none
  contentJson : Option PyValue := none
  summary : Option (List Char) := none
  pageType : Option String := none
  status : Option String := none
  authorType : Option String := none

/-- `WikiPageCreateRequest`. -/
structure WikiPageCreateRequest where
  tenantId : String
  title : String
  slug : Option String
  content : List Char
  contentFormat : String
  contentJson : Option PyValue
  summary : Option (List Char)
  pageType : String
  status : String
  authorType : String

/-- The defaults of the schema, and its `min_length` checks. -/
def WikiPageCreateBody.payload (body : WikiPageCreateBody) :
    Except (List FieldError) WikiPageCreateRequest :=
  checkedFields "body"
    [("tenant_id", some body.tenantId), ("title", some body.title), ("slug", body.slug)]
    { tenantId := body.tenantId
      title := body.title
      slug := body.slug
      content := body.content.getD []
      contentFormat := body.contentFormat.getD "markdown"
      contentJson := body.contentJson
      summary := body.summary
      pageType := body.pageType.getD "concept"
      status := body.status.getD "draft"
      authorType := body.authorType.getD "agent" }

theorem WikiPageCreateBody.payload_ok {body : WikiPageCreateBody} {payload : WikiPageCreateRequest}
    (h : body.payload = .ok payload) :
    payload.tenantId = body.tenantId ∧ payload.title = body.title ∧ payload.slug = body.slug ∧
      payload.pageType = body.pageType.getD "concept" ∧
      payload.status = body.status.getD "draft" := by
  obtain rfl := checkedFields_ok h
  exact ⟨rfl, rfl, rfl, rfl, rfl⟩

/-- What `create_page` hands to the service. -/
def WikiPageCreateRequest.update (payload : WikiPageCreateRequest) : PageUpdate where
  tenantId := payload.tenantId
  title := payload.title
  slug := payload.slug
  pageType := payload.pageType
  status := some payload.status
  content :=
    { content := payload.content
      contentFormat := payload.contentFormat
      contentJson := payload.contentJson
      summary := payload.summary
      authorType := payload.authorType }

section Definitions

variable (unicode : UnicodeData)

/-- `create_page`, the handler of `POST /wiki/pages`, as far as `_page_response`: the response is
made after the commit. -/
def createPageRoute (payload : WikiPageCreateRequest) : WikiProgram WikiPageDetail :=
  Program.except (createOrUpdatePage unicode payload.update) fun e ↦
    if e.className = "ValueError" then raise ⟨"HTTPException", "400: " ++ e.text⟩ else raise e

/-! ## Updates -/

/-- An update of a page by a caller that supplies neither its type nor its status. -/
inductive PlainUpdate where
  | compile (call : CompileCall) (answer : RAGQueryResult)
  | post (body : WikiPageCreateBody) (omitted : body.pageType = none ∧ body.status = none)
    (payload : WikiPageCreateRequest) (accepted : body.payload = .ok payload)

namespace PlainUpdate

def program : PlainUpdate → WikiProgram Unit
  | compile call answer => (fun _ ↦ ()) <$> call.program unicode (.ok answer)
  | post _ _ payload _ => (fun _ ↦ ()) <$> createPageRoute unicode payload

/-- The tenant and the slug of the page it is an update of. -/
def target : PlainUpdate → Except PyException (String × String)
  | compile call _ => do
    let request ← call.request unicode
    let slug ← resolveTargetSlug unicode (some request.slug) request.slug
    let resolved ← requireSlug unicode slug
    return (request.tenantId, resolved)
  | post body _ _ _ => do
    let resolved ← requireSlug unicode (orElse body.slug body.title)
    return (body.tenantId, resolved)

end PlainUpdate

end Definitions

/-- Only one page has changed: it has a new row, one revision more, other links, and claims more
with sources. -/
structure OnlyPage (W W' : WikiStore) (page page' : WikiPage) (claims : List WikiClaim)
    (sources : List WikiClaimSource) : Prop where
  pages : W'.pages.rows = W.pages.rows.map fun row ↦ if row.id = page.id then page' else row
  revision : ∃ revision, W'.revisions.rows = W.revisions.rows ++ [revision] ∧
    revision.pageId = page.id ∧ page'.currentRevisionId = some revision.id
  links : W'.links.rows.filter (fun link ↦ link.fromPageId ≠ page.id)
    = W.links.rows.filter fun link ↦ link.fromPageId ≠ page.id
  claims_rows : W'.claims.rows = W.claims.rows ++ claims
  claims_of : ∀ claim ∈ claims, claim.pageId = page.id
  sources_rows : W'.claimSources.rows = W.claimSources.rows ++ sources
  sources_of : ∀ source ∈ sources, ∃ claim ∈ claims, source.claimId = claim.id

/-- The update has touched the page only, and kept what was not supplied. A compile also keeps the
title, and adds its job; a request sets the title, and adds no claims. -/
def KeepsMetadata (update : PlainUpdate) (W W' : WikiStore) (page : WikiPage) : Prop :=
  ∃ page' claims sources, OnlyPage W W' page page' claims sources ∧
    page'.id = page.id ∧ page'.tenantId = page.tenantId ∧ page'.slug = page.slug ∧
    page'.pageType = page.pageType ∧ page'.status = page.status ∧
    match update with
    | .compile _ _ => page'.title = page.title ∧ ∃ jobId, W.compileJobs.find jobId = none ∧
        ∀ i, i ≠ jobId → W'.compileJobs.find i = W.compileJobs.find i
    | .post body _ _ _ => page'.title = body.title ∧ claims = [] ∧ sources = [] ∧
        W'.compileJobs = W.compileJobs

/-- The page has the values of the defaults that the update meets on its way. -/
def HasDefaults (update : PlainUpdate) (page : WikiPage) : Prop :=
  page.pageType = "concept" ∧ match update with
    | .compile _ _ => True
    | .post _ _ _ _ => page.status = "draft"

/-! ## What the writers touch -/

section Frame

variable {unicode : UnicodeData} {W W₁ W' : WikiStore} {page page' : WikiPage}
  {claims claims' : List WikiClaim} {sources sources' : List WikiClaimSource}

/-- Claims of the page were added, with their sources. -/
structure ClaimsAdded (W W' : WikiStore) (pageId : ℕ) (claims : List WikiClaim)
    (sources : List WikiClaimSource) : Prop where
  store : W' = { W with claims := W'.claims, claimSources := W'.claimSources }
  claims_rows : W'.claims.rows = W.claims.rows ++ claims
  claims_of : ∀ claim ∈ claims, claim.pageId = pageId
  sources_rows : W'.claimSources.rows = W.claimSources.rows ++ sources
  sources_of : ∀ source ∈ sources, ∃ claim ∈ claims, source.claimId = claim.id

theorem ClaimsAdded.refl (W : WikiStore) (pageId : ℕ) : ClaimsAdded W W pageId [] [] :=
  ⟨rfl, (List.append_nil _).symm, fun _ h ↦ absurd h List.not_mem_nil,
    (List.append_nil _).symm, fun _ h ↦ absurd h List.not_mem_nil⟩

private theorem claimOf_append (h : ∀ source ∈ sources, ∃ claim ∈ claims, source.claimId = claim.id)
    (h' : ∀ source ∈ sources', ∃ claim ∈ claims', source.claimId = claim.id) :
    ∀ source ∈ sources ++ sources', ∃ claim ∈ claims ++ claims', source.claimId = claim.id := by
  intro source hsource
  rcases List.mem_append.mp hsource with hsource | hsource
  · obtain ⟨claim, hclaim, heq⟩ := h source hsource
    exact ⟨claim, List.mem_append_left _ hclaim, heq⟩
  · obtain ⟨claim, hclaim, heq⟩ := h' source hsource
    exact ⟨claim, List.mem_append_right _ hclaim, heq⟩

theorem ClaimsAdded.trans {pageId : ℕ} (h : ClaimsAdded W W₁ pageId claims sources)
    (h' : ClaimsAdded W₁ W' pageId claims' sources') :
    ClaimsAdded W W' pageId (claims ++ claims') (sources ++ sources') where
  store := by rw [h'.store, h.store]
  claims_rows := by rw [h'.claims_rows, h.claims_rows, List.append_assoc]
  claims_of := List.forall_mem_append.mpr ⟨h.claims_of, h'.claims_of⟩
  sources_rows := by rw [h'.sources_rows, h.sources_rows, List.append_assoc]
  sources_of := claimOf_append h.sources_of h'.sources_of

theorem OnlyPage.addClaims (h : OnlyPage W W₁ page page' claims sources)
    (h' : ClaimsAdded W₁ W' page.id claims' sources') :
    OnlyPage W W' page page' (claims ++ claims') (sources ++ sources') where
  pages := by rw [h'.store, h.pages]
  revision := by
    rw [h'.store]
    exact h.revision
  links := by rw [h'.store, h.links]
  claims_rows := by rw [h'.claims_rows, h.claims_rows, List.append_assoc]
  claims_of := List.forall_mem_append.mpr ⟨h.claims_of, h'.claims_of⟩
  sources_rows := by rw [h'.sources_rows, h.sources_rows, List.append_assoc]
  sources_of := claimOf_append h.sources_of h'.sources_of

private theorem modify_modify_rows (hpage : page ∈ W.pages.rows) (p q : Patch WikiPage) :
    ((W.pages.modify page.id p).modify page.id q).rows
      = W.pages.rows.map fun row ↦ if row.id = page.id then q.app (p.app page) else row := by
  rw [Table.rows_modify, Table.rows_modify, List.map_map]
  refine List.map_congr_left fun row hrow ↦ ?_
  rw [Function.comp_apply]
  by_cases hid : row.id = page.id
  · obtain rfl := Table.eq_of_primary hrow hpage hid
    rw [if_pos (show Row.primary row = row.id from rfl),
      if_pos (show Row.primary (p.app row) = row.id from p.primary_app row), if_pos rfl]
  · have hid' : ¬Row.primary row = page.id := hid
    rw [if_neg hid', if_neg hid', if_neg hid]

private theorem links_of_others {tenantId : String} {pageId : ℕ} {toSlugs : List String}
    (h : LinksReplaced W W' tenantId pageId toSlugs) :
    W'.links.rows.filter (fun link ↦ link.fromPageId ≠ pageId)
      = W.links.rows.filter fun link ↦ link.fromPageId ≠ pageId := by
  obtain ⟨new, hrows, -, hnew⟩ := h.links
  have hnone : new.filter (fun link ↦ link.fromPageId ≠ pageId) = [] := by
    refine List.filter_eq_nil_iff.mpr fun link hlink ↦ ?_
    simp [(hnew link hlink).2]
  rw [hrows, List.filter_append, hnone, List.append_nil, WikiStore.dropLinks, Table.rows_keep,
    List.filter_filter]
  refine List.filter_congr fun link _ ↦ ?_
  by_cases hid : link.fromPageId = pageId <;> simp [hid]

/-- `create_or_update_page` on a page that exists. -/
theorem onlyPage_of_written {update : PageUpdate} {slug : String} {page₁ : WikiPage}
    {detail : WikiPageDetail} (hpage : W.pageBySlug update.tenantId slug = some page)
    (hprep : PagePrepared W update slug page₁ W₁)
    (hwritten : Written unicode W₁ W' update.tenantId page₁ update.content detail) :
    OnlyPage W W' page detail.page [] [] ∧ W'.compileJobs = W.compileJobs ∧
      ∃ revision, detail = ⟨(setCurrentPatch revision.id).app
        ((retitlePatch update.title update.pageType update.status).app page), some revision⟩ := by
  cases hprep with
  | created hnone => rw [hpage] at hnone; cases hnone
  | found h =>
    obtain rfl := Option.some.inj (hpage.symm.trans h)
    obtain ⟨revision, rfl, W₂, hadded, hlinks⟩ := hwritten.detail
    obtain ⟨⟨id, hrow⟩, -, revisions, hins, rfl⟩ := hadded
    refine ⟨⟨?_, ⟨revision, ?_, ?_, rfl⟩, ?_, ?_, ?_, ?_, ?_⟩, ?_, revision, rfl⟩
    · rw [hlinks.store]
      exact modify_modify_rows (Table.mem_of_lookup hpage) _ _
    · rw [hlinks.store]
      exact Table.rows_insert hins
    · rw [hrow]
      rfl
    · have hothers := links_of_others hlinks
      exact hothers
    · rw [hlinks.store, List.append_nil]
    · exact fun _ h ↦ absurd h List.not_mem_nil
    · rw [hlinks.store, List.append_nil]
    · exact fun _ h ↦ absurd h List.not_mem_nil
    · rw [hlinks.store]

theorem outTx_addClaimWithSources_rows (unicode : UnicodeData) (W : WikiStore)
    {tenantId slug resolved : String} {page : WikiPage}
    (hslug : requireSlug unicode slug = .ok resolved)
    (hpage : W.pageBySlug tenantId resolved = some page) (claimText : List Char)
    (inputs : List ClaimSourceInput) (supportStatus : String) (confidence : Option ℤ) :
    OutTx (addClaimWithSources unicode tenantId slug claimText inputs supportStatus confidence) W
      (fun _ W' ↦ ∃ claims sources, ClaimsAdded W W' page.id claims sources)
      fun _ W' ↦ W = W' := by
  refine (OutTx.ofExcept (Q := fun resolved' W' ↦ resolved' = resolved ∧ W = W')
    (fun _ h ↦ ⟨Except.ok.inj (h.symm.trans hslug), rfl⟩) fun _ _ ↦ rfl).bind ?_
  rintro _ _ ⟨rfl, rfl⟩
  refine OutTx.transaction ?_ fun _ ↦ rfl
  refine (inTx_requirePage W tenantId _).bind ?_
  rintro page' _ ⟨hpage', rfl⟩
  obtain rfl := Option.some.inj (hpage'.symm.trans hpage)
  refine (InTx.query (R := fun _ W' ↦ W = W') rfl).bind ?_
  rintro found _ rfl
  cases found with
  | none => exact InTx.raise _
  | some revision =>
    refine InTx.bind (inTx_createClaim W tenantId page'.id revision.id claimText supportStatus
      confidence) ?_
    rintro claim W₁ ⟨⟨-, hclaimPage, -⟩, hins, hstore⟩
    have hclaims := Table.rows_insert hins
    have hcreated : ClaimsAdded W W₁ page'.id [claim] [] := by
      refine ⟨?_, hclaims, fun c hc ↦ ?_, ?_, fun _ h ↦ absurd h List.not_mem_nil⟩
      · rw [hstore]
      · rw [List.mem_singleton.mp hc, hclaimPage]
      · rw [hstore, List.append_nil]
    -- Each pass adds one source, and what was there before it stays.
    have hloop : InTx (inputs.mapM' (attachClaimSource claim.id)) W₁ fun _ W' ↦
        ∃ sources, ClaimsAdded W W' page'.id [claim] sources := by
      refine InTx.mapM' (I := fun _ _ W' ↦ ∃ sources, ClaimsAdded W W' page'.id [claim] sources)
        (fun input _ _ W₂ h ↦ ?_) ⟨[], hcreated⟩
      obtain ⟨sources, hadded⟩ := h
      refine (inTx_attachClaimSource W₂ claim.id input).mono ?_
      rintro source W' ⟨hof, hsource, hstore'⟩
      have hrows := Table.rows_insert hsource
      refine ⟨sources ++ [source], ?_, ?_, hadded.claims_of, ?_, fun other hother ↦ ?_⟩
      · rw [hstore', hadded.store]
      · rw [hstore', hadded.claims_rows]
      · rw [hrows, hadded.sources_rows, List.append_assoc]
      · rcases List.mem_append.mp hother with hother | hother
        · exact hadded.sources_of other hother
        · obtain rfl := List.mem_singleton.mp hother
          exact ⟨claim, List.mem_singleton_self _, hof⟩
    refine hloop.bind fun attached W' h ↦ ?_
    obtain ⟨sources, hadded⟩ := h
    exact InTx.pure ⟨[claim], sources, hadded⟩

theorem OnlyPage.pageBySlug {tenantId slug : String}
    (h : OnlyPage W W' page page' claims sources) (hpage : W.pageBySlug tenantId slug = some page)
    (htenant : page'.tenantId = page.tenantId) (hslug : page'.slug = page.slug) :
    W'.pageBySlug tenantId slug = some page' := by
  have hkeys := Table.unique_of_lookup hpage
  refine Table.lookup_eq_some.mpr ⟨?_, ?_⟩
  · rw [h.pages]
    exact List.mem_map.mpr ⟨page, Table.mem_of_lookup hpage, if_pos rfl⟩
  · change (page'.tenantId, page'.slug) = (tenantId, slug)
    rw [htenant, hslug]
    exact hkeys

theorem OnlyPage.find (h : OnlyPage W W' page page' claims sources) (hpage : page ∈ W.pages.rows)
    (hid : page'.id = page.id) : W'.pages.find page.id = some page' := by
  refine Table.find_eq_some.mpr ⟨?_, hid⟩
  rw [h.pages]
  exact List.mem_map.mpr ⟨page, hpage, if_pos rfl⟩

theorem OnlyPage.row_eq {page'' : WikiPage} {claims' : List WikiClaim}
    {sources' : List WikiClaimSource} (hpage : page ∈ W.pages.rows)
    (h : OnlyPage W W' page page' claims sources)
    (h' : OnlyPage W W' page page'' claims' sources') : page' = page'' := by
  have hrows := List.map_inj_left.mp (h.pages.symm.trans h'.pages) page hpage
  rwa [if_pos rfl, if_pos rfl] at hrows

end Frame

/-! ## Compiles -/

namespace WikiCompiler

variable {unicode : UnicodeData} {W : WikiStore} {page : WikiPage} {tenantId resolved : String}

/-- The jobs but for one are the same, and so is everything else. -/
structure OnlyJob (W W' : WikiStore) (jobId : ℕ) : Prop where
  content : SameContent W W'
  jobs : ∀ i, i ≠ jobId → W'.compileJobs.find i = W.compileJobs.find i

theorem OnlyJob.trans {W₁ W' : WikiStore} {jobId : ℕ} (h : OnlyJob W W₁ jobId)
    (h' : OnlyJob W₁ W' jobId) : OnlyJob W W' jobId :=
  ⟨h.content.trans h'.content, fun i hi ↦ (h'.jobs i hi).trans (h.jobs i hi)⟩

theorem outTx_updateCompileJobStatus_only (W : WikiStore) (jobId : ℕ) (status : String)
    (error : Option String) :
    OutTx (transaction (updateCompileJobStatus jobId status error)) W
      (fun job W' ↦ job.id = jobId ∧ OnlyJob W W' jobId) fun _ W' ↦ W = W' := by
  refine OutTx.transaction (InTx.statement fun job W' h ↦ ?_) fun _ ↦ rfl
  split at h
  · rename_i row hfind
    obtain ⟨rfl, rfl⟩ := Prod.mk.inj (Except.ok.inj h)
    exact ⟨Table.primary_of_find hfind, SameContent.setJobs W _,
      fun i hi ↦ Table.find_modify_of_ne hi _⟩
  · cases h

theorem outTx_startJob_only (W : WikiStore) (request : CompileRequest) :
    OutTx (startJob request) W
      (fun job W' ↦ W.compileJobs.find job.id = none ∧ OnlyJob W W' job.id) fun _ _ ↦ True := by
  have hcreate : InTx (createCompileJob request.tenantId request.jobSourceId (some request.slug)) W
      fun job W' ↦ W.compileJobs.find job.id = none ∧ OnlyJob W W' job.id := by
    refine (InTx.freshId (T := fun _ W' ↦ W = W') fun _ ↦ rfl).bind ?_
    rintro id _ rfl
    refine InTx.statement fun job W' h ↦ ?_
    split at h
    · rename_i jobs hins
      obtain ⟨rfl, rfl⟩ := Prod.mk.inj (Except.ok.inj h)
      refine ⟨Table.find_none_of_insert hins, SameContent.setJobs W _, fun i hi ↦ ?_⟩
      rw [Table.find_insert hins]
      exact if_neg (Ne.symm hi)
    · cases h
  refine (OutTx.transaction hcreate fun _ ↦ trivial).bind fun job W₁ h ↦ ?_
  refine (outTx_updateCompileJobStatus_only W₁ job.id "processing" none).mono ?_
    fun _ _ _ ↦ trivial
  rintro job' W' ⟨hid, honly⟩
  rw [hid]
  exact ⟨h.1, h.2.trans honly⟩

theorem raisesOnly_startJob (request : CompileRequest) :
    RaisesOnly (fun _ ↦ True) (startJob request) := by
  refine (RaisesOnly.transaction ?_).bind fun job ↦ RaisesOnly.transaction ?_
  · exact RaisesOnly.freshId.bind fun id ↦ RaisesOnly.statement fun _ _ _ ↦ trivial
  · unfold markCompileJobProcessing updateCompileJobStatus
    exact RaisesOnly.statement fun _ _ _ ↦ trivial

theorem resolvePageTitle_of_found {slug : String} {s : Session WikiStore PyException}
    (hs : s.Idle W) (houtcomes : s.outcomes = []) (hslug : requireSlug unicode slug = .ok resolved)
    (hpage : W.pageBySlug tenantId resolved = some page) (fallbackTitle : Option String) :
    ∃ s', resolvePageTitle unicode tenantId slug fallbackTitle s = (.ok page.title, s') ∧
      s'.Idle W := by
  rcases hget : getPage unicode tenantId slug s with ⟨e | detail, s'⟩
  · have hfound := getPage_of_requireSlug hpage hslug hs houtcomes
    rw [hget] at hfound
    cases hfound
  · have hfound := getPage_of_requireSlug hpage hslug hs houtcomes
    rw [hget] at hfound
    obtain rfl := Except.ok.inj hfound
    obtain ⟨_, hidle, rfl⟩ := (outTx_getPage unicode W tenantId slug).ok hs hget
    exact ⟨s', except_ok (bind_ok hget), hidle⟩

theorem writePage_of_found {slug address : String} {evidence : CompilerEvidence}
    {title : Option String} {written : PageWritten} {s s' : Session WikiStore PyException}
    (hs : s.Idle W) (houtcomes : s.outcomes = [])
    (haddress : resolveTargetSlug unicode (some slug) slug = .ok address)
    (hslug : requireSlug unicode address = .ok resolved)
    (hpage : W.pageBySlug tenantId resolved = some page)
    (hrun : writePage unicode tenantId slug evidence title s = (.ok written, s')) :
    ∃ W', s'.Idle W' ∧ OnlyPage W W' page written.detail.page [] [] ∧
      W'.compileJobs = W.compileJobs ∧ written.slug = address ∧
      ∃ revision : WikiRevision, written.detail.page = (setCurrentPatch revision.id).app
        ((retitlePatch page.title "concept" none).app page) := by
  obtain ⟨s₁, htitle, hs₁⟩ := resolvePageTitle_of_found hs houtcomes hslug hpage title
  have haddress' : (ofExcept (resolveTargetSlug unicode (some slug) slug) : WikiProgram String) s
      = (.ok address, s) := by
    rw [haddress]
    rfl
  rw [writePage_eq, bind_ok haddress', bind_ok htitle] at hrun
  have hne : address ≠ "" := by
    rintro rfl
    have hempty := haddress
    unfold resolveTargetSlug at hempty
    dsimp only at hempty
    split at hempty
    · cases hempty
    · rename_i hne
      exact hne (Except.ok.inj hempty)
  rcases hcreate : createOrUpdatePage unicode (pageUpdate unicode tenantId page.title address
    evidence) s₁ with ⟨e | detail, s₂⟩
  · rw [bind_error hcreate] at hrun
    cases hrun
  rw [bind_ok hcreate] at hrun
  obtain ⟨W', hidle, resolved', page₁, W₁, hresolved, hprep, hwritten⟩ :=
    (outTx_createOrUpdatePage unicode W _).ok hs₁ hcreate
  -- the title and the update are of the same page
  obtain rfl : resolved' = resolved := by
    have hor : orElse (pageUpdate unicode tenantId page.title address evidence).slug
        (pageUpdate unicode tenantId page.title address evidence).title = address := if_neg hne
    rw [hor, hslug] at hresolved
    exact (Except.ok.inj hresolved).symm
  obtain ⟨honly, hjobs, revision, rfl⟩ := onlyPage_of_written hpage hprep hwritten
  obtain ⟨hwritten, rfl⟩ := Prod.mk.inj hrun
  obtain rfl := Except.ok.inj hwritten
  exact ⟨W', hidle, honly, hjobs, rfl, revision, rfl⟩

/-- The rest of the `try` block: claims of the page, and the end of the job. -/
theorem outTx_finishPage_rows (W : WikiStore) (request : CompileRequest) (job : WikiCompileJob)
    (written : PageWritten) (hslug : requireSlug unicode written.slug = .ok resolved)
    (hpage : W.pageBySlug request.tenantId resolved = some page) :
    OutTx (finishPage unicode request job written) W
      (fun _ W' ↦ ∃ W₁ claims sources, ClaimsAdded W W₁ page.id claims sources ∧
        OnlyJob W₁ W' job.id) fun _ _ ↦ True := by
  have hclaims : OutTx (written.claims.mapM' (addClaim unicode request.tenantId written)) W
      (fun _ W' ↦ ∃ claims sources, ClaimsAdded W W' page.id claims sources) fun _ _ ↦ True := by
    refine OutTx.mapM' (I := fun _ _ W' ↦ ∃ claims sources, ClaimsAdded W W' page.id claims sources)
      (fun claimText _ _ W₁ h ↦ ?_) ⟨[], [], .refl W page.id⟩
    obtain ⟨claims, sources, hadded⟩ := h
    have hpage₁ : W₁.pageBySlug request.tenantId resolved = some page := by
      rw [hadded.store]
      exact hpage
    refine (outTx_addClaimWithSources_rows unicode W₁ hslug hpage₁ claimText written.sources _
      _).mono ?_ fun _ _ _ ↦ trivial
    rintro _ W' ⟨claims', sources', hadded'⟩
    exact ⟨_, _, hadded.trans hadded'⟩
  refine hclaims.bind fun _ W₁ h ↦ ?_
  obtain ⟨claims, sources, hadded⟩ := h
  refine ((outTx_updateCompileJobStatus_only W₁ job.id "succeeded" none).mono (fun _ _ h ↦ h)
    fun _ _ _ ↦ trivial).bind fun _ W' hjob ↦ ?_
  exact OutTx.pure ⟨W₁, claims, sources, hadded, hjob.2⟩

end WikiCompiler

section Content

variable {W W₁ W' : WikiStore} {page page' : WikiPage} {claims : List WikiClaim}
  {sources : List WikiClaimSource}

theorem OnlyPage.of_content (hbefore : SameContent W W₁)
    (h : OnlyPage W₁ W' page page' claims sources) : OnlyPage W W' page page' claims sources := by
  rw [hbefore] at h
  exact ⟨h.pages, h.revision, h.links, h.claims_rows, h.claims_of, h.sources_rows, h.sources_of⟩

theorem OnlyPage.content (h : OnlyPage W W₁ page page' claims sources)
    (hafter : SameContent W₁ W') : OnlyPage W W' page page' claims sources := by
  rw [hafter]
  exact ⟨h.pages, h.revision, h.links, h.claims_rows, h.claims_of, h.sources_rows, h.sources_of⟩

end Content

/-! ## The law -/

section Law

open WikiCompiler

variable {unicode : UnicodeData} {W : WikiStore} {page : WikiPage} {nextId : ℕ}
  {s : Session WikiStore PyException}

theorem target_compile {call : CompileCall} {answer : RAGQueryResult} {tenantId resolved : String}
    (h : (PlainUpdate.compile call answer).target unicode = .ok (tenantId, resolved)) :
    ∃ request address, call.request unicode = .ok request ∧ request.tenantId = tenantId ∧
      resolveTargetSlug unicode (some request.slug) request.slug = .ok address ∧
      requireSlug unicode address = .ok resolved := by
  obtain ⟨request, hrequest, h⟩ := exists_of_bind_eq_ok h
  obtain ⟨address, haddress, h⟩ := exists_of_bind_eq_ok h
  obtain ⟨slug, hslug, h⟩ := exists_of_bind_eq_ok h
  obtain ⟨rfl, rfl⟩ := Prod.mk.inj (Except.ok.inj h)
  exact ⟨request, address, hrequest, rfl, haddress, hslug⟩

/-- What a compile makes of a page that exists. -/
theorem compile_onlyPage {call : CompileCall} {answer : RAGQueryResult}
    {result : WikiCompileResult} (hpage : page ∈ W.pages.rows)
    (htarget : (PlainUpdate.compile call answer).target unicode = .ok (page.tenantId, page.slug))
    (hrun : call.program unicode (.ok answer) (Session.start W nextId []) = (.ok result, s)) :
    ∃ page' claims sources jobId, OnlyPage W s.committed page page' claims sources ∧
      (∃ revisionId, page' = { page with
        pageType := "concept"
        currentRevisionId := some revisionId }) ∧
      W.compileJobs.find jobId = none ∧
      ∀ i, i ≠ jobId → s.committed.compileJobs.find i = W.compileJobs.find i := by
  have hpage' : W.pageBySlug page.tenantId page.slug = some page :=
    Table.lookup_eq_some.mpr ⟨hpage, rfl⟩
  obtain ⟨request, address, hrequest, htenant, haddress, hslug⟩ := target_compile htarget
  rw [← htenant] at hpage'
  -- the job is started
  have hrequest' : (ofExcept (call.request unicode) : WikiProgram CompileRequest)
      (Session.start W nextId []) = (.ok request, Session.start W nextId []) := by
    rw [hrequest]
    rfl
  rw [CompileCall.program_eq, bind_ok hrequest'] at hrun
  rcases hstart : startJob request (Session.start W nextId []) with ⟨e | job, s₁⟩
  · rw [compile_of_not_started hstart] at hrun
    cases hrun
  rw [compile_of_started hstart] at hrun
  obtain ⟨W₁, hidle₁, hnew, hjob₁⟩ := (outTx_startJob_only W request).ok
    (Session.idle_start W nextId []) hstart
  have houtcomes₁ : s₁.outcomes = [] := (raisesOnly_startJob request).outcomes_ok rfl hstart
  -- the `try` block returns
  rcases hfill : fillPage unicode request (.ok answer) job s₁ with ⟨e | result', s₂⟩
  · rw [except_error hfill] at hrun
    obtain ⟨S₂, hidle₂, -⟩ :=
      (outTx_fillPage W₁ unicode request (.ok answer) job).error hidle₁ hfill
    exact ((outTx_recordFailure S₂ s₁.rollbacks job e).ok hidle₂ hrun).elim fun _ h ↦ h.2.elim
  rw [except_ok hfill] at hrun
  obtain ⟨hresult, rfl⟩ := Prod.mk.inj hrun
  obtain rfl := Except.ok.inj hresult
  rw [fillPage_eq, fillUpToPage, bind_assoc] at hfill
  rcases hsearch : searchEvidence unicode request (.ok answer) s₁ with ⟨e | evidence, s₃⟩
  · rw [bind_error hsearch] at hfill
    cases hfill
  rw [bind_ok hsearch] at hfill
  obtain ⟨_, hidle₃, rfl⟩ :=
    (outTx_searchEvidence unicode W₁ request (.ok answer)).ok hidle₁ hsearch
  have houtcomes₃ : s₃.outcomes = [] :=
    ((RaisesOnly.ofExcept fun _ _ ↦ trivial).bind fun _ ↦ RaisesOnly.ofExcept (E := fun _ ↦ True)
      fun _ _ ↦ trivial).outcomes_ok houtcomes₁ hsearch
  -- the page is written, and then its claims
  rcases hwrite : writePage unicode request.tenantId request.slug evidence (some request.title) s₃
    with ⟨e | written, s₄⟩
  · rw [bind_error hwrite] at hfill
    cases hfill
  rw [bind_ok hwrite] at hfill
  have hpage₁ : W₁.pageBySlug request.tenantId page.slug = some page := by
    rw [hjob₁.content]
    exact hpage'
  obtain ⟨W₂, hidle₄, honly, hjobs₂, haddressed, revision, hrow⟩ :=
    writePage_of_found hidle₃ houtcomes₃ haddress hslug hpage₁ hwrite
  have hpage₂ : W₂.pageBySlug request.tenantId page.slug = some written.detail.page :=
    honly.pageBySlug hpage₁ (by rw [hrow]; rfl) (by rw [hrow]; rfl)
  obtain ⟨W₄, hidle, W₃, claims, sources, hadded, hjob₄⟩ :=
    (outTx_finishPage_rows W₂ request job written (haddressed ▸ hslug) hpage₂).ok hidle₄ hfill
  have hid : written.detail.page.id = page.id := by
    rw [hrow]
    rfl
  rw [hid] at hadded
  refine ⟨written.detail.page, claims, sources, job.id, ?_, ⟨revision.id, hrow⟩, hnew,
    fun i hi ↦ ?_⟩
  · rw [hidle.committed]
    exact ((honly.of_content hjob₁.content).addClaims hadded).content hjob₄.content
  · have hjobs₃ : W₃.compileJobs = W₂.compileJobs := by rw [hadded.store]
    rw [hidle.committed, hjob₄.jobs i hi, hjobs₃, hjobs₂, hjob₁.jobs i hi]

/-- What a request without type and status makes of a page that exists. -/
theorem post_onlyPage {body : WikiPageCreateBody} {payload : WikiPageCreateRequest}
    (omitted : body.pageType = none ∧ body.status = none) (accepted : body.payload = .ok payload)
    {detail : WikiPageDetail} (hpage : page ∈ W.pages.rows)
    (htarget : (PlainUpdate.post body omitted payload accepted).target unicode =
      .ok (page.tenantId, page.slug))
    (hrun : createPageRoute unicode payload (Session.start W nextId []) = (.ok detail, s)) :
    ∃ page', OnlyPage W s.committed page page' [] [] ∧
      (∃ revisionId, page' = { page with
        title := body.title
        pageType := "concept"
        status := "draft"
        currentRevisionId := some revisionId }) ∧
      s.committed.compileJobs = W.compileJobs := by
  unfold PlainUpdate.target at htarget
  dsimp only at htarget
  rcases hslug : requireSlug unicode (orElse body.slug body.title) with e | resolved
  · rw [hslug] at htarget
    cases htarget
  rw [hslug] at htarget
  obtain ⟨htenant, rfl⟩ := Prod.mk.inj (Except.ok.inj htarget)
  unfold createPageRoute at hrun
  obtain ⟨htenant', htitle, hslug', htype, hstatus⟩ := WikiPageCreateBody.payload_ok accepted
  rw [omitted.1] at htype
  rw [omitted.2] at hstatus
  rcases hwrite : createOrUpdatePage unicode payload.update (Session.start W nextId [])
    with ⟨e | detail', s'⟩
  · rw [except_error hwrite] at hrun
    split at hrun <;> cases hrun
  rw [except_ok hwrite] at hrun
  obtain ⟨hdetail, rfl⟩ := Prod.mk.inj hrun
  obtain ⟨W', hidle, resolved', page₁, W₁, hresolved, hprep, hwritten⟩ :=
    (outTx_createOrUpdatePage unicode W _).ok (Session.idle_start W nextId []) hwrite
  -- the target and the update resolve the same text
  obtain rfl : resolved' = page.slug := by
    have hor : orElse payload.update.slug payload.update.title = orElse body.slug body.title := by
      rw [← hslug', ← htitle]
      rfl
    rw [hor, hslug] at hresolved
    exact (Except.ok.inj hresolved).symm
  have hpage' : W.pageBySlug payload.update.tenantId page.slug = some page := by
    refine Table.lookup_eq_some.mpr ⟨hpage, ?_⟩
    change (page.tenantId, page.slug) = (payload.tenantId, page.slug)
    rw [htenant', htenant]
  obtain ⟨honly, hjobs, revision, rfl⟩ := onlyPage_of_written hpage' hprep hwritten
  refine ⟨_, hidle.committed ▸ honly, ⟨revision.id, ?_⟩, hidle.committed ▸ hjobs⟩
  change WikiPage.mk page.id page.tenantId page.slug payload.title payload.pageType payload.status
    (some revision.id) = _
  rw [htitle, htype, hstatus]
  rfl

/-- **Main result.** An update of a page by a caller that supplies neither type nor status has
touched the page only, and kept its type and status, if and only if these are the defaults that
the update meets on its way. -/
theorem keepsMetadata_iff (unicode : UnicodeData) (W : WikiStore) (nextId : ℕ)
    (update : PlainUpdate) {page : WikiPage} {s : Session WikiStore PyException}
    (hpage : page ∈ W.pages.rows)
    (htarget : update.target unicode = .ok (page.tenantId, page.slug))
    (hrun : update.program unicode (Session.start W nextId []) = (.ok (), s)) :
    KeepsMetadata update W s.committed page ↔ HasDefaults update page := by
  cases update with
  | compile call answer =>
    rcases hcall : call.program unicode (.ok answer) (Session.start W nextId [])
      with ⟨e | result, s'⟩
    · cases (bind_error hcall).symm.trans hrun
    obtain ⟨-, rfl⟩ := Prod.mk.inj ((bind_ok hcall).symm.trans hrun)
    obtain ⟨page', claims, sources, jobId, honly, ⟨revisionId, rfl⟩, hnew, hjobs⟩ :=
      compile_onlyPage hpage htarget hcall
    refine ⟨fun h ↦ ⟨?_, trivial⟩, fun h ↦ ?_⟩
    · obtain ⟨page'', _, _, honly', -, -, -, htype, -⟩ := h
      obtain rfl := honly.row_eq hpage honly'
      exact htype.symm
    · exact ⟨_, claims, sources, honly, rfl, rfl, rfl, h.1.symm, rfl, rfl, jobId, hnew, hjobs⟩
  | post body omitted payload accepted =>
    rcases hcall : createPageRoute unicode payload (Session.start W nextId []) with ⟨e | detail, s'⟩
    · cases (bind_error hcall).symm.trans hrun
    obtain ⟨-, rfl⟩ := Prod.mk.inj ((bind_ok hcall).symm.trans hrun)
    obtain ⟨page', honly, ⟨revisionId, rfl⟩, hjobs⟩ :=
      post_onlyPage omitted accepted hpage htarget hcall
    refine ⟨fun h ↦ ?_, fun h ↦ ?_⟩
    · obtain ⟨page'', _, _, honly', -, -, -, htype, hstatus, -⟩ := h
      obtain rfl := honly.row_eq hpage honly'
      exact ⟨htype.symm, hstatus.symm⟩
    · exact ⟨_, [], [], honly, rfl, rfl, rfl, h.1.symm, h.2.symm, rfl, rfl, rfl, hjobs⟩

end Law

theorem run_unit {x : WikiProgram Unit} {s : Session WikiStore PyException}
    (h : (x s).1.isOk = true) : x s = (.ok (), (x s).2) := by
  obtain ⟨⟨⟩, hrun⟩ := run_ok h
  exact hrun

def emptyPage (title pageType status : String) : WikiPageCreateRequest :=
  ⟨"acme", title, none, [], "markdown", none, none, pageType, status, "agent"⟩

/-- A page that a request without type and status created. -/
def draftConcept : Session WikiStore PyException :=
  (createPageRoute asciiData (emptyPage "d" "concept" "draft") (Session.start .empty 0 [])).2

def draftPage : WikiPage := ⟨0, "acme", "d", "d", "concept", "draft", some 1⟩

/-- A compile of a source to the page with the slug `d`. -/
def compileToD : PlainUpdate := .compile (.sourceToPages "acme" "s" (some "d")) ⟨"", .dict []⟩

/-- A compile keeps what such a page has. -/
theorem compile_keeps_draft_concept :
    KeepsMetadata compileToD draftConcept.committed
      (compileToD.program asciiData
        (Session.start draftConcept.committed draftConcept.nextId [])).2.committed draftPage := by
  have hpage : draftPage ∈ draftConcept.committed.pages.rows := by decide +kernel
  have htarget : compileToD.target asciiData = .ok (draftPage.tenantId, draftPage.slug) := by
    decide +kernel
  have hrun := run_unit (x := compileToD.program asciiData)
    (s := Session.start draftConcept.committed draftConcept.nextId []) (by decide +kernel)
  rw [keepsMetadata_iff asciiData _ _ _ hpage htarget hrun]
  exact ⟨rfl, trivial⟩

/-! ## The failing calls -/

/-- A published page of another type, as a request with both fields creates it. -/
def publishedGuide : Session WikiStore PyException :=
  (createPageRoute asciiData (emptyPage "d" "guide" "published") (Session.start .empty 0 [])).2

def guidePage : WikiPage := ⟨0, "acme", "d", "d", "guide", "published", some 1⟩

theorem not_keepsMetadata {update : PlainUpdate} {W W' : WikiStore} {page : WikiPage}
    (row : WikiPage) (hpage : page ∈ W.pages.rows) (hrow : W'.pages.find page.id = some row)
    (hne : (row.pageType, row.status) ≠ (page.pageType, page.status)) :
    ¬KeepsMetadata update W W' page := by
  rintro ⟨page', claims, sources, honly, hid, -, -, htype, hstatus, -⟩
  obtain rfl := Option.some.inj (hrow.symm.trans (honly.find hpage hid))
  exact hne (by rw [htype, hstatus])

/-- The page is not a guide any more. -/
theorem compile_resets_page_type :
    ∃ s, guidePage ∈ publishedGuide.committed.pages.rows ∧
      compileToD.target asciiData = .ok (guidePage.tenantId, guidePage.slug) ∧
      compileToD.program asciiData
        (Session.start publishedGuide.committed publishedGuide.nextId []) = (.ok (), s) ∧
      ¬KeepsMetadata compileToD publishedGuide.committed s.committed guidePage :=
  ⟨_, by decide +kernel, by decide +kernel, run_unit (by decide +kernel),
    not_keepsMetadata ⟨0, "acme", "d", "d", "concept", "published", some 3⟩
      (by decide +kernel) (by decide +kernel) (by decide +kernel)⟩

/-- A request for the page, with a new title and nothing else. -/
def retitleGuide : PlainUpdate :=
  .post { tenantId := "acme", title := "Guide", slug := some "d" } ⟨rfl, rfl⟩ _ rfl

/-- The page is neither a guide nor published any more. -/
theorem post_unpublishes_page :
    ∃ s, guidePage ∈ publishedGuide.committed.pages.rows ∧
      retitleGuide.target asciiData = .ok (guidePage.tenantId, guidePage.slug) ∧
      retitleGuide.program asciiData
        (Session.start publishedGuide.committed publishedGuide.nextId []) = (.ok (), s) ∧
      ¬KeepsMetadata retitleGuide publishedGuide.committed s.committed guidePage :=
  ⟨_, by decide +kernel, by decide +kernel, run_unit (by decide +kernel),
    not_keepsMetadata ⟨0, "acme", "d", "Guide", "concept", "draft", some 2⟩
      (by decide +kernel) (by decide +kernel) (by decide +kernel)⟩

end KnowledgeAlakazam
