import KnowledgeAlakazam.Wiki.Repository

/-!
# The wiki's service

`WikiService`: every method resolves its slug and then does its work in one unit of work, except
the reads, which run outside of one. What a method does to the store is stated once, as a relation
between the store before and after (`InTx` and `OutTx` lemmas at the end), and everything that is
proved about runs of the service starts from these.
-/

namespace KnowledgeAlakazam

variable (unicode : UnicodeData)

/-- `WikiPageDetail`. -/
structure WikiPageDetail where
  page : WikiPage
  currentRevision : Option WikiRevision

/-- `WikiClaimBundle`. -/
structure WikiClaimBundle where
  claim : WikiClaim
  sources : List WikiClaimSource

/-- The arguments of `create_or_update_page`. -/
structure PageUpdate where
  tenantId : String
  title : String
  slug : Option String
  pageType : String
  status : Option String
  content : RevisionContent

/-- `_require_slug`. -/
def requireSlug (value : String) : Except PyException String :=
  let slug := slugifyWikiTarget unicode value
  if slug = "" then .error (valueError "Wiki page slug cannot be empty") else .ok slug

/-- The targets of the links of a content: `_replace_links_for_content`. -/
def linkTargets (c : RevisionContent) : List String :=
  if c.contentFormat = "markdown" then extractWikilinks unicode c.content else []

/-- `WikiPageNotFoundError`. -/
def pageNotFound (slug : String) : PyException :=
  ⟨"WikiPageNotFoundError", "Wiki page '" ++ slug ++ "' was not found"⟩

/-- A page without a current revision. -/
def noCurrentRevision (slug : String) : PyException :=
  valueError ("Wiki page '" ++ slug ++ "' has no current revision")

namespace WikiService

open Program WikiRepository

/-- `_require_page`. -/
def requirePage (tenantId slug : String) : WikiProgram WikiPage := do
  match ← getPageBySlug tenantId slug with
  | some page => return page
  | none => raise (pageNotFound slug)

/-- The page of `create_or_update_page`: created, or found and retitled. -/
def preparePage (update : PageUpdate) (slug : String) : WikiProgram WikiPage := do
  match ← getPageBySlug update.tenantId slug with
  | none =>
    createPage update.tenantId slug update.title update.pageType (orElse update.status "draft")
  | some page => do
    let patch := retitlePatch update.title update.pageType update.status
    assign fun w ↦ { w with pages := w.pages.modify page.id patch }
    return patch.app page

/-- `create_or_update_page`. -/
def createOrUpdatePage (update : PageUpdate) : WikiProgram WikiPageDetail := do
  let slug ← ofExcept (requireSlug unicode (orElse update.slug update.title))
  transaction do
    let page ← preparePage update slug
    let revision ← upsertPageRevision page.id update.content
    let _ ← replaceLinksForPage update.tenantId page.id (linkTargets unicode update.content)
    return ⟨(setCurrentPatch revision.id).app page, some revision⟩

/-- `create_revision`. -/
def createRevision (tenantId slug : String) (c : RevisionContent) : WikiProgram WikiPageDetail := do
  let slug ← ofExcept (requireSlug unicode slug)
  transaction do
    let page ← requirePage tenantId slug
    let revision ← upsertPageRevision page.id c
    let _ ← replaceLinksForPage tenantId page.id (linkTargets unicode c)
    return ⟨(setCurrentPatch revision.id).app page, some revision⟩

/-- `_resolve_revision`. -/
def resolveRevision (page : WikiPage) (tenantId slug : String) (revisionNo : Option ℤ) :
    WikiProgram WikiRevision :=
  match revisionNo with
  | none => do
    match ← getCurrentRevision tenantId slug with
    | some revision => return revision
    | none => raise (noCurrentRevision slug)
  | some no => do
    let revisions ← listPageRevisions page.id
    match revisions.find? fun revision ↦ (revision.revisionNo : ℤ) == no with
    | some revision => return revision
    | none => raise (valueError ("Wiki page '" ++ slug ++ "' has no revision " ++ toString no))

/-- `publish_page`. -/
def publishPage (tenantId slug : String) (revisionNo : Option ℤ) : WikiProgram WikiPageDetail := do
  let slug ← ofExcept (requireSlug unicode slug)
  transaction do
    let page ← requirePage tenantId slug
    let revision ← resolveRevision page tenantId slug revisionNo
    let patch := publishPatch revision.id
    assign fun w ↦ { w with pages := w.pages.modify page.id patch }
    return ⟨patch.app page, some revision⟩

/-- `get_page`. -/
def getPage (tenantId slug : String) : WikiProgram WikiPageDetail := do
  let slug ← ofExcept (requireSlug unicode slug)
  let page ← requirePage tenantId slug
  let revision ← getCurrentRevision tenantId slug
  return ⟨page, revision⟩

/-- `add_claim_with_sources`. -/
def addClaimWithSources (tenantId slug : String) (claimText : List Char)
    (sources : List ClaimSourceInput) (supportStatus : String) (confidence : Option ℤ) :
    WikiProgram WikiClaimBundle := do
  let slug ← ofExcept (requireSlug unicode slug)
  transaction do
    let page ← requirePage tenantId slug
    match ← getCurrentRevision tenantId slug with
    | none => raise (noCurrentRevision slug)
    | some revision => do
      let claim ← createClaim tenantId page.id revision.id claimText supportStatus confidence
      let attached ← sources.mapM' (attachClaimSource claim.id)
      return ⟨claim, attached⟩

/-- `rebuild_links_from_markdown`. -/
def rebuildLinksFromMarkdown (tenantId slug : String) (markdown : List Char) :
    WikiProgram (List WikiLink) := do
  let slug ← ofExcept (requireSlug unicode slug)
  transaction do
    let page ← requirePage tenantId slug
    replaceLinksForPage tenantId page.id (extractWikilinks unicode markdown)

/-- `get_backlinks`. -/
def getBacklinks (postgres : PostgresData) (tenantId slug : String) :
    WikiProgram (List (WikiLink × WikiPage)) := do
  let slug ← ofExcept (requireSlug unicode slug)
  listBacklinks postgres tenantId slug

end WikiService

/-! ## What the methods do to the store -/

/-- The store after `upsert_page_revision` in a store where nobody else writes: the number is
free, so there is a new row, and the page points to it. -/
structure RevisionAdded (W W' : WikiStore) (pageId : ℕ) (c : RevisionContent)
    (revision : WikiRevision) : Prop where
  row : ∃ id, revision = c.newRevision id pageId (W.nextRevisionNo pageId)
  page : (W.pages.find pageId).isSome = true
  store : ∃ revisions, W.revisions.insert revision = some revisions ∧
    W' = { W with
      revisions := revisions
      pages := W.pages.modify pageId (setCurrentPatch revision.id) }

/-- The store after `replace_links_for_page`. -/
structure LinksReplaced (W W' : WikiStore) (tenantId : String) (pageId : ℕ)
    (toSlugs : List String) : Prop where
  links : ∃ new : List WikiLink,
    W'.links.rows = (W.dropLinks tenantId pageId).links.rows ++ new ∧
    new.map WikiLink.toSlug = dedupeSlugs toSlugs ∧
    ∀ link ∈ new, link.tenantId = tenantId ∧ link.fromPageId = pageId
  store : W' = { W with links := W'.links }

/-- The store after a page was created, or found and retitled. -/
inductive PagePrepared (W : WikiStore) (update : PageUpdate) (slug : String) :
    WikiPage → WikiStore → Prop
  | created {id : ℕ} {pages : Table WikiPage}
    (hnone : W.pageBySlug update.tenantId slug = none)
    (h : W.pages.insert ⟨id, update.tenantId, slug, update.title, update.pageType,
      orElse update.status "draft", none⟩ = some pages) :
    PagePrepared W update slug ⟨id, update.tenantId, slug, update.title, update.pageType,
      orElse update.status "draft", none⟩ { W with pages := pages }
  | found {page : WikiPage} (h : W.pageBySlug update.tenantId slug = some page) :
    PagePrepared W update slug
      ((retitlePatch update.title update.pageType update.status).app page)
      { W with
        pages := W.pages.modify page.id
          (retitlePatch update.title update.pageType update.status) }

/-- The store after a claim was added to the current revision of a page. -/
structure ClaimAdded (W W' : WikiStore) (tenantId slug : String) (claim : WikiClaim) : Prop where
  revision : ∃ page revision, W.pageBySlug tenantId slug = some page ∧
    W.currentOf page = some revision ∧ claim.pageId = page.id ∧ claim.revisionId = revision.id
  claims : W.claims.insert claim = some W'.claims
  store : W' = { W with claims := W'.claims, claimSources := W'.claimSources }

/-- The revision `publish_page` resolves. -/
def WikiStore.resolved (w : WikiStore) (page : WikiPage) (revisionNo : Option ℤ) :
    Option WikiRevision :=
  match revisionNo with
  | none => w.currentOf page
  | some no => (w.pageRevisions page.id).find? fun revision ↦ (revision.revisionNo : ℤ) == no

namespace WikiRepository

theorem inTx_flushRevision_none (W : WikiStore) (pageId revisionNo : ℕ) (c : RevisionContent) :
    InTx (flushRevision pageId revisionNo c none) W fun revision W' ↦
      (∃ id, revision = c.newRevision id pageId revisionNo) ∧
        ∃ revisions, W.revisions.insert revision = some revisions ∧
          W' = { W with revisions := revisions } := by
  refine (InTx.freshId (T := fun _ W' ↦ W = W') fun _ ↦ rfl).bind ?_
  rintro id _ rfl
  refine InTx.statement fun revision W' h ↦ ?_
  split at h
  · rename_i revisions hins
    obtain ⟨rfl, rfl⟩ := Prod.mk.inj (Except.ok.inj h)
    exact ⟨⟨id, rfl⟩, revisions, hins, rfl⟩
  · exact nomatch h

theorem inTx_upsertPageRevision (W : WikiStore) (pageId : ℕ) (c : RevisionContent) :
    InTx (upsertPageRevision pageId c) W fun revision W' ↦
      RevisionAdded W W' pageId c revision := by
  refine (InTx.query_eq _).bind ?_
  rintro no _ ⟨rfl, rfl⟩
  refine (InTx.query (R := fun found W' ↦ found = none ∧ W = W')
    ⟨W.revisionByNo_nextRevisionNo pageId, rfl⟩).bind ?_
  rintro found _ ⟨rfl, rfl⟩
  refine (inTx_flushRevision_none W pageId _ c).bind ?_
  rintro revision _ ⟨hrow, revisions, hins, rfl⟩
  have hset : InTx (setCurrentRevision pageId revision.id) { W with revisions := revisions }
      fun _ W' ↦ RevisionAdded W W' pageId c revision := by
    refine InTx.statement fun _ W' h ↦ ?_
    split at h
    · rename_i page hpage
      obtain ⟨-, rfl⟩ := Prod.mk.inj (Except.ok.inj h)
      exact ⟨hrow, Option.isSome_iff_exists.mpr ⟨page, hpage⟩, revisions, hins, rfl⟩
    · exact nomatch h
  exact hset.bind fun _ W' h ↦ InTx.pure h

private theorem inTx_createLink (W : WikiStore) (tenantId : String) (pageId : ℕ)
    (toSlug : String) :
    InTx (createLink tenantId pageId toSlug) W fun link W' ↦
      W'.links.rows = W.links.rows ++ [link] ∧ link.toSlug = toSlug ∧
        link.tenantId = tenantId ∧ link.fromPageId = pageId ∧
          W' = { W with links := W'.links } := by
  refine (InTx.freshId (T := fun _ W' ↦ W = W') fun _ ↦ rfl).bind ?_
  rintro id _ rfl
  refine InTx.statement fun link W' h ↦ ?_
  split at h
  · rename_i links hins
    obtain ⟨rfl, rfl⟩ := Prod.mk.inj (Except.ok.inj h)
    exact ⟨Table.rows_insert hins, rfl, rfl, rfl, rfl⟩
  · exact nomatch h

/-- The store while links are replaced: some are inserted, and others are to come. -/
private structure LinksInserted (W W' : WikiStore) (tenantId : String) (pageId : ℕ)
    (toSlugs slugs : List String) (new : List WikiLink) : Prop where
  rows : W'.links.rows = (W.dropLinks tenantId pageId).links.rows ++ new
  slugs : new.map WikiLink.toSlug ++ slugs = dedupeSlugs toSlugs
  own : ∀ link ∈ new, link.tenantId = tenantId ∧ link.fromPageId = pageId
  store : W' = { W with links := W'.links }

private theorem LinksInserted.next {W W₁ W' : WikiStore} {tenantId : String} {pageId : ℕ}
    {toSlugs slugs : List String} {new : List WikiLink} {slug : String} {link : WikiLink}
    (h : LinksInserted W W₁ tenantId pageId toSlugs (slug :: slugs) new)
    (hlink : W'.links.rows = W₁.links.rows ++ [link] ∧ link.toSlug = slug ∧
      link.tenantId = tenantId ∧ link.fromPageId = pageId ∧
      W' = { W₁ with links := W'.links }) :
    LinksInserted W W' tenantId pageId toSlugs slugs (new ++ [link]) := by
  obtain ⟨hrows, hslug, htenant, hpage, hstore⟩ := hlink
  refine ⟨by rw [hrows, h.rows, List.append_assoc], ?_, ?_, by rw [hstore, h.store]⟩
  · rw [List.map_append, List.map_singleton, hslug, List.append_assoc]
    exact h.slugs
  · intro other hother
    rcases List.mem_append.mp hother with hother | hother
    · exact h.own other hother
    · obtain rfl := List.mem_singleton.mp hother
      exact ⟨htenant, hpage⟩

theorem inTx_replaceLinksForPage (W : WikiStore) (tenantId : String) (pageId : ℕ)
    (toSlugs : List String) :
    InTx (replaceLinksForPage tenantId pageId toSlugs) W fun _ W' ↦
      LinksReplaced W W' tenantId pageId toSlugs := by
  refine (InTx.statement (R := fun _ W' ↦ W' = W.dropLinks tenantId pageId)
    fun _ W' h ↦ (Prod.mk.inj (Except.ok.inj h)).2.symm).bind ?_
  rintro - _ rfl
  have hstart : LinksInserted W (W.dropLinks tenantId pageId) tenantId pageId toSlugs
      (dedupeSlugs toSlugs) [] :=
    ⟨(List.append_nil _).symm, rfl, (fun _ h ↦ nomatch h), rfl⟩
  refine (InTx.mapM' (I := fun slugs new W' ↦
    LinksInserted W W' tenantId pageId toSlugs slugs new) ?_ hstart).mono ?_
  · intro slug slugs new W₁ h
    exact (inTx_createLink W₁ tenantId pageId slug).mono fun _ _ hlink ↦ h.next hlink
  · intro new W' h
    exact ⟨⟨new, h.rows, by rw [← h.slugs, List.append_nil], h.own⟩, h.store⟩

theorem inTx_createClaim (W : WikiStore) (tenantId : String) (pageId revisionId : ℕ)
    (claimText : List Char) (supportStatus : String) (confidence : Option ℤ) :
    InTx (createClaim tenantId pageId revisionId claimText supportStatus confidence) W
      fun claim W' ↦ (claim.tenantId = tenantId ∧ claim.pageId = pageId ∧
        claim.revisionId = revisionId ∧ claim.claimText = claimText) ∧
        W.claims.insert claim = some W'.claims ∧ W' = { W with claims := W'.claims } := by
  refine (InTx.freshId (T := fun _ W' ↦ W = W') fun _ ↦ rfl).bind ?_
  rintro id _ rfl
  refine InTx.statement fun claim W' h ↦ ?_
  split at h
  · rename_i claims hins
    obtain ⟨rfl, rfl⟩ := Prod.mk.inj (Except.ok.inj h)
    exact ⟨⟨rfl, rfl, rfl, rfl⟩, hins, rfl⟩
  · exact nomatch h

theorem inTx_attachClaimSource (W : WikiStore) (claimId : ℕ) (input : ClaimSourceInput) :
    InTx (attachClaimSource claimId input) W fun source W' ↦ source.claimId = claimId ∧
      W.claimSources.insert source = some W'.claimSources ∧
        W' = { W with claimSources := W'.claimSources } := by
  refine (InTx.freshId (T := fun _ W' ↦ W = W') fun _ ↦ rfl).bind ?_
  rintro id _ rfl
  refine InTx.statement fun source W' h ↦ ?_
  split at h
  · rename_i sources hins
    obtain ⟨rfl, rfl⟩ := Prod.mk.inj (Except.ok.inj h)
    exact ⟨rfl, hins, rfl⟩
  · exact nomatch h

end WikiRepository

namespace WikiService

open Program WikiRepository

variable (W : WikiStore)

theorem inTx_preparePage (update : PageUpdate) (slug : String) :
    InTx (preparePage update slug) W fun page W' ↦ PagePrepared W update slug page W' := by
  refine (InTx.query
    (R := fun found W' ↦ found = W.pageBySlug update.tenantId slug ∧ W = W') ⟨rfl, rfl⟩).bind ?_
  rintro found _ ⟨hfound, rfl⟩
  cases found with
  | none =>
    refine (InTx.freshId (T := fun _ W' ↦ W = W') fun _ ↦ rfl).bind ?_
    rintro id _ rfl
    refine InTx.statement fun page W' h ↦ ?_
    split at h
    · rename_i pages hins
      obtain ⟨rfl, rfl⟩ := Prod.mk.inj (Except.ok.inj h)
      exact .created hfound.symm hins
    · exact nomatch h
  | some page =>
    refine (InTx.assign (T := fun _ W' ↦ W' = { W with
      pages := W.pages.modify page.id
        (retitlePatch update.title update.pageType update.status) }) rfl).bind ?_
    rintro - _ rfl
    exact InTx.pure (.found hfound.symm)

/-- A revision is written and the links are replaced: the end of `create_or_update_page` and of
`create_revision`. -/
structure Written (W W' : WikiStore) (tenantId : String) (page : WikiPage) (c : RevisionContent)
    (detail : WikiPageDetail) : Prop where
  detail : ∃ revision, detail = ⟨(setCurrentPatch revision.id).app page, some revision⟩ ∧
    ∃ W₁, RevisionAdded W W₁ page.id c revision ∧
      LinksReplaced W₁ W' tenantId page.id (linkTargets unicode c)

private theorem inTx_write (tenantId : String) (page : WikiPage) (c : RevisionContent) :
    InTx (do
      let revision ← upsertPageRevision page.id c
      let _ ← replaceLinksForPage tenantId page.id (linkTargets unicode c)
      return (⟨(setCurrentPatch revision.id).app page, some revision⟩ : WikiPageDetail)) W
      fun detail W' ↦ Written unicode W W' tenantId page c detail := by
  refine (inTx_upsertPageRevision W page.id c).bind fun revision W₁ hadded ↦ ?_
  refine (inTx_replaceLinksForPage W₁ tenantId page.id _).bind fun _ W' hlinks ↦ ?_
  exact InTx.pure ⟨revision, rfl, W₁, hadded, hlinks⟩

theorem outTx_createOrUpdatePage (update : PageUpdate) :
    OutTx (createOrUpdatePage unicode update) W
      (fun detail W' ↦ ∃ slug page W₁,
        requireSlug unicode (orElse update.slug update.title) = .ok slug ∧
        PagePrepared W update slug page W₁ ∧
        Written unicode W₁ W' update.tenantId page update.content detail)
      fun _ W' ↦ W = W' := by
  refine (OutTx.ofExcept (Q := fun slug W' ↦
    requireSlug unicode (orElse update.slug update.title) = .ok slug ∧ W = W')
    (fun slug h ↦ ⟨h, rfl⟩) fun _ _ ↦ rfl).bind ?_
  rintro slug _ ⟨hslug, rfl⟩
  refine OutTx.transaction ?_ fun _ ↦ rfl
  refine (inTx_preparePage W update slug).bind fun page W₁ hprep ↦ ?_
  exact (inTx_write unicode W₁ update.tenantId page update.content).mono
    fun detail W' h ↦ ⟨slug, page, W₁, hslug, hprep, h⟩

theorem inTx_requirePage (tenantId slug : String) :
    InTx (requirePage tenantId slug) W fun page W' ↦
      W.pageBySlug tenantId slug = some page ∧ W = W' := by
  refine (InTx.query_eq _).bind ?_
  rintro found _ ⟨hfound, rfl⟩
  cases found with
  | none => exact InTx.raise _
  | some page => exact InTx.pure ⟨hfound.symm, rfl⟩

theorem outTx_createRevision (tenantId slug : String) (c : RevisionContent) :
    OutTx (createRevision unicode tenantId slug c) W
      (fun detail W' ↦ ∃ resolved page, requireSlug unicode slug = .ok resolved ∧
        W.pageBySlug tenantId resolved = some page ∧
        Written unicode W W' tenantId page c detail)
      fun _ W' ↦ W = W' := by
  refine (OutTx.ofExcept (Q := fun resolved W' ↦ requireSlug unicode slug = .ok resolved ∧ W = W')
    (fun _ h ↦ ⟨h, rfl⟩) fun _ _ ↦ rfl).bind ?_
  rintro resolved _ ⟨hslug, rfl⟩
  refine OutTx.transaction ?_ fun _ ↦ rfl
  refine (inTx_requirePage W tenantId resolved).bind ?_
  rintro page _ ⟨hpage, rfl⟩
  exact (inTx_write unicode W tenantId page c).mono
    fun detail W' h ↦ ⟨resolved, page, hslug, hpage, h⟩

theorem inTx_resolveRevision {page : WikiPage} {tenantId slug : String}
    (hpage : W.pageBySlug tenantId slug = some page) (revisionNo : Option ℤ) :
    InTx (resolveRevision page tenantId slug revisionNo) W fun revision W' ↦
      W.resolved page revisionNo = some revision ∧ W = W' := by
  cases revisionNo with
  | none =>
    refine (InTx.query (R := fun found W' ↦ found = W.currentOf page ∧ W = W')
      ⟨by rw [WikiStore.currentRevision, hpage]; rfl, rfl⟩).bind ?_
    rintro found _ ⟨hfound, rfl⟩
    cases found with
    | none => exact InTx.raise _
    | some revision => exact InTx.pure ⟨hfound.symm, rfl⟩
  | some no =>
    refine (InTx.query_eq _).bind ?_
    rintro revisions _ ⟨rfl, rfl⟩
    split
    · rename_i revision hfind
      exact InTx.pure ⟨hfind, rfl⟩
    · exact InTx.raise _

theorem outTx_publishPage (tenantId slug : String) (revisionNo : Option ℤ) :
    OutTx (publishPage unicode tenantId slug revisionNo) W
      (fun detail W' ↦ ∃ resolved page revision, requireSlug unicode slug = .ok resolved ∧
        W.pageBySlug tenantId resolved = some page ∧
        W.resolved page revisionNo = some revision ∧
        detail = ⟨(publishPatch revision.id).app page, some revision⟩ ∧
        W' = { W with pages := W.pages.modify page.id (publishPatch revision.id) })
      fun _ W' ↦ W = W' := by
  refine (OutTx.ofExcept (Q := fun resolved W' ↦ requireSlug unicode slug = .ok resolved ∧ W = W')
    (fun _ h ↦ ⟨h, rfl⟩) fun _ _ ↦ rfl).bind ?_
  rintro resolved _ ⟨hslug, rfl⟩
  refine OutTx.transaction ?_ fun _ ↦ rfl
  refine (inTx_requirePage W tenantId resolved).bind ?_
  rintro page _ ⟨hpage, rfl⟩
  refine (inTx_resolveRevision W hpage revisionNo).bind ?_
  rintro revision _ ⟨hrevision, rfl⟩
  refine (InTx.assign (T := fun _ W' ↦ W' = { W with
    pages := W.pages.modify page.id (publishPatch revision.id) }) rfl).bind ?_
  rintro - _ rfl
  exact InTx.pure ⟨resolved, page, revision, hslug, hpage, hrevision, rfl, rfl⟩

theorem outTx_addClaimWithSources (tenantId slug : String) (claimText : List Char)
    (sources : List ClaimSourceInput) (supportStatus : String) (confidence : Option ℤ) :
    OutTx (addClaimWithSources unicode tenantId slug claimText sources supportStatus confidence) W
      (fun bundle W' ↦ ∃ resolved, requireSlug unicode slug = .ok resolved ∧
        ClaimAdded W W' tenantId resolved bundle.claim ∧ bundle.claim.claimText = claimText)
      fun _ W' ↦ W = W' := by
  refine (OutTx.ofExcept (Q := fun resolved W' ↦ requireSlug unicode slug = .ok resolved ∧ W = W')
    (fun _ h ↦ ⟨h, rfl⟩) fun _ _ ↦ rfl).bind ?_
  rintro resolved _ ⟨hslug, rfl⟩
  refine OutTx.transaction ?_ fun _ ↦ rfl
  refine (inTx_requirePage W tenantId resolved).bind ?_
  rintro page _ ⟨hpage, rfl⟩
  refine (InTx.query (R := fun found W' ↦ found = W.currentOf page ∧ W = W')
    ⟨by rw [WikiStore.currentRevision, hpage]; rfl, rfl⟩).bind ?_
  rintro found _ ⟨hfound, rfl⟩
  cases found with
  | none => exact InTx.raise _
  | some revision =>
    refine InTx.bind (inTx_createClaim W tenantId page.id revision.id claimText supportStatus
      confidence) ?_
    rintro claim W₁ ⟨⟨-, hclaimPage, hclaimRevision, htext⟩, hins, hstore⟩
    -- the sources change nothing but their own table
    have hloop : InTx (sources.mapM' (attachClaimSource claim.id)) W₁
        fun _ W' ↦ W' = { W₁ with claimSources := W'.claimSources } := by
      refine (InTx.mapM' (I := fun _ _ W' ↦ W' = { W₁ with claimSources := W'.claimSources })
        (fun input _ _ W₂ h ↦ ?_) rfl).mono fun _ _ h ↦ h
      refine (inTx_attachClaimSource W₂ claim.id input).mono fun _ W' h' ↦ ?_
      rw [h'.2.2, h]
    refine hloop.bind fun attached W' h ↦ ?_
    have hclaims : W'.claims = W₁.claims := by rw [h]
    exact InTx.pure ⟨resolved, hslug, ⟨⟨page, revision, hpage, hfound.symm, hclaimPage,
      hclaimRevision⟩, hclaims ▸ hins, by rw [h, hstore]⟩, htext⟩

theorem outTx_rebuildLinksFromMarkdown (tenantId slug : String) (markdown : List Char) :
    OutTx (rebuildLinksFromMarkdown unicode tenantId slug markdown) W
      (fun _ W' ↦ ∃ resolved page, requireSlug unicode slug = .ok resolved ∧
        W.pageBySlug tenantId resolved = some page ∧
        LinksReplaced W W' tenantId page.id (extractWikilinks unicode markdown))
      fun _ W' ↦ W = W' := by
  refine (OutTx.ofExcept (Q := fun resolved W' ↦ requireSlug unicode slug = .ok resolved ∧ W = W')
    (fun _ h ↦ ⟨h, rfl⟩) fun _ _ ↦ rfl).bind ?_
  rintro resolved _ ⟨hslug, rfl⟩
  refine OutTx.transaction ?_ fun _ ↦ rfl
  refine (inTx_requirePage W tenantId resolved).bind ?_
  rintro page _ ⟨hpage, rfl⟩
  exact (inTx_replaceLinksForPage W tenantId page.id _).mono
    fun _ W' h ↦ ⟨resolved, page, hslug, hpage, h⟩

theorem outTx_getPage (tenantId slug : String) :
    OutTx (getPage unicode tenantId slug) W (fun _ W' ↦ W = W') fun _ W' ↦ W = W' := by
  refine (OutTx.ofExcept (Q := fun _ W' ↦ W = W') (fun _ _ ↦ rfl) fun _ _ ↦ rfl).bind ?_
  rintro resolved _ rfl
  have hrequire : OutTx (requirePage tenantId resolved) W (fun _ W' ↦ W = W')
      fun _ W' ↦ W = W' := by
    refine (OutTx.query (Q := fun _ W' ↦ W = W') rfl fun _ ↦ rfl).bind ?_
    rintro found _ rfl
    cases found with
    | none => exact OutTx.raise rfl
    | some page => exact OutTx.pure rfl
  refine hrequire.bind ?_
  rintro page _ rfl
  refine (OutTx.query (Q := fun _ W' ↦ W = W') rfl fun _ ↦ rfl).bind ?_
  rintro revision _ rfl
  exact OutTx.pure rfl

theorem outTx_getBacklinks (postgres : PostgresData) (tenantId slug : String) :
    OutTx (getBacklinks unicode postgres tenantId slug) W
      (fun backlinks W' ↦ W = W' ∧ ∃ resolved, requireSlug unicode slug = .ok resolved ∧
        backlinks = W.backlinks postgres tenantId resolved) fun _ W' ↦ W = W' := by
  refine (OutTx.ofExcept (Q := fun resolved W' ↦ W = W' ∧ requireSlug unicode slug = .ok resolved)
    (fun _ h ↦ ⟨rfl, h⟩) fun _ _ ↦ rfl).bind ?_
  rintro resolved _ ⟨rfl, hslug⟩
  exact OutTx.query ⟨rfl, resolved, hslug, rfl⟩ fun _ ↦ rfl

end WikiService

/-! ## The page that was written -/

section Pages

variable {unicode : UnicodeData} {W W' : WikiStore} {slug : String} {page : WikiPage}

theorem PagePrepared.pageBySlug {update : PageUpdate} (h : PagePrepared W update slug page W') :
    W'.pageBySlug update.tenantId slug = some page := by
  cases h with
  | created hnone hins => exact (Table.lookup_insert hins _).trans (if_pos rfl)
  | found hpage =>
    refine (Table.lookup_modify ..).trans ?_
    rw [WikiStore.pageBySlug] at hpage
    rw [hpage, Option.map_some]
    exact congrArg some (if_pos rfl)

variable {tenantId : String} {c : RevisionContent} {detail : WikiPageDetail}

theorem WikiService.Written.pageBySlug (h : Written unicode W W' tenantId page c detail)
    (hpage : W.pageBySlug tenantId slug = some page) :
    W'.pageBySlug tenantId slug = some detail.page ∧ detail.page.slug = slug := by
  obtain ⟨revision, rfl, W₁, hadded, hlinks⟩ := h.detail
  obtain ⟨-, -, revisions, -, rfl⟩ := hadded
  have hpages : W'.pages = W.pages.modify page.id (setCurrentPatch revision.id) := by
    rw [hlinks.store]
  have hslug : page.slug = slug := (Prod.mk.inj (Table.unique_of_lookup hpage)).2
  refine ⟨?_, hslug⟩
  rw [WikiStore.pageBySlug] at hpage ⊢
  rw [hpages, Table.lookup_modify, hpage, Option.map_some]
  exact congrArg some (if_pos rfl)

/-- The revision that was written is the current one. -/
theorem WikiService.Written.currentOf (h : Written unicode W W' tenantId page c detail) :
    W'.currentOf detail.page = detail.currentRevision := by
  obtain ⟨revision, rfl, W₁, hadded, hlinks⟩ := h.detail
  obtain ⟨-, -, revisions, hins, rfl⟩ := hadded
  have hrevisions : W'.revisions = revisions := by rw [hlinks.store]
  rw [WikiStore.currentOf, hrevisions]
  exact (Table.find_insert hins _).trans (if_pos rfl)

end Pages

end KnowledgeAlakazam
