import KnowledgeAlakazam.Wiki.Integrity
import KnowledgeAlakazam.Wiki.Notebook
import Mathlib.Data.String.Basic

/-!
# The tables of the wiki are a notebook

What the rows of the wiki say, once ids and row order are forgotten: a page with its revisions, its
links and its claims is an article, with a version for each revision and the number of the current
revision as the one that is shown (`Shows`). The tables are a notebook if the page under every name
is the article under that name (`Depicts`). Every statement that the service is made of keeps
them one, with the change that the statement stands for, because the rows about the other pages are
left alone (`Depicts.put`). So every operation that returns gives an answer of the notebook.
-/

namespace KnowledgeAlakazam

/-! ## What the tables say -/

def WikiRevision.said (revision : WikiRevision) : RevisionContent where
  content := revision.content
  contentFormat := revision.contentFormat
  contentJson := revision.contentJson
  summary := revision.summary
  authorType := revision.authorType

def WikiStore.claimsOf (w : WikiStore) (pageId : ℕ) : List WikiClaim :=
  w.claims.rows.filter fun claim ↦ claim.pageId == pageId

/-- The number of the revision a claim is about. -/
def WikiStore.claimNo (w : WikiStore) (claim : WikiClaim) : Option ℕ :=
  (w.revisions.find claim.revisionId).map WikiRevision.revisionNo

/-- The rows about a page are the article. -/
structure Shows (w : WikiStore) (page : WikiPage) (a : Article) : Prop where
  title : page.title = a.title
  pageType : page.pageType = a.pageType
  status : page.status = a.status
  versions : (w.revisionsOf page.id).map (fun r ↦ (r.revisionNo, r.said)) = a.history.numbered
  current : (w.currentOf page).map WikiRevision.revisionNo = a.history.current
  links : (w.linksOf page.id).map WikiLink.toSlug = a.links
  claims : (w.claimsOf page.id).map (fun claim ↦ (w.claimNo claim, claim.claimText)) =
    a.claims.map fun claim ↦ (some claim.1, claim.2)

/-- The tables are the notebook. -/
def Depicts (w : WikiStore) (N : Notebook) : Prop :=
  ∀ tenantId slug, Option.Rel (Shows w) (w.pageBySlug tenantId slug) (N tenantId slug)

theorem depicts_empty : Depicts .empty .empty := fun _ _ ↦ .none

variable {unicode : UnicodeData} {W W₁ W' : WikiStore} {N : Notebook} {tenantId slug : String}
  {page page' : WikiPage} {a a' : Article}

theorem Depicts.exists_article (h : Depicts W N)
    (hpage : W.pageBySlug tenantId slug = some page) :
    ∃ a, N tenantId slug = some a ∧ Shows W page a := by
  have hrel := h tenantId slug
  rw [hpage] at hrel
  cases ha : N tenantId slug with
  | none =>
    rw [ha] at hrel
    cases hrel
  | some a =>
    rw [ha] at hrel
    cases hrel with
    | some hshows => exact ⟨a, rfl, hshows⟩

theorem Depicts.exists_page (h : Depicts W N) (ha : N tenantId slug = some a) :
    ∃ page, W.pageBySlug tenantId slug = some page ∧ Shows W page a := by
  have hrel := h tenantId slug
  rw [ha] at hrel
  cases hpage : W.pageBySlug tenantId slug with
  | none =>
    rw [hpage] at hrel
    cases hrel
  | some page =>
    rw [hpage] at hrel
    cases hrel with
    | some hshows => exact ⟨page, rfl, hshows⟩

theorem Depicts.eq_none (h : Depicts W N) (hpage : W.pageBySlug tenantId slug = none) :
    N tenantId slug = none := by
  cases ha : N tenantId slug with
  | none => rfl
  | some a =>
    obtain ⟨page, hsome, -⟩ := h.exists_page ha
    exact nomatch hpage.symm.trans hsome

/-! ## What a change leaves alone -/

/-- The rows about a page are the same, and no revision is gone. -/
structure SameAt (w w' : WikiStore) (i : ℕ) : Prop where
  revisions : w'.revisionsOf i = w.revisionsOf i
  links : w'.linksOf i = w.linksOf i
  claims : w'.claimsOf i = w.claimsOf i
  kept : ∀ j r, w.revisions.find j = some r → w'.revisions.find j = some r

theorem WikiStore.Intact.exists_pointed (hw : W.Intact) (hpage : page ∈ W.pages.rows) {id : ℕ}
    (hid : page.currentRevisionId = some id) :
    ∃ r, W.revisions.find id = some r ∧ r.pageId = page.id :=
  hw.pointers page hpage id hid

theorem Shows.frame (hw : W.Intact) (hpage : page ∈ W.pages.rows) (h : Shows W page a)
    (hs : SameAt W W' page.id) : Shows W' page a := by
  have hcurrent : W'.currentOf page = W.currentOf page := by
    rw [WikiStore.currentOf, WikiStore.currentOf]
    cases hid : page.currentRevisionId with
    | none => rfl
    | some id =>
      obtain ⟨r, hr, -⟩ := hw.exists_pointed hpage hid
      rw [Option.bind_some, Option.bind_some, hr, hs.kept id r hr]
  refine { h with
    versions := by rw [hs.revisions, h.versions]
    current := by rw [hcurrent, h.current]
    links := by rw [hs.links, h.links]
    claims := ?_ }
  rw [hs.claims, ← h.claims]
  refine List.map_congr_left fun claim hclaim ↦ ?_
  obtain ⟨-, r, hr, -⟩ := hw.claims claim (List.mem_filter.mp hclaim).1
  rw [WikiStore.claimNo, WikiStore.claimNo, hr, hs.kept _ r hr]

theorem Shows.repage (h : Shows W page a) (hid : page'.id = page.id)
    (htitle : page'.title = a'.title) (htype : page'.pageType = a'.pageType)
    (hstatus : page'.status = a'.status) (hall : a'.history.all = a.history.all)
    (hcurrent : (W.currentOf page').map WikiRevision.revisionNo = a'.history.current)
    (hlinks : a'.links = a.links) (hclaims : a'.claims = a.claims) : Shows W page' a' where
  title := htitle
  pageType := htype
  status := hstatus
  versions := by rw [hid, h.versions, Versions.numbered, Versions.numbered, hall]
  current := hcurrent
  links := by rw [hid, h.links, hlinks]
  claims := by rw [hid, h.claims, hclaims]

/-- **The rule for changes.** A change under one name represents the change of the article there,
if the page there is the new article and the rows about the other pages are the same. -/
theorem Depicts.put (hw : W.Intact) (h : Depicts W N) (page : WikiPage)
    (hpage : W'.pageBySlug tenantId slug = some page) (hshows : Shows W' page a)
    (hothers : ∀ t s, ¬(t = tenantId ∧ s = slug) → W'.pageBySlug t s = W.pageBySlug t s)
    (hsame : ∀ t s other, ¬(t = tenantId ∧ s = slug) → W.pageBySlug t s = some other →
      SameAt W W' other.id) : Depicts W' (N.put tenantId slug a) := by
  intro t s
  rw [Notebook.put]
  by_cases hname : t = tenantId ∧ s = slug
  · rw [if_pos hname, hname.1, hname.2, hpage]
    exact .some hshows
  · rw [if_neg hname, hothers t s hname]
    cases hother : W.pageBySlug t s with
    | none =>
      rw [h.eq_none hother]
      exact .none
    | some other =>
      obtain ⟨b, hb, hshowsb⟩ := h.exists_article hother
      rw [hb]
      exact .some (hshowsb.frame hw (Table.mem_of_lookup hother) (hsame t s other hname hother))

theorem ne_of_name {t s : String} {other : WikiPage} (hname : ¬(t = tenantId ∧ s = slug))
    (hpage : W.pageBySlug tenantId slug = some page) (hother : W.pageBySlug t s = some other) :
    other.id ≠ page.id := by
  intro hid
  obtain rfl := Table.eq_of_primary (Table.mem_of_lookup hother) (Table.mem_of_lookup hpage) hid
  have hkey := (Table.unique_of_lookup hother).symm.trans (Table.unique_of_lookup hpage)
  exact hname (Prod.mk.inj hkey)

theorem pageBySlug_modify (hpage : W.pageBySlug tenantId slug = some page) (p : Patch WikiPage)
    (t s : String) : ((W.pages.modify page.id p).lookup (t, s)) =
      if t = tenantId ∧ s = slug then some (p.app page) else W.pageBySlug t s := by
  rw [Table.lookup_modify]
  by_cases hname : t = tenantId ∧ s = slug
  · rw [if_pos hname, hname.1, hname.2, show W.pages.lookup (tenantId, slug) = some page from hpage,
      Option.map_some, if_pos (show Row.primary page = page.id from rfl)]
  · rw [if_neg hname, WikiStore.pageBySlug]
    cases hother : W.pages.lookup (t, s) with
    | none => rfl
    | some other =>
      rw [Option.map_some, if_neg (show ¬Row.primary other = page.id from
        ne_of_name hname hpage hother)]

theorem Notebook.put_put (N : Notebook) (tenantId slug : String) (a a' : Article) :
    (N.put tenantId slug a).put tenantId slug a' = N.put tenantId slug a' := by
  funext t s
  rw [Notebook.put, Notebook.put, Notebook.put]
  split <;> rfl

theorem Notebook.put_self (N : Notebook) (tenantId slug : String) (a : Article) :
    N.put tenantId slug a tenantId slug = some a := by
  rw [Notebook.put, if_pos ⟨rfl, rfl⟩]

/-! ## What the changes represent -/

theorem Depicts.modify (hw : W.Intact) (h : Depicts W N)
    (hpage : W.pageBySlug tenantId slug = some page) {p : Patch WikiPage}
    (hshows : Shows W (p.app page) a) :
    Depicts { W with pages := W.pages.modify page.id p } (N.put tenantId slug a) := by
  refine h.put hw (p.app page) ?_ ?_ (fun t s hname ↦ ?_)
    fun _ _ _ _ _ ↦ ⟨rfl, rfl, rfl, fun _ _ h ↦ h⟩
  · exact (pageBySlug_modify hpage p tenantId slug).trans (if_pos ⟨rfl, rfl⟩)
  · exact { hshows with }
  · exact (pageBySlug_modify hpage p t s).trans (if_neg hname)

theorem shows_new (hw : W.Intact) (hnone : W.pages.find page.id = none)
    (hpointer : page.currentRevisionId = none) : Shows W page
      ⟨page.title, page.pageType, page.status, .empty, [], []⟩ where
  title := rfl
  pageType := rfl
  status := rfl
  versions := by
    have hnil : W.revisionsOf page.id = [] := List.filter_eq_nil_iff.mpr fun r hr hof ↦ by
      obtain ⟨owner, howner⟩ := hw.revisions r hr
      rw [beq_iff_eq.mp hof, hnone] at howner
      cases howner
    rw [hnil]
    rfl
  current := by
    rw [WikiStore.currentOf, hpointer]
    rfl
  links := by
    have hnil : W.linksOf page.id = [] := List.filter_eq_nil_iff.mpr fun link hlink hof ↦ by
      obtain ⟨owner, howner, -⟩ := hw.links link hlink
      rw [beq_iff_eq.mp hof, hnone] at howner
      cases howner
    rw [hnil]
    rfl
  claims := by
    have hnil : W.claimsOf page.id = [] := List.filter_eq_nil_iff.mpr fun claim hclaim hof ↦ by
      obtain ⟨⟨owner, howner, -⟩, -⟩ := hw.claims claim hclaim
      rw [beq_iff_eq.mp hof, hnone] at howner
      cases howner
    rw [hnil]
    rfl

theorem Depicts.insert (hw : W.Intact) (h : Depicts W N) {pages : Table WikiPage}
    (hins : W.pages.insert page = some pages) (hpointer : page.currentRevisionId = none) :
    Depicts { W with pages := pages } (N.put page.tenantId page.slug
      ⟨page.title, page.pageType, page.status, .empty, [], []⟩) := by
  refine h.put hw page ?_ ?_ (fun t s hname ↦ ?_)
    fun _ _ _ _ _ ↦ ⟨rfl, rfl, rfl, fun _ _ h ↦ h⟩
  · exact (Table.lookup_insert hins _).trans (if_pos rfl)
  · exact { shows_new hw (Table.find_none_of_insert hins) hpointer with }
  · refine (Table.lookup_insert hins _).trans (if_neg fun heq ↦ hname ?_)
    obtain ⟨ht, hs⟩ := Prod.mk.inj heq
    exact ⟨ht.symm, hs.symm⟩

theorem PagePrepared.depicts (hw : W.Intact) (h : Depicts W N) {update : PageUpdate}
    (hprep : PagePrepared W update slug page W₁) :
    Depicts W₁ (N.put update.tenantId slug (N.entitled update slug)) ∧
      W₁.pageBySlug update.tenantId slug = some page := by
  cases hprep with
  | created hnone hins =>
    refine ⟨?_, (Table.lookup_insert hins _).trans (if_pos rfl)⟩
    rw [Notebook.entitled, h.eq_none hnone]
    exact h.insert hw hins rfl
  | found hpage =>
    obtain ⟨a, ha, hshows⟩ := h.exists_article hpage
    refine ⟨?_, (pageBySlug_modify hpage _ _ _).trans (if_pos ⟨rfl, rfl⟩)⟩
    rw [Notebook.entitled, ha]
    refine h.modify hw hpage (hshows.repage rfl rfl rfl ?_ rfl hshows.current rfl rfl)
    exact congrArg (Option.getD update.status) hshows.status

theorem Shows.length_all (h : Shows W page a) :
    (W.revisionsOf page.id).length = a.history.all.length := by
  have hlength := congrArg List.length h.versions
  rw [List.length_map, Versions.numbered, List.length_map, List.length_zipIdx] at hlength
  exact hlength

theorem revisionsOf_insert {revision : WikiRevision} {revisions : Table WikiRevision}
    (hins : W.revisions.insert revision = some revisions) (pages : Table WikiPage) (i : ℕ) :
    ({ W with revisions := revisions, pages := pages } : WikiStore).revisionsOf i =
      W.revisionsOf i ++ if revision.pageId = i then [revision] else [] := by
  rw [WikiStore.revisionsOf, Table.rows_insert hins, List.filter_append, WikiStore.revisionsOf,
    List.filter_singleton]
  by_cases hi : revision.pageId = i
  · rw [if_pos hi, show (revision.pageId == i) = true by simpa using hi]
    rfl
  · rw [if_neg hi, show (revision.pageId == i) = false by simpa using hi]
    rfl

theorem RevisionAdded.depicts (hw : W.Intact) (h : Depicts W N)
    (hpage : W.pageBySlug tenantId slug = some page) (ha : N tenantId slug = some a)
    {c : RevisionContent} {revision : WikiRevision}
    (hadded : RevisionAdded W W₁ page.id c revision) :
    Depicts W₁ (N.put tenantId slug { a with history := a.history.add c }) ∧
      W₁.pageBySlug tenantId slug = some ((setCurrentPatch revision.id).app page) ∧
      revision.revisionNo = a.history.all.length + 1 ∧ revision.said = c := by
  obtain ⟨a₀, ha₀, hshows⟩ := h.exists_article hpage
  obtain rfl := Option.some.inj (ha.symm.trans ha₀)
  obtain ⟨⟨id, rfl⟩, -, revisions, hins, rfl⟩ := hadded
  have hno : W.nextRevisionNo page.id = a.history.all.length + 1 := by
    rw [WikiStore.nextRevisionNo_eq (hw.revisionNos page.id), hshows.length_all]
  have hkept : ∀ j r, W.revisions.find j = some r → revisions.find j = some r :=
    fun j r hr ↦ Table.find_insert_of_find hins hr
  have hlookup := pageBySlug_modify hpage (setCurrentPatch id)
  have hrevisions := revisionsOf_insert hins (W.pages.modify page.id (setCurrentPatch id))
  refine ⟨h.put hw ((setCurrentPatch id).app page) ?_ ?_ (fun t s hname ↦ ?_)
    fun t s other hname hother ↦ ⟨?_, rfl, rfl, hkept⟩, ?_, hno, rfl⟩
  · exact (hlookup _ _).trans (if_pos ⟨rfl, rfl⟩)
  · refine { hshows with versions := ?_, current := ?_, claims := ?_ }
    · refine (congrArg (List.map _) ((hrevisions page.id).trans
        (congrArg (W.revisionsOf page.id ++ ·) (if_pos rfl)))).trans ?_
      rw [List.map_append, hshows.versions, Versions.numbered_add, ← hno]
      rfl
    · refine (congrArg (Option.map _) (Table.find_insert_self hins)).trans ?_
      exact congrArg some hno
    · rw [← hshows.claims]
      refine List.map_congr_left fun claim hclaim ↦ ?_
      obtain ⟨-, r, hr, -⟩ := hw.claims claim (List.mem_filter.mp hclaim).1
      rw [WikiStore.claimNo, WikiStore.claimNo, hr, hkept _ r hr]
  · exact (hlookup t s).trans (if_neg hname)
  · refine (hrevisions other.id).trans ((congrArg (W.revisionsOf other.id ++ ·)
      (if_neg (ne_of_name hname hpage hother).symm)).trans (List.append_nil _))
  · exact (hlookup _ _).trans (if_pos ⟨rfl, rfl⟩)

theorem LinksReplaced.depicts (hw : W.Intact) (h : Depicts W N)
    (hpage : W.pageBySlug tenantId slug = some page) (ha : N tenantId slug = some a)
    {toSlugs : List String} (hlinks : LinksReplaced W W' tenantId page.id toSlugs) :
    Depicts W' (N.put tenantId slug { a with links := dedupeSlugs toSlugs }) := by
  obtain ⟨a₀, ha₀, hshows⟩ := h.exists_article hpage
  obtain rfl := Option.some.inj (ha.symm.trans ha₀)
  have htenant : page.tenantId = tenantId := (Prod.mk.inj (Table.unique_of_lookup hpage)).1
  have hself := hlinks.linksOf_self hw.linkSound page (Table.find_of_lookup hpage) htenant
  have hother : ∀ i, i ≠ page.id → W'.linksOf i = W.linksOf i := fun i hi ↦ hlinks.linksOf_of_ne hi
  have hstore : W' = { W with links := W'.links } := hlinks.store
  generalize W'.links = links at hstore
  subst hstore
  refine h.put hw page hpage { hshows with links := hself } (fun _ _ _ ↦ rfl)
    fun t s other hname hfind ↦ ⟨rfl, hother _ (ne_of_name hname hpage hfind), rfl, fun _ _ h ↦ h⟩

theorem ClaimAdded.depicts (hw : W.Intact) (h : Depicts W N) {claim : WikiClaim}
    (hadded : ClaimAdded W W' tenantId slug claim) :
    ∃ a no, N tenantId slug = some a ∧ a.history.current = some no ∧
      Depicts W' (N.put tenantId slug { a with claims := a.claims ++ [(no, claim.claimText)] })
    := by
  obtain ⟨⟨page, revision, hpage, hcurrent, hclaimPage, hclaimRevision⟩, hins, hstore⟩ := hadded
  obtain ⟨a, ha, hshows⟩ := h.exists_article hpage
  have hno : a.history.current = some revision.revisionNo := by
    rw [← hshows.current, hcurrent, Option.map_some]
  have hrows := Table.rows_insert hins
  have hclaims : ∀ i, W'.claimsOf i = W.claimsOf i ++ if claim.pageId = i then [claim] else [] := by
    intro i
    rw [WikiStore.claimsOf, hrows, List.filter_append, WikiStore.claimsOf, List.filter_singleton]
    by_cases hi : claim.pageId = i
    · rw [if_pos hi, show (claim.pageId == i) = true by simpa using hi]
      rfl
    · rw [if_neg hi, show (claim.pageId == i) = false by simpa using hi]
      rfl
  have hfind : W.revisions.find claim.revisionId = some revision := by
    obtain ⟨id, hid, hfind⟩ := Option.bind_eq_some_iff.mp hcurrent
    rw [hclaimRevision, show revision.id = id from Table.primary_of_find hfind]
    exact hfind
  refine ⟨a, revision.revisionNo, ha, hno, ?_⟩
  generalize W'.claims = claims at hstore
  generalize W'.claimSources = sources at hstore
  subst hstore
  refine h.put hw page hpage { hshows with claims := ?_ } (fun _ _ _ ↦ rfl)
    fun t s other hname hother ↦ ⟨rfl, rfl, ?_, fun _ _ h ↦ h⟩
  · rw [hclaims, if_pos hclaimPage, List.map_append, List.map_append, List.map_singleton,
      List.map_singleton]
    refine congrArg₂ (· ++ ·) hshows.claims ?_
    exact congrArg (fun no ↦ [(no, claim.claimText)]) (congrArg (Option.map _) hfind)
  · rw [hclaims, if_neg fun heq ↦ ne_of_name hname hpage hother (heq.symm.trans hclaimPage),
      List.append_nil]

/-! ## What the answers say -/

/-- The answer, without ids. -/
def WikiAnswer.reply : WikiAnswer → Reply
  | detail d => .page d.page.tenantId d.page.slug d.page.title d.page.pageType d.page.status
    (d.currentRevision.map fun revision ↦ (revision.revisionNo, revision.said))
  | bundle b => .claim b.claim.claimText
  | links created => .links (created.map WikiLink.toSlug)
  | backlinks sources => .backlinks (sources.map fun source ↦ (source.2.title, source.2.slug))
  | validationRun _ => .findings

/-- A revision of the page is the version with its number. -/
theorem Shows.version (h : Shows W page a) {revision : WikiRevision}
    (hrevision : revision ∈ W.revisionsOf page.id) :
    a.history.version revision.revisionNo = some revision.said := by
  rw [Versions.version_eq_some, ← h.versions]
  exact List.mem_map.mpr ⟨revision, hrevision, rfl⟩

theorem mem_revisionsOf_current (hw : W.Intact) (hpage : page ∈ W.pages.rows)
    {revision : WikiRevision} (h : W.currentOf page = some revision) :
    revision ∈ W.revisionsOf page.id := by
  obtain ⟨id, hid, hfind⟩ := Option.bind_eq_some_iff.mp h
  obtain ⟨r, hr, hof⟩ := hw.exists_pointed hpage hid
  obtain rfl := Option.some.inj (hfind.symm.trans hr)
  exact List.mem_filter.mpr ⟨Table.mem_of_find hr, beq_iff_eq.mpr hof⟩

theorem Shows.shown (hw : W.Intact) (hpage : page ∈ W.pages.rows) (h : Shows W page a) :
    (W.currentOf page).map (fun revision ↦ (revision.revisionNo, revision.said)) =
      a.history.shown := by
  rw [Versions.shown, ← h.current]
  cases hcurrent : W.currentOf page with
  | none => rfl
  | some revision =>
    rw [Option.map_some, Option.map_some, Option.bind_some,
      h.version (mem_revisionsOf_current hw hpage hcurrent), Option.map_some]

theorem Shows.reply_eq (h : Shows W page a) (hpage : W.pageBySlug tenantId slug = some page)
    {detail : WikiPageDetail} (hdetail : detail.page = page)
    (hshown : detail.currentRevision.map (fun revision ↦ (revision.revisionNo, revision.said)) =
      a.history.shown) : (WikiAnswer.detail detail).reply = a.reply tenantId slug := by
  obtain ⟨htenant, hslug⟩ := Prod.mk.inj (Table.unique_of_lookup hpage)
  rw [WikiAnswer.reply, hdetail, hshown, Article.reply, h.title, h.pageType, h.status,
    show page.tenantId = tenantId from htenant, show page.slug = slug from hslug]

theorem WikiService.Written.depicts (hw : W.Intact) (h : Depicts W N)
    (hpage : W.pageBySlug tenantId slug = some page) (ha : N tenantId slug = some a)
    {c : RevisionContent} {detail : WikiPageDetail}
    (hwritten : WikiService.Written unicode W W' tenantId page c detail) :
    Depicts W' (N.put tenantId slug (a.write unicode c)) ∧
      (WikiAnswer.detail detail).reply = (a.write unicode c).reply tenantId slug := by
  obtain ⟨revision, rfl, W₁, hadded, hlinks⟩ := hwritten
  obtain ⟨h₁, hpage₁, hno, hsaid⟩ := hadded.depicts hw h hpage ha
  have hw₁ : W₁.Intact :=
    (hadded.effects (WikiStore.ownedBy_of_pageBySlug hpage)).1.intact hw
  have ha₁ := N.put_self tenantId slug { a with history := a.history.add c }
  have h' := LinksReplaced.depicts hw₁ h₁ hpage₁ ha₁ hlinks
  rw [Notebook.put_put] at h'
  refine ⟨h', ?_⟩
  obtain ⟨b, hb, hshows⟩ := h₁.exists_article hpage₁
  obtain rfl := Option.some.inj (ha₁.symm.trans hb)
  refine hshows.reply_eq hpage₁ rfl ?_
  rw [Option.map_some, hno, hsaid]
  exact (Versions.shown_add _ _).symm

/-- The revision that is published is the version that is meant. -/
theorem Shows.versionMeant (hw : W.Intact) (hpage : page ∈ W.pages.rows) (h : Shows W page a)
    {revisionNo : Option ℤ} {revision : WikiRevision}
    (hrevision : W.resolved page revisionNo = some revision) :
    revision ∈ W.revisionsOf page.id ∧
      a.versionMeant revisionNo = some revision.revisionNo := by
  cases revisionNo with
  | none =>
    refine ⟨mem_revisionsOf_current hw hpage hrevision, ?_⟩
    rw [Article.versionMeant, ← h.current,
      show W.currentOf page = some revision from hrevision, Option.map_some]
  | some no =>
    have hmem : revision ∈ W.pageRevisions page.id := List.mem_of_find?_eq_some hrevision
    rw [WikiStore.pageRevisions, List.mem_insertionSort] at hmem
    have hno : (revision.revisionNo : ℤ) = no := by
      simpa using List.find?_some hrevision
    have hversion := h.version hmem
    have hrange := Versions.isSome_version.mp (Option.isSome_of_eq_some hversion)
    refine ⟨hmem, ?_⟩
    rw [Article.versionMeant, ← hno, if_pos (by omega), Int.toNat_natCast]

theorem Shows.isSome_resolved (h : Shows W page a) {revisionNo : Option ℤ} {no : ℕ}
    (hno : a.versionMeant revisionNo = some no) : (W.resolved page revisionNo).isSome := by
  cases revisionNo with
  | none =>
    rw [Article.versionMeant, ← h.current] at hno
    obtain ⟨revision, hrevision, -⟩ := Option.map_eq_some_iff.mp hno
    exact Option.isSome_of_eq_some hrevision
  | some z =>
    rw [Article.versionMeant] at hno
    split at hno
    · rename_i hrange
      have hin : 1 ≤ z.toNat ∧ z.toNat ≤ a.history.all.length := by
        omega
      obtain ⟨v, hv⟩ := Option.isSome_iff_exists.mp (Versions.isSome_version.mpr hin)
      rw [Versions.version_eq_some, ← h.versions] at hv
      obtain ⟨revision, hmem, heq⟩ := List.mem_map.mp hv
      have hrevision : revision.revisionNo = z.toNat := (Prod.mk.inj heq).1
      rw [WikiStore.resolved, List.find?_isSome]
      refine ⟨revision, (List.mem_insertionSort _).mpr hmem, ?_⟩
      rw [beq_iff_eq, hrevision]
      omega
    · cases hno

/-- A page whose revision was published. -/
theorem Depicts.published (hw : W.Intact) (h : Depicts W N)
    (hpage : W.pageBySlug tenantId slug = some page) (ha : N tenantId slug = some a)
    {revisionNo : Option ℤ} {revision : WikiRevision}
    (hrevision : W.resolved page revisionNo = some revision) :
    ∃ no history, a.versionMeant revisionNo = some no ∧ a.history.publish no = some history ∧
      Depicts { W with pages := W.pages.modify page.id (publishPatch revision.id) }
        (N.put tenantId slug { a with history := history, status := "published" }) ∧
      (WikiAnswer.detail ⟨(publishPatch revision.id).app page, some revision⟩).reply =
        { a with history := history, status := "published" }.reply tenantId slug := by
  obtain ⟨a₀, ha₀, hshows⟩ := h.exists_article hpage
  obtain rfl := Option.some.inj (ha.symm.trans ha₀)
  obtain ⟨hmem, hno⟩ := hshows.versionMeant hw (Table.mem_of_lookup hpage) hrevision
  have hversion := hshows.version hmem
  have hrange := Versions.isSome_version.mp (Option.isSome_of_eq_some hversion)
  obtain ⟨history, hpublish⟩ : ∃ history, a.history.publish revision.revisionNo = some history :=
    ⟨_, dif_pos hrange⟩
  obtain ⟨-, hall, hcurrent⟩ := Versions.publish_eq_some.mp hpublish
  have hfind : W.revisions.find revision.id = some revision :=
    Table.find_primary (List.mem_filter.mp hmem).1
  have h' := h.modify hw hpage (a := { a with history := history, status := "published" })
    (p := publishPatch revision.id) (hshows.repage rfl hshows.title hshows.pageType rfl hall
      ((congrArg (Option.map _) hfind).trans hcurrent.symm) rfl rfl)
  refine ⟨_, history, hno, hpublish, h', ?_⟩
  have hpage' := (pageBySlug_modify hpage (publishPatch revision.id) tenantId slug).trans
    (if_pos ⟨rfl, rfl⟩)
  obtain ⟨b, hb, hshows'⟩ := h'.exists_article hpage'
  obtain rfl := Option.some.inj ((N.put_self _ _ _).symm.trans hb)
  refine hshows'.reply_eq hpage' rfl ?_
  rw [Versions.shown_of_publish hpublish, hversion]
  rfl

/-! ## Backlinks -/

theorem WikiStore.backlinkOf_eq_some {link : WikiLink} {source : WikiLink × WikiPage} :
    W.backlinkOf tenantId slug link = some source ↔
      source.1 = link ∧ link.tenantId = tenantId ∧ link.toSlug = slug ∧
        W.pages.find link.fromPageId = some source.2 ∧ source.2.tenantId = tenantId := by
  rw [WikiStore.backlinkOf]
  split
  · rename_i h
    rw [Option.map_eq_some_iff]
    constructor
    · rintro ⟨page, hpage, rfl⟩
      obtain ⟨hfind, htenant⟩ := Option.filter_eq_some_iff.mp hpage
      exact ⟨rfl, h.1, h.2, hfind, by simpa using htenant⟩
    · rintro ⟨rfl, -, -, hfind, htenant⟩
      exact ⟨source.2, Option.filter_eq_some_iff.mpr ⟨hfind, by simpa using htenant⟩, rfl⟩
  · rename_i h
    exact ⟨fun heq ↦ absurd heq (Option.some_ne_none source).symm,
      fun heq ↦ absurd ⟨heq.2.1, heq.2.2.1⟩ h⟩

theorem pairwise_backlinks (postgres : PostgresData) (w : WikiStore) (tenantId slug : String) :
    (w.backlinks postgres tenantId slug).Pairwise fun a b ↦
      postgres.TextLT a.2.title b.2.title ∨
        a.2.title = b.2.title ∧ postgres.TextLE a.2.slug b.2.slug := by
  let o := postgres.collation
  let r : WikiLink × WikiPage → WikiLink × WikiPage → Prop := fun a b ↦
    postgres.TextLT a.2.title b.2.title ∨
      a.2.title = b.2.title ∧ postgres.TextLE a.2.slug b.2.slug
  have htotal : Std.Total r := ⟨fun a b ↦ by
    rcases @lt_trichotomy _ o a.2.title b.2.title with hlt | heq | hlt
    · exact .inl (.inl hlt)
    · exact (o.le_total a.2.slug b.2.slug).imp (fun h ↦ .inr ⟨heq, h⟩) fun h ↦ .inr ⟨heq.symm, h⟩
    · exact .inr (.inl hlt)⟩
  have htrans : IsTrans _ r := ⟨fun a b c hab hbc ↦ by
    rcases hab with hab | ⟨hab, hab'⟩
    · rcases hbc with hbc | ⟨hbc, -⟩
      · exact .inl (@lt_trans _ o.toPreorder _ _ _ hab hbc)
      · exact .inl (hbc ▸ hab)
    · rcases hbc with hbc | ⟨hbc, hbc'⟩
      · exact .inl (hab ▸ hbc)
      · exact .inr ⟨hab.trans hbc, o.le_trans _ _ _ hab' hbc'⟩⟩
  exact List.pairwise_insertionSort r _

theorem pairwise_links (hw : W.Intact) : W.links.rows.Pairwise fun link other ↦
    ¬(link.fromPageId = other.fromPageId ∧ link.toSlug = other.toSlug) := by
  rw [List.pairwise_iff_forall_sublist]
  rintro link other hsub ⟨hfrom, hslug⟩
  have hnodup := List.pairwise_map.mp (hw.linkSlugs link.fromPageId)
  rw [WikiStore.linksOf, List.pairwise_filter, List.pairwise_iff_forall_sublist] at hnodup
  exact hnodup hsub (by simp) (by simp [hfrom]) hslug

/-- The backlinks are of different pages. -/
theorem pairwise_backlinks_slug (postgres : PostgresData) (hw : W.Intact) (tenantId slug : String) :
    (W.backlinks postgres tenantId slug).Pairwise fun a b ↦ a.2.slug ≠ b.2.slug := by
  rw [WikiStore.backlinks, (List.perm_insertionSort _ _).pairwise_iff fun h ↦ h.symm,
    List.pairwise_filterMap]
  refine (pairwise_links hw).imp fun {link other} hne a ha b hb hslug ↦ hne ?_
  obtain ⟨-, -, hto, hfind, htenant⟩ := WikiStore.backlinkOf_eq_some.mp ha
  obtain ⟨-, -, hto', hfind', htenant'⟩ := WikiStore.backlinkOf_eq_some.mp hb
  have hsame : a.2 = b.2 := Table.eq_of_unique (Table.mem_of_find hfind)
    (Table.mem_of_find hfind') (Prod.ext (htenant.trans htenant'.symm) hslug)
  refine ⟨?_, hto.trans hto'.symm⟩
  rw [← Table.primary_of_find hfind, ← Table.primary_of_find hfind', hsame]

theorem Depicts.linkedFrom (postgres : PostgresData) (hw : W.Intact) (h : Depicts W N)
    (tenantId slug : String) : N.LinkedFrom postgres tenantId slug
      ((W.backlinks postgres tenantId slug).map fun source ↦ (source.2.title, source.2.slug)) where
  ordered := by
    rw [List.pairwise_map]
    refine ((pairwise_backlinks postgres W tenantId slug).and
      (pairwise_backlinks_slug postgres hw tenantId slug)).imp fun {a b} hab ↦ ?_
    exact hab.1.imp id fun heq ↦
      ⟨heq.1, @lt_of_le_of_ne _ postgres.collation.toPartialOrder _ _ heq.2 hab.2⟩
  mem title source := by
    rw [List.mem_map]
    constructor
    · rintro ⟨⟨link, page⟩, hmem, heq⟩
      obtain ⟨rfl, rfl⟩ := Prod.mk.inj heq
      rw [WikiStore.backlinks, List.mem_insertionSort, List.mem_filterMap] at hmem
      obtain ⟨link', hlink, hof⟩ := hmem
      obtain ⟨rfl, -, hto, hfind, htenant⟩ := WikiStore.backlinkOf_eq_some.mp hof
      have hpage : W.pageBySlug tenantId page.slug = some page :=
        Table.lookup_eq_some.mpr ⟨Table.mem_of_find hfind, Prod.ext htenant rfl⟩
      obtain ⟨a, ha, hshows⟩ := h.exists_article hpage
      refine ⟨a, ha, hshows.title.symm, ?_⟩
      rw [← hshows.links]
      refine List.mem_map.mpr ⟨link, List.mem_filter.mpr ⟨hlink, ?_⟩, hto⟩
      exact beq_iff_eq.mpr (Table.primary_of_find hfind).symm
    · rintro ⟨a, ha, rfl, hlinks⟩
      obtain ⟨page, hpage, hshows⟩ := h.exists_page ha
      obtain ⟨htenant, hslug⟩ := Prod.mk.inj (Table.unique_of_lookup hpage)
      rw [← hshows.links] at hlinks
      obtain ⟨link, hlink, hto⟩ := List.mem_map.mp hlinks
      obtain ⟨hrow, hfrom⟩ := List.mem_filter.mp hlink
      have hfind : W.pages.find link.fromPageId = some page := by
        rw [beq_iff_eq.mp hfrom]
        exact Table.find_of_lookup hpage
      obtain ⟨owner, howner, hown⟩ := hw.links link hrow
      obtain rfl := Option.some.inj (hfind.symm.trans howner)
      refine ⟨(link, page), ?_, Prod.ext hshows.title hslug⟩
      rw [WikiStore.backlinks, List.mem_insertionSort, List.mem_filterMap]
      exact ⟨link, hrow, WikiStore.backlinkOf_eq_some.mpr
        ⟨rfl, hown.symm.trans htenant, hto, hfind, htenant⟩⟩

/-! ## The operations -/

namespace WikiService

open Program WikiRepository

theorem outTx_getPage_detail (W : WikiStore) (tenantId address : String) :
    OutTx (getPage unicode tenantId address) W (fun detail W' ↦ W = W' ∧ ∃ slug page,
      requireSlug unicode address = .ok slug ∧ W.pageBySlug tenantId slug = some page ∧
        detail = ⟨page, W.currentOf page⟩) fun _ W' ↦ W = W' := by
  refine (OutTx.ofExcept (Q := fun slug W' ↦ W = W' ∧ requireSlug unicode address = .ok slug)
    (fun _ h ↦ ⟨rfl, h⟩) fun _ _ ↦ rfl).bind ?_
  rintro slug _ ⟨rfl, hslug⟩
  have hrequire : OutTx (requirePage tenantId slug) W
      (fun page W' ↦ W = W' ∧ W.pageBySlug tenantId slug = some page) fun _ W' ↦ W = W' := by
    refine (OutTx.query (Q := fun found W' ↦ W = W' ∧ found = W.pageBySlug tenantId slug)
      ⟨rfl, rfl⟩ fun _ ↦ rfl).bind ?_
    rintro found _ ⟨rfl, hfound⟩
    cases found with
    | none => exact OutTx.raise rfl
    | some page => exact OutTx.pure ⟨rfl, hfound.symm⟩
  refine hrequire.bind ?_
  rintro page _ ⟨rfl, hpage⟩
  refine (OutTx.query (Q := fun found W' ↦ W = W' ∧ found = W.currentOf page)
    ⟨rfl, by rw [WikiStore.currentRevision, hpage]; rfl⟩ fun _ ↦ rfl).bind ?_
  rintro revision _ ⟨rfl, rfl⟩
  exact OutTx.pure ⟨rfl, slug, page, hslug, hpage, rfl⟩

theorem inTx_replaceLinksForPage_slugs (W : WikiStore) (tenantId : String) (pageId : ℕ)
    (toSlugs : List String) : InTx (replaceLinksForPage tenantId pageId toSlugs) W
      fun links _ ↦ links.map WikiLink.toSlug = dedupeSlugs toSlugs := by
  refine (InTx.statement (R := fun _ _ ↦ True) fun _ _ _ ↦ trivial).bind fun _ W₁ _ ↦ ?_
  refine (InTx.mapM' (I := fun slugs (links : List WikiLink) (_ : WikiStore) ↦
    links.map WikiLink.toSlug ++ slugs = dedupeSlugs toSlugs) ?_ rfl).mono ?_
  · intro slug slugs links W₂ h
    refine (InTx.freshId (T := fun _ _ ↦ True) fun _ ↦ trivial).bind fun id W₃ _ ↦ ?_
    refine InTx.statement fun link W' hlink ↦ ?_
    split at hlink
    · obtain ⟨rfl, -⟩ := Prod.mk.inj (Except.ok.inj hlink)
      rw [List.map_append, List.append_assoc]
      exact h
    · cases hlink
  · intro links _ h
    rwa [List.append_nil] at h

theorem outTx_rebuildLinksFromMarkdown_slugs (W : WikiStore) (tenantId address : String)
    (markdown : List Char) :
    OutTx (rebuildLinksFromMarkdown unicode tenantId address markdown) W
      (fun links W' ↦ ∃ slug page, requireSlug unicode address = .ok slug ∧
        W.pageBySlug tenantId slug = some page ∧
        LinksReplaced W W' tenantId page.id (extractWikilinks unicode markdown) ∧
        links.map WikiLink.toSlug = extractWikilinks unicode markdown)
      fun _ W' ↦ W = W' := by
  refine (OutTx.ofExcept (Q := fun slug W' ↦ requireSlug unicode address = .ok slug ∧ W = W')
    (fun _ h ↦ ⟨h, rfl⟩) fun _ _ ↦ rfl).bind ?_
  rintro slug _ ⟨hslug, rfl⟩
  refine OutTx.transaction ?_ fun _ ↦ rfl
  refine (inTx_requirePage W tenantId slug).bind ?_
  rintro page _ ⟨hpage, rfl⟩
  refine ((inTx_replaceLinksForPage W tenantId page.id _).and
    (inTx_replaceLinksForPage_slugs W tenantId page.id _)).mono fun links W' h ↦ ?_
  rw [dedupeSlugs_of_nodup (nodup_extractWikilinks unicode markdown)] at h
  exact ⟨slug, page, hslug, hpage, h.1, h.2⟩

end WikiService

variable {postgres : PostgresData} {time : CallTime}

/-- **One operation of `WikiService`.** Its answer is one that the notebook gives, and the tables
are the notebook afterwards. -/
theorem WikiOperation.outTx_answers (hw : W.Intact) (h : Depicts W N)
    (operation : WikiOperation) {x : WikiProgram WikiAnswer}
    (hx : operation.program unicode postgres time = .inl x) :
    OutTx x W (fun answer W' ↦ ∃ N', N.Answers unicode postgres operation answer.reply N' ∧
      Depicts W' N') fun _ W' ↦ W = W' := by
  cases operation with
  | createOrUpdatePage update =>
    obtain rfl := Sum.inl.inj hx
    refine OutTx.map ((WikiService.outTx_createOrUpdatePage unicode W update).mono ?_
      fun _ _ h ↦ h)
    rintro detail W' ⟨slug, page, W₁, hslug, hprep, hwritten⟩
    obtain ⟨h₁, hpage⟩ := hprep.depicts hw h
    obtain ⟨h', hreply⟩ := hwritten.depicts (hprep.effects.1.intact hw) h₁ hpage
      (N.put_self update.tenantId slug _)
    -- the page is prepared and then written: two changes under one name are one
    rw [Notebook.put_put] at h'
    rw [hreply]
    exact ⟨_, .updated hslug rfl, h'⟩
  | publishPage tenantId address revisionNo =>
    obtain rfl := Sum.inl.inj hx
    refine OutTx.map ((WikiService.outTx_publishPage unicode W tenantId address revisionNo).mono ?_
      fun _ _ h ↦ h)
    rintro detail W' ⟨slug, page, revision, hslug, hpage, hrevision, rfl, rfl⟩
    obtain ⟨a, ha, -⟩ := h.exists_article hpage
    obtain ⟨no, history, hno, hpublish, h', hreply⟩ := h.published hw hpage ha hrevision
    rw [hreply]
    exact ⟨_, .published hslug ha hno hpublish, h'⟩
  | getPage tenantId address =>
    obtain rfl := Sum.inl.inj hx
    refine OutTx.map ((WikiService.outTx_getPage_detail W tenantId address).mono ?_
      fun _ _ h ↦ h)
    rintro detail W' ⟨rfl, slug, page, hslug, hpage, rfl⟩
    obtain ⟨a, ha, hshows⟩ := h.exists_article hpage
    rw [hshows.reply_eq hpage rfl (hshows.shown hw (Table.mem_of_lookup hpage))]
    exact ⟨N, .shown hslug ha, h⟩
  | createRevision tenantId address content =>
    obtain rfl := Sum.inl.inj hx
    refine OutTx.map ((WikiService.outTx_createRevision unicode W tenantId address content).mono ?_
      fun _ _ h ↦ h)
    rintro detail W' ⟨slug, page, hslug, hpage, hwritten⟩
    obtain ⟨a, ha, -⟩ := h.exists_article hpage
    obtain ⟨h', hreply⟩ := hwritten.depicts hw h hpage ha
    rw [hreply]
    exact ⟨_, .revised hslug ha, h'⟩
  | addClaimWithSources tenantId address claimText sources supportStatus confidence =>
    obtain rfl := Sum.inl.inj hx
    refine OutTx.map ((WikiService.outTx_addClaimWithSources unicode W tenantId address claimText
      sources supportStatus confidence).mono ?_ fun _ _ h ↦ h)
    rintro bundle W' ⟨slug, hslug, hadded, htext⟩
    obtain ⟨a, no, ha, hno, h'⟩ := hadded.depicts hw h
    rw [WikiAnswer.reply, htext]
    exact ⟨_, .claimed hslug ha hno, htext ▸ h'⟩
  | rebuildLinksFromMarkdown tenantId address markdown =>
    obtain rfl := Sum.inl.inj hx
    refine OutTx.map ((WikiService.outTx_rebuildLinksFromMarkdown_slugs W tenantId address
      markdown).mono ?_ fun _ _ h ↦ h)
    rintro links W' ⟨slug, page, hslug, hpage, hlinks, hslugs⟩
    obtain ⟨a, ha, -⟩ := h.exists_article hpage
    have h' := hlinks.depicts hw h hpage ha
    -- the links that are found in a text are distinct, so there is nothing to drop
    rw [dedupeSlugs_of_nodup (nodup_extractWikilinks unicode markdown)] at h'
    rw [WikiAnswer.reply, hslugs]
    exact ⟨_, .relinked hslug ha, h'⟩
  | getBacklinks tenantId address =>
    obtain rfl := Sum.inl.inj hx
    refine OutTx.map ((WikiService.outTx_getBacklinks unicode W postgres tenantId address).mono ?_
      fun _ _ h ↦ h)
    rintro backlinks W' ⟨rfl, slug, hslug, rfl⟩
    exact ⟨N, .linked hslug (h.linkedFrom postgres hw tenantId slug), h⟩
  | validatePage validators tenantId slug => cases hx
  | listPageResults tenantId slug => cases hx


/-! ## The validation -/

namespace WikiValidationService

open Program WikiRepository

/-- The slugs of the two services differ in the text of their error. -/
theorem requireSlug_iff {address slug : String} :
    WikiValidationService.requireSlug unicode address = .ok slug ↔
      KnowledgeAlakazam.requireSlug unicode address = .ok slug := by
  rw [WikiValidationService.requireSlug, KnowledgeAlakazam.requireSlug]
  by_cases hempty : slugifyWikiTarget unicode address = ""
  · rw [if_pos hempty, if_pos hempty]
    simp only [reduceCtorEq]
  · rw [if_neg hempty, if_neg hempty]

theorem outTx_requirePage (db : WikiDatabase) (tenantId slug : String) :
    OutTx (requirePage tenantId slug) db (fun found db' ↦ db = db' ∧
      db.wiki.pageBySlug tenantId slug = some found.1) fun _ db' ↦ db = db' := by
  refine (OutTx.query (Q := fun found db' ↦ db = db' ∧ found =
    (db.wiki.pageBySlug tenantId slug).map fun page ↦ (page, db.updatedAt page.id))
    ⟨rfl, rfl⟩ fun _ ↦ rfl).bind ?_
  rintro found _ ⟨rfl, hfound⟩
  cases found with
  | none => exact OutTx.raise rfl
  | some found =>
    obtain ⟨page, hpage, rfl⟩ := Option.map_eq_some_iff.mp hfound.symm
    exact OutTx.pure ⟨rfl, hpage⟩

theorem outTx_requireCurrentRevision (db : WikiDatabase) (tenantId slug : String) :
    OutTx (requireCurrentRevision tenantId slug) db (fun revision db' ↦ db = db' ∧
      db.wiki.currentRevision tenantId slug = some revision) fun _ db' ↦ db = db' := by
  refine (OutTx.query (Q := fun found db' ↦ db = db' ∧
    found = db.wiki.currentRevision tenantId slug) ⟨rfl, rfl⟩ fun _ ↦ rfl).bind ?_
  rintro found _ ⟨rfl, hfound⟩
  cases found with
  | none => exact OutTx.raise rfl
  | some revision => exact OutTx.pure ⟨rfl, hfound.symm⟩

theorem outTx_listPageResults_page (unicode : UnicodeData) (postgres : PostgresData)
    (db : WikiDatabase) (tenantId address : String) :
    OutTx (listPageResults unicode postgres tenantId address) db (fun _ db' ↦ db = db' ∧
      ∃ slug page revision, requireSlug unicode address = .ok slug ∧
        db.wiki.pageBySlug tenantId slug = some page ∧ db.wiki.currentOf page = some revision)
      fun _ db' ↦ db = db' := by
  refine (OutTx.ofExcept (Q := fun slug db' ↦ db = db' ∧ requireSlug unicode address = .ok slug)
    (fun _ h ↦ ⟨rfl, h⟩) fun _ _ ↦ rfl).bind ?_
  rintro slug _ ⟨rfl, hslug⟩
  refine (outTx_requirePage db tenantId slug).bind ?_
  rintro ⟨page, updatedAt⟩ _ ⟨rfl, hpage⟩
  refine (outTx_requireCurrentRevision db tenantId slug).bind ?_
  rintro revision _ ⟨rfl, hrevision⟩
  rw [WikiStore.currentRevision, hpage] at hrevision
  refine (OutTx.query (Q := fun _ db' ↦ db = db') rfl fun _ ↦ rfl).bind ?_
  rintro results _ rfl
  exact OutTx.pure ⟨rfl, slug, page, revision, hslug, hpage, hrevision⟩

end WikiValidationService

/-- **One operation of `WikiValidationService`.** The articles stay as they are. -/
theorem WikiOperation.outTx_answers_validation {db : WikiDatabase} (h : Depicts db.wiki N)
    (operation : WikiOperation) {x : DatabaseProgram WikiAnswer}
    (hx : operation.program unicode postgres time = .inr x) :
    OutTx x db (fun answer db' ↦ N.Answers unicode postgres operation answer.reply N ∧
      db'.wiki = db.wiki) fun _ db' ↦ db = db' := by
  cases operation with
  | validatePage validators tenantId address =>
    obtain rfl := Sum.inr.inj hx
    refine OutTx.map ((WikiValidationService.outTx_validatePage unicode postgres db validators
      time tenantId address).mono ?_ fun _ _ h ↦ h)
    rintro run db' ⟨slug, inputs, hslug, hpage, hrevision, hstored⟩
    obtain ⟨a, ha, hshows⟩ := h.exists_article hpage
    have hno := hshows.current.symm.trans (congrArg (Option.map _) hrevision)
    have hwiki : db'.wiki = db.wiki := by
      rw [hstored.store]
    exact ⟨.validated (WikiValidationService.requireSlug_iff.mp hslug) ha hno, hwiki⟩
  | listPageResults tenantId address =>
    obtain rfl := Sum.inr.inj hx
    refine OutTx.map ((WikiValidationService.outTx_listPageResults_page unicode postgres db
      tenantId address).mono ?_ fun _ _ h ↦ h)
    rintro run _ ⟨rfl, slug, page, revision, hslug, hpage, hrevision⟩
    obtain ⟨a, ha, hshows⟩ := h.exists_article hpage
    have hno := hshows.current.symm.trans (congrArg (Option.map _) hrevision)
    exact ⟨.listed (WikiValidationService.requireSlug_iff.mp hslug) ha hno, rfl⟩
  | createOrUpdatePage update => cases hx
  | publishPage tenantId slug revisionNo => cases hx
  | getPage tenantId slug => cases hx
  | createRevision tenantId slug content => cases hx
  | addClaimWithSources tenantId slug claimText sources supportStatus confidence => cases hx
  | rebuildLinksFromMarkdown tenantId slug markdown => cases hx
  | getBacklinks tenantId slug => cases hx

end KnowledgeAlakazam
