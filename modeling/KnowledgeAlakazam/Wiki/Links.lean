import KnowledgeAlakazam.Core.Transition
import KnowledgeAlakazam.Wiki.Service

/-!
# Links and current revisions

Backlinks are answered from the link table, so the table has to say what the current revisions say.
This module says what that is (`LinksMirror`, `BacklinksExact`), and what each of the service's
calls does to it. `create_or_update_page` and `create_revision` replace a page's links when they
move its pointer; `publish_page` moves the pointer too, possibly to an older revision, and leaves
the links alone.

`get_backlinks` sends the slug it is asked for through `slugify_wiki_target` again, so a link
target that is not its own slug is stored and then looked for under another name.
-/

namespace KnowledgeAlakazam

/-! ## Runs of the service -/

inductive WikiCall where
  | createOrUpdatePage (update : PageUpdate)
  | createRevision (tenantId slug : String) (content : RevisionContent)
  | publishPage (tenantId slug : String) (revisionNo : Option ℤ)

/-- A call, and how the statements it awaits end. -/
structure WikiLabel where
  call : WikiCall
  outcomes : List (Option PyException)

structure WikiState where
  store : WikiStore
  nextId : ℕ

section Definitions

variable (unicode : UnicodeData)

def WikiCall.program : WikiCall → WikiProgram WikiPageDetail
  | createOrUpdatePage update => WikiService.createOrUpdatePage unicode update
  | createRevision tenantId slug content => WikiService.createRevision unicode tenantId slug content
  | publishPage tenantId slug revisionNo =>
    WikiService.publishPage unicode tenantId slug revisionNo

/-- The run of a call in a session of its own. -/
def WikiLabel.run (label : WikiLabel) (s : WikiState) :
    Except PyException WikiPageDetail × Session WikiStore PyException :=
  label.call.program unicode (Session.start s.store s.nextId label.outcomes)

/-- A call is answered, with a result or an error. -/
def WikiState.step (s : WikiState) (label : WikiLabel) : Option WikiState :=
  some ⟨(label.run unicode s).2.committed, (label.run unicode s).2.nextId⟩

def WikiState.initial : WikiState := ⟨.empty, 0⟩

/-! ## The law -/

/-- The targets of the links of a revision. -/
def WikiRevision.targets (revision : WikiRevision) : List String :=
  if revision.contentFormat = "markdown" then extractWikilinks unicode revision.content else []

/-- The links of every page are those of its current revision. -/
def LinksMirror (w : WikiStore) : Prop :=
  ∀ page ∈ w.pages.rows, ∀ revision ∈ w.currentOf page,
    ((w.linksOf page.id).map WikiLink.toSlug).Perm (revision.targets unicode)

/-- The revision links to a slug: it is one of the targets, or it stands for one of them. -/
def WikiRevision.LinksTo (revision : WikiRevision) (slug : String) : Prop :=
  slug ∈ revision.targets unicode ∨
    ∃ target ∈ revision.targets unicode, requireSlug unicode slug = .ok target

instance (revision : WikiRevision) : DecidablePred (revision.LinksTo unicode) := fun _ ↦
  inferInstanceAs (Decidable (_ ∨ _))

variable (postgres : PostgresData)

/-- What `get_backlinks` lists, in a session of its own. -/
def WikiStore.listedBacklinks (w : WikiStore) (tenantId slug : String) :
    List (WikiLink × WikiPage) :=
  match (WikiService.getBacklinks unicode postgres tenantId slug
    (Session.start w 0 [])).1 with
  | .ok backlinks => backlinks
  | .error _ => []

/-- `get_backlinks` lists a page once if its current revision links to the slug, and not at all
otherwise. -/
def BacklinksExact (w : WikiStore) : Prop :=
  ∀ page ∈ w.pages.rows, ∀ revision ∈ w.currentOf page, ∀ slug,
    ((w.listedBacklinks unicode postgres page.tenantId slug).map
      fun backlink ↦ backlink.2.id).count page.id = if revision.LinksTo unicode slug then 1 else 0

/-- Every target can be asked for: its slug is one of the targets. -/
def AddressableTargets (targets : List String) : Prop :=
  ∀ target ∈ targets, ∃ slug ∈ targets, requireSlug unicode target = .ok slug

instance (w : WikiStore) : Decidable (LinksMirror unicode w) :=
  inferInstanceAs (Decidable (∀ page ∈ _, ∀ revision ∈ w.currentOf page, List.Perm _ _))

end Definitions

/-! ## What every store satisfies -/

/-- Links belong to the tenant of their page, and pages point to revisions that exist. -/
structure LinkSound (w : WikiStore) : Prop where
  tenants : ∀ link ∈ w.links.rows,
    ∃ page, w.pages.find link.fromPageId = some page ∧ page.tenantId = link.tenantId
  pointers : ∀ i page, w.pages.find i = some page → ∀ id ∈ page.currentRevisionId,
    ∃ revision, w.revisions.find id = some revision

/-- The pages afterwards are those before, with their tenants and pointers, and pages without a
pointer. -/
structure PagesKept (pages pages' : Table WikiPage) : Prop where
  kept : ∀ i page, pages.find i = some page →
    ∃ page', pages'.find i = some page' ∧ page'.tenantId = page.tenantId
  old : ∀ i page', pages'.find i = some page' → page'.currentRevisionId = none ∨
    ∃ page, pages.find i = some page ∧ page'.currentRevisionId = page.currentRevisionId

theorem PagePrepared.pagesKept {W W₁ : WikiStore} {update : PageUpdate} {slug : String}
    {page : WikiPage} (h : PagePrepared W update slug page W₁) :
    PagesKept W.pages W₁.pages := by
  cases h with
  | @created id pages hnone hins =>
    constructor
    · intro i old hold
      refine ⟨old, ?_, rfl⟩
      have hne : id ≠ i := by
        rintro rfl
        cases (Table.find_none_of_insert hins).symm.trans hold
      exact (Table.find_insert hins i).trans ((if_neg hne).trans hold)
    · intro i page' hpage'
      have hfind := (Table.find_insert hins i).symm.trans hpage'
      split at hfind
      · exact Or.inl (by rw [← Option.some.inj hfind])
      · exact Or.inr ⟨page', hfind, rfl⟩
  | @found page hpage =>
    constructor
    · intro i old hold
      refine ⟨_, (Table.find_modify ..).trans (by rw [hold]; exact (apply_ite _ _ _ _).symm), ?_⟩
      split <;> rfl
    · intro i page' hpage'
      rw [Table.find_modify] at hpage'
      split at hpage'
      · obtain ⟨old, hold, rfl⟩ := Option.map_eq_some_iff.mp hpage'
        exact Or.inr ⟨old, hold, rfl⟩
      · exact Or.inr ⟨page', hpage', rfl⟩

theorem PagePrepared.store {W W₁ : WikiStore} {update : PageUpdate} {slug : String}
    {page : WikiPage} (h : PagePrepared W update slug page W₁) :
    W₁ = { W with pages := W₁.pages } := by
  cases h <;> rfl

theorem PagePrepared.find_of_ne {W W₁ : WikiStore} {update : PageUpdate} {slug : String}
    {page : WikiPage} (h : PagePrepared W update slug page W₁) {i : ℕ} (hi : i ≠ page.id) :
    W₁.pages.find i = W.pages.find i := by
  cases h with
  | created hnone hins => exact (Table.find_insert hins i).trans (if_neg hi.symm)
  | found hpage => exact Table.find_modify_of_ne hi _

theorem PagePrepared.find_page {W W₁ : WikiStore} {update : PageUpdate} {slug : String}
    {page : WikiPage} (h : PagePrepared W update slug page W₁) :
    W₁.pages.find page.id = some page ∧ page.tenantId = update.tenantId := by
  cases h with
  | created hnone hins => exact ⟨(Table.find_insert hins _).trans (if_pos rfl), rfl⟩
  | found hpage =>
    exact ⟨Table.find_modify_self (Table.find_of_lookup hpage) _,
      (Prod.mk.inj (Table.unique_of_lookup hpage)).1⟩

/-- Whatever is the current revision of a page has the property. -/
def AllCurrent (P : WikiRevision → Prop) (w : WikiStore) : Prop :=
  ∀ i page, w.pages.find i = some page → ∀ revision ∈ w.currentOf page, P revision

/-- Every page has a current revision: between calls, not inside of them. -/
def Pointed (w : WikiStore) : Prop :=
  ∀ i page, w.pages.find i = some page → ∃ revision, w.currentOf page = some revision

namespace LinkSound

variable {W W₁ W' : WikiStore}

theorem empty : LinkSound WikiStore.empty where
  tenants _ h := nomatch h
  pointers _ _ h := nomatch h

theorem setPages (hs : LinkSound W) {pages : Table WikiPage} (h : PagesKept W.pages pages) :
    LinkSound { W with pages := pages } where
  tenants link hlink := by
    obtain ⟨page, hpage, htenant⟩ := hs.tenants link hlink
    obtain ⟨page', hpage', htenant'⟩ := h.kept _ page hpage
    exact ⟨page', hpage', htenant'.trans htenant⟩
  pointers i page' hpage' id hid := by
    rcases h.old i page' hpage' with hnone | ⟨page, hpage, heq⟩
    · exact nomatch hnone.symm.trans hid
    · exact hs.pointers i page hpage id (heq ▸ hid)

theorem point (hs : LinkSound W) {page : WikiPage} (hpage : W.pages.find page.id = some page)
    {p : Patch WikiPage} (htenant : (p.app page).tenantId = page.tenantId)
    (hpointer : ∀ id ∈ (p.app page).currentRevisionId, ∃ r, W.revisions.find id = some r) :
    LinkSound { W with pages := W.pages.modify page.id p } where
  tenants link hlink := by
    obtain ⟨owner, howner, hten⟩ := hs.tenants link hlink
    by_cases hi : link.fromPageId = page.id
    · rw [hi] at howner ⊢
      obtain rfl := Option.some.inj (hpage.symm.trans howner)
      exact ⟨_, Table.find_modify_self hpage p, htenant.trans hten⟩
    · exact ⟨owner, (Table.find_modify_of_ne hi p).trans howner, hten⟩
  pointers i page' hpage' id hid := by
    by_cases hi : i = page.id
    · subst hi
      rw [Table.find_modify_self hpage p] at hpage'
      exact hpointer id (Option.some.inj hpage' ▸ hid)
    · rw [Table.find_modify_of_ne hi p] at hpage'
      exact hs.pointers i page' hpage' id hid

theorem insertRevision (hs : LinkSound W) {revision : WikiRevision}
    {revisions : Table WikiRevision} (h : W.revisions.insert revision = some revisions) :
    LinkSound { W with revisions := revisions } where
  tenants := hs.tenants
  pointers i page hpage id hid := by
    obtain ⟨old, hold⟩ := hs.pointers i page hpage id hid
    dsimp only
    rw [Table.find_insert h]
    split
    · exact ⟨revision, rfl⟩
    · exact ⟨old, hold⟩

theorem replaceLinks (hs : LinkSound W) {tenantId : String} (page : WikiPage)
    (hpage : W.pages.find page.id = some page) (htenant : page.tenantId = tenantId)
    {toSlugs : List String} (h : LinksReplaced W W' tenantId page.id toSlugs) :
    LinkSound W' := by
  obtain ⟨⟨new, hrows, -, hnew⟩, hstore⟩ := h
  rw [hstore]
  refine ⟨fun link hlink ↦ ?_, hs.pointers⟩
  have hmem : link ∈ (W.dropLinks tenantId page.id).links.rows ++ new := hrows ▸ hlink
  rcases List.mem_append.mp hmem with hold | hlink
  · exact hs.tenants link (List.mem_filter.mp hold).1
  · obtain ⟨ht, hp⟩ := hnew link hlink
    exact ⟨page, hp ▸ hpage, htenant.trans ht.symm⟩

end LinkSound

/-! ## What the links of a page are afterwards -/

section Links

variable {W W' : WikiStore} {tenantId : String} {toSlugs : List String}

theorem LinksReplaced.linksOf_self (hs : LinkSound W) (page : WikiPage)
    (hpage : W.pages.find page.id = some page) (htenant : page.tenantId = tenantId)
    (h : LinksReplaced W W' tenantId page.id toSlugs) :
    (W'.linksOf page.id).map WikiLink.toSlug = dedupeSlugs toSlugs := by
  obtain ⟨⟨new, hrows, hslugs, hnew⟩, -⟩ := h
  -- the old links of the page are the tenant's, so all of them were deleted
  have hold : (W.dropLinks tenantId page.id).links.rows.filter
      (fun link ↦ link.fromPageId == page.id) = [] := by
    rw [List.filter_eq_nil_iff]
    intro link hlink hfrom
    obtain ⟨hlink, hkeep⟩ := List.mem_filter.mp hlink
    have hid : link.fromPageId = page.id := by simpa using hfrom
    obtain ⟨owner, howner, hten⟩ := hs.tenants link hlink
    rw [hid] at howner
    obtain rfl := Option.some.inj (hpage.symm.trans howner)
    rw [← hten, htenant, hid] at hkeep
    simp at hkeep
  have hself : new.filter (fun link ↦ link.fromPageId == page.id) = new :=
    List.filter_eq_self.mpr fun link hlink ↦ by simpa using (hnew link hlink).2
  calc (W'.linksOf page.id).map WikiLink.toSlug = ([] ++ new).map WikiLink.toSlug := by
        rw [WikiStore.linksOf, hrows, List.filter_append, hold, hself]
    _ = dedupeSlugs toSlugs := by rw [List.nil_append, hslugs]

theorem LinksReplaced.linksOf_of_ne {pageId i : ℕ} (hi : i ≠ pageId)
    (h : LinksReplaced W W' tenantId pageId toSlugs) : W'.linksOf i = W.linksOf i := by
  obtain ⟨⟨new, hrows, -, hnew⟩, -⟩ := h
  have hnil : new.filter (fun link ↦ link.fromPageId == i) = [] := by
    rw [List.filter_eq_nil_iff]
    intro link hlink hfrom
    have hid : link.fromPageId = i := by simpa using hfrom
    exact hi (hid.symm.trans (hnew link hlink).2)
  rw [WikiStore.linksOf, hrows, List.filter_append, hnil, List.append_nil, WikiStore.dropLinks,
    Table.rows_keep, List.filter_filter, WikiStore.linksOf]
  refine List.filter_congr fun link _ ↦ ?_
  by_cases hid : link.fromPageId = i
  · simp [hid, hi]
  · simp [hid]

end Links

/-! ## The calls -/

section Calls

variable {unicode : UnicodeData} {W W₁ W' : WikiStore}

theorem linksMirror_iff_find :
    LinksMirror unicode W ↔ ∀ i page, W.pages.find i = some page →
      ∀ revision ∈ W.currentOf page,
        ((W.linksOf i).map WikiLink.toSlug).Perm (revision.targets unicode) := by
  constructor
  · intro h i page hpage revision hrevision
    obtain rfl : page.id = i := Table.primary_of_find hpage
    exact h page (Table.mem_of_find hpage) revision hrevision
  · intro h page hpage
    exact h page.id page (Table.find_primary hpage)

theorem LinksMirror.setPages (hm : LinksMirror unicode W) {pages : Table WikiPage}
    (h : PagesKept W.pages pages) : LinksMirror unicode { W with pages := pages } := by
  rw [linksMirror_iff_find] at hm ⊢
  intro i page' hpage' revision hrevision
  rw [Option.mem_def, WikiStore.currentOf] at hrevision
  rcases h.old i page' hpage' with hnone | ⟨page, hpage, heq⟩
  · rw [hnone] at hrevision
    cases hrevision
  · rw [heq] at hrevision
    exact hm i page hpage revision hrevision

theorem RevisionAdded.linkSound (hs : LinkSound W) {page : WikiPage} {c : RevisionContent}
    {revision : WikiRevision} (hpage : W.pages.find page.id = some page)
    (h : RevisionAdded W W₁ page.id c revision) : LinkSound W₁ := by
  obtain ⟨-, -, revisions, hins, rfl⟩ := h
  refine (hs.insertRevision hins).point hpage rfl fun id hid ↦ ⟨revision, ?_⟩
  obtain rfl : revision.id = id := Option.some.inj hid
  exact (Table.find_insert hins _).trans (if_pos rfl)

theorem RevisionAdded.current (hs : LinkSound W) {page : WikiPage} {c : RevisionContent}
    {revision : WikiRevision} (h : RevisionAdded W W₁ page.id c revision) {i : ℕ}
    {page' : WikiPage} (hpage' : W₁.pages.find i = some page') :
    if i = page.id then W₁.currentOf page' = some revision
    else W.pages.find i = some page' ∧ W₁.currentOf page' = W.currentOf page' := by
  obtain ⟨-, -, revisions, hins, rfl⟩ := h
  dsimp only at hpage'
  split
  · rename_i hi
    rw [Table.find_modify, if_pos hi] at hpage'
    obtain ⟨old, -, rfl⟩ := Option.map_eq_some_iff.mp hpage'
    exact (Table.find_insert hins _).trans (if_pos rfl)
  · rename_i hi
    rw [Table.find_modify_of_ne hi] at hpage'
    refine ⟨hpage', ?_⟩
    rw [WikiStore.currentOf, WikiStore.currentOf]
    cases hid : page'.currentRevisionId with
    | none => rfl
    | some id =>
      -- the pointer of another page is to a revision that was there before
      obtain ⟨old, hold⟩ := hs.pointers i page' hpage' id hid
      have hne : revision.id ≠ id := by
        rintro rfl
        cases (Table.find_none_of_insert hins).symm.trans hold
      exact (Table.find_insert hins id).trans (if_neg hne)

theorem WikiService.Written.linkSound (hs : LinkSound W) {tenantId : String} {page : WikiPage}
    {c : RevisionContent} {detail : WikiPageDetail} (hpage : W.pages.find page.id = some page)
    (htenant : page.tenantId = tenantId)
    (h : WikiService.Written unicode W W' tenantId page c detail) : LinkSound W' := by
  obtain ⟨revision, -, W₁, hadded, hlinks⟩ := h
  have hs₁ : LinkSound W₁ := hadded.linkSound hs hpage
  obtain ⟨-, -, revisions, -, rfl⟩ := hadded
  exact hs₁.replaceLinks ((setCurrentPatch revision.id).app page)
    (Table.find_modify_self hpage _) htenant hlinks

/-- **Writing a revision restores the mirror** for its page, and keeps it for the others. -/
theorem WikiService.Written.linksMirror (hs : LinkSound W) (hm : LinksMirror unicode W)
    {tenantId : String} {page : WikiPage} {c : RevisionContent} {detail : WikiPageDetail}
    (hpage : W.pages.find page.id = some page) (htenant : page.tenantId = tenantId)
    (h : WikiService.Written unicode W W' tenantId page c detail) : LinksMirror unicode W' := by
  obtain ⟨revision, -, W₁, hadded, hlinks⟩ := h
  have hs₁ : LinkSound W₁ := hadded.linkSound hs hpage
  have hpage₁ : W₁.pages.find page.id = some ((setCurrentPatch revision.id).app page) := by
    obtain ⟨-, -, revisions, -, rfl⟩ := hadded
    exact Table.find_modify_self hpage _
  rw [linksMirror_iff_find] at hm ⊢
  intro i page' hpage' current hcurrent
  have hsame : W' = { W₁ with links := W'.links } := hlinks.store
  rw [hsame] at hpage' hcurrent
  have hmoved := hadded.current hs (show W₁.pages.find i = some page' from hpage')
  split at hmoved
  · rename_i hi
    obtain rfl : revision = current := Option.some.inj (hmoved.symm.trans hcurrent)
    have hself := LinksReplaced.linksOf_self hs₁
      ((setCurrentPatch revision.id).app page) hpage₁ htenant hlinks
    have htargets : (linkTargets unicode c).Nodup := by
      rw [linkTargets]
      split
      · exact nodup_extractWikilinks unicode _
      · exact List.nodup_nil
    obtain ⟨id, rfl⟩ := hadded.row
    rw [hi]
    refine List.Perm.of_eq (hself.trans ?_)
    rw [dedupeSlugs_of_nodup htargets]
    rfl
  · rename_i hi
    obtain ⟨hpage₀, hcur⟩ := hmoved
    obtain ⟨-, -, revisions, -, rfl⟩ := hadded
    rw [hlinks.linksOf_of_ne hi]
    exact hm i page' hpage₀ current (hcur ▸ hcurrent)

theorem AllCurrent.setPages {P : WikiRevision → Prop} (hc : AllCurrent P W)
    {pages : Table WikiPage} (h : PagesKept W.pages pages) :
    AllCurrent P { W with pages := pages } := by
  intro i page' hpage' revision hrevision
  rw [Option.mem_def, WikiStore.currentOf] at hrevision
  rcases h.old i page' hpage' with hnone | ⟨page, hpage, heq⟩
  · rw [hnone] at hrevision
    cases hrevision
  · rw [heq] at hrevision
    exact hc i page hpage revision hrevision

/-- **What the current revisions have in common after one is written** is what the new one has. -/
theorem WikiService.Written.allCurrent_iff {P : WikiRevision → Prop} (hs : LinkSound W)
    (hc : AllCurrent P W) {tenantId : String} {page : WikiPage} {c : RevisionContent}
    {detail : WikiPageDetail} (hpage : W.pages.find page.id = some page)
    (h : WikiService.Written unicode W W' tenantId page c detail) :
    ∃ revision, revision.targets unicode = linkTargets unicode c ∧
      (AllCurrent P W' ↔ P revision) := by
  obtain ⟨revision, -, W₁, hadded, hlinks⟩ := h
  refine ⟨revision, by obtain ⟨id, rfl⟩ := hadded.row; rfl, ?_⟩
  rw [show W' = { W₁ with links := W'.links } from hlinks.store]
  constructor
  · intro hall
    have hpage₁ : W₁.pages.find page.id = some ((setCurrentPatch revision.id).app page) := by
      obtain ⟨-, -, revisions, -, rfl⟩ := hadded
      exact Table.find_modify_self hpage _
    have hmoved := hadded.current hs hpage₁
    rw [if_pos rfl] at hmoved
    exact hall page.id _ hpage₁ revision hmoved
  · intro hnew i page' hpage' current hcurrent
    have hmoved := hadded.current hs (show W₁.pages.find i = some page' from hpage')
    split at hmoved
    · obtain rfl : revision = current := Option.some.inj (hmoved.symm.trans hcurrent)
      exact hnew
    · exact hc i page' hmoved.1 current (hmoved.2 ▸ hcurrent)

theorem WikiService.Written.pointed (hs : LinkSound W) {tenantId : String} {page : WikiPage}
    {c : RevisionContent} {detail : WikiPageDetail}
    (hothers : ∀ i page', i ≠ page.id → W.pages.find i = some page' →
      ∃ revision, W.currentOf page' = some revision)
    (h : WikiService.Written unicode W W' tenantId page c detail) : Pointed W' := by
  obtain ⟨revision, -, W₁, hadded, hlinks⟩ := h
  intro i page' hpage'
  have hsame : W' = { W₁ with links := W'.links } := hlinks.store
  rw [hsame] at hpage' ⊢
  have hmoved := hadded.current hs (show W₁.pages.find i = some page' from hpage')
  split at hmoved
  · exact ⟨revision, hmoved⟩
  · rename_i hi
    obtain ⟨current, hcurrent⟩ := hothers i page' hi hmoved.1
    exact ⟨current, hmoved.2.trans hcurrent⟩

/-- `publish_page` keeps the links and moves one pointer, to a revision that exists. -/
theorem LinkSound.publish (hs : LinkSound W) {page : WikiPage} {revision : WikiRevision}
    (hpage : W.pages.find page.id = some page)
    (hrevision : W.revisions.find revision.id = some revision) :
    LinkSound { W with pages := W.pages.modify page.id (publishPatch revision.id) } := by
  refine hs.point hpage rfl fun id hid ↦ ⟨revision, ?_⟩
  obtain rfl : revision.id = id := Option.some.inj hid
  exact hrevision

theorem find_of_resolved {page : WikiPage} {revisionNo : Option ℤ} {revision : WikiRevision}
    (h : W.resolved page revisionNo = some revision) :
    W.revisions.find revision.id = some revision := by
  cases revisionNo with
  | none =>
    obtain ⟨id, -, hfind⟩ := Option.bind_eq_some_iff.mp h
    have hid : revision.id = id := Table.primary_of_find hfind
    rw [hid]
    exact hfind
  | some no =>
    have hmem : revision ∈ W.pageRevisions page.id := List.mem_of_find?_eq_some h
    rw [WikiStore.pageRevisions, List.mem_insertionSort] at hmem
    exact Table.find_primary (List.mem_filter.mp hmem).1

/-- What the current revisions have in common after one is published. -/
theorem AllCurrent.publish {P : WikiRevision → Prop} (hc : AllCurrent P W) {page : WikiPage}
    {revision : WikiRevision} (hrevision : W.revisions.find revision.id = some revision)
    (hP : P revision) :
    AllCurrent P { W with pages := W.pages.modify page.id (publishPatch revision.id) } := by
  intro i page' hpage' current hcurrent
  dsimp only at hpage'
  rw [Table.find_modify] at hpage'
  split at hpage'
  · obtain ⟨old, -, rfl⟩ := Option.map_eq_some_iff.mp hpage'
    obtain rfl : revision = current := Option.some.inj (hrevision.symm.trans hcurrent)
    exact hP
  · exact hc i page' hpage' current hcurrent

/-- **`publish_page` keeps the mirror if and only if it keeps the targets.** -/
theorem linksMirror_publish_iff (hm : LinksMirror unicode W) {page : WikiPage}
    {revision : WikiRevision} (hpage : W.pages.find page.id = some page)
    (hrevision : W.revisions.find revision.id = some revision)
    (hcurrent : ∃ current, W.currentOf page = some current) :
    LinksMirror unicode { W with pages := W.pages.modify page.id (publishPatch revision.id) } ↔
      ∀ current ∈ W.currentOf page,
        (revision.targets unicode).Perm (current.targets unicode) := by
  rw [linksMirror_iff_find] at hm ⊢
  have hself : (W.pages.modify page.id (publishPatch revision.id)).find page.id
      = some ((publishPatch revision.id).app page) := Table.find_modify_self hpage _
  constructor
  · intro h current hcur
    exact (h page.id _ hself revision hrevision).symm.trans (hm page.id page hpage current hcur)
  · intro h i page' hpage' current hcur
    dsimp only at hpage'
    by_cases hi : i = page.id
    · subst hi
      obtain rfl := Option.some.inj (hself.symm.trans hpage')
      obtain rfl : revision = current := Option.some.inj (hrevision.symm.trans hcur)
      obtain ⟨before, hbefore⟩ := hcurrent
      exact (hm page.id page hpage before hbefore).trans (h before hbefore).symm
    · rw [Table.find_modify_of_ne hi] at hpage'
      exact hm i page' hpage' current hcur

end Calls

/-! ## Runs -/

section Runs

variable {unicode : UnicodeData} {s s' : WikiState} {label : WikiLabel}

inductive CallEffect (unicode : UnicodeData) (s : WikiState) (label : WikiLabel) :
    WikiStore → Prop
  /-- The call raises. -/
  | raised (h : (label.run unicode s).1.isOk = false) : CallEffect unicode s label s.store
  | updated {update : PageUpdate} {slug : String} {page : WikiPage} {W₁ W' : WikiStore}
    {detail : WikiPageDetail} (hok : (label.run unicode s).1.isOk = true)
    (hcall : label.call = .createOrUpdatePage update)
    (hprep : PagePrepared s.store update slug page W₁)
    (h : WikiService.Written unicode W₁ W' update.tenantId page update.content detail) :
    CallEffect unicode s label W'
  | revised {tenantId slug resolved : String} {c : RevisionContent} {page : WikiPage}
    {W' : WikiStore} {detail : WikiPageDetail} (hok : (label.run unicode s).1.isOk = true)
    (hcall : label.call = .createRevision tenantId slug c)
    (hpage : s.store.pageBySlug tenantId resolved = some page)
    (h : WikiService.Written unicode s.store W' tenantId page c detail) :
    CallEffect unicode s label W'
  | published {tenantId slug resolved : String} {revisionNo : Option ℤ} {page : WikiPage}
    {revision : WikiRevision} (hok : (label.run unicode s).1.isOk = true)
    (hcall : label.call = .publishPage tenantId slug revisionNo)
    (hslug : requireSlug unicode slug = .ok resolved)
    (hpage : s.store.pageBySlug tenantId resolved = some page)
    (hrevision : s.store.resolved page revisionNo = some revision) :
    CallEffect unicode s label { s.store with
      pages := s.store.pages.modify page.id (publishPatch revision.id) }

theorem WikiState.effect_of_step (h : WikiState.step unicode s label = some s') :
    CallEffect unicode s label s'.store := by
  have hstore : (label.run unicode s).2.committed = s'.store := by
    rw [← Option.some.inj h]
  have hidle := Session.idle_start s.store s.nextId label.outcomes
  rcases hrun : label.run unicode s with ⟨e | detail, session⟩
  · -- every call that raises is undone
    have hsame : s.store = session.committed := by
      obtain ⟨call, outcomes⟩ := label
      cases call with
      | createOrUpdatePage update =>
        exact (WikiService.outTx_createOrUpdatePage unicode s.store update).committed_error
          hidle hrun
      | createRevision tenantId slug c =>
        exact (WikiService.outTx_createRevision unicode s.store tenantId slug c).committed_error
          hidle hrun
      | publishPage tenantId slug revisionNo =>
        exact (WikiService.outTx_publishPage unicode s.store tenantId slug
          revisionNo).committed_error hidle hrun
    rw [hrun] at hstore
    rw [← hstore]
    change CallEffect unicode s label session.committed
    rw [← hsame]
    exact .raised (by rw [hrun]; rfl)
  · rw [hrun] at hstore
    rw [← hstore]
    change CallEffect unicode s label session.committed
    obtain ⟨call, outcomes⟩ := label
    cases call with
    | createOrUpdatePage update =>
      obtain ⟨slug, page, W₁, -, hprep, hwritten⟩ :=
        (WikiService.outTx_createOrUpdatePage unicode s.store update).committed_ok hidle hrun
      exact .updated (by rw [hrun]; rfl) rfl hprep hwritten
    | createRevision tenantId slug c =>
      obtain ⟨resolved, page, -, hpage, hwritten⟩ :=
        (WikiService.outTx_createRevision unicode s.store tenantId slug c).committed_ok hidle hrun
      exact .revised (by rw [hrun]; rfl) rfl hpage hwritten
    | publishPage tenantId slug revisionNo =>
      obtain ⟨resolved, page, revision, hslug, hpage, hrevision, -, heq⟩ :=
        (WikiService.outTx_publishPage unicode s.store tenantId slug revisionNo).committed_ok
          hidle hrun
      rw [heq]
      exact .published (by rw [hrun]; rfl) rfl hslug hpage hrevision

theorem PagePrepared.linkSound {W W₁ : WikiStore} {update : PageUpdate} {slug : String}
    {page : WikiPage} (hs : LinkSound W) (h : PagePrepared W update slug page W₁) :
    LinkSound W₁ := by
  rw [h.store]
  exact hs.setPages h.pagesKept

theorem CallEffect.linkSound (hs : LinkSound s.store) {W' : WikiStore}
    (h : CallEffect unicode s label W') : LinkSound W' := by
  cases h with
  | raised hok => exact hs
  | updated hok hcall hprep hwritten =>
    exact hwritten.linkSound (hprep.linkSound hs) hprep.find_page.1 hprep.find_page.2
  | revised hok hcall hpage hwritten =>
    exact hwritten.linkSound hs (Table.find_of_lookup hpage)
      (Prod.mk.inj (Table.unique_of_lookup hpage)).1
  | published hok hcall hslug hpage hrevision =>
    exact hs.publish (Table.find_of_lookup hpage) (find_of_resolved hrevision)

theorem CallEffect.pointed (hs : LinkSound s.store) (hp : Pointed s.store) {W' : WikiStore}
    (h : CallEffect unicode s label W') : Pointed W' := by
  cases h with
  | raised hok => exact hp
  | @updated update slug page W₁ _ detail hok hcall hprep hwritten =>
    refine hwritten.pointed (hprep.linkSound hs) fun i page' hi hpage' ↦ ?_
    obtain ⟨revision, hrevision⟩ := hp i page' (hprep.find_of_ne hi ▸ hpage')
    rw [hprep.store]
    exact ⟨revision, hrevision⟩
  | revised hok hcall hpage hwritten =>
    exact hwritten.pointed hs fun i page' _ hpage' ↦ hp i page' hpage'
  | @published tenantId slug resolved revisionNo page revision hok hcall hslug hpage hrevision =>
    intro i page' hpage'
    dsimp only at hpage'
    rw [Table.find_modify] at hpage'
    split at hpage'
    · obtain ⟨old, -, rfl⟩ := Option.map_eq_some_iff.mp hpage'
      exact ⟨revision, find_of_resolved hrevision⟩
    · exact hp i page' hpage'

end Runs

/-! ## Backlinks -/

section Backlinks

variable {unicode : UnicodeData} {postgres : PostgresData} {W : WikiStore}

private theorem backlinkOf_eq {link : WikiLink} {owner : WikiPage}
    (howner : W.pages.find link.fromPageId = some owner) (htenant : owner.tenantId = link.tenantId)
    (tenantId slug : String) :
    W.backlinkOf tenantId slug link
      = if link.tenantId = tenantId ∧ link.toSlug = slug then some (link, owner) else none := by
  rw [WikiStore.backlinkOf, howner]
  split
  · rename_i h
    rw [Option.filter_some, if_pos (by simpa using htenant.trans h.1), Option.map_some]
  · rfl

/-- A link counts on both sides if it is the page's and to the slug. -/
private theorem count_joined (hs : LinkSound W) {page : WikiPage}
    (hpage : W.pages.find page.id = some page) (slug : String) {links : List WikiLink}
    (hsub : ∀ link ∈ links, link ∈ W.links.rows) :
    ((links.filterMap (W.backlinkOf page.tenantId slug)).map
        fun backlink ↦ backlink.2.id).count page.id
      = ((links.filter fun link ↦ link.fromPageId == page.id).map WikiLink.toSlug).count slug := by
  induction links with
  | nil => rfl
  | cons link links ih =>
    have ih := ih fun l hl ↦ hsub l (List.mem_cons_of_mem _ hl)
    obtain ⟨owner, howner, htenant⟩ := hs.tenants link (hsub link List.mem_cons_self)
    have hid : owner.id = link.fromPageId := Table.primary_of_find howner
    rw [List.filterMap_cons, List.filter_cons, backlinkOf_eq howner htenant]
    by_cases hfrom : link.fromPageId = page.id
    · have hown : page = owner := Option.some.inj (hpage.symm.trans (hfrom ▸ howner))
      subst hown
      by_cases hslug : link.toSlug = slug
      · simp [hfrom, hslug, htenant, ← ih]
      · simp [hfrom, hslug, ← ih]
    · have hne : owner.id ≠ page.id := fun h ↦ hfrom (hid.symm.trans h)
      have hbeq : ¬(link.fromPageId == page.id) = true := by simpa using hfrom
      rw [if_neg hbeq, ← ih]
      split
      · rfl
      · rename_i backlink hjoined
        split at hjoined
        · rw [← Option.some.inj hjoined, List.map_cons, List.count_cons_of_ne hne]
        · exact nomatch hjoined

/-- How often the backlinks of a slug list a page: as often as the page has a link to it. -/
theorem count_backlinks (hs : LinkSound W) {page : WikiPage}
    (hpage : W.pages.find page.id = some page) (slug : String) :
    ((W.backlinks postgres page.tenantId slug).map fun backlink ↦ backlink.2.id).count page.id
      = ((W.linksOf page.id).map WikiLink.toSlug).count slug := by
  rw [WikiStore.backlinks, ((List.perm_insertionSort _ _).map _).count_eq]
  exact count_joined hs hpage slug fun _ h ↦ h

theorem listedBacklinks_of_ok {tenantId slug resolved : String}
    (h : requireSlug unicode slug = .ok resolved) :
    W.listedBacklinks unicode postgres tenantId slug = W.backlinks postgres tenantId resolved := by
  rw [WikiStore.listedBacklinks, WikiService.getBacklinks, h]
  rfl

theorem listedBacklinks_of_error {tenantId slug : String} {e : PyException}
    (h : requireSlug unicode slug = .error e) :
    W.listedBacklinks unicode postgres tenantId slug = [] := by
  rw [WikiStore.listedBacklinks, WikiService.getBacklinks, h]
  rfl

theorem LinksMirror.count_listedBacklinks (hs : LinkSound W) (hm : LinksMirror unicode W)
    {page : WikiPage} (hpage : page ∈ W.pages.rows) {revision : WikiRevision}
    (hrevision : revision ∈ W.currentOf page) (slug : String) :
    ((W.listedBacklinks unicode postgres page.tenantId slug).map
      fun backlink ↦ backlink.2.id).count page.id
      = if ∃ target ∈ revision.targets unicode, requireSlug unicode slug = .ok target
        then 1 else 0 := by
  have hnodup : (revision.targets unicode).Nodup := by
    rw [WikiRevision.targets]
    split
    · exact nodup_extractWikilinks unicode _
    · exact List.nodup_nil
  cases hslug : requireSlug unicode slug with
  | error e =>
    rw [listedBacklinks_of_error hslug, if_neg (by simp)]
    rfl
  | ok resolved =>
    rw [listedBacklinks_of_ok hslug, count_backlinks hs (Table.find_primary hpage),
      (hm page hpage revision hrevision).count_eq resolved]
    split
    · rename_i h
      obtain ⟨target, hmem, heq⟩ := h
      obtain rfl := Except.ok.inj heq
      exact List.count_eq_one_of_mem hnodup hmem
    · rename_i h
      exact List.count_eq_zero_of_not_mem fun hmem ↦ h ⟨resolved, hmem, rfl⟩

/-- **Exact backlinks are what the mirror is for**, where the targets can be asked for. -/
theorem LinksMirror.backlinksExact_iff (hs : LinkSound W) (hm : LinksMirror unicode W) :
    BacklinksExact unicode postgres W ↔
      AllCurrent (fun revision ↦ AddressableTargets unicode (revision.targets unicode)) W := by
  constructor
  · intro h i page hpage revision hrevision target htarget
    have hmem := Table.mem_of_find hpage
    have hlinks : revision.LinksTo unicode target := Or.inl htarget
    have hcount := h page hmem revision hrevision target
    rw [hm.count_listedBacklinks hs hmem hrevision, if_pos hlinks] at hcount
    by_contra hnone
    exact absurd hcount (by rw [if_neg hnone]; exact Nat.zero_ne_one)
  · intro h page hpage revision hrevision slug
    rw [hm.count_listedBacklinks hs hpage hrevision]
    refine if_congr ⟨Or.inr, ?_⟩ rfl rfl
    rintro (hmem | hstands)
    · exact h page.id page (Table.find_primary hpage) revision hrevision slug hmem
    · exact hstands

end Backlinks

end KnowledgeAlakazam
