import KnowledgeAlakazam.Wiki.Writers

/-!
# Are revisions append-only?

A revision gets the number after the largest one of its page. `upsert_page_revision` computes that
number with one `SELECT` and asks with a second one whether the number is taken; if it is, the row
that has it is overwritten. Run alone, a writer never finds it taken
(`WikiStore.revisionByNo_nextRevisionNo`). Next to others it does, when another transaction
commits a revision of the page between the two statements, and then the other's revision is gone.

`appendOnly_iff` is the exact answer: in every run of any number of writers, a transition is
append-only if and only if it is not the commit of a writer that found its number taken. The
failing run is `concurrent_revision_overwritten`, and `numberFree_of_spared` says which
interleavings avoid it.
-/

namespace KnowledgeAlakazam

section Definitions

variable {n : ℕ} (unicode : UnicodeData) (requests : Fin n → WriteRequest)

/-- The transition is the commit of a writer. -/
def Commits (t : Transition (WriteState n) (WriteLabel n)) (i : Fin n) (page : WikiPage)
    (found : Option WikiRevision) : Prop :=
  t.label = .proceed i ∧ (t.pre.writers i).pc = .commit page found

/-- Committed revisions stay as they are, and a commit adds one row: a revision of the writer's
page with the writer's content. -/
structure AppendOnly (t : Transition (WriteState n) (WriteLabel n)) : Prop where
  kept : ∀ revision ∈ t.pre.store.revisions.rows, revision ∈ t.post.store.revisions.rows
  added : ∀ i page found, Commits t i page found →
    ∃ slug current id revisionNo, (requests i).slug unicode = .ok slug ∧
      t.post.store.pageBySlug (requests i).tenantId slug = some current ∧
      t.post.store.revisions.rows = t.pre.store.revisions.rows ++
        [(requests i).content.newRevision id current.id revisionNo]

/-- The transition is not the commit of a writer whose second `SELECT` found the number that its
first one had computed. -/
def NumberFree (t : Transition (WriteState n) (WriteLabel n)) : Prop :=
  ∀ i page found, Commits t i page found → found = none

/-- The writer is about to commit a revision that it found. -/
def WriterPc.OnFound : WriterPc → Prop
  | .commit _ (some _) => True
  | _ => False

instance : DecidablePred WriterPc.OnFound := fun pc ↦ by
  unfold WriterPc.OnFound
  split <;> infer_instance

theorem numberFree_iff {t : Transition (WriteState n) (WriteLabel n)} :
    NumberFree t ↔ ∀ i, t.label = .proceed i → ¬(t.pre.writers i).pc.OnFound := by
  constructor
  · intro h i hlabel hfound
    unfold WriterPc.OnFound at hfound
    split at hfound
    · rename_i page found hpc
      exact nomatch h i page (some found) ⟨hlabel, hpc⟩
    · exact hfound
  · rintro h i page (_ | found) ⟨hlabel, hpc⟩
    · rfl
    · exact absurd (by rw [hpc]; trivial) (h i hlabel)

instance : DecidablePred (NumberFree (n := n)) := fun _ ↦ decidable_of_iff' _ numberFree_iff

/-- The transition commits no revision with a number that another writer has computed and is
about to look up. -/
def SparesLookups (t : Transition (WriteState n) (WriteLabel n)) : Prop :=
  ∀ i page revisionNo, (t.post.writers i).pc = .selectRevision page revisionNo →
    t.pre.store.revisionByNo page.id revisionNo = none →
    t.post.store.revisionByNo page.id revisionNo = none

end Definitions

/-! ## What a list of writes does -/

section Overlay

variable {w w' : WikiStore} {write other : WikiWrite} {writes : List WikiWrite}

/-- The revisions are changed by the writes that are about them, and by nothing else. -/
theorem revisions_overlay_filter (h : w.revisions = w'.revisions) :
    (w.overlay writes).revisions
      = (w'.overlay (writes.filter WikiWrite.ofRevisions)).revisions := by
  induction writes generalizing w w' with
  | nil => exact h
  | cons write writes ih =>
    rw [List.filter_cons]
    split
    · rename_i hof
      refine ih ?_
      cases write with
      | insertRevision revision =>
        change w.revisions.add revision = _
        rw [h]
        rfl
      | updateRevision id patch =>
        change w.revisions.modify id patch = _
        rw [h]
        rfl
      | insertPage | updatePage | deleteLinks | insertLink => exact nomatch hof
    · rename_i hof
      refine ih ?_
      cases write with
      | insertRevision | updateRevision => exact absurd rfl hof
      | insertPage | updatePage | deleteLinks | insertLink => exact h

theorem revisions_overlay (h : writes.filter WikiWrite.ofRevisions = []) :
    (w.overlay writes).revisions = w.revisions := by
  rw [revisions_overlay_filter rfl, h]
  rfl

theorem rows_overlay_insert {revision : WikiRevision}
    (h : writes.filter WikiWrite.ofRevisions = [.insertRevision revision])
    (hfits : (WikiWrite.insertRevision revision).Fits w) :
    (w.overlay writes).revisions.rows = w.revisions.rows ++ [revision] := by
  rw [revisions_overlay_filter rfl, h]
  exact Table.Free.rows_add hfits

theorem length_overlay_update
    (h : ∀ write ∈ writes.filter WikiWrite.ofRevisions,
      ∃ id patch, write = .updateRevision id patch) :
    (w.overlay writes).revisions.rows.length = w.revisions.rows.length := by
  rw [revisions_overlay_filter (show w.revisions = w.revisions from rfl)]
  generalize writes.filter WikiWrite.ofRevisions = updates at h
  induction updates generalizing w with
  | nil => rfl
  | cons write updates ih =>
    obtain ⟨id, patch, rfl⟩ := h write List.mem_cons_self
    refine (ih (w := (WikiWrite.updateRevision id patch).apply w)
      fun other hother ↦ h other (List.mem_cons_of_mem _ hother)).trans ?_
    exact List.length_map _

theorem WikiWrite.pageBySlug_apply (write : WikiWrite) {tenantId slug : String} {page : WikiPage}
    (h : w.pageBySlug tenantId slug = some page) :
    ∃ page', (write.apply w).pageBySlug tenantId slug = some page' ∧ page'.id = page.id := by
  cases write with
  | insertPage other => exact ⟨page, Table.lookup_add h other, rfl⟩
  | updatePage id patch =>
    refine ⟨_, (Table.lookup_modify ..).trans (congrArg (Option.map _) h), ?_⟩
    dsimp only
    split
    · exact patch.primary_app page
    · rfl
  | insertRevision | updateRevision | deleteLinks | insertLink => exact ⟨page, h, rfl⟩

theorem pageBySlug_overlay (writes : List WikiWrite) {tenantId slug : String} {page : WikiPage}
    (h : w.pageBySlug tenantId slug = some page) :
    ∃ page', (w.overlay writes).pageBySlug tenantId slug = some page' ∧ page'.id = page.id := by
  induction writes generalizing w page with
  | nil => exact ⟨page, h, rfl⟩
  | cons write writes ih =>
    obtain ⟨page₁, hpage₁, hid₁⟩ := write.pageBySlug_apply h
    obtain ⟨page₂, hpage₂, hid₂⟩ := ih hpage₁
    exact ⟨page₂, hpage₂, hid₂.trans hid₁⟩

/-- What fits goes on to fit when a write is committed that locks something else. -/
theorem WikiWrite.Fits.apply (h : write.Fits w)
    (hapart : ∀ lock ∈ write.locks, lock ∉ other.locks) : write.Fits (other.apply w) := by
  -- Two inserts can only clash in a key that both lock.
  cases write with
  | insertPage page =>
    have hfree : w.pages.Free page := h
    cases other with
    | insertPage page' =>
      refine hfree.add (fun hid ↦ ?_) fun hkey ↦ ?_
      · have hid : page'.id = page.id := hid
        exact hapart (.page page.id) (by simp [locks]) (by simp [locks, hid])
      · obtain ⟨ht, hs⟩ := Prod.mk.inj hkey
        exact hapart (.pageKey page.tenantId page.slug) (by simp [locks]) (by simp [locks, ht, hs])
    | updatePage id patch => exact hfree.modify id patch
    | insertRevision | updateRevision | deleteLinks | insertLink => exact h
  | insertRevision revision =>
    have hfree : w.revisions.Free revision := h
    cases other with
    | insertRevision revision' =>
      refine hfree.add (fun hid ↦ ?_) fun hkey ↦ ?_
      · have hid : revision'.id = revision.id := hid
        exact hapart (.revision revision.id) (by simp [locks]) (by simp [locks, hid])
      · obtain ⟨hp, hn⟩ := Prod.mk.inj hkey
        exact hapart (.revisionKey revision.pageId revision.revisionNo) (by simp [locks])
          (by simp [locks, hp, hn])
    | updateRevision id patch => exact hfree.modify id patch
    | insertPage | updatePage | deleteLinks | insertLink => exact h
  | insertLink link =>
    have hfree : w.links.Free link := h
    cases other with
    | insertLink link' =>
      have hne : link'.id ≠ link.id := fun hid ↦
        hapart (.link link.id) (by simp [locks]) (by simp [locks, hid])
      exact hfree.add hne hne
    | deleteLinks ids => exact hfree.keep _
    | insertPage | updatePage | insertRevision | updateRevision => exact h
  | updatePage | updateRevision | deleteLinks => trivial

theorem WikiWrite.Fits.overlay (h : write.Fits w)
    (hapart : ∀ lock ∈ write.locks, lock ∉ writes.flatMap WikiWrite.locks) :
    write.Fits (w.overlay writes) := by
  induction writes generalizing w with
  | nil => exact h
  | cons other writes ih =>
    rw [List.flatMap_cons] at hapart
    exact ih (h.apply fun lock hlock hmem ↦
        hapart lock hlock (List.mem_append_left _ hmem))
      fun lock hlock hmem ↦ hapart lock hlock (List.mem_append_right _ hmem)

end Overlay

/-! ## What a writer has written -/

/-- The mapped object of the page, once there is one. -/
def WriterPc.page : WriterPc → Option WikiPage
  | flushPage page => some page
  | selectMax page => some page
  | selectRevision page _ => some page
  | flushRevision page _ _ => some page
  | flushCurrent page _ _ => some page
  | deleteLinks page _ => some page
  | insertLinks page _ => some page
  | commit page _ => some page
  | selectPage | insertPage _ _ | done | failed => none

/-- What the lookup found, once the revision is written. -/
def WriterPc.written : WriterPc → Option (Option WikiRevision)
  | flushCurrent _ found _ => some found
  | deleteLinks _ found => some found
  | insertLinks _ found => some found
  | commit _ found => some found
  | selectPage | insertPage _ _ | flushPage _ | selectMax _ | selectRevision _ _
  | flushRevision _ _ _ | done | failed => none

/-- The page with an id has the slug: it is committed, or the transaction has inserted it. -/
def Known (w : WikiStore) (pending : List WikiWrite) (tenantId slug : String) (id : ℕ) : Prop :=
  (∃ page, w.pageBySlug tenantId slug = some page ∧ page.id = id) ∨
    ∃ page writes, pending = .insertPage page :: writes ∧
      (page.tenantId, page.slug) = (tenantId, slug) ∧ page.id = id ∧
      (WikiWrite.insertPage page).Fits w

/-- The writes to the revisions so far. -/
def RevisionWritten (w : WikiStore) (c : RevisionContent) (writer : Writer) : Prop :=
  match writer.pc.written with
  | none => writer.pending.filter WikiWrite.ofRevisions = []
  | some none => ∃ page ∈ writer.pc.page, ∃ id revisionNo,
    writer.pending.filter WikiWrite.ofRevisions
      = [.insertRevision (c.newRevision id page.id revisionNo)] ∧
    (WikiWrite.insertRevision (c.newRevision id page.id revisionNo)).Fits w
  | some (some _) => ∀ write ∈ writer.pending.filter WikiWrite.ofRevisions,
    ∃ id patch, write = .updateRevision id patch

/-- What a transaction has written, and where it is. -/
structure Writer.Sound (unicode : UnicodeData) (w : WikiStore) (request : WriteRequest)
    (writer : Writer) : Prop where
  revision : RevisionWritten w request.content writer
  fresh : writer.pc.page = none → writer.pending = []
  inserting : ∀ update slug, writer.pc = .insertPage update slug →
    request = .createOrUpdatePage update ∧ request.slug unicode = .ok slug
  known : ∀ page ∈ writer.pc.page, ∃ slug, request.slug unicode = .ok slug ∧
    Known w writer.pending request.tenantId slug page.id

section Writer

variable {unicode : UnicodeData} {sameJson : Option PyValue → Option PyValue → Bool}
  {w : WikiStore} {request : WriteRequest} {writer : Writer}

theorem filter_flushPage (loaded page : WikiPage) :
    (flushPage loaded page).filter WikiWrite.ofRevisions = [] := by
  unfold flushPage
  split <;> rfl

theorem filter_insertLinks (toSlugs : List String) (f : ℕ → String → WikiLink) :
    (toSlugs.mapIdx fun k toSlug ↦ WikiWrite.insertLink (f k toSlug)).filter
      WikiWrite.ofRevisions = [] := by
  rw [List.filter_eq_nil_iff]
  intro write hwrite
  obtain ⟨k, hk, rfl⟩ := List.mem_mapIdx.mp hwrite
  exact Bool.false_ne_true

@[simp] theorem WriteRequest.retitle_id (request : WriteRequest) (page : WikiPage) :
    (request.retitle page).id = page.id := by
  cases request <;> rfl

theorem Known.append {pending : List WikiWrite} {tenantId slug : String} {id : ℕ}
    (h : Known w pending tenantId slug id) (writes : List WikiWrite) :
    Known w (pending ++ writes) tenantId slug id := by
  rcases h with h | ⟨page, rest, rfl, h⟩
  · exact Or.inl h
  · exact Or.inr ⟨page, rest ++ writes, rfl, h⟩

theorem Writer.Sound.to (h : writer.Sound unicode w request) {pc : WriterPc}
    {writes : List WikiWrite} (page : WikiPage) {page' : WikiPage} (hpage : page ∈ writer.pc.page)
    (hpage' : pc.page = some page') (hid : page'.id = page.id)
    (hrevision : RevisionWritten w request.content ⟨pc, writer.pending ++ writes⟩) :
    Writer.Sound unicode w request ⟨pc, writer.pending ++ writes⟩ := by
  refine ⟨hrevision, (fun hnone ↦ nomatch hpage'.symm.trans hnone), ?_, ?_⟩
  · rintro update slug hpc
    have hpc : pc = .insertPage update slug := hpc
    rw [hpc] at hpage'
    exact nomatch hpage'
  · intro other hother
    obtain rfl : page' = other := Option.some.inj (hpage'.symm.trans hother)
    obtain ⟨slug, hslug, hknown⟩ := h.known page hpage
    exact ⟨slug, hslug, hid ▸ hknown.append writes⟩

theorem Writer.Sound.same (h : writer.Sound unicode w request) {pc : WriterPc}
    {writes : List WikiWrite} {page page' : WikiPage} (hpage : writer.pc.page = some page)
    (hpage' : pc.page = some page') (hid : page'.id = page.id)
    (hwrites : writes.filter WikiWrite.ofRevisions = [])
    (hwritten : pc.written = writer.pc.written) :
    Writer.Sound unicode w request ⟨pc, writer.pending ++ writes⟩ := by
  refine h.to page hpage hpage' hid ?_
  have hrevision := h.revision
  unfold RevisionWritten at hrevision ⊢
  dsimp only
  rw [hwritten, List.filter_append, hwrites, List.append_nil]
  split at hrevision
  · exact hrevision
  · obtain ⟨other, hother, id, revisionNo, hrow, hfits⟩ := hrevision
    obtain rfl : page = other := Option.some.inj (hpage.symm.trans hother)
    exact ⟨page', hpage', id, revisionNo, hid ▸ hrow, hid ▸ hfits⟩
  · exact hrevision

/-- **One statement** keeps the account of what a transaction has written. -/
theorem Writer.Sound.statement (h : writer.Sound unicode w request) {nextId : ℕ} {pc : WriterPc}
    {writes : List WikiWrite}
    (hmove : writer.pc.move unicode sameJson request (w.overlay writer.pending) nextId
      = some (.statement pc writes))
    (hfits : ∀ write ∈ writes, write.Fits (w.overlay writer.pending)) :
    Writer.Sound unicode w request ⟨pc, writer.pending ++ writes⟩ := by
  obtain ⟨at_, pending⟩ := writer
  cases at_ with
  | selectPage =>
    obtain rfl : pending = [] := h.fresh rfl
    simp only [WriterPc.move, Option.some.injEq] at hmove
    split at hmove
    · exact nomatch hmove
    · rename_i slug hslug
      split at hmove
      · rename_i page hpage
        obtain ⟨rfl, rfl⟩ := WriterMove.statement.inj hmove
        refine ⟨rfl, (fun hnone ↦ nomatch hnone), (fun _ _ hpc ↦ nomatch hpc), ?_⟩
        intro other hother
        obtain rfl : page = other := Option.some.inj hother
        exact ⟨slug, hslug, Or.inl ⟨page, hpage, rfl⟩⟩
      · obtain ⟨rfl, rfl⟩ := WriterMove.statement.inj hmove
        refine ⟨rfl, fun _ ↦ rfl, ?_, fun _ hnone ↦ nomatch hnone⟩
        rintro update' slug' ⟨⟩
        exact ⟨rfl, hslug⟩
      · exact nomatch hmove
  | insertPage update slug =>
    obtain rfl : pending = [] := h.fresh rfl
    obtain ⟨hrequest, hslug⟩ := h.inserting update slug rfl
    obtain ⟨rfl, rfl⟩ := WriterMove.statement.inj (Option.some.inj hmove)
    refine ⟨rfl, (fun hnone ↦ nomatch hnone), (fun _ _ hpc ↦ nomatch hpc), ?_⟩
    intro page hpage
    rw [← Option.some.inj hpage]
    refine ⟨slug, hslug, Or.inr ⟨_, [], rfl, ?_, rfl, hfits _ List.mem_cons_self⟩⟩
    rw [hrequest]
    rfl
  | flushPage page =>
    obtain ⟨rfl, rfl⟩ := WriterMove.statement.inj (Option.some.inj hmove)
    exact h.same rfl rfl (request.retitle_id page) (filter_flushPage _ _) rfl
  | selectMax page =>
    obtain ⟨rfl, rfl⟩ := WriterMove.statement.inj (Option.some.inj hmove)
    exact h.same rfl rfl rfl rfl rfl
  | selectRevision page revisionNo =>
    obtain ⟨rfl, rfl⟩ := WriterMove.statement.inj (Option.some.inj hmove)
    exact h.same rfl rfl rfl rfl rfl
  | flushRevision page revisionNo found =>
    have hnone : pending.filter WikiWrite.ofRevisions = [] := h.revision
    cases found with
    | none =>
      obtain ⟨rfl, rfl⟩ := WriterMove.statement.inj (Option.some.inj hmove)
      refine h.to page rfl rfl rfl ⟨page, rfl, nextId, revisionNo, ?_, ?_⟩
      · rw [List.filter_append, hnone]
        rfl
      · -- the transaction sees the committed revisions, so what fits there fits for all
        have hfree : ((w.overlay pending).revisions).Free _ := hfits _ List.mem_cons_self
        rw [revisions_overlay hnone] at hfree
        exact hfree
    | some revision =>
      obtain ⟨rfl, rfl⟩ := WriterMove.statement.inj (Option.some.inj hmove)
      refine h.to page rfl rfl rfl fun write hwrite ↦ ?_
      rw [List.filter_append, hnone, List.nil_append, flushFound] at hwrite
      split at hwrite
      · exact nomatch hwrite
      · exact ⟨_, _, List.mem_singleton.mp hwrite⟩
  | flushCurrent page found revisionId =>
    obtain ⟨rfl, rfl⟩ := WriterMove.statement.inj (Option.some.inj hmove)
    exact h.same rfl rfl rfl (filter_flushPage _ _) rfl
  | deleteLinks page found =>
    obtain ⟨rfl, rfl⟩ := WriterMove.statement.inj (Option.some.inj hmove)
    exact h.same rfl rfl rfl rfl rfl
  | insertLinks page found =>
    obtain ⟨rfl, rfl⟩ := WriterMove.statement.inj (Option.some.inj hmove)
    exact h.same rfl rfl rfl (filter_insertLinks _ _) rfl
  | commit page found => exact nomatch hmove
  | done => exact nomatch hmove
  | failed => exact nomatch hmove

/-- What others commit does not touch what the transaction has locked. -/
theorem Writer.Sound.overlay (h : writer.Sound unicode w request) {writes : List WikiWrite}
    (hapart : ∀ lock ∈ writer.pending.flatMap WikiWrite.locks,
      lock ∉ writes.flatMap WikiWrite.locks) :
    Writer.Sound unicode (w.overlay writes) request writer := by
  have hfits : ∀ write ∈ writer.pending, write.Fits w → write.Fits (w.overlay writes) :=
    fun write hwrite hfits ↦ hfits.overlay fun lock hlock ↦
      hapart lock (List.mem_flatMap.mpr ⟨write, hwrite, hlock⟩)
  refine ⟨?_, h.fresh, h.inserting, ?_⟩
  · have hrevision := h.revision
    unfold RevisionWritten at hrevision ⊢
    split at hrevision
    · exact hrevision
    · obtain ⟨page, hpage, id, revisionNo, hrow, hfree⟩ := hrevision
      refine ⟨page, hpage, id, revisionNo, hrow, hfits _ ?_ hfree⟩
      have hmem : WikiWrite.insertRevision (request.content.newRevision id page.id revisionNo)
          ∈ writer.pending.filter WikiWrite.ofRevisions := hrow ▸ List.mem_singleton_self _
      exact (List.mem_filter.mp hmem).1
    · exact hrevision
  · intro page hpage
    obtain ⟨slug, hslug, ⟨page', hpage', hid⟩ | ⟨page', rest, hpending, hkey, hid, hfree⟩⟩ :=
      h.known page hpage
    · obtain ⟨page'', hpage'', hid'⟩ := pageBySlug_overlay writes hpage'
      exact ⟨slug, hslug, Or.inl ⟨page'', hpage'', hid'.trans hid⟩⟩
    · exact ⟨slug, hslug, Or.inr ⟨page', rest, hpending, hkey, hid,
        hfits _ (hpending ▸ List.mem_cons_self) hfree⟩⟩

theorem Known.committed {pending : List WikiWrite} {tenantId slug : String} {id : ℕ}
    (h : Known w pending tenantId slug id) :
    ∃ page, (w.overlay pending).pageBySlug tenantId slug = some page ∧ page.id = id := by
  rcases h with ⟨page, hpage, hid⟩ | ⟨page, rest, rfl, hkey, hid, hfree⟩
  · obtain ⟨page', hpage', hid'⟩ := pageBySlug_overlay pending hpage
    exact ⟨page', hpage', hid'.trans hid⟩
  · have hrow : ((WikiWrite.insertPage page).apply w).pageBySlug tenantId slug = some page := by
      refine Table.lookup_eq_some.mpr ⟨?_, hkey⟩
      have hrows : ((WikiWrite.insertPage page).apply w).pages.rows = w.pages.rows ++ [page] :=
        Table.Free.rows_add hfree
      rw [hrows]
      exact List.mem_append_right _ (List.mem_singleton_self page)
    obtain ⟨page', hpage', hid'⟩ := pageBySlug_overlay rest hrow
    exact ⟨page', hpage', hid'.trans hid⟩

end Writer

/-! ## Runs -/

section Runs

variable {n : ℕ} {unicode : UnicodeData} {sameJson : Option PyValue → Option PyValue → Bool}
  {requests : Fin n → WriteRequest} {s s' : WriteState n} {label : WriteLabel n}

inductive WriteEffect (unicode : UnicodeData) (sameJson : Option PyValue → Option PyValue → Bool)
    (requests : Fin n → WriteRequest) (s : WriteState n) :
    WriteLabel n → WriteState n → Prop
  | failed {label : WriteLabel n} (i : Fin n)
    (h : ∀ j page found, label = .proceed j → (s.writers j).pc ≠ .commit page found) :
    WriteEffect unicode sameJson requests s label (s.fail i)
  | committed {i : Fin n} {page : WikiPage} {found : Option WikiRevision}
    (h : (s.writers i).pc = .commit page found) :
    WriteEffect unicode sameJson requests s (.proceed i) (s.commit i)
  | wrote {i : Fin n} {pc : WriterPc} {writes : List WikiWrite}
    (h : (s.writers i).pc.move unicode sameJson (requests i) (s.visible i) s.nextId
      = some (.statement pc writes))
    (hfree : ¬s.Blocked i writes) (hfits : ∀ write ∈ writes, write.Fits (s.visible i)) :
    WriteEffect unicode sameJson requests s (.proceed i) (s.write i pc writes)

theorem WriterPc.commit_of_move {pc : WriterPc} {request : WriteRequest} {w : WikiStore}
    {nextId : ℕ} (h : pc.move unicode sameJson request w nextId = some .commit) :
    ∃ page found, pc = .commit page found := by
  cases pc with
  | commit page found => exact ⟨page, found, rfl⟩
  | selectPage =>
    simp only [WriterPc.move, Option.some.injEq] at h
    repeat' split at h
    all_goals exact nomatch h
  | flushRevision page revisionNo found => cases found <;> exact nomatch h
  | insertPage | flushPage | selectMax | selectRevision | flushCurrent | deleteLinks | insertLinks
  | done | failed => exact nomatch h

theorem WriteState.effect_of_step
    (h : WriteState.step unicode sameJson requests s label = some s') :
    WriteEffect unicode sameJson requests s label s' := by
  cases label with
  | proceed i =>
    -- A writer that does not commit now is not at its commit.
    have hcommit : ∀ {move}, (s.writers i).pc.move unicode sameJson (requests i) (s.visible i)
        s.nextId = some move → move ≠ .commit → ∀ j page found,
        WriteLabel.proceed i = .proceed j → (s.writers j).pc ≠ .commit page found := by
      rintro move hmove hne j page found ⟨⟩ hpc
      rw [hpc] at hmove
      exact hne (Option.some.inj hmove).symm
    unfold WriteState.step at h
    dsimp only at h
    split at h
    · exact nomatch h
    · rename_i hmove
      rw [← Option.some.inj h]
      exact .failed i (hcommit hmove fun h ↦ nomatch h)
    · rename_i hmove
      obtain ⟨page, found, hpc⟩ := WriterPc.commit_of_move hmove
      rw [← Option.some.inj h]
      exact .committed hpc
    · rename_i pc writes hmove
      split at h
      · exact nomatch h
      · rename_i hfree
        split at h
        · rename_i hfits
          rw [← Option.some.inj h]
          exact .wrote hmove hfree hfits
        · rw [← Option.some.inj h]
          exact .failed i (hcommit hmove fun h ↦ nomatch h)
  | abort i =>
    unfold WriteState.step at h
    dsimp only at h
    split at h
    · exact nomatch h
    · rw [← Option.some.inj h]
      exact .failed i fun _ _ _ hlabel ↦ nomatch hlabel

/-- The account of every transaction holds, and no two transactions lock the same. -/
structure WritersSound (unicode : UnicodeData) (requests : Fin n → WriteRequest)
    (s : WriteState n) : Prop where
  sound : ∀ i, (s.writers i).Sound unicode s.store (requests i)
  apart : ∀ i j, i ≠ j → ∀ lock ∈ (s.writers i).pending.flatMap WikiWrite.locks,
    lock ∉ (s.writers j).pending.flatMap WikiWrite.locks

theorem writersSound_initial (unicode : UnicodeData) (requests : Fin n → WriteRequest)
    (store : WikiStore) (nextId : ℕ) :
    WritersSound unicode requests (.initial store nextId) where
  sound _ := ⟨rfl, fun _ ↦ rfl, (fun _ _ h ↦ nomatch h), fun _ h ↦ nomatch h⟩
  apart _ _ _ _ h := nomatch h

theorem Writer.sound_ended {w : WikiStore} {request : WriteRequest} {pc : WriterPc}
    (hpage : pc.page = none) (hwritten : pc.written = none)
    (hpc : ∀ update slug, pc ≠ .insertPage update slug) :
    Writer.Sound unicode w request ⟨pc, []⟩ := by
  refine ⟨?_, fun _ ↦ rfl, fun update slug h ↦ absurd h (hpc update slug), ?_⟩
  · unfold RevisionWritten
    dsimp only
    rw [hwritten]
    rfl
  · intro page h
    exact nomatch hpage.symm.trans h

/-- Transactions that end release their locks. -/
theorem WritersSound.apart_update (h : WritersSound unicode requests s) (i : Fin n)
    (pc : WriterPc) : ∀ j k, j ≠ k →
      ∀ lock ∈ (Function.update s.writers i ⟨pc, []⟩ j).pending.flatMap WikiWrite.locks,
        lock ∉ (Function.update s.writers i ⟨pc, []⟩ k).pending.flatMap WikiWrite.locks := by
  intro j k hjk lock hlock hmem
  by_cases hj : j = i
  · subst hj
    rw [Function.update_self] at hlock
    exact nomatch hlock
  · rw [Function.update_of_ne hj] at hlock
    by_cases hk : k = i
    · subst hk
      rw [Function.update_self] at hmem
      exact nomatch hmem
    · rw [Function.update_of_ne hk] at hmem
      exact h.apart j k hjk lock hlock hmem

/-- **One step** keeps the accounts. -/
theorem WriteEffect.writersSound (h : WritersSound unicode requests s)
    (heffect : WriteEffect unicode sameJson requests s label s') :
    WritersSound unicode requests s' := by
  cases heffect with
  | failed i hno =>
    refine ⟨fun j ↦ ?_, h.apart_update i .failed⟩
    by_cases hj : j = i
    · subst hj
      change (Function.update s.writers j _ j).Sound unicode s.store _
      rw [Function.update_self]
      exact Writer.sound_ended rfl rfl fun _ _ h ↦ nomatch h
    · change (Function.update s.writers i _ j).Sound unicode s.store _
      rw [Function.update_of_ne hj]
      exact h.sound j
  | @committed i page found hpc =>
    refine ⟨fun j ↦ ?_, h.apart_update i .done⟩
    by_cases hj : j = i
    · subst hj
      change (Function.update s.writers j _ j).Sound unicode _ _
      rw [Function.update_self]
      exact Writer.sound_ended rfl rfl fun _ _ h ↦ nomatch h
    · change (Function.update s.writers i _ j).Sound unicode (s.visible i) _
      rw [Function.update_of_ne hj]
      exact (h.sound j).overlay (h.apart j i hj)
  | @wrote i pc writes hmove hfree hfits =>
    constructor
    · intro j
      by_cases hj : j = i
      · subst hj
        change (Function.update s.writers j _ j).Sound unicode s.store _
        rw [Function.update_self]
        exact (h.sound j).statement hmove hfits
      · change (Function.update s.writers i _ j).Sound unicode s.store _
        rw [Function.update_of_ne hj]
        exact h.sound j
    · -- the new locks are nobody else's, for the statement did not wait
      have hnew : ∀ j, j ≠ i → ∀ lock ∈ (s.writers j).pending.flatMap WikiWrite.locks,
          lock ∉ ((s.writers i).pending ++ writes).flatMap WikiWrite.locks := by
        intro j hj lock hlock hmem
        rw [List.flatMap_append] at hmem
        rcases List.mem_append.mp hmem with hold | hnew
        · exact h.apart j i hj lock hlock hold
        · exact hfree ⟨j, hj, lock, hnew, hlock⟩
      intro j k hjk lock hlock hmem
      change lock ∈ (Function.update s.writers i _ j).pending.flatMap _ at hlock
      change lock ∈ (Function.update s.writers i _ k).pending.flatMap _ at hmem
      by_cases hj : j = i
      · subst hj
        rw [Function.update_self] at hlock
        rw [Function.update_of_ne hjk.symm] at hmem
        exact hnew k hjk.symm lock hmem hlock
      · rw [Function.update_of_ne hj] at hlock
        by_cases hk : k = i
        · subst hk
          rw [Function.update_self] at hmem
          exact hnew j hj lock hlock hmem
        · rw [Function.update_of_ne hk] at hmem
          exact h.apart j k hjk lock hlock hmem

/-- **One step is append-only if and only if it is not the commit of an overwrite.** -/
theorem WriteEffect.appendOnly_step_iff (h : WritersSound unicode requests s)
    (heffect : WriteEffect unicode sameJson requests s label s') :
    AppendOnly unicode requests ⟨s, label, s'⟩ ↔ NumberFree ⟨s, label, s'⟩ := by
  cases heffect with
  | failed i hno =>
    refine ⟨?_, fun _ ↦ ⟨fun revision hrow ↦ hrow, ?_⟩⟩
    · rintro - j page found ⟨hlabel, hpc⟩
      exact absurd hpc (hno j page found hlabel)
    · rintro j page found ⟨hlabel, hpc⟩
      exact absurd hpc (hno j page found hlabel)
  | @wrote i pc writes hmove hfree hfits =>
    have hno : ∀ j page found, ¬Commits ⟨s, .proceed i, s.write i pc writes⟩ j page found := by
      rintro j page found ⟨⟨⟩, hpc⟩
      dsimp only at hpc
      rw [hpc] at hmove
      exact nomatch hmove
    exact ⟨fun _ j page found hcommits ↦ absurd hcommits (hno j page found),
      fun _ ↦ ⟨fun revision hrow ↦ hrow,
        fun j page found hcommits ↦ absurd hcommits (hno j page found)⟩⟩
  | @committed i page found hpc =>
    have hsound := h.sound i
    have hcommits : Commits ⟨s, .proceed i, s.commit i⟩ i page found := ⟨rfl, hpc⟩
    have hrevision := hsound.revision
    unfold RevisionWritten at hrevision
    rw [hpc] at hrevision
    constructor
    · -- an overwrite adds no row
      intro happend
      obtain ⟨slug, current, id, revisionNo, -, -, hrows⟩ := happend.added i page found hcommits
      rintro _ _ _ ⟨⟨⟩, hpc'⟩
      obtain ⟨-, rfl⟩ := WriterPc.commit.inj (hpc.symm.trans hpc')
      cases found with
      | none => rfl
      | some revision =>
        have hlength : (s.visible i).revisions.rows.length = s.store.revisions.rows.length :=
          length_overlay_update hrevision
        have hrows : (s.visible i).revisions.rows = s.store.revisions.rows ++ [_] := hrows
        rw [hrows, List.length_append, List.length_singleton] at hlength
        omega
    · intro hnone
      obtain rfl := hnone i page found hcommits
      obtain ⟨page', hpage', id, revisionNo, hrow, hfits⟩ := hrevision
      obtain rfl : page = page' := Option.some.inj hpage'
      have hrows : (s.visible i).revisions.rows = s.store.revisions.rows ++ [_] :=
        rows_overlay_insert hrow hfits
      refine ⟨fun revision hmem ↦ ?_, ?_⟩
      · exact hrows ▸ List.mem_append_left _ hmem
      · rintro _ _ _ ⟨⟨⟩, -⟩
        obtain ⟨slug, hslug, hknown⟩ := hsound.known page (by rw [hpc]; rfl)
        obtain ⟨current, hcurrent, hid⟩ := hknown.committed
        exact ⟨slug, current, id, revisionNo, hslug, hcurrent, hid ▸ hrows⟩

end Runs

/-! ## The law -/

section Law

variable {n : ℕ} (unicode : UnicodeData) (sameJson : Option PyValue → Option PyValue → Bool)
  (requests : Fin n → WriteRequest)

/-- **Main result.** In every run of any number of writers, from any store, a transition is
append-only if and only if it is not the commit of a writer that found its number taken. -/
theorem appendOnly_iff (store : WikiStore) (nextId : ℕ) (labels : List (WriteLabel n)) :
    ∀ t ∈ trace (WriteState.step unicode sameJson requests) (.initial store nextId) labels,
      AppendOnly unicode requests t ↔ NumberFree t := by
  intro t ht
  obtain ⟨hsound, hstep, -⟩ := trace_invariant
    (fun s label s' h hstep ↦ (WriteState.effect_of_step hstep).writersSound h)
    (writersSound_initial unicode requests store nextId) labels t ht
  exact (WriteState.effect_of_step hstep).appendOnly_step_iff hsound

/-! ## Which interleavings are safe -/

/-- The writer has not found its number taken, and does not if it looks now. -/
def WriterPc.FindsFree (w : WikiStore) : WriterPc → Prop
  | selectRevision page revisionNo => w.revisionByNo page.id revisionNo = none
  | flushRevision _ _ found => found = none
  | flushCurrent _ found _ => found = none
  | deleteLinks _ found => found = none
  | insertLinks _ found => found = none
  | commit _ found => found = none
  | selectPage | insertPage _ _ | flushPage _ | selectMax _ | done | failed => True

/-- All writers find their numbers free. -/
def LookupsFree (s : WriteState n) : Prop := ∀ i, (s.writers i).pc.FindsFree s.store

variable {unicode sameJson requests} {s s' : WriteState n} {label : WriteLabel n}

theorem WriterPc.FindsFree.of_store {pc : WriterPc} {w w' : WikiStore} (h : pc.FindsFree w)
    (hlookup : ∀ page revisionNo, pc = .selectRevision page revisionNo →
      w.revisionByNo page.id revisionNo = none → w'.revisionByNo page.id revisionNo = none) :
    pc.FindsFree w' := by
  cases pc with
  | selectRevision page revisionNo => exact hlookup page revisionNo rfl h
  | _ => exact h

/-- A writer moves on, next to others that find their numbers free. -/
private theorem LookupsFree.update {i : Fin n} {pc : WriterPc} {pending : List WikiWrite}
    {store : WikiStore} {nextId : ℕ} (hown : pc.FindsFree store)
    (hothers : ∀ j, j ≠ i → (s.writers j).pc.FindsFree store) :
    LookupsFree (⟨store, nextId, Function.update s.writers i ⟨pc, pending⟩⟩ : WriteState n) := by
  intro j
  dsimp only
  by_cases hj : j = i
  · subst hj
    rw [Function.update_self]
    exact hown
  · rw [Function.update_of_ne hj]
    exact hothers j hj

private theorem findsFree_of_move (hsound : WritersSound unicode requests s) {i : Fin n}
    (h : (s.writers i).pc.FindsFree s.store) {pc : WriterPc} {writes : List WikiWrite}
    (hmove : (s.writers i).pc.move unicode sameJson (requests i) (s.visible i) s.nextId
      = some (.statement pc writes)) : pc.FindsFree s.store := by
  have hrevision := (hsound.sound i).revision
  unfold RevisionWritten at hrevision
  have hvisible : (s.writers i).pc.written = none →
      (s.visible i).revisions = s.store.revisions := by
    intro hnone
    rw [hnone] at hrevision
    exact revisions_overlay hrevision
  cases hpc : (s.writers i).pc with
  | selectPage =>
    rw [hpc] at hmove
    simp only [WriterPc.move, Option.some.injEq] at hmove
    split at hmove
    · cases hmove
    · split at hmove
      · obtain ⟨rfl, rfl⟩ := WriterMove.statement.inj hmove
        exact trivial
      · obtain ⟨rfl, rfl⟩ := WriterMove.statement.inj hmove
        exact trivial
      · cases hmove
  | insertPage | flushPage =>
    rw [hpc] at hmove
    obtain ⟨rfl, rfl⟩ := WriterMove.statement.inj (Option.some.inj hmove)
    exact trivial
  | selectMax page =>
    rw [hpc] at hmove hvisible
    obtain ⟨rfl, rfl⟩ := WriterMove.statement.inj (Option.some.inj hmove)
    -- the number is free when it is computed
    rw [WriterPc.FindsFree, WikiStore.revisionByNo, ← hvisible rfl]
    exact (s.visible i).revisionByNo_nextRevisionNo page.id
  | selectRevision page revisionNo =>
    rw [hpc] at h hmove hvisible
    obtain ⟨rfl, rfl⟩ := WriterMove.statement.inj (Option.some.inj hmove)
    rw [WriterPc.FindsFree, WikiStore.revisionByNo, hvisible rfl]
    exact h
  | flushRevision page revisionNo found =>
    rw [hpc] at h hmove
    obtain rfl : found = none := h
    obtain ⟨rfl, rfl⟩ := WriterMove.statement.inj (Option.some.inj hmove)
    exact rfl
  | flushCurrent page found | deleteLinks page found | insertLinks page found =>
    rw [hpc] at h hmove
    obtain ⟨rfl, rfl⟩ := WriterMove.statement.inj (Option.some.inj hmove)
    exact h
  | commit | done | failed =>
    rw [hpc] at hmove
    cases hmove

/-- **One step** that spares the lookups keeps them free. -/
theorem WriteEffect.lookupsFree (hsound : WritersSound unicode requests s) (h : LookupsFree s)
    (hspares : SparesLookups ⟨s, label, s'⟩)
    (heffect : WriteEffect unicode sameJson requests s label s') : LookupsFree s' := by
  cases heffect with
  | failed i hno => exact .update trivial fun j _ ↦ h j
  | @committed i page found hpc =>
    refine .update trivial fun j hj ↦ (h j).of_store fun page revisionNo hpc hnone ↦ ?_
    refine hspares j page revisionNo ?_ hnone
    change (Function.update s.writers i _ j).pc = _
    rw [Function.update_of_ne hj]
    exact hpc
  | @wrote i pc writes hmove hfree hfits =>
    exact .update (findsFree_of_move hsound (h i) hmove) fun j _ ↦ h j

/-- No writer of a run finds its number taken if no transaction commits a revision with a number
that another one has computed and is about to look up. -/
theorem numberFree_of_spared {store : WikiStore} {nextId : ℕ} {labels : List (WriteLabel n)}
    (hspares : ∀ t ∈ trace (WriteState.step unicode sameJson requests) (.initial store nextId)
      labels, SparesLookups t) :
    ∀ t ∈ trace (WriteState.step unicode sameJson requests) (.initial store nextId) labels,
      NumberFree t := by
  intro t ht
  obtain ⟨⟨-, hfree⟩, -, -⟩ := guarded_trace_invariant
    (I := fun s ↦ WritersSound unicode requests s ∧ LookupsFree s)
    (fun s label s' h hspares hstep ↦
      ⟨(WriteState.effect_of_step hstep).writersSound h.1,
        (WriteState.effect_of_step hstep).lookupsFree h.1 h.2 hspares⟩)
    ⟨writersSound_initial unicode requests store nextId, fun _ ↦ trivial⟩ hspares t ht
  rintro i page found ⟨-, hpc⟩
  have hfound := hfree i
  rw [hpc] at hfound
  exact hfound

end Law

/-! ## Two runs -/

/-- A page is created with one revision, and two writers add one each. -/
def overtakenRequests : Fin 3 → WriteRequest
  | 0 => .createOrUpdatePage
    { tenantId := "acme", slug := some "a", title := "A", pageType := "concept", status := none
      content := ⟨"one".toList, "markdown", none, none, "agent"⟩ }
  | 1 => .createRevision "acme" "a" ⟨"two".toList, "markdown", none, none, "human"⟩
  | 2 => .createRevision "acme" "a" ⟨"three".toList, "markdown", none, none, "human"⟩

/-- The second writer computes its number, the third one writes and commits its revision, and the
second one goes on. -/
def overtakenLabels : List (WriteLabel 3) :=
  List.replicate 9 (.proceed 0) ++ List.replicate 3 (.proceed 1) ++
    List.replicate 9 (.proceed 2) ++ List.replicate 6 (.proceed 1)

/-- Both writers compute the same number and find it free; the `INSERT` of the later one is
refused. -/
def refusedLabels : List (WriteLabel 3) :=
  List.replicate 9 (.proceed 0) ++ List.replicate 5 (.proceed 1) ++
    List.replicate 4 (.proceed 2) ++ List.replicate 4 (.proceed 1) ++ [.proceed 2]

/-- The comparison of two values of which one at least is absent, as all are here. -/
def sameAbsent (a b : Option PyValue) : Bool := a.isNone && b.isNone

/-- The contents of the committed revisions. -/
def WriteState.contents {n : ℕ} (s : WriteState n) : List (List Char) :=
  s.store.revisions.rows.map WikiRevision.content

/-- The unique constraint keeps the revision of the writer that was first. -/
theorem appendOnly_refusedLabels :
    (trace (WriteState.step asciiData sameAbsent overtakenRequests)
        (.initial .empty 0) refusedLabels).length = 23 ∧
      ∀ t ∈ trace (WriteState.step asciiData sameAbsent overtakenRequests)
        (.initial .empty 0) refusedLabels, AppendOnly asciiData overtakenRequests t := by
  have hfree : ∀ t ∈ trace (WriteState.step asciiData sameAbsent overtakenRequests)
      (.initial .empty 0) refusedLabels, NumberFree t := by
    decide +kernel
  exact ⟨by decide +kernel, fun t ht ↦
    (appendOnly_iff asciiData sameAbsent overtakenRequests .empty 0 refusedLabels t ht).mpr
      (hfree t ht)⟩

/-- The second writer's commit replaces the content of the third one's revision. -/
theorem concurrent_revision_overwritten :
    ¬∀ t ∈ trace (WriteState.step asciiData sameAbsent overtakenRequests)
        (.initial .empty 0) overtakenLabels,
      AppendOnly asciiData overtakenRequests t := by
  intro h
  have hkept : ∀ t ∈ trace (WriteState.step asciiData sameAbsent overtakenRequests)
      (.initial .empty 0) overtakenLabels,
      ∀ content ∈ t.pre.contents, content ∈ t.post.contents := by
    intro t ht content hcontent
    obtain ⟨revision, hrevision, rfl⟩ := List.mem_map.mp hcontent
    exact List.mem_map_of_mem ((h t ht).kept revision hrevision)
  exact absurd hkept (by decide +kernel)

end KnowledgeAlakazam
