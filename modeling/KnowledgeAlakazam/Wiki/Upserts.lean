import KnowledgeAlakazam.Core.Linearization
import KnowledgeAlakazam.Ingest.Upserts
import KnowledgeAlakazam.Wiki.Revisions

/-!
# Concurrent upserts of a page

Calls of `create_or_update_page` for one tenant and slug, next to each other. The row of the page
points to its current revision by an id that a call draws at random, so what the row says is read
through the pointer: `PageReading`.

A call disturbs another in three ways. Two calls that find no page both insert one, and the second
`INSERT` raises. Two calls that read the same largest revision number both insert the next one:
the second raises, or the two wait for each other, each with a lock that the other needs. And a
call that leaves out a column of the page, since it was loaded with the value that the call
assigns, does not see that another call has changed it meanwhile. `WriteState.Undisturbed`
excludes the three.
-/

namespace KnowledgeAlakazam

/-! ## What a page says -/

def WikiRevision.contents (revision : WikiRevision) : RevisionContent where
  content := revision.content
  contentFormat := revision.contentFormat
  contentJson := revision.contentJson
  summary := revision.summary
  authorType := revision.authorType

/-- What the row of a page says: the pointer is read as the number and the content of the
revision. -/
structure PageReading where
  id : ℕ
  title : String
  pageType : String
  status : String
  current : Option (ℕ × RevisionContent)
  nextRevisionNo : ℕ

namespace WikiStore

def readingOf (w : WikiStore) (page : WikiPage) : PageReading where
  id := page.id
  title := page.title
  pageType := page.pageType
  status := page.status
  current := (w.currentOf page).map fun revision ↦ (revision.revisionNo, revision.contents)
  nextRevisionNo := w.nextRevisionNo page.id

def reading (w : WikiStore) (tenantId slug : String) : Option PageReading :=
  (w.pageBySlug tenantId slug).map w.readingOf

/-- All ids are below `n`: no id from `n` on has been drawn. -/
structure Below (w : WikiStore) (n : ℕ) : Prop where
  pages : ∀ page ∈ w.pages.rows, page.id < n
  pointers : ∀ page ∈ w.pages.rows, ∀ id ∈ page.currentRevisionId, id < n
  revisions : ∀ revision ∈ w.revisions.rows, revision.id < n ∧ revision.pageId < n
  links : ∀ link ∈ w.links.rows, link.id < n

end WikiStore

/-- What a call does to a page; `id` is that of a new one. -/
def PageUpdate.upserted (update : PageUpdate) (id : ℕ) :
    Option PageReading → Option PageReading
  | none => some
    { id := id
      title := update.title
      pageType := update.pageType
      status := orElse update.status "draft"
      current := some (1, update.content)
      nextRevisionNo := 2 }
  | some page => some { page with
      title := update.title
      pageType := update.pageType
      status := update.status.getD page.status
      current := some (page.nextRevisionNo, update.content)
      nextRevisionNo := page.nextRevisionNo + 1 }

/-! ## When the calls do not disturb each other -/

/-- The writer has read the largest revision number of its page, and has not ended. -/
def WriterPc.Numbering : WriterPc → Prop
  | selectRevision _ _ => True
  | flushRevision _ _ _ => True
  | flushCurrent _ _ _ => True
  | deleteLinks _ _ => True
  | insertLinks _ _ => True
  | commit _ _ => True
  | selectPage | insertPage _ _ | flushPage _ | selectMax _ | done | failed => False

instance : DecidablePred WriterPc.Numbering := fun pc ↦ by
  unfold WriterPc.Numbering
  split <;> infer_instance

instance (pc : WriterPc) : Decidable (pc = .failed) := by
  cases pc <;> first | exact isTrue rfl | exact isFalse (by simp)

section Definitions

variable {n : ℕ} (unicode : UnicodeData) (sameJson : Option PyValue → Option PyValue → Bool)
  (updates : Fin n → PageUpdate) (tenantId slug : String)

namespace WriteState

/-- One statement of a call of `create_or_update_page`. -/
def upsert (s : WriteState n) (i : Fin n) : Option (WriteState n) :=
  s.step unicode sameJson (fun i ↦ .createOrUpdatePage (updates i)) (.proceed i)

/-- An `INSERT` of the page finds the slug free; nobody reads the largest revision number between
another's reading it and its end; and when a call points the page to its revision, the row has the
columns that the call has assigned. -/
def Undisturbed (s : WriteState n) (i : Fin n) : Prop :=
  match (s.writers i).pc with
  | .insertPage _ _ => s.store.pageBySlug tenantId slug = none
  | .selectMax _ => ∀ j, j ≠ i → ¬(s.writers j).pc.Numbering
  | .flushCurrent page _ _ => ∀ row ∈ (s.visible i).pageBySlug tenantId slug,
    row.title = page.title ∧ row.pageType = page.pageType ∧
      ((updates i).status ≠ none → row.status = page.status)
  | _ => True

instance (s : WriteState n) (i : Fin n) : Decidable (s.Undisturbed updates tenantId slug i) := by
  unfold Undisturbed
  split <;> infer_instance

/-- What is asked of the calls, in a state of a run from `s₀`: they are serializable, and when all
are done there is one page with the slug. -/
structure Upserted (s₀ s : WriteState n) : Prop where
  serializable : Serializable (upsert unicode sameJson updates)
    (fun s i ↦ (s.writers i).pc = .failed) (fun s i ↦ (s.writers i).pc = .done)
    (fun s ↦ s.store.reading tenantId slug) 9 s₀ s
  onePage : 0 < n → (∀ i, (s.writers i).pc = .done) →
    ∃! page, page ∈ s.store.pages.rows ∧ (page.tenantId, page.slug) = (tenantId, slug)

end WriteState

end Definitions

/-! ## What the writes do to a page -/

section Writes

variable {w w' : WikiStore} {tenantId slug : String} {n m : ℕ} {writes : List WikiWrite}

namespace WikiStore

theorem overlay_append (w : WikiStore) (writes more : List WikiWrite) :
    w.overlay (writes ++ more) = (w.overlay writes).overlay more := List.foldl_append

theorem nextRevisionNo_congr (h : w.revisions = w'.revisions) (pageId : ℕ) :
    w.nextRevisionNo pageId = w'.nextRevisionNo pageId := by
  rw [nextRevisionNo, nextRevisionNo, revisionsOf, revisionsOf, h]

theorem reading_congr (hpages : w.pages = w'.pages) (hrevisions : w.revisions = w'.revisions) :
    w.reading tenantId slug = w'.reading tenantId slug := by
  have hof : w.readingOf = w'.readingOf := funext fun page ↦ by
    rw [readingOf, readingOf, currentOf, currentOf, hrevisions, nextRevisionNo_congr hrevisions]
  rw [reading, reading, pageBySlug, pageBySlug, hpages, hof]

theorem nextRevisionNo_concat {c : RevisionContent} {id pageId : ℕ}
    (h : w'.revisions.rows
      = w.revisions.rows ++ [c.newRevision id pageId (w.nextRevisionNo pageId)]) :
    w'.nextRevisionNo pageId = w.nextRevisionNo pageId + 1 := by
  have hrows : w'.revisionsOf pageId
      = w.revisionsOf pageId ++ [c.newRevision id pageId (w.nextRevisionNo pageId)] := by
    rw [revisionsOf, h, List.filter_append, revisionsOf]
    exact congrArg _ (List.filter_eq_self.mpr fun revision hrevision ↦ by
      rw [List.mem_singleton.mp hrevision]
      exact beq_self_eq_true pageId)
  have hmax : ∀ (l : List ℕ) (a : ℕ), (l ++ [a]).foldr max 0 = max (l.foldr max 0) a := by
    intro l a
    induction l with
    | nil => simp
    | cons b l ih => rw [List.cons_append, List.foldr_cons, ih, List.foldr_cons, max_assoc]
  rw [nextRevisionNo, hrows, List.map_append, List.map_singleton, hmax]
  exact congrArg (· + 1) (Nat.max_eq_right (Nat.le_succ _))

theorem nextRevisionNo_eq_one {pageId : ℕ}
    (h : ∀ revision ∈ w.revisions.rows, revision.pageId ≠ pageId) :
    w.nextRevisionNo pageId = 1 := by
  have hnil : w.revisionsOf pageId = [] := List.filter_eq_nil_iff.mpr fun revision hrevision ↦ by
    simpa using h revision hrevision
  rw [nextRevisionNo, hnil]
  rfl

theorem pageBySlug_flushPage {loaded row : WikiPage}
    (hrow : w.pageBySlug tenantId slug = some row) (hid : row.id = loaded.id) (page : WikiPage) :
    (w.overlay (flushPage loaded page)).pageBySlug tenantId slug
      = some ((pageDiff loaded page).app row) := by
  unfold flushPage
  split
  · rename_i heq
    rw [heq]
    refine hrow.trans (congrArg some ?_)
    simp [pageDiff]
  · refine (Table.lookup_modify ..).trans ?_
    rw [show w.pages.lookup (tenantId, slug) = some row from hrow, Option.map_some]
    exact congrArg some (if_pos hid)

theorem overlay_links (h : ∀ write ∈ writes, ∃ link, write = .insertLink link) :
    (w.overlay writes).pages = w.pages ∧ (w.overlay writes).revisions = w.revisions := by
  induction writes generalizing w with
  | nil => exact ⟨rfl, rfl⟩
  | cons write writes ih =>
    obtain ⟨link, rfl⟩ := h write List.mem_cons_self
    exact ih (w := (WikiWrite.insertLink link).apply w)
      fun other hother ↦ h other (List.mem_cons_of_mem _ hother)

end WikiStore

/-- The ids that a write brings in are below `m`. -/
def WikiWrite.Within (m : ℕ) : WikiWrite → Prop
  | insertPage page => page.id < m ∧ ∀ id ∈ page.currentRevisionId, id < m
  | updatePage _ patch => ∀ row : WikiPage, (∀ id ∈ row.currentRevisionId, id < m) →
    ∀ id ∈ (patch.app row).currentRevisionId, id < m
  | insertRevision revision => revision.id < m ∧ revision.pageId < m
  | insertLink link => link.id < m
  | updateRevision _ _ => True
  | deleteLinks _ => True

namespace WikiStore.Below

theorem mono (h : w.Below n) (hle : n ≤ m) : w.Below m where
  pages page hpage := (h.pages page hpage).trans_le hle
  pointers page hpage id hid := (h.pointers page hpage id hid).trans_le hle
  revisions revision hrevision := ⟨(h.revisions revision hrevision).1.trans_le hle,
    (h.revisions revision hrevision).2.trans_le hle⟩
  links link hlink := (h.links link hlink).trans_le hle

theorem apply (h : w.Below m) {write : WikiWrite} (hwrite : write.Within m) :
    (write.apply w).Below m := by
  -- An inserted row is below the counter because its id was drawn from it; an updated one keeps its
  -- id.
  cases write with
  | insertPage page =>
    refine { h with pages := fun other hother ↦ ?_, pointers := fun other hother ↦ ?_ }
    · rcases Table.mem_add hother with hother | rfl
      · exact h.pages other hother
      · exact hwrite.1
    · rcases Table.mem_add hother with hother | rfl
      · exact h.pointers other hother
      · exact hwrite.2
  | updatePage id patch =>
    refine { h with pages := fun other hother ↦ ?_, pointers := fun other hother ↦ ?_ }
    · obtain ⟨page, hpage, rfl | rfl⟩ := Table.mem_modify hother
      · exact h.pages _ hpage
      · have hid : (patch.app page).id = page.id := patch.primary_app page
        exact hid ▸ h.pages page hpage
    · obtain ⟨page, hpage, rfl | rfl⟩ := Table.mem_modify hother
      · exact h.pointers _ hpage
      · exact hwrite page (h.pointers page hpage)
  | insertRevision revision =>
    refine { h with revisions := fun other hother ↦ ?_ }
    rcases Table.mem_add hother with hother | rfl
    · exact h.revisions other hother
    · exact hwrite
  | updateRevision id patch =>
    refine { h with revisions := fun other hother ↦ ?_ }
    obtain ⟨revision, hrevision, rfl | rfl⟩ := Table.mem_modify hother
    · exact h.revisions _ hrevision
    · have hid : (patch.app revision).id = revision.id := patch.primary_app revision
      have hkey := (Prod.mk.inj (patch.unique_app revision)).1
      exact ⟨hid ▸ (h.revisions revision hrevision).1, hkey ▸ (h.revisions revision hrevision).2⟩
  | deleteLinks ids =>
    exact { h with links := fun link hlink ↦ h.links link (List.mem_filter.mp hlink).1 }
  | insertLink link =>
    refine { h with links := fun other hother ↦ ?_ }
    rcases Table.mem_add hother with hother | rfl
    · exact h.links other hother
    · exact hwrite

theorem overlay (h : w.Below m) (hwrites : ∀ write ∈ writes, write.Within m) :
    (w.overlay writes).Below m := by
  induction writes generalizing w with
  | nil => exact h
  | cons write writes ih =>
    exact ih (h.apply (hwrites write List.mem_cons_self))
      fun other hother ↦ hwrites other (List.mem_cons_of_mem _ hother)

end WikiStore.Below

end Writes

/-! ## Where a call is -/

namespace PageUpdate

variable (update : PageUpdate) (tenantId slug : String) (newId : ℕ)

def newPage : WikiPage :=
  ⟨newId, tenantId, slug, update.title, update.pageType, orElse update.status "draft", none⟩

/-- The call has assigned the columns of the mapped object. -/
def Assigned (page : WikiPage) : Prop :=
  page.title = update.title ∧ page.pageType = update.pageType ∧
    ∀ status ∈ update.status, page.status = status

/-- The mapped object `page`, next to the committed store `W` and the store `V` that the
transaction sees. -/
inductive Prepared (W V : WikiStore) : WikiPage → Prop
  | created (hnone : W.pageBySlug tenantId slug = none) (hnext : W.nextRevisionNo newId = 1)
    (hrow : V.pageBySlug tenantId slug = some (update.newPage tenantId slug newId)) :
    Prepared W V (update.newPage tenantId slug newId)
  | found {current row page : WikiPage} (hcurrent : W.pageBySlug tenantId slug = some current)
    (hid : current.id = page.id) (hrow : V.pageBySlug tenantId slug = some row)
    (hid' : row.id = page.id) (hstatus : update.status = none → row.status = current.status)
    (hassigned : update.Assigned page) : Prepared W V page

/-- What a call has read and written, by its next statement. -/
def Stage (W V : WikiStore) (nextId : ℕ) (writer : Writer) : Prop :=
  match writer.pc with
  | .selectPage => True
  | .insertPage other otherSlug => other = update ∧ otherSlug = slug
  | .flushPage page => writer.pending = [] ∧ ∀ id ∈ page.currentRevisionId, id < nextId
  | .selectMax page => (∀ id ∈ page.currentRevisionId, id < nextId) ∧
    update.Prepared tenantId slug newId W V page ∧ V.revisions = W.revisions ∧
    (writer.pending = [] ∨ .page page.id ∈ writer.pending.flatMap WikiWrite.locks)
  | .selectRevision page revisionNo => (∀ id ∈ page.currentRevisionId, id < nextId) ∧
    update.Prepared tenantId slug newId W V page ∧ V.revisions = W.revisions ∧
    revisionNo = W.nextRevisionNo page.id
  | .flushRevision page revisionNo found => (∀ id ∈ page.currentRevisionId, id < nextId) ∧
    update.Prepared tenantId slug newId W V page ∧ V.revisions = W.revisions ∧
    revisionNo = W.nextRevisionNo page.id ∧ found = none
  | .flushCurrent page found revisionId => (∀ id ∈ page.currentRevisionId, id ≠ revisionId) ∧
    update.Prepared tenantId slug newId W V page ∧ V.revisions.rows = W.revisions.rows ++
      [update.content.newRevision revisionId page.id (W.nextRevisionNo page.id)] ∧
    revisionId < nextId ∧ found = none
  | .deleteLinks page found => found = none ∧
    V.reading tenantId slug = update.upserted newId (W.reading tenantId slug) ∧
    .page page.id ∈ writer.pending.flatMap WikiWrite.locks
  | .insertLinks page found => found = none ∧
    V.reading tenantId slug = update.upserted newId (W.reading tenantId slug) ∧
    .page page.id ∈ writer.pending.flatMap WikiWrite.locks
  | .commit page found => found = none ∧
    V.reading tenantId slug = update.upserted newId (W.reading tenantId slug) ∧
    .page page.id ∈ writer.pending.flatMap WikiWrite.locks
  | .done => True
  | .failed => False

end PageUpdate

section Stages

variable {unicode : UnicodeData} {sameJson : Option PyValue → Option PyValue → Bool}
  {update : PageUpdate} {tenantId slug : String} {newId nextId : ℕ} {W V V' : WikiStore}
  {writer : Writer} {pc : WriterPc} {writes pending : List WikiWrite} {page : WikiPage}

namespace PageUpdate

theorem Stage.mono {later : ℕ} (h : update.Stage tenantId slug newId W V nextId writer)
    (hle : nextId ≤ later) : update.Stage tenantId slug newId W V later writer := by
  unfold Stage at h ⊢
  split
  all_goals
    rename_i hpc
    rw [hpc] at h
  · exact h
  · exact h
  · exact ⟨h.1, fun id hid ↦ (h.2 id hid).trans_le hle⟩
  · exact ⟨fun id hid ↦ (h.1 id hid).trans_le hle, h.2⟩
  · exact ⟨fun id hid ↦ (h.1 id hid).trans_le hle, h.2⟩
  · exact ⟨fun id hid ↦ (h.1 id hid).trans_le hle, h.2⟩
  · exact ⟨h.1, h.2.1, h.2.2.1, h.2.2.2.1.trans_le hle, h.2.2.2.2⟩
  · exact h
  · exact h
  · exact h
  · exact h
  · exact h

theorem Prepared.congr (h : update.Prepared tenantId slug newId W V page)
    (hpages : V'.pageBySlug tenantId slug = V.pageBySlug tenantId slug) :
    update.Prepared tenantId slug newId W V' page := by
  cases h with
  | created hnone hnext hrow => exact .created hnone hnext (hpages.trans hrow)
  | found hcurrent hid hrow hid' hstatus hassigned =>
    exact .found hcurrent hid (hpages.trans hrow) hid' hstatus hassigned

theorem Prepared.exists_row (h : update.Prepared tenantId slug newId W V page) :
    ∃ row, V.pageBySlug tenantId slug = some row ∧ row.id = page.id := by
  cases h with
  | created hnone hnext hrow => exact ⟨_, hrow, rfl⟩
  | found hcurrent hid hrow hid' => exact ⟨_, hrow, hid'⟩

theorem Prepared.reading (h : update.Prepared tenantId slug newId W V page) {revisionId : ℕ}
    (hne : ∀ id ∈ page.currentRevisionId, id ≠ revisionId)
    (hrevisions : V.revisions.rows = W.revisions.rows ++
      [update.content.newRevision revisionId page.id (W.nextRevisionNo page.id)])
    (hguard : ∀ row ∈ V.pageBySlug tenantId slug, row.title = page.title ∧
      row.pageType = page.pageType ∧ (update.status ≠ none → row.status = page.status)) :
    (V.overlay (flushPage page ((setCurrentPatch revisionId).app page))).reading tenantId slug
      = update.upserted newId (W.reading tenantId slug) := by
  obtain ⟨row, hrow, hid⟩ := h.exists_row
  obtain ⟨htitle, htype, hstatus⟩ := hguard row hrow
  have hpointed : (pageDiff page ((setCurrentPatch revisionId).app page)).app row
      = (setCurrentPatch revisionId).app row := by
    -- the page does not point to the new revision yet, so the flush sends the pointer
    have hif : ¬some revisionId = page.currentRevisionId := fun heq ↦ hne revisionId heq.symm rfl
    simp [pageDiff, setCurrentPatch, hif]
  have hpage := WikiStore.pageBySlug_flushPage hrow hid ((setCurrentPatch revisionId).app page)
  rw [hpointed] at hpage
  have hsame : (V.overlay (flushPage page ((setCurrentPatch revisionId).app page))).revisions
      = V.revisions := revisions_overlay (filter_flushPage _ _)
  have hfind : V.revisions.find revisionId
      = some (update.content.newRevision revisionId page.id (W.nextRevisionNo page.id)) :=
    Table.find_primary (hrevisions ▸ List.mem_append_right _ (List.mem_singleton_self _))
  have hread : (V.overlay (flushPage page ((setCurrentPatch revisionId).app page))).reading
      tenantId slug = some ⟨page.id, page.title, page.pageType, row.status,
        some (W.nextRevisionNo page.id, update.content), W.nextRevisionNo page.id + 1⟩ := by
    rw [WikiStore.reading, hpage, Option.map_some, WikiStore.readingOf, WikiStore.currentOf,
      hsame, WikiStore.nextRevisionNo_congr hsame, ← htitle, ← htype, ← hid]
    refine congrArg some (PageReading.mk.injEq .. |>.mpr ⟨rfl, rfl, rfl, rfl, ?_, ?_⟩)
    · change Option.map _ (V.revisions.find revisionId) = _
      rw [hfind, hid]
      rfl
    · exact WikiStore.nextRevisionNo_concat (hid ▸ hrevisions)
  rw [hread]
  cases h with
  | created hnone hnext hrow' =>
    obtain rfl := Option.some.inj (hrow.symm.trans hrow')
    rw [WikiStore.reading, hnone]
    change some (PageReading.mk _ _ _ _ (some (W.nextRevisionNo newId, _))
      (W.nextRevisionNo newId + 1)) = _
    rw [hnext]
    rfl
  | @found current row' page hcurrent hid₁ hrow' hid' hkept hassigned =>
    obtain rfl := Option.some.inj (hrow.symm.trans hrow')
    have hrowStatus : row.status = update.status.getD current.status := by
      cases hs : update.status with
      | none => exact hkept hs
      | some status =>
        exact (hstatus (by rw [hs]; simp)).trans (hassigned.2.2 status hs)
    rw [WikiStore.reading, hcurrent, ← hid₁, hassigned.1, hassigned.2.1, hrowStatus]
    rfl

end PageUpdate

end Stages

section Advance

variable {unicode : UnicodeData} {sameJson : Option PyValue → Option PyValue → Bool}
  {update : PageUpdate} {tenantId slug : String} {newId nextId : ℕ} {W : WikiStore}
  {pc pc' : WriterPc} {writes pending : List WikiWrite} {page : WikiPage}

/-- A statement of a call: it raises no error, and the call goes on as it should. -/
structure PageUpdate.Advances (update : PageUpdate) (tenantId slug : String) (newId : ℕ)
    (W : WikiStore) (pending : List WikiWrite) (nextId : ℕ) (pc : WriterPc)
    (writes : List WikiWrite) : Prop where
  stage : update.Stage tenantId slug newId W ((W.overlay pending).overlay writes)
    (nextId + writes.length) ⟨pc, pending ++ writes⟩
  within : ∀ write ∈ writes, write.Within (nextId + writes.length)
  fits : ∀ write ∈ writes, write.Fits (W.overlay pending)

namespace PageUpdate

theorem Advances.of_nil (h : update.Stage tenantId slug newId W (W.overlay pending) nextId
    ⟨pc, pending⟩) : update.Advances tenantId slug newId W pending nextId pc [] where
  stage := by
    rw [List.append_nil]
    exact h
  within _ h := absurd h (by simp)
  fits _ h := absurd h (by simp)

theorem within_flushPage {loaded : WikiPage} {m : ℕ} (h : ∀ id ∈ page.currentRevisionId, id < m) :
    ∀ write ∈ flushPage loaded page, write.Within m := by
  intro write hwrite
  unfold flushPage at hwrite
  split at hwrite
  · exact absurd hwrite (by simp)
  · rw [List.mem_singleton.mp hwrite]
    intro row hrow
    change ∀ id ∈ (if page.currentRevisionId = loaded.currentRevisionId then row.currentRevisionId
      else page.currentRevisionId), id < m
    split
    · exact hrow
    · exact h

theorem fits_flushPage (loaded page : WikiPage) (w : WikiStore) :
    ∀ write ∈ flushPage loaded page, write.Fits w := by
  intro write hwrite
  unfold flushPage at hwrite
  split at hwrite
  · exact absurd hwrite (by simp)
  · rw [List.mem_singleton.mp hwrite]
    trivial

theorem advances_insertPage (hbelow : W.Below newId)
    (hnone : W.pageBySlug tenantId slug = none) :
    update.Advances tenantId slug newId W [] newId (.selectMax (update.newPage tenantId slug newId))
      [.insertPage (update.newPage tenantId slug newId)] := by
  have hfits : W.pages.Free (update.newPage tenantId slug newId) :=
    ⟨Table.find_eq_none.mpr fun page hpage ↦ Nat.ne_of_lt (hbelow.pages page hpage), hnone⟩
  have hrow : (W.overlay [.insertPage (update.newPage tenantId slug newId)]).pageBySlug tenantId
      slug = some (update.newPage tenantId slug newId) := by
    refine Table.lookup_eq_some.mpr ⟨?_, rfl⟩
    change _ ∈ (W.pages.add _).rows
    rw [hfits.rows_add]
    exact List.mem_append_right _ (List.mem_singleton_self _)
  have hpointer : ∀ {m id : ℕ}, id ∈ (update.newPage tenantId slug newId).currentRevisionId →
      id < m := fun h ↦ absurd h (by simp [newPage])
  refine ⟨⟨fun id hid ↦ hpointer hid, .created hnone ?_ hrow, rfl, Or.inr ?_⟩, ?_, ?_⟩
  · exact WikiStore.nextRevisionNo_eq_one fun revision hrevision ↦
      Nat.ne_of_lt (hbelow.revisions revision hrevision).2
  · exact List.mem_cons_self
  · intro write hwrite
    rw [List.mem_singleton.mp hwrite]
    exact ⟨Nat.lt_succ_self _, fun id hid ↦ hpointer hid⟩
  · intro write hwrite
    rw [List.mem_singleton.mp hwrite]
    exact hfits

theorem advances_flushPage {current : WikiPage}
    (hcurrent : W.pageBySlug tenantId slug = some current) (hid : current.id = page.id)
    (hpointer : ∀ id ∈ page.currentRevisionId, id < nextId) :
    let page' := WriteRequest.retitle (.createOrUpdatePage update) page
    update.Advances tenantId slug newId W [] nextId (.selectMax page') (flushPage page page') := by
  intro page'
  have hrow := WikiStore.pageBySlug_flushPage hcurrent hid page'
  have hassigned : update.Assigned page' := by
    refine ⟨rfl, rfl, fun status hstatus ↦ ?_⟩
    change update.status.getD page.status = status
    rw [Option.mem_def.mp hstatus]
    rfl
  have hkept : update.status = none → ((pageDiff page page').app current).status
      = current.status := by
    intro hnone
    have hsame : page'.status = page.status := by
      change update.status.getD page.status = _
      rw [hnone]
      rfl
    exact if_pos hsame
  refine ⟨⟨fun id hid ↦ (hpointer id hid).trans_le (Nat.le_add_right _ _),
    .found hcurrent hid hrow hid hkept hassigned, revisions_overlay (filter_flushPage _ _), ?_⟩,
    within_flushPage fun id hid ↦ (hpointer id hid).trans_le (Nat.le_add_right _ _),
    fits_flushPage _ _ _⟩
  unfold flushPage
  split
  · exact Or.inl rfl
  · exact Or.inr List.mem_cons_self

theorem advances_flushRevision (hbelow : (W.overlay pending).Below nextId)
    (hpointer : ∀ id ∈ page.currentRevisionId, id < nextId)
    (hprepared : update.Prepared tenantId slug newId W (W.overlay pending) page)
    (hrevisions : (W.overlay pending).revisions = W.revisions) :
    update.Advances tenantId slug newId W pending nextId (.flushCurrent page none nextId)
      [.insertRevision (update.content.newRevision nextId page.id (W.nextRevisionNo page.id))] := by
  have hfits : (W.overlay pending).revisions.Free
      (update.content.newRevision nextId page.id (W.nextRevisionNo page.id)) := by
    refine ⟨Table.find_eq_none.mpr fun revision hrevision ↦
      Nat.ne_of_lt (hbelow.revisions revision hrevision).1, ?_⟩
    rw [hrevisions]
    exact W.revisionByNo_nextRevisionNo page.id
  obtain ⟨row, hrow, hid⟩ := hprepared.exists_row
  have hpage : page.id < nextId := hid ▸ hbelow.pages row (Table.mem_of_lookup hrow)
  refine ⟨⟨fun id hid ↦ Nat.ne_of_lt (hpointer id hid), hprepared.congr rfl, ?_,
    Nat.lt_succ_self _, rfl⟩, ?_, ?_⟩
  · change ((W.overlay pending).revisions.add _).rows = _
    rw [hfits.rows_add, hrevisions]
  · intro write hwrite
    rw [List.mem_singleton.mp hwrite]
    exact ⟨Nat.lt_succ_self _, hpage.trans (Nat.lt_succ_self _)⟩
  · intro write hwrite
    rw [List.mem_singleton.mp hwrite]
    exact hfits

theorem advances_flushCurrent {revisionId : ℕ}
    (hne : ∀ id ∈ page.currentRevisionId, id ≠ revisionId)
    (hprepared : update.Prepared tenantId slug newId W (W.overlay pending) page)
    (hrevisions : (W.overlay pending).revisions.rows = W.revisions.rows ++
      [update.content.newRevision revisionId page.id (W.nextRevisionNo page.id)])
    (hlt : revisionId < nextId)
    (hguard : ∀ row ∈ (W.overlay pending).pageBySlug tenantId slug, row.title = page.title ∧
      row.pageType = page.pageType ∧ (update.status ≠ none → row.status = page.status)) :
    let pointed := (setCurrentPatch revisionId).app page
    update.Advances tenantId slug newId W pending nextId (.deleteLinks pointed none)
      (flushPage page pointed) := by
  intro pointed
  have hlock : RowLock.page page.id ∈ (flushPage page pointed).flatMap WikiWrite.locks := by
    have hchanged : ¬pointed = page := fun heq ↦
      hne revisionId ((congrArg WikiPage.currentRevisionId heq).symm) rfl
    rw [flushPage, if_neg hchanged]
    exact List.mem_cons_self
  refine ⟨⟨rfl, hprepared.reading hne hrevisions hguard, ?_⟩, within_flushPage ?_,
    fits_flushPage _ _ _⟩
  · rw [List.flatMap_append]
    exact List.mem_append_right _ hlock
  · intro id hid
    rw [← Option.some.inj hid]
    exact hlt.trans_le (Nat.le_add_right _ _)

theorem advances_deleteLinks (ids : List ℕ)
    (hread : (W.overlay pending).reading tenantId slug
      = update.upserted newId (W.reading tenantId slug))
    (hlock : RowLock.page page.id ∈ pending.flatMap WikiWrite.locks) :
    update.Advances tenantId slug newId W pending nextId (.insertLinks page none)
      [.deleteLinks ids] := by
  refine ⟨⟨rfl, hread, ?_⟩, fun write hwrite ↦ ?_, fun write hwrite ↦ ?_⟩
  · rw [List.flatMap_append]
    exact List.mem_append_left _ hlock
  · rw [List.mem_singleton.mp hwrite]
    trivial
  · rw [List.mem_singleton.mp hwrite]
    trivial

theorem advances_insertLinks (toSlugs : List String) (hbelow : (W.overlay pending).Below nextId)
    (hread : (W.overlay pending).reading tenantId slug
      = update.upserted newId (W.reading tenantId slug))
    (hlock : RowLock.page page.id ∈ pending.flatMap WikiWrite.locks) :
    update.Advances tenantId slug newId W pending nextId (.commit page none)
      (toSlugs.mapIdx fun k toSlug ↦
        .insertLink ⟨nextId + k, tenantId, page.id, toSlug, "wikilink"⟩) := by
  have hlinks : ∀ write ∈ (toSlugs.mapIdx fun k toSlug ↦ WikiWrite.insertLink
      ⟨nextId + k, tenantId, page.id, toSlug, "wikilink"⟩), ∃ link, write = .insertLink link := by
    intro write hwrite
    obtain ⟨k, hk, rfl⟩ := List.mem_mapIdx.mp hwrite
    exact ⟨_, rfl⟩
  obtain ⟨hpages, hrevisions⟩ := WikiStore.overlay_links hlinks (w := W.overlay pending)
  refine ⟨⟨rfl, (WikiStore.reading_congr hpages hrevisions).trans hread, ?_⟩,
    fun write hwrite ↦ ?_, fun write hwrite ↦ ?_⟩
  · rw [List.flatMap_append]
    exact List.mem_append_left _ hlock
  · obtain ⟨k, hk, rfl⟩ := List.mem_mapIdx.mp hwrite
    rw [List.length_mapIdx]
    exact Nat.add_lt_add_left hk nextId
  · obtain ⟨k, hk, rfl⟩ := List.mem_mapIdx.mp hwrite
    have hne : ∀ link ∈ (W.overlay pending).links.rows, link.id ≠ nextId + k := fun link hlink ↦
      Nat.ne_of_lt ((hbelow.links link hlink).trans_le (Nat.le_add_right _ _))
    exact ⟨Table.find_eq_none.mpr hne, Table.lookup_eq_none.mpr hne⟩

/-- **One statement** of a call that is not disturbed. -/
theorem Stage.advances (hkey : update.tenantId = tenantId)
    (hslug : requireSlug unicode (orElse update.slug update.title) = .ok slug)
    (hbelow : (W.overlay pending).Below nextId)
    (hsound : Writer.Sound unicode W (.createOrUpdatePage update) ⟨pc, pending⟩)
    (h : update.Stage tenantId slug newId W (W.overlay pending) nextId ⟨pc, pending⟩)
    (hinsert : ∀ other otherSlug, pc = .insertPage other otherSlug →
      W.pageBySlug tenantId slug = none ∧ nextId = newId)
    (hpoint : ∀ page found revisionId, pc = .flushCurrent page found revisionId →
      ∀ row ∈ (W.overlay pending).pageBySlug tenantId slug, row.title = page.title ∧
        row.pageType = page.pageType ∧ (update.status ≠ none → row.status = page.status))
    (hmove : pc.move unicode sameJson (.createOrUpdatePage update) (W.overlay pending) nextId
      = some (.statement pc' writes)) :
    update.Advances tenantId slug newId W pending nextId pc' writes := by
  subst hkey
  have hrequest : (WriteRequest.createOrUpdatePage update).slug unicode = .ok slug := hslug
  -- Only the lookup of the page has two ways to go on; each of the other statements has one.
  cases pc with
  | selectPage =>
    obtain rfl : pending = [] := hsound.fresh rfl
    simp only [WriterPc.move, hrequest, Option.some.injEq] at hmove
    split at hmove
    · rename_i page hpage
      obtain ⟨rfl, rfl⟩ := WriterMove.statement.inj hmove
      exact .of_nil ⟨rfl, hbelow.pointers page (Table.mem_of_lookup hpage)⟩
    · rename_i other hpage heq
      obtain ⟨rfl, rfl⟩ := WriterMove.statement.inj hmove
      obtain rfl := WriteRequest.createOrUpdatePage.inj heq
      exact .of_nil ⟨rfl, rfl⟩
    · cases hmove
  | insertPage other otherSlug =>
    obtain rfl : pending = [] := hsound.fresh rfl
    obtain ⟨rfl, rfl⟩ := h
    obtain ⟨hnone, rfl⟩ := hinsert _ _ rfl
    obtain ⟨rfl, rfl⟩ := WriterMove.statement.inj (Option.some.inj hmove)
    exact advances_insertPage hbelow hnone
  | flushPage page =>
    obtain ⟨hpending, hpointer⟩ := h
    obtain rfl : pending = [] := hpending
    obtain ⟨rfl, rfl⟩ := WriterMove.statement.inj (Option.some.inj hmove)
    obtain ⟨slug', hslug', ⟨current, hcurrent, hid⟩ | ⟨_, _, hnil, -⟩⟩ := hsound.known page rfl
    · obtain rfl : slug = slug' := Except.ok.inj (hrequest.symm.trans hslug')
      exact advances_flushPage hcurrent hid hpointer
    -- its own insert would be pending
    · cases hnil
  | selectMax page =>
    obtain ⟨hpointer, hprepared, hrevisions, -⟩ := h
    obtain ⟨rfl, rfl⟩ := WriterMove.statement.inj (Option.some.inj hmove)
    exact .of_nil ⟨hpointer, hprepared, hrevisions,
      WikiStore.nextRevisionNo_congr hrevisions page.id⟩
  | selectRevision page revisionNo =>
    obtain ⟨hpointer, hprepared, hrevisions, hno⟩ := h
    obtain ⟨rfl, rfl⟩ := WriterMove.statement.inj (Option.some.inj hmove)
    refine .of_nil ⟨hpointer, hprepared, hrevisions, hno, ?_⟩
    rw [hno, WikiStore.revisionByNo, hrevisions]
    exact W.revisionByNo_nextRevisionNo page.id
  | flushRevision page revisionNo found =>
    obtain ⟨hpointer, hprepared, hrevisions, rfl, rfl⟩ := h
    obtain ⟨rfl, rfl⟩ := WriterMove.statement.inj (Option.some.inj hmove)
    exact advances_flushRevision hbelow hpointer hprepared hrevisions
  | flushCurrent page found revisionId =>
    obtain ⟨hne, hprepared, hrevisions, hlt, rfl⟩ := h
    obtain ⟨rfl, rfl⟩ := WriterMove.statement.inj (Option.some.inj hmove)
    exact advances_flushCurrent hne hprepared hrevisions hlt (hpoint _ _ _ rfl)
  | deleteLinks page found =>
    obtain ⟨rfl, hread, hlock⟩ := h
    obtain ⟨rfl, rfl⟩ := WriterMove.statement.inj (Option.some.inj hmove)
    exact advances_deleteLinks _ hread hlock
  | insertLinks page found =>
    obtain ⟨rfl, hread, hlock⟩ := h
    obtain ⟨rfl, rfl⟩ := WriterMove.statement.inj (Option.some.inj hmove)
    exact advances_insertLinks _ hbelow hread hlock
  | commit | done | failed => cases hmove

end PageUpdate

end Advance

end KnowledgeAlakazam
