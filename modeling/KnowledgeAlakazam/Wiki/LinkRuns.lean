import KnowledgeAlakazam.Wiki.Links
import KnowledgeAlakazam.Wiki.Statements
import KnowledgeAlakazam.Wiki.TenantIsolation

/-!
# Do the links mirror the current revision?

`linksMirror_iff` is the exact answer for the runs of the service from an empty store: the links
mirror the current revisions and the backlinks are exact in every state if and only if no
`publish_page` that goes through selects a revision whose links differ from those of the revision
it replaces, and no revision is written with a link target that cannot be asked for. The failing
run is `published_links_stale`.

Whether a call goes through is a fact about its arguments, the store and the outcomes of its
statements, since it is known how many of these it takes (`WikiCall.length`).
-/

namespace KnowledgeAlakazam

open Program WikiService

/-! ## Calls that go through -/

section Definitions

variable (unicode : UnicodeData)

/-- The number of statements and commits of a call, if its arguments and the store allow it. -/
def WikiCall.length (w : WikiStore) : WikiCall → Option ℕ
  | createOrUpdatePage update =>
    match requireSlug unicode (orElse update.slug update.title) with
    | .error _ => none
    | .ok slug => some (prepareLength (w.pageBySlug update.tenantId slug) +
        writeLength unicode update.content + 1)
  | createRevision tenantId slug content =>
    match requireSlug unicode slug with
    | .error _ => none
    | .ok slug => (w.pageBySlug tenantId slug).map fun _ ↦ 1 + writeLength unicode content + 1
  | publishPage tenantId slug revisionNo =>
    match requireSlug unicode slug with
    | .error _ => none
    | .ok slug => (w.pageBySlug tenantId slug).bind fun page ↦
        (w.resolved page revisionNo).map fun _ ↦ 3

/-- The arguments and the store allow the call, and none of its statements raises. -/
def WikiLabel.GoesThrough (label : WikiLabel) (w : WikiStore) : Prop :=
  ∃ n ∈ label.call.length unicode w, interruption n label.outcomes = none

/-- The transition is not a call that goes through and either writes a revision with a link target
that cannot be asked for, or publishes a revision with other links than those of the page's current
revision. -/
def KeepsLinks (t : Transition WikiState WikiLabel) : Prop :=
  t.label.GoesThrough unicode t.pre.store →
    match t.label.call with
    | .createOrUpdatePage update => AddressableTargets unicode (linkTargets unicode update.content)
    | .createRevision _ _ content => AddressableTargets unicode (linkTargets unicode content)
    | .publishPage tenantId slug revisionNo =>
      ∀ resolved ∈ (requireSlug unicode slug).toOption,
        ∀ page ∈ t.pre.store.pageBySlug tenantId resolved,
          ∀ revision ∈ t.pre.store.resolved page revisionNo,
            ∀ current ∈ t.pre.store.currentOf page,
              (revision.targets unicode).Perm (current.targets unicode)

end Definitions

section Calls

variable {unicode : UnicodeData} {s : WikiState} {label : WikiLabel}

theorem WikiCall.takes (call : WikiCall) {w : WikiStore} {n : ℕ}
    (h : n ∈ call.length unicode w) :
    Takes Discarded (Session.Between fun m S ↦ S.Numbered m ∧ S = w) (call.program unicode) n
      fun _ ↦ Session.Between fun m S ↦ S.Numbered m := by
  cases call with
  | createOrUpdatePage update =>
    rw [length] at h
    split at h
    · cases h
    · rename_i slug hslug
      obtain rfl := Option.some.inj h
      refine (takes_createOrUpdatePage unicode update _ hslug).mono ?_ (fun _ _ h ↦ h)
        fun _ _ h ↦ h
      rintro s ⟨S, hidle, hnum, rfl⟩
      exact ⟨S, hidle, hnum, rfl⟩
  | createRevision tenantId slug content =>
    rw [length] at h
    split at h
    · cases h
    · rename_i resolved hslug
      obtain ⟨page, hpage, rfl⟩ := Option.map_eq_some_iff.mp h
      refine (takes_createRevision unicode content page hslug).mono ?_ (fun _ _ h ↦ h)
        fun _ _ h ↦ h
      rintro s ⟨S, hidle, hnum, rfl⟩
      exact ⟨S, hidle, hnum, hpage⟩
  | publishPage tenantId slug revisionNo =>
    rw [length] at h
    split at h
    · cases h
    · rename_i resolved hslug
      obtain ⟨page, hpage, h⟩ := Option.bind_eq_some_iff.mp h
      obtain ⟨revision, hrevision, rfl⟩ := Option.map_eq_some_iff.mp h
      refine (takes_publishPage unicode revisionNo page hslug).mono ?_ (fun _ _ h ↦ h)
        fun _ _ h ↦ h
      rintro s ⟨S, hidle, hnum, rfl⟩
      exact ⟨S, hidle, ⟨hnum, Option.isSome_of_eq_some hrevision⟩, hpage⟩

/-- A call that returns was allowed. -/
theorem WikiLabel.isSome_length_of_isOk (h : (label.run unicode s).1.isOk = true) :
    (label.call.length unicode s.store).isSome = true := by
  have hidle := Session.idle_start s.store s.nextId label.outcomes
  obtain ⟨detail, hrun⟩ := run_ok h
  obtain ⟨call, outcomes⟩ := label
  cases call with
  | createOrUpdatePage update =>
    obtain ⟨slug, -, -, hslug, -⟩ :=
      (outTx_createOrUpdatePage unicode s.store update).committed_ok hidle hrun
    rw [WikiCall.length, hslug]
    rfl
  | createRevision tenantId slug content =>
    obtain ⟨resolved, page, hslug, hpage, -⟩ :=
      (outTx_createRevision unicode s.store tenantId slug content).committed_ok hidle hrun
    rw [WikiCall.length, hslug]
    dsimp only
    rw [hpage]
    rfl
  | publishPage tenantId slug revisionNo =>
    obtain ⟨resolved, page, revision, hslug, hpage, hrevision, -⟩ :=
      (outTx_publishPage unicode s.store tenantId slug revisionNo).committed_ok hidle hrun
    rw [WikiCall.length, hslug]
    dsimp only
    rw [hpage, Option.bind_some, hrevision]
    rfl

/-- **The calls that return** are those that go through. -/
theorem WikiLabel.isOk_run_iff (hnum : s.store.Numbered s.nextId) :
    (label.run unicode s).1.isOk = true ↔ label.GoesThrough unicode s.store := by
  have hstart : Session.Between (fun m S ↦ S.Numbered m ∧ S = s.store)
      (Session.start s.store s.nextId label.outcomes) :=
    ⟨s.store, Session.idle_start _ _ _, hnum, rfl⟩
  constructor
  · intro hok
    obtain ⟨n, hn⟩ := Option.isSome_iff_exists.mp (isSome_length_of_isOk hok)
    exact ⟨n, hn, ((label.call.takes hn).isOk_iff hstart).mp hok⟩
  · rintro ⟨n, hn, hnone⟩
    exact ((label.call.takes hn).isOk_iff hstart).mpr hnone

theorem WikiCall.preserves (call : WikiCall) :
    Preserves WikiStore.Numbered (call.program unicode) := by
  cases call with
  | createOrUpdatePage update => exact preserves_of_operation (.createOrUpdatePage update) rfl
  | createRevision tenantId slug content =>
    exact preserves_of_operation (.createRevision tenantId slug content) rfl
  | publishPage tenantId slug revisionNo =>
    exact preserves_of_operation (.publishPage tenantId slug revisionNo) rfl

theorem WikiState.numbered_of_step {s' : WikiState} (hnum : s.store.Numbered s.nextId)
    (h : WikiState.step unicode s label = some s') : s'.store.Numbered s'.nextId := by
  obtain rfl := Option.some.inj h
  exact (label.call.preserves (Session.start s.store s.nextId label.outcomes) hnum hnum).2.1

end Calls

/-! ## The invariant -/

section Runs

variable {unicode : UnicodeData} {s s' : WikiState} {label : WikiLabel}

/-- The invariant of all runs, whatever `publish_page` selects. -/
structure WikiState.Sound (s : WikiState) : Prop where
  links : LinkSound s.store
  pointed : Pointed s.store
  numbered : s.store.Numbered s.nextId

theorem WikiState.sound_initial : WikiState.Sound .initial where
  links := .empty
  pointed _ _ h := nomatch h
  numbered := ⟨.empty 0, .empty 0, .empty 0, .empty 0, .empty 0, .empty 0⟩

theorem WikiState.Sound.step (hs : s.Sound) (h : WikiState.step unicode s label = some s') :
    s'.Sound where
  links := (WikiState.effect_of_step h).linkSound hs.links
  pointed := (WikiState.effect_of_step h).pointed hs.links hs.pointed
  numbered := WikiState.numbered_of_step hs.numbered h

/-- The invariant of the runs that keep links. -/
structure Mirrored (unicode : UnicodeData) (s : WikiState) : Prop extends s.Sound where
  mirror : LinksMirror unicode s.store
  addressable : AllCurrent (fun revision ↦ AddressableTargets unicode (revision.targets unicode))
    s.store

/-- What a written revision leaves of the invariant. -/
private theorem written_step_iff {W W' : WikiStore} (hs : LinkSound W) (hm : LinksMirror unicode W)
    (ha : AllCurrent (fun revision ↦ AddressableTargets unicode (revision.targets unicode)) W)
    {tenantId : String} {page : WikiPage} {c : RevisionContent} {detail : WikiPageDetail}
    (hpage : W.pages.find page.id = some page) (htenant : page.tenantId = tenantId)
    (h : WikiService.Written unicode W W' tenantId page c detail) :
    (LinksMirror unicode W' ∧
        AllCurrent (fun revision ↦ AddressableTargets unicode (revision.targets unicode)) W') ↔
      AddressableTargets unicode (linkTargets unicode c) := by
  obtain ⟨revision, htargets, hiff⟩ := h.allCurrent_iff hs ha hpage
  rw [hiff, htargets]
  exact and_iff_right (h.linksMirror hs hm hpage htenant)

/-- **One step keeps the mirror and its addresses if and only if it keeps links.** -/
theorem CallEffect.mirrored_step_iff (hs : Mirrored unicode s)
    (h : CallEffect unicode s label s'.store) :
    (LinksMirror unicode s'.store ∧ AllCurrent (fun revision ↦
        AddressableTargets unicode (revision.targets unicode)) s'.store) ↔
      KeepsLinks unicode ⟨s, label, s'⟩ := by
  unfold KeepsLinks
  dsimp only
  rw [← WikiLabel.isOk_run_iff hs.numbered]
  generalize hW : s'.store = W' at h ⊢
  cases h with
  | raised hok =>
    exact iff_of_true ⟨hs.mirror, hs.addressable⟩
      fun h ↦ absurd (hok.symm.trans h) Bool.false_ne_true
  | @updated update slug page W₁ _ detail hok hcall hprep hwritten =>
    have hm₁ : LinksMirror unicode W₁ := by
      rw [hprep.store]
      exact hs.mirror.setPages hprep.pagesKept
    have ha₁ : AllCurrent (fun revision ↦
        AddressableTargets unicode (revision.targets unicode)) W₁ := by
      rw [hprep.store]
      exact hs.addressable.setPages hprep.pagesKept
    rw [written_step_iff (hprep.linkSound hs.links) hm₁ ha₁ hprep.find_page.1 hprep.find_page.2
      hwritten, hcall]
    exact ⟨fun h _ ↦ h, fun h ↦ h hok⟩
  | revised hok hcall hpage hwritten =>
    rw [written_step_iff hs.links hs.mirror hs.addressable (Table.find_of_lookup hpage)
      (Prod.mk.inj (Table.unique_of_lookup hpage)).1 hwritten, hcall]
    exact ⟨fun h _ ↦ h, fun h ↦ h hok⟩
  | @published tenantId slug resolved revisionNo page revision hok hcall hslug hpage hrevision =>
    have hf : s.store.pages.find page.id = some page := Table.find_of_lookup hpage
    have hfind := find_of_resolved hrevision
    obtain ⟨current, hcurrent⟩ := hs.pointed page.id page hf
    rw [hcall, linksMirror_publish_iff hs.mirror hf hfind ⟨current, hcurrent⟩]
    constructor
    · rintro ⟨h, -⟩ - resolved' hresolved' page' hpage' revision' hrevision' current' hcurrent'
      rw [hslug] at hresolved'
      obtain rfl : resolved = resolved' := Option.some.inj hresolved'
      obtain rfl := Option.some.inj (hpage.symm.trans hpage')
      obtain rfl := Option.some.inj (hrevision.symm.trans hrevision')
      exact h current' hcurrent'
    · intro h
      have hperm := h hok resolved (by rw [hslug]; rfl) page hpage revision hrevision
      refine ⟨hperm, hs.addressable.publish hfind ?_⟩
      -- the same targets can be asked for as before
      intro target htarget
      have hsame := hperm current hcurrent
      obtain ⟨slug', hslug', hrequire⟩ :=
        hs.addressable page.id page hf current hcurrent target (hsame.mem_iff.mp htarget)
      exact ⟨slug', hsame.mem_iff.mpr hslug', hrequire⟩

end Runs

/-! ## The law -/

section Law

variable {unicode : UnicodeData}

theorem mirrored_initial : Mirrored unicode .initial where
  toSound := WikiState.sound_initial
  mirror _ h := nomatch h
  addressable _ _ h := nomatch h

theorem sound_of_mem_trace (labels : List WikiLabel) :
    ∀ t ∈ trace (WikiState.step unicode) .initial labels,
      t.pre.Sound ∧ WikiState.step unicode t.pre t.label = some t.post ∧ t.post.Sound :=
  trace_invariant (fun _ _ _ hs hstep ↦ hs.step hstep) WikiState.sound_initial labels

variable (unicode) (postgres : PostgresData)

/-- **Main result.** The links mirror the current revisions in every state of a run, and the
backlinks are exact, if and only if no `publish_page` of the run selects a revision with other
links and no revision is written with a target that cannot be asked for. -/
theorem linksMirror_iff (labels : List WikiLabel) :
    (∀ t ∈ trace (WikiState.step unicode) .initial labels,
        LinksMirror unicode t.post.store ∧ BacklinksExact unicode postgres t.post.store) ↔
      ∀ t ∈ trace (WikiState.step unicode) .initial labels, KeepsLinks unicode t := by
  constructor
  · intro h t ht
    have hpost : ∀ t ∈ trace (WikiState.step unicode) .initial labels,
        LinksMirror unicode t.post.store ∧ AllCurrent (fun revision ↦
          AddressableTargets unicode (revision.targets unicode)) t.post.store := by
      intro t ht
      obtain ⟨-, -, hs⟩ := sound_of_mem_trace labels t ht
      exact ⟨(h t ht).1, ((h t ht).1.backlinksExact_iff hs.links).mp (h t ht).2⟩
    obtain ⟨hm, ha⟩ := pre_of_post (I := fun s : WikiState ↦ LinksMirror unicode s.store ∧
        AllCurrent (fun revision ↦ AddressableTargets unicode (revision.targets unicode)) s.store)
      ⟨mirrored_initial.mirror, mirrored_initial.addressable⟩ hpost t ht
    obtain ⟨hs, hstep, -⟩ := sound_of_mem_trace labels t ht
    exact ((WikiState.effect_of_step hstep).mirrored_step_iff ⟨hs, hm, ha⟩).mp (hpost t ht)
  · intro h t ht
    have hinv : ∀ s label s', Mirrored unicode s → KeepsLinks unicode ⟨s, label, s'⟩ →
        WikiState.step unicode s label = some s' → Mirrored unicode s' := by
      intro s label s' hs hkeeps hstep
      obtain ⟨hm, ha⟩ := ((WikiState.effect_of_step hstep).mirrored_step_iff hs).mpr hkeeps
      exact ⟨hs.step hstep, hm, ha⟩
    obtain ⟨-, -, hpost⟩ := guarded_trace_invariant hinv mirrored_initial h t ht
    exact ⟨hpost.mirror, (hpost.mirror.backlinksExact_iff hpost.links).mpr hpost.addressable⟩

end Law

/-! ## The failing run -/

/-- A page that links to `b` is created, is changed to link to `c`, and its first revision is
published. -/
def republishLabels : List WikiLabel :=
  let content (text : List Char) : RevisionContent :=
    { content := text, contentFormat := "markdown", contentJson := none, summary := none
      authorType := "human" }
  [⟨.createOrUpdatePage
      { tenantId := "acme", slug := some "a", title := "A", pageType := "concept"
        status := some "draft", content := content "[[b]]".toList }, []⟩,
   ⟨.createRevision "acme" "a" (content "[[c]]".toList), []⟩,
   ⟨.publishPage "acme" "a" (some 1), []⟩]

/-- The published revision links to `b`, and the links of the page are still those to `c`. -/
theorem published_links_stale :
    ¬∀ t ∈ trace (WikiState.step asciiData) .initial republishLabels,
      LinksMirror asciiData t.post.store := by
  decide +kernel

end KnowledgeAlakazam
