import KnowledgeAlakazam.Ingest.Custody
import Mathlib.Tactic.NormNum

/-!
# Is a claimable document uploaded?

A submission makes its row pending before it uploads the raw document, and a worker may poll in
between. The documentation describes the other order: the API uploads the document and then
creates the pending job.

The exact answer is `uploadedByOpener_iff`, and it is about the schedule: a ticket's object is
there, put by the call that made the row pending, unless the poll comes between the first upsert of
that call and its upload. `WaitsForUpload` reads this off the transitions of the run, and
`EarlyRows` is the invariant that carries it to the state. A poll that comes too early gets a
ticket for an object that may not exist (`claimed_before_upload`).
-/

namespace KnowledgeAlakazam

variable {n : ℕ}

/-- The object a ticket names was put into the store by the call that last opened its job. -/
def UploadedByOpener (s : Deployment n) (ticket : ClaimedIngestJob) : Prop :=
  ∃ object ∈ s.raw, object.bucket = ticket.rawBucket ∧ object.key = ticket.rawKey ∧
    (s.log.history ticket.id).opener = some (.call object.call)

/-- The call is past its `upload_raw_document`. -/
def ApiCall.PastUpload (call : ApiCall) : Prop := call.rawUpload.isSome = true

/-! ### What the schedule says -/

/-- An `upsert_job` of a call, the first or the second. -/
def DeployLabel.IsUpsert : DeployLabel n → Prop
  | .start _ _ _ _ => True
  | .call _ (.accept _ _) => True
  | _ => False

/-- The transition commits an `upsert_job` of the row. -/
def Upserts (i : ℕ) (t : Transition (Deployment n) (DeployLabel n)) : Prop :=
  t.label.IsUpsert ∧ t.post.log.history i ≠ t.pre.log.history i

/-- The transition commits the first `upsert_job` of the call, and it is one of the row. -/
def UpsertsFirst (c i : ℕ) (t : Transition (Deployment n) (DeployLabel n)) : Prop :=
  (∃ kind request uuid, t.label = .start c kind request uuid) ∧ Upserts i t

/-- The transition is an `upload_raw_document` of the call that puts an object. -/
def UploadsRaw (c : ℕ) (t : Transition (Deployment n) (DeployLabel n)) : Prop :=
  ∃ object, t.post.raw = object :: t.pre.raw ∧ object.call = c

/-- The last upsert of the row is the first one of the call, and the call has not uploaded its
document since. -/
def WaitsForUpload (c i : ℕ) (past : List (Transition (Deployment n) (DeployLabel n))) : Prop :=
  Since (UpsertsFirst c i) (fun t ↦ ¬ Upserts i t ∧ ¬ UploadsRaw c t) past

def issued (fleet : Fleet n) (t : Transition (Deployment n) (DeployLabel n)) :
    Option ClaimedIngestJob :=
  match t.label with
  | .poll w locked => (t.pre.log.claimNextPending (fleet.queue w) locked).2
  | _ => none

instance (s : Deployment n) (ticket : ClaimedIngestJob) :
    Decidable (UploadedByOpener s ticket) :=
  inferInstanceAs (Decidable (∃ _ ∈ _, _))

/-! ## Rows, calls and objects -/

/-- Rows name the document of the call that opened them, and a call's document is in the store if
and only if the call is past its upload. -/
structure Uploads (s : Deployment n) : Prop where
  opened : ∀ i job, s.log.jobs.find i = some job → ∃ c call,
    (s.log.history i).opener = some (.call c) ∧ s.calls c = some call ∧
    job.rawBucket = call.prepared.rawBucket ∧ job.rawKey = call.prepared.rawKey
  uploaded : ∀ c call raw, s.calls c = some call → call.rawUpload = some raw →
    raw = ⟨call.prepared.rawBucket, call.prepared.rawKey⟩ ∧ ∃ object ∈ s.raw,
      object.call = c ∧ object.bucket = raw.bucket ∧ object.key = raw.key
  objects : ∀ object ∈ s.raw, ∃ call, s.calls object.call = some call ∧ call.PastUpload

namespace Uploads

variable {site : Site} {fleet : Fleet n} {s : Deployment n}

theorem initial (clock : ℚ) : Uploads (Deployment.initial n clock) where
  opened _ _ h := nomatch h
  uploaded _ _ _ h := nomatch h
  objects _ h := nomatch h

theorem setLog (hs : Uploads s) {log : JobLog} (hu : JobLog.Unopened s.log log) :
    Uploads { s with log := log } where
  opened i job hf := by
    obtain ⟨old, hold, hdoc⟩ := hu.find hf
    obtain ⟨c, call, hopen, hcall, hbucket, hkey⟩ := hs.opened i old hold
    simp only [JobLog.document, Prod.mk.injEq] at hdoc
    exact ⟨c, call, (hu i).1.trans hopen, hcall, hdoc.2.2.1 ▸ hbucket, hdoc.2.2.2 ▸ hkey⟩
  uploaded := hs.uploaded
  objects := hs.objects

theorem moveCall (hs : Uploads s) {c : ℕ} {call call' : ApiCall} (h : s.calls c = some call)
    (hp : call'.prepared = call.prepared) (hr : call'.rawUpload = call.rawUpload) :
    Uploads (s.setCall c call') where
  opened i job hf := by
    obtain ⟨d, opener, hopen, hcall, hbucket, hkey⟩ := hs.opened i job hf
    by_cases hd : d = c
    · subst hd
      obtain rfl := Option.some.inj (h.symm.trans hcall)
      exact ⟨d, call', hopen, by rw [Deployment.calls_setCall, if_pos rfl], hp ▸ hbucket,
        hp ▸ hkey⟩
    · exact ⟨d, opener, hopen, by rw [Deployment.calls_setCall, if_neg hd]; exact hcall, hbucket,
        hkey⟩
  uploaded d other raw hcall hraw := by
    rw [Deployment.calls_setCall] at hcall
    split at hcall
    · rename_i hd
      obtain rfl := Option.some.inj hcall
      rw [hp, hd]
      exact hs.uploaded c call raw h (hr ▸ hraw)
    · exact hs.uploaded d other raw hcall hraw
  objects object hobject := by
    obtain ⟨other, hcall, hpast⟩ := hs.objects object hobject
    rw [Deployment.calls_setCall]
    split
    · rename_i hd
      obtain rfl := Option.some.inj (h.symm.trans (hd ▸ hcall))
      exact ⟨call', rfl, by rw [ApiCall.PastUpload, hr]; exact hpast⟩
    · exact ⟨other, hcall, hpast⟩

theorem upsertPending (hs : Uploads s) {c uuid : ℕ} {call : ApiCall} (hcall : s.calls c = some call)
    {log : JobLog} {job : IngestJob} {repo : IngestJobRepository}
    (h : s.log.upsertPending c repo uuid call.prepared.tenantId call.prepared.sourceId
      call.prepared.rawBucket call.prepared.rawKey = some (log, job)) :
    Uploads { s with log := log } where
  opened i job' hf := by
    rw [JobLog.find_upsertPending h] at hf
    dsimp only
    rw [JobLog.history_upsertPending h]
    split at hf
    · rename_i hi
      obtain rfl := Option.some.inj hf
      have hrow := JobLog.submitted_upsertPending h
      rw [if_pos hi]
      exact ⟨c, call, rfl, hcall, hrow.rawBucket, hrow.rawKey⟩
    · rename_i hi
      rw [if_neg hi]
      exact hs.opened i job' hf
  uploaded := hs.uploaded
  objects := hs.objects

theorem newCall (hs : Uploads s) {c : ℕ} {call : ApiCall} (hfree : s.calls c = none)
    (hraw : call.rawUpload = none) : Uploads (s.setCall c call) where
  opened i job hf := by
    obtain ⟨d, opener, hopen, hcall, hbucket, hkey⟩ := hs.opened i job hf
    have hd : d ≠ c := fun hd ↦ by rw [hd, hfree] at hcall; exact nomatch hcall
    exact ⟨d, opener, hopen, by rw [Deployment.calls_setCall, if_neg hd]; exact hcall, hbucket,
      hkey⟩
  uploaded d other raw hcall hr := by
    rw [Deployment.calls_setCall] at hcall
    split at hcall
    · obtain rfl := Option.some.inj hcall
      exact nomatch hraw.symm.trans hr
    · exact hs.uploaded d other raw hcall hr
  objects object hobject := by
    obtain ⟨other, hcall, hpast⟩ := hs.objects object hobject
    have hd : object.call ≠ c := fun hd ↦ by rw [hd, hfree] at hcall; exact nomatch hcall
    exact ⟨other, by rw [Deployment.calls_setCall, if_neg hd]; exact hcall, hpast⟩

theorem uploadRaw (hs : Uploads s) {c : ℕ} {call : ApiCall} (hcall : s.calls c = some call)
    {object : RawObject} (hobject : object.call = c)
    (hbucket : object.bucket = call.prepared.rawBucket) (hkey : object.key = call.prepared.rawKey)
    {pc : CallPc} :
    Uploads ({ s with raw := object :: s.raw }.setCall c
      { call with rawUpload := some ⟨object.bucket, object.key⟩, pc := pc }) where
  opened i job hf := by
    obtain ⟨d, opener, hopen, hopener, hb, hk⟩ := hs.opened i job hf
    by_cases hd : d = c
    · subst hd
      obtain rfl := Option.some.inj (hcall.symm.trans hopener)
      exact ⟨d, { call with rawUpload := some ⟨object.bucket, object.key⟩, pc := pc }, hopen,
        by rw [Deployment.calls_setCall, if_pos rfl], hb, hk⟩
    · exact ⟨d, opener, hopen, by rw [Deployment.calls_setCall, if_neg hd]; exact hopener, hb, hk⟩
  uploaded d other raw hother hr := by
    rw [Deployment.calls_setCall] at hother
    split at hother
    · rename_i hd
      obtain rfl := Option.some.inj hother
      rw [← Option.some.inj hr, hbucket, hkey]
      exact ⟨rfl, object, List.mem_cons_self, hobject.trans hd.symm, hbucket, hkey⟩
    · obtain ⟨heq, o, ho, hoc⟩ := hs.uploaded d other raw hother hr
      exact ⟨heq, o, List.mem_cons_of_mem _ ho, hoc⟩
  objects o ho := by
    rw [Deployment.calls_setCall]
    split
    · exact ⟨_, rfl, rfl⟩
    · rename_i hd
      rcases List.mem_cons.mp ho with rfl | ho
      · exact absurd hobject hd
      · exact hs.objects o ho

/-- **One step keeps the invariant.** -/
theorem move (hs : Uploads s) (hsound : Sound site fleet s) {label : DeployLabel n}
    {s' : Deployment n} (h : Moves site fleet s label s') : Uploads s' := by
  cases h with
  | tick hop => exact hs.setLog (JobLog.unopened_tick hop)
  | @started c kind request uuid prepared log job hfree hprep hup =>
    -- the call is known before its row is written
    have hnew : Uploads (s.setCall c ⟨kind, prepared, none, kind.firstPc⟩) :=
      hs.newCall hfree rfl
    have hcall : (s.setCall c ⟨kind, prepared, none, kind.firstPc⟩).calls c
        = some ⟨kind, prepared, none, kind.firstPc⟩ := by
      rw [Deployment.calls_setCall, if_pos rfl]
    have hlog := hnew.upsertPending hcall hup
    exact ⟨hlog.opened, hlog.uploaded, hlog.objects⟩
  | gaveUp hcall hpc => exact hs.moveCall hcall rfl rfl
  | raised hcall hpc => exact hs.moveCall hcall rfl rfl
  | markedProcessing hcall hpc hop =>
    exact (hs.setLog (JobLog.unopened_markProcessing hop)).moveCall hcall rfl rfl
  | uploadedRaw hcall hpc hkey =>
    have hp := hsound.prepared _ _ hcall
    exact hs.uploadRaw hcall rfl hp.rawBucket.symm (Except.ok.inj (hkey.symm.trans hp.rawKey))
  | @accepted c uuid call rawUpload log job hcall hpc hraw hup =>
    obtain ⟨rfl, -⟩ := hs.uploaded c call rawUpload hcall hraw
    exact (hs.upsertPending hcall hup).moveCall hcall rfl rfl
  | parsed hcall hpc => exact hs.moveCall hcall rfl rfl
  | uploadedOutput hcall hpc =>
    have hput : ∀ key content uploader, Uploads (s.putAsset site key content uploader) :=
      fun _ _ _ ↦ ⟨hs.opened, hs.uploaded, hs.objects⟩
    exact (hput _ _ _).moveCall hcall rfl rfl
  | markedSucceeded hcall hpc hop =>
    exact (hs.setLog (JobLog.unopened_markSucceeded hop)).moveCall hcall rfl rfl
  | markedFailed hcall hpc hop =>
    exact (hs.setLog (JobLog.unopened_markFailed hop)).moveCall hcall rfl rfl
  | @polled w locked hidle =>
    have hlog := hs.setLog (JobLog.unopened_claimNextPending s.log (fleet.queue w) locked)
    exact ⟨hlog.opened, hlog.uploaded, hlog.objects⟩
  | ran hrun hnext => exact ⟨hs.opened, hs.uploaded, hs.objects⟩
  | runUploadedOutput hrun hpc hkey => exact ⟨hs.opened, hs.uploaded, hs.objects⟩
  | heartbeat hrun hop => exact hs.setLog (JobLog.unopened_heartbeat hop)
  | skipped hrun => exact hs
  | runSucceeded hrun hop =>
    have hlog := hs.setLog (JobLog.unopened_workerSucceeded hop)
    exact ⟨hlog.opened, hlog.uploaded, hlog.objects⟩
  | runFailed hrun hop =>
    have hlog := hs.setLog (JobLog.unopened_workerFailed hop)
    exact ⟨hlog.opened, hlog.uploaded, hlog.objects⟩

end Uploads

/-! ## The schedule and the state -/

/-- The schedule says of every row which call opened it, as long as that call is not past its
upload. -/
def EarlyRows (past : List (Transition (Deployment n) (DeployLabel n))) (s : Deployment n) : Prop :=
  ∀ i job, s.log.jobs.find i = some job → ∀ c call, (s.log.history i).opener = some (.call c) →
    s.calls c = some call → ∀ d, WaitsForUpload d i past ↔ d = c ∧ ¬ call.PastUpload

namespace EarlyRows

variable {site : Site} {fleet : Fleet n} {s s' : Deployment n} {label : DeployLabel n}
  {past : List (Transition (Deployment n) (DeployLabel n))}

theorem initial (clock : ℚ) : EarlyRows [] (Deployment.initial n clock) :=
  fun _ _ h ↦ nomatch h

/-- A transition that does not upsert the row and puts no object of the call changes nothing. -/
private theorem waits_step {d i : ℕ} (hup : ¬ Upserts i ⟨s, label, s'⟩)
    (hraw : ¬ UploadsRaw d ⟨s, label, s'⟩) :
    WaitsForUpload d i (past ++ [⟨s, label, s'⟩]) ↔ WaitsForUpload d i past := by
  rw [WaitsForUpload, since_concat]
  constructor
  · rintro (⟨-, h⟩ | ⟨h, -⟩)
    · exact absurd h hup
    · exact h
  · exact fun h ↦ .inr ⟨h, hup, hraw⟩

private theorem not_uploadsRaw {d : ℕ} (h : s'.raw = s.raw) : ¬ UploadsRaw d ⟨s, label, s'⟩ := by
  rintro ⟨object, hobject, -⟩
  exact absurd (congrArg List.length (hobject.symm.trans h)) (by simp)

/-- The frame rule: transitions that upsert no row and put no object. -/
theorem frame (he : EarlyRows past s) (hu : JobLog.Unopened s.log s'.log)
    (hup : ∀ i, ¬ Upserts i ⟨s, label, s'⟩) (hraw : s'.raw = s.raw)
    (hcalls : ∀ c call', s'.calls c = some call' → ∃ call, s.calls c = some call ∧
      call.rawUpload = call'.rawUpload) :
    EarlyRows (past ++ [⟨s, label, s'⟩]) s' := by
  intro i job' hf c call' hopen hcall' d
  obtain ⟨job, hfind, -⟩ := hu.find hf
  obtain ⟨call, hcall, heq⟩ := hcalls c call' hcall'
  rw [waits_step (hup i) (not_uploadsRaw hraw),
    he i job hfind c call ((hu i).1.symm.trans hopen) hcall, ApiCall.PastUpload,
    ApiCall.PastUpload, heq]

private theorem calls_moved {c : ℕ} {call call' : ApiCall} (h : s.calls c = some call)
    (hr : call'.rawUpload = call.rawUpload) (d : ℕ) (other : ApiCall)
    (hother : (s.setCall c call').calls d = some other) :
    ∃ old, s.calls d = some old ∧ old.rawUpload = other.rawUpload := by
  rw [Deployment.calls_setCall] at hother
  split at hother
  · rename_i hd
    obtain rfl := Option.some.inj hother
    exact ⟨call, hd ▸ h, hr.symm⟩
  · exact ⟨other, hother, rfl⟩

theorem submitted (he : EarlyRows past s) (hs : Uploads s) {c uuid : ℕ} {call : ApiCall}
    {tenantId sourceId rawBucket rawKey : String} {repo : IngestJobRepository} {log : JobLog}
    {job : IngestJob}
    (hup : s.log.upsertPending c repo uuid tenantId sourceId rawBucket rawKey = some (log, job))
    (hlog : s'.log = log) (hraw : s'.raw = s.raw)
    (hcalls : ∀ d, s'.calls d = if d = c then some call else s.calls d)
    (hsubmit : label.IsUpsert)
    (hold : ∀ old, s.calls c = some old → old.rawUpload = call.rawUpload)
    (hfirst : ∀ d, (∃ kind request uuid, label = .start d kind request uuid) ↔
      d = c ∧ ¬ call.PastUpload) :
    EarlyRows (past ++ [⟨s, label, s'⟩]) s' := by
  subst hlog
  intro i row hf e other hopen hother d
  have hhistory := JobLog.history_upsertPending hup i
  rw [JobLog.find_upsertPending hup] at hf
  rw [hcalls] at hother
  by_cases hi : i = job.id
  · -- the row of this submission
    rw [if_pos hi] at hhistory
    have hups : Upserts i ⟨s, label, s'⟩ :=
      ⟨hsubmit, fun h ↦ absurd (hhistory.symm.trans h) (List.cons_ne_self _ _)⟩
    obtain rfl : c = e := by
      rw [hhistory] at hopen
      exact Actor.call.inj (Option.some.inj hopen)
    rw [if_pos rfl] at hother
    obtain rfl := Option.some.inj hother
    rw [WaitsForUpload, since_concat, ← hfirst]
    constructor
    · rintro (⟨h, -⟩ | ⟨-, h, -⟩)
      · exact h
      · exact absurd hups h
    · exact fun h ↦ .inl ⟨h, hups⟩
  · -- another row keeps its opener, and no call got further with its upload
    rw [if_neg hi] at hf hhistory
    rw [hhistory] at hopen
    obtain ⟨c', opener, hopener, hknown, -⟩ := hs.opened i row hf
    obtain rfl : c' = e := Actor.call.inj (Option.some.inj (hopener.symm.trans hopen))
    have hsame : other.rawUpload = opener.rawUpload := by
      split at hother
      · rename_i hc
        obtain rfl := Option.some.inj hother
        exact (hold opener (hc ▸ hknown)).symm
      · rw [Option.some.inj (hother.symm.trans hknown)]
    rw [waits_step (fun h ↦ h.2 hhistory) (not_uploadsRaw hraw),
      he i row hf c' opener hopener hknown, ApiCall.PastUpload, ApiCall.PastUpload, hsame]

theorem uploadRaw (he : EarlyRows past s) (hs : Uploads s) {c : ℕ} {call' : ApiCall}
    {object : RawObject} (hobject : object.call = c) (hpast : call'.PastUpload)
    (hnot : ¬ label.IsUpsert) :
    EarlyRows (past ++ [⟨s, label, { s with raw := object :: s.raw }.setCall c call'⟩])
      ({ s with raw := object :: s.raw }.setCall c call') := by
  intro i job hf e other hopen hother d
  obtain ⟨c', opener, hopener, hknown, -⟩ := hs.opened i job hf
  obtain rfl : c' = e := Actor.call.inj (Option.some.inj (hopener.symm.trans hopen))
  have hbefore := he i job hf c' opener hopener hknown d
  rw [Deployment.calls_setCall] at hother
  rw [WaitsForUpload, since_concat]
  constructor
  · rintro (⟨-, hups, -⟩ | ⟨hwaits, -, hraw⟩)
    · exact absurd hups hnot
    · obtain ⟨rfl, hopen'⟩ := hbefore.mp hwaits
      have hd : d ≠ c := fun hd ↦ hraw ⟨object, rfl, hobject.trans hd.symm⟩
      rw [if_neg hd] at hother
      exact ⟨rfl, Option.some.inj (hknown.symm.trans hother) ▸ hopen'⟩
  · rintro ⟨rfl, hopen'⟩
    have hd : d ≠ c := by
      intro hd
      rw [if_pos hd] at hother
      exact hopen' (Option.some.inj hother ▸ hpast)
    rw [if_neg hd] at hother
    refine .inr ⟨hbefore.mpr ⟨rfl, Option.some.inj (hknown.symm.trans hother) ▸ hopen'⟩,
      fun h ↦ hnot h.1, ?_⟩
    rintro ⟨object', h, hcall⟩
    obtain ⟨rfl, -⟩ := List.cons_eq_cons.mp h
    exact hd (hcall.symm.trans hobject)

/-- **One transition keeps the schedule and the state in step.** -/
theorem move (he : EarlyRows past s) (hs : Uploads s) (h : Moves site fleet s label s') :
    EarlyRows (past ++ [⟨s, label, s'⟩]) s' := by
  cases h with
  | tick hop =>
    exact he.frame (JobLog.unopened_tick hop) (fun _ h ↦ h.1) rfl fun _ call h ↦ ⟨call, h, rfl⟩
  | started hfree hprep hup =>
    refine he.submitted hs hup rfl rfl (Deployment.calls_setCall _ _ · _) trivial
      (fun old h ↦ nomatch hfree.symm.trans h) fun d ↦ ?_
    simp [ApiCall.PastUpload, eq_comm]
  | gaveUp hcall hpc =>
    exact he.frame (fun _ ↦ ⟨rfl, rfl⟩) (fun _ h ↦ h.2 rfl) rfl (calls_moved hcall rfl)
  | raised hcall hpc =>
    exact he.frame (fun _ ↦ ⟨rfl, rfl⟩) (fun _ h ↦ h.2 rfl) rfl (calls_moved hcall rfl)
  | markedProcessing hcall hpc hop =>
    exact he.frame (JobLog.unopened_markProcessing hop) (fun _ h ↦ h.1) rfl
      (calls_moved (s := { s with log := _ }) hcall rfl)
  | uploadedRaw hcall hpc hkey => exact he.uploadRaw hs rfl rfl fun h ↦ h
  | @accepted c uuid call rawUpload log job hcall hpc hraw hup =>
    refine he.submitted hs hup rfl rfl (Deployment.calls_setCall _ _ · _) trivial
      (fun old h ↦ by rw [Option.some.inj (h.symm.trans hcall)]) fun d ↦ ?_
    simp [ApiCall.PastUpload, hraw]
  | parsed hcall hpc =>
    exact he.frame (fun _ ↦ ⟨rfl, rfl⟩) (fun _ h ↦ h.1) rfl (calls_moved hcall rfl)
  | @uploadedOutput c call file _ _ key hcall hpc =>
    exact he.frame (fun _ ↦ ⟨rfl, rfl⟩) (fun _ h ↦ h.1) rfl
      (calls_moved (s := s.putAsset site key file.2 (.call c)) hcall rfl)
  | markedSucceeded hcall hpc hop =>
    exact he.frame (JobLog.unopened_markSucceeded hop) (fun _ h ↦ h.1) rfl
      (calls_moved (s := { s with log := _ }) hcall rfl)
  | markedFailed hcall hpc hop =>
    exact he.frame (JobLog.unopened_markFailed hop) (fun _ h ↦ h.1) rfl
      (calls_moved (s := { s with log := _ }) hcall rfl)
  | @polled w locked hidle =>
    exact he.frame (JobLog.unopened_claimNextPending s.log (fleet.queue w) locked)
      (fun _ h ↦ h.1) rfl fun _ call h ↦ ⟨call, h, rfl⟩
  | ran hrun hnext =>
    exact he.frame (fun _ ↦ ⟨rfl, rfl⟩) (fun _ h ↦ h.1) rfl fun _ call h ↦ ⟨call, h, rfl⟩
  | runUploadedOutput hrun hpc hkey =>
    exact he.frame (fun _ ↦ ⟨rfl, rfl⟩) (fun _ h ↦ h.1) rfl fun _ call h ↦ ⟨call, h, rfl⟩
  | heartbeat hrun hop =>
    exact he.frame (JobLog.unopened_heartbeat hop) (fun _ h ↦ h.1) rfl
      fun _ call h ↦ ⟨call, h, rfl⟩
  | skipped hrun =>
    exact he.frame (fun _ ↦ ⟨rfl, rfl⟩) (fun _ h ↦ h.1) rfl fun _ call h ↦ ⟨call, h, rfl⟩
  | runSucceeded hrun hop =>
    exact he.frame (JobLog.unopened_workerSucceeded hop) (fun _ h ↦ h.1) rfl
      fun _ call h ↦ ⟨call, h, rfl⟩
  | runFailed hrun hop =>
    exact he.frame (JobLog.unopened_workerFailed hop) (fun _ h ↦ h.1) rfl
      fun _ call h ↦ ⟨call, h, rfl⟩

end EarlyRows

/-! ## The exact condition -/

/-- The object a ticket names is there, from the call that opened the row, if and only if that
call is past its upload. -/
theorem Uploads.uploadedByOpener_iff_pastUpload {s : Deployment n} (hs : Uploads s)
    {ticket : ClaimedIngestJob} {c : ℕ} {call : ApiCall}
    (hopen : (s.log.history ticket.id).opener = some (.call c)) (hcall : s.calls c = some call)
    (hbucket : ticket.rawBucket = call.prepared.rawBucket)
    (hkey : ticket.rawKey = call.prepared.rawKey) :
    UploadedByOpener s ticket ↔ call.PastUpload := by
  constructor
  · rintro ⟨object, hobject, -, -, hopener⟩
    obtain ⟨other, hother, hpast⟩ := hs.objects object hobject
    obtain rfl : c = object.call := Actor.call.inj (Option.some.inj (hopen.symm.trans hopener))
    exact Option.some.inj (hcall.symm.trans hother) ▸ hpast
  · intro hpast
    obtain ⟨raw, hraw⟩ := Option.isSome_iff_exists.mp hpast
    obtain ⟨rfl, object, hobject, rfl, hb, hk⟩ := hs.uploaded c call raw hcall hraw
    exact ⟨object, hobject, hb.trans hbucket.symm, hk.trans hkey.symm, hopen⟩

/-- **A claimed document is uploaded by the call that opened it unless the claim comes between the
first upsert of that call and its upload**, for every ticket of every run. -/
theorem uploadedByOpener_iff (site : Site) (fleet : Fleet n) (clock : ℚ)
    (labels : List (DeployLabel n)) :
    ∀ past claim rest,
      trace (Deployment.step site fleet) (.initial n clock) labels = past ++ claim :: rest →
      ∀ ticket ∈ issued fleet claim,
        (UploadedByOpener claim.pre ticket ↔ ∀ c, ¬ WaitsForUpload c ticket.id past) := by
  intro past claim rest htrace ticket hticket
  obtain ⟨-, hs, hearly⟩ := split_invariant
    (I := fun past (s : Deployment n) ↦ Sound site fleet s ∧ Uploads s ∧ EarlyRows past s)
    (fun _ _ _ _ hI h ↦
      have hmove := Deployment.moves_of_step h
      ⟨hI.1.move hmove, hI.2.1.move hI.1 hmove, hI.2.2.move hI.2.1 hmove⟩)
    ⟨Sound.initial site fleet clock, Uploads.initial clock, EarlyRows.initial clock⟩
    labels past claim rest htrace
  rw [List.nil_append] at hearly
  obtain ⟨job, hf, hdoc⟩ : ∃ job, claim.pre.log.jobs.find ticket.id = some job ∧
      JobLog.document job
        = (ticket.tenantId, ticket.sourceId, ticket.rawBucket, ticket.rawKey) := by
    rw [issued] at hticket
    split at hticket
    · exact JobLog.document_of_claimNextPending hticket
    · cases hticket
  simp only [JobLog.document, Prod.mk.injEq] at hdoc
  obtain ⟨c, call, hopen, hcall, hbucket, hkey⟩ := hs.opened ticket.id job hf
  rw [hs.uploadedByOpener_iff_pastUpload hopen hcall (hdoc.2.2.1 ▸ hbucket) (hdoc.2.2.2 ▸ hkey)]
  have hwaits := hearly ticket.id job hf c call hopen hcall
  constructor
  · exact fun hpast d h ↦ ((hwaits d).mp h).2 hpast
  · exact fun hnone ↦ by_contra fun hpast ↦ hnone c ((hwaits c).mpr ⟨rfl, hpast⟩)

/-! ### A poll between the row and the upload -/

/-- An installation with the default settings and the buckets of the default configuration. -/
def defaultSite : Site where
  settings := ⟨["storage", "inputs"], ["storage", "output"], "rag-raw", "rag-assets"⟩
  hexdigest content := content
  repository := .withDefaults

/-- One worker with the default lease. -/
def oneWorker : Fleet 1 where
  queue _ := .withDefaults "host:1"
  distinct := by decide

def sampleRequest : UploadRequest := ⟨["tmp", "a.pdf"], true, "content", "acme", some "doc"⟩

/-- A worker that polls after the upload gets a ticket for a document that is there. -/
theorem claimed_after_upload : ∃ past claim rest,
    trace (Deployment.step defaultSite oneWorker) (.initial 1 0)
      [.start 0 .submit sampleRequest 7, .call 0 (.uploadRaw none), .poll 0 []]
        = past ++ claim :: rest ∧
    ∃ ticket ∈ issued oneWorker claim, UploadedByOpener claim.pre ticket ∧
      ∀ c, ¬ WaitsForUpload c ticket.id past := by
  obtain ⟨claim, hmem, ticket, hticket, hup⟩ :
      ∃ t ∈ trace (Deployment.step defaultSite oneWorker) (.initial 1 0)
        [.start 0 .submit sampleRequest 7, .call 0 (.uploadRaw none), .poll 0 []],
        ∃ ticket ∈ issued oneWorker t, UploadedByOpener t.pre ticket := by decide +kernel
  obtain ⟨past, rest, htrace⟩ := List.append_of_mem hmem
  exact ⟨past, claim, rest, htrace, ticket, hticket, hup,
    (uploadedByOpener_iff defaultSite oneWorker 0 _ past claim rest htrace ticket hticket).mp hup⟩

/-- **A worker can claim a document before it is uploaded.** -/
theorem claimed_before_upload : ¬ ∀ t ∈ trace (Deployment.step defaultSite oneWorker)
    (.initial 1 0) [.start 0 .submit sampleRequest 7, .poll 0 []],
    ∀ ticket ∈ issued oneWorker t, UploadedByOpener t.pre ticket := by
  decide +kernel

end KnowledgeAlakazam
