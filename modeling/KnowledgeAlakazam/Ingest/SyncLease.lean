import KnowledgeAlakazam.Ingest.Uploads

/-!
# Does a synchronous ingest keep what it claimed?

`ingest_document` claims its row with `mark_processing`, works for as long as parsing takes, and
then writes the result. A worker in the same position checks that the row is still processing
under its own lock before it writes, and says so in its errors. The API's repository has the same
lock in the row, `api-sync`, and does not look at it: its terminal write addresses the row by
tenant and source and goes through whatever the row has become.

`respectsClaim_of_guarded` says what the code relies on instead: that nobody touches the row
meanwhile. The condition, `LeavesIngestAlone`, goes through the transactions of the table and says
of each which rows it must stay away from. A submission that comes in between is enough to break
the law (`sync_result_overwrites_submission`).
-/

namespace KnowledgeAlakazam

variable {n : ℕ}

/-- The tenant and the source of a call's document. -/
def ApiCall.key (call : ApiCall) : String × String :=
  (call.prepared.tenantId, call.prepared.sourceId)

/-- The job is held by the call, under a claim the call made. -/
def HeldByCall (h : JobHistory) (c : ℕ) : Prop :=
  match h.phase with
  | .held who _ => who = .call c
  | _ => False

/-- A call of `ingest_document` between its claim and its result. -/
def ApiCall.Ingesting (call : ApiCall) : Prop :=
  call.kind = .ingest ∧ (call.pc.Working ∨ ∃ error, call.pc = .toMarkFailed error)

instance (h : JobHistory) (c : ℕ) : Decidable (HeldByCall h c) := by
  unfold HeldByCall
  split <;> infer_instance

instance : DecidablePred ApiCall.Ingesting := fun call ↦ by
  have : Decidable (∃ error, call.pc = .toMarkFailed error) := by
    cases call.pc with
    | toMarkFailed error => exact .isTrue ⟨error, rfl⟩
    | _ => exact .isFalse fun ⟨_, h⟩ ↦ nomatch h
  exact inferInstanceAs (Decidable (_ ∧ _))

/-- The call that commits its `mark_succeeded` or `mark_failed` with the transition. -/
def finishing (t : Transition (Deployment n) (DeployLabel n)) : Option ℕ :=
  match t.label with
  | .call c (.markSucceeded none) | .call c (.markFailed none) => some c
  | _ => none

/-- A result that `ingest_document` writes changes its row only if the row is still processing
under the claim of the same call. -/
def RespectsClaim (t : Transition (Deployment n) (DeployLabel n)) : Prop :=
  ∀ c ∈ finishing t, ∀ call ∈ t.pre.calls c, call.kind = .ingest →
    ∀ job ∈ t.pre.log.jobs.lookup call.key, t.post.log.jobs.find job.id ≠ some job →
      job.status = .processing ∧ HeldByCall (t.pre.log.history job.id) c

/-! ## The condition -/

/-- The call of `ingest_document` that holds a job and has yet to write its result. -/
def ingestHolder (s : Deployment n) (i : ℕ) : Option ℕ :=
  match (s.log.history i).phase with
  | .held (.call c) _ => if ∃ call ∈ s.calls c, call.Ingesting then some c else none
  | _ => none

/-- The row with the key, if there is one, is not held by an ingest in progress. -/
def Untroubled (s : Deployment n) (key : String × String) : Prop :=
  ∀ job ∈ s.log.jobs.lookup key, ingestHolder s job.id = none

/-- The transition leaves the rows of ingests in progress alone: a submission, a claim or a result
is for another row, unless it is the result of the ingest itself; a poll neither claims nor fails
such a row, and no worker poses as the API. Further, no `mark_processing` raises, since the call
would go on to mark the row failed without a claim. -/
def LeavesIngestAlone (site : Site) (fleet : Fleet n)
    (t : Transition (Deployment n) (DeployLabel n)) : Prop :=
  match t.label with
  | .start _ _ request _ => ∀ prepared ∈ (prepareDocument site request).toOption,
    Untroubled t.pre (prepared.tenantId, prepared.sourceId)
  | .call _ (.markProcessing (some _)) => False
  | .call c (.accept _ none) | .call c (.markProcessing none) =>
    ∀ call ∈ t.pre.calls c, Untroubled t.pre call.key
  | .call c (.markSucceeded none) | .call c (.markFailed none) =>
    ∀ call ∈ t.pre.calls c, ∀ job ∈ t.pre.log.jobs.lookup call.key,
      ∀ d ∈ ingestHolder t.pre job.id, d = c
  | .poll w locked =>
    let outcome := (fleet.queue w).claimNextPending t.pre.log.clock locked t.pre.log.jobs
    (∀ job ∈ outcome.exhausted, ingestHolder t.pre job.id = none) ∧
      ∀ ticket ∈ outcome.ticket, ingestHolder t.pre ticket.id = none
  | .run w .finish => ∀ run ∈ t.pre.workers w, ingestHolder t.pre run.ticket.id ≠ none →
    fleet.workerId w ≠ IngestJobRepository.apiSync
  | _ => True

section Decidability

variable (t : Transition (Deployment n) (DeployLabel n))

instance : Decidable (RespectsClaim t) :=
  inferInstanceAs (Decidable (∀ _ ∈ _, ∀ _ ∈ _, _ → ∀ _ ∈ _, _ → _))

instance (s : Deployment n) (key : String × String) : Decidable (Untroubled s key) :=
  inferInstanceAs (Decidable (∀ _ ∈ _, _ = _))

instance (site : Site) (fleet : Fleet n) : Decidable (LeavesIngestAlone site fleet t) :=
  match t with
  | ⟨_, .start _ _ _ _, _⟩ => inferInstanceAs (Decidable (∀ _ ∈ _, _))
  | ⟨_, .call _ (.markProcessing (some _)), _⟩ => instDecidableFalse
  | ⟨_, .call _ (.accept _ none), _⟩ => inferInstanceAs (Decidable (∀ _ ∈ _, _))
  | ⟨_, .call _ (.markProcessing none), _⟩ => inferInstanceAs (Decidable (∀ _ ∈ _, _))
  | ⟨_, .call _ (.markSucceeded none), _⟩ =>
    inferInstanceAs (Decidable (∀ _ ∈ _, ∀ _ ∈ _, ∀ _ ∈ _, _))
  | ⟨_, .call _ (.markFailed none), _⟩ =>
    inferInstanceAs (Decidable (∀ _ ∈ _, ∀ _ ∈ _, ∀ _ ∈ _, _))
  | ⟨_, .poll _ _, _⟩ => inferInstanceAs (Decidable (_ ∧ _))
  | ⟨_, .run _ .finish, _⟩ => inferInstanceAs (Decidable (∀ _ ∈ _, _ → _))
  | ⟨_, .tick _, _⟩ => instDecidableTrue
  | ⟨_, .call _ (.uploadRaw _), _⟩ => instDecidableTrue
  | ⟨_, .call _ (.parse _), _⟩ => instDecidableTrue
  | ⟨_, .call _ (.uploadOutput _), _⟩ => instDecidableTrue
  | ⟨_, .call _ (.accept _ (some _)), _⟩ => instDecidableTrue
  | ⟨_, .call _ (.markSucceeded (some _)), _⟩ => instDecidableTrue
  | ⟨_, .call _ (.markFailed (some _)), _⟩ => instDecidableTrue
  | ⟨_, .run _ (.download _), _⟩ => instDecidableTrue
  | ⟨_, .run _ (.parse _), _⟩ => instDecidableTrue
  | ⟨_, .run _ (.uploadOutput _), _⟩ => instDecidableTrue
  | ⟨_, .run _ .heartbeat, _⟩ => instDecidableTrue
  | ⟨_, .run _ .stop, _⟩ => instDecidableTrue

end Decidability

/-! ## An ingest in progress holds its row -/

theorem heldByCall_iff {h : JobHistory} {c : ℕ} :
    HeldByCall h c ↔ ∃ beat, h.phase = .held (.call c) beat := by
  unfold HeldByCall
  split
  · rename_i who beat hp
    rw [hp]
    constructor
    · rintro rfl
      exact ⟨beat, rfl⟩
    · rintro ⟨beat', heq⟩
      exact (LeasePhase.held.inj heq).1
  · rename_i hno
    exact ⟨False.elim, fun ⟨beat, hp⟩ ↦ hno _ _ hp⟩

theorem ingestHolder_of_held {s : Deployment n} {i c : ℕ} {call : ApiCall}
    (hcall : s.calls c = some call) (hin : call.Ingesting)
    (hheld : HeldByCall (s.log.history i) c) : ingestHolder s i = some c := by
  obtain ⟨beat, hp⟩ := heldByCall_iff.mp hheld
  rw [ingestHolder, hp]
  exact if_pos ⟨call, hcall, hin⟩

theorem held_of_ingestHolder {s : Deployment n} {i c : ℕ} (h : ingestHolder s i = some c) :
    HeldByCall (s.log.history i) c := by
  rw [ingestHolder] at h
  split at h
  · rename_i d beat hp
    split at h
    · exact heldByCall_iff.mpr ⟨beat, Option.some.inj h ▸ hp⟩
    · exact nomatch h
  · exact nomatch h

theorem ne_of_ingestHolder {s : Deployment n} {i j c : ℕ} (hfree : ingestHolder s i = none)
    (hc : ingestHolder s j = some c) : j ≠ i := by
  rintro rfl
  exact nomatch hfree.symm.trans hc

/-- Every ingest in progress holds the row of its document. -/
def IngestsHold (s : Deployment n) : Prop :=
  ∀ c call, s.calls c = some call → call.Ingesting →
    ∃ i job, s.log.jobs.find i = some job ∧ (job.tenantId, job.sourceId) = call.key ∧
      HeldByCall (s.log.history i) c

/-- Between two logs no job is taken away from an ingest in progress. -/
def HoldersKept (s : Deployment n) (log : JobLog) : Prop :=
  ∀ i c, ingestHolder s i = some c → HeldByCall (log.history i) c

namespace HoldersKept

variable {s : Deployment n}

theorem update {i : ℕ} (hfree : ingestHolder s i = none) (p : Patch IngestJob)
    (e : LeaseEvent Actor ℚ) : HoldersKept s (s.log.update i p e) := by
  intro j c hc
  rw [JobLog.history_update_of_ne s.log (ne_of_ingestHolder hfree hc)]
  exact held_of_ingestHolder hc

theorem renew (s : Deployment n) (i : ℕ) (p : Patch IngestJob) (time : ℚ) :
    HoldersKept s (s.log.update i p (.renewed time)) := by
  intro j c hc
  obtain ⟨beat, hp⟩ := heldByCall_iff.mp (held_of_ingestHolder hc)
  rw [JobLog.history_update]
  split
  · rename_i hji
    subst hji
    exact heldByCall_iff.mpr ⟨time, by rw [LeaseHistory.phase, hp]⟩
  · exact heldByCall_iff.mpr ⟨beat, hp⟩

theorem upsertPending (hcoh : Coherent s.log) {c uuid : ℕ} {repo : IngestJobRepository}
    {tenantId sourceId rawBucket rawKey : String} {log : JobLog} {job : IngestJob}
    (hfree : Untroubled s (tenantId, sourceId))
    (h : s.log.upsertPending c repo uuid tenantId sourceId rawBucket rawKey = some (log, job)) :
    HoldersKept s log := by
  intro i d hd
  have hne : i ≠ job.id := by
    rcases JobLog.upsertPending_cases h with ⟨-, -, jobs', hins, -⟩ | ⟨old, hl, hjob, -⟩
    · rintro rfl
      -- the row is new, so its job has no history
      have hnil : s.log.history job.id = [] :=
        hcoh.absent _ (Table.find_none_of_insert hins)
      obtain ⟨beat, hp⟩ := heldByCall_iff.mp (held_of_ingestHolder hd)
      rw [hnil] at hp
      exact nomatch hp
    · have hid : job.id = old.id := by
        rw [hjob]
        exact Patch.primary_app _ old
      rw [hid]
      exact ne_of_ingestHolder (hfree old hl) hd
  rw [JobLog.history_upsertPending h, if_neg hne]
  exact held_of_ingestHolder hd

end HoldersKept

namespace IngestsHold

variable {site : Site} {fleet : Fleet n} {s : Deployment n}

theorem setLog (hs : IngestsHold s) {log : JobLog} (hk : JobLog.KeysKept s.log log)
    (hkept : HoldersKept s log) : IngestsHold { s with log := log } := by
  intro c call hcall hin
  obtain ⟨i, job, hf, hkey, hheld⟩ := hs c call hcall hin
  obtain ⟨job', hf', hkey'⟩ := hk i job hf
  exact ⟨i, job', hf', hkey'.trans hkey, hkept i c (ingestHolder_of_held hcall hin hheld)⟩

theorem moveCall (hs : IngestsHold s) {c : ℕ} {call call' : ApiCall} (h : s.calls c = some call)
    (hkey : call'.key = call.key) (hin : call'.Ingesting → call.Ingesting) :
    IngestsHold (s.setCall c call') := by
  intro d other hother hother'
  rw [Deployment.calls_setCall] at hother
  split at hother
  · rename_i hd
    obtain rfl := Option.some.inj hother
    rw [hkey, hd]
    exact hs c call h (hin hother')
  · exact hs d other hother hother'

theorem setCall (hs : IngestsHold s) {c : ℕ} {call : ApiCall} (hno : ¬ call.Ingesting) :
    IngestsHold (s.setCall c call) := by
  intro d other hother hin
  rw [Deployment.calls_setCall] at hother
  split at hother
  · exact absurd (Option.some.inj hother ▸ hin) hno
  · exact hs d other hother hin

theorem markProcessing (hs : IngestsHold s) {c : ℕ} {call : ApiCall} {log : JobLog}
    {job : IngestJob} {pc : CallPc}
    (hfree : Untroubled s call.key)
    (h : s.log.markProcessing c call.prepared.tenantId call.prepared.sourceId
      = .ok (log, job)) :
    IngestsHold ({ s with log := log }.setCall c { call with pc := pc }) := by
  have hk := (JobLog.unopened_markProcessing h).keysKept
  obtain ⟨old, hl, -, rfl⟩ := JobLog.markProcessing_ok h
  have hf : s.log.jobs.find old.id = some old := Table.find_of_lookup hl
  have hlog := hs.setLog hk (HoldersKept.update (hfree old hl) _ _)
  intro d other hother hin
  rw [Deployment.calls_setCall] at hother
  split at hother
  · rename_i hd
    obtain rfl := Option.some.inj hother
    obtain ⟨job', hf', hkey'⟩ := hk old.id old hf
    refine ⟨old.id, job', hf', hkey'.trans (Table.unique_of_lookup hl), ?_⟩
    change HeldByCall ((s.log.update _ _ _).history old.id) d
    rw [JobLog.history_update_self, hd]
    exact heldByCall_iff.mpr ⟨_, rfl⟩
  · exact hlog d other hother hin

theorem finish (hs : IngestsHold s) {c : ℕ} {call : ApiCall} (hno : ¬ call.Ingesting) {i : ℕ}
    {log : JobLog} {p : Patch IngestJob} {e : LeaseEvent Actor ℚ}
    (hk : JobLog.KeysKept s.log log) (hlog : log = s.log.update i p e)
    (hmine : ∀ d ∈ ingestHolder s i, d = c) :
    IngestsHold ({ s with log := log }.setCall c call) := by
  -- once the call is over, no ingest in progress holds the job
  have hfree : ingestHolder (s.setCall c call) i = none := by
    cases hholder : ingestHolder (s.setCall c call) i with
    | none => rfl
    | some d =>
      exfalso
      rw [ingestHolder] at hholder
      split at hholder
      · rename_i d' beat hp
        split at hholder
        · rename_i hex
          obtain rfl := Option.some.inj hholder
          obtain ⟨other, hother, hin⟩ := hex
          have hother' := hother
          rw [Option.mem_def, Deployment.calls_setCall] at hother'
          split at hother'
          · exact hno (Option.some.inj hother' ▸ hin)
          · rename_i hne
            exact hne (hmine d' (ingestHolder_of_held hother' hin
              (heldByCall_iff.mpr ⟨beat, hp⟩)))
        · exact nomatch hholder
      · exact nomatch hholder
  subst hlog
  have hkept : HoldersKept (s.setCall c call) (s.log.update i p e) :=
    HoldersKept.update hfree p e
  exact (hs.setCall hno).setLog hk hkept

/-- A worker's result for a job that no ingest in progress holds, unless the worker poses as the
API. -/
theorem holder_of_run (hsound : Sound site fleet s) {w : Fin n} {run : WorkerRun}
    (hrun : s.workers w = some run) {old : IngestJob}
    (hf : s.log.jobs.find run.ticket.id = some old) (hst : old.status = .processing)
    (hlock : old.lockedBy = run.ticket.lockedBy)
    (hname : ingestHolder s run.ticket.id ≠ none →
      fleet.workerId w ≠ IngestJobRepository.apiSync) :
    ingestHolder s run.ticket.id = none := by
  by_contra hholder
  obtain ⟨c, hc⟩ := Option.ne_none_iff_exists'.mp hholder
  obtain ⟨beat, hp⟩ := heldByCall_iff.mp (held_of_ingestHolder hc)
  obtain ⟨who, beat', hheld, -, hwho⟩ := (hsound.coherent.agrees _ _ hf).held_of_processing hst
  obtain rfl : .call c = who := (LeasePhase.held.inj (hp.symm.trans hheld)).1
  have hid : some IngestJobRepository.apiSync = some (fleet.workerId w) := by
    calc some IngestJobRepository.apiSync = old.lockedBy := hwho.symm
      _ = run.ticket.lockedBy := hlock
      _ = some (fleet.workerId w) := (hsound.custody w run hrun).lockedBy
  exact hname hholder (Option.some.inj hid).symm

/-- **One step keeps the invariant**, if it leaves the rows of ingests in progress alone. -/
theorem move (hs : IngestsHold s) (hsound : Sound site fleet s) {label : DeployLabel n}
    {s' : Deployment n} (hG : LeavesIngestAlone site fleet ⟨s, label, s'⟩)
    (h : Moves site fleet s label s') : IngestsHold s' := by
  cases h with
  | @tick seconds log hop =>
    refine hs.setLog (JobLog.unopened_tick hop).keysKept fun i c hc ↦ ?_
    rw [(JobLog.tick_eq_some hop).2.2]
    exact held_of_ingestHolder hc
  | @started c kind request uuid prepared log job hfree hprep hup =>
    have hquiet := hG prepared (by rw [hprep]; rfl)
    have hlog := hs.setLog (JobLog.keysKept_upsertPending hup)
      (HoldersKept.upsertPending hsound.coherent hquiet hup)
    refine IngestsHold.setCall ?_ ?_
    · exact hlog
    · cases kind <;> simp [ApiCall.Ingesting, CallKind.firstPc, CallPc.Working]
  | @gaveUp c step call e hcall hpc =>
    refine hs.moveCall hcall rfl fun hin ↦ ⟨hin.1, Or.inl ?_⟩
    rcases hpc with hwork | ⟨-, ⟨e', rfl⟩ | hnone⟩
    · exact hwork
    · exact absurd hG id
    · -- rows stay, so a call finds the row it submitted
      obtain ⟨i, job, hf, hkey⟩ := hsound.submitted c call hcall
      exact absurd hkey (Table.lookup_eq_none.mp hnone job (Table.mem_of_find hf))
  | raised hcall hpc =>
    exact hs.setCall fun hin ↦ by simp [ApiCall.Ingesting, CallPc.Working] at hin
  | @markedProcessing c call log job hcall hpc hop =>
    exact hs.markProcessing (hG call hcall) hop
  | @uploadedRaw c call key content hcall hpc hkey =>
    have hraw : IngestsHold { s with
      raw := ⟨site.settings.s3BucketRaw, key, content, c⟩ :: s.raw } := hs
    exact hraw.moveCall hcall rfl fun hin ↦ ⟨hin.1, Or.inl (hpc ▸ trivial)⟩
  | @accepted c uuid call rawUpload log job hcall hpc hraw hup =>
    have hlog := hs.setLog (JobLog.keysKept_upsertPending hup)
      (HoldersKept.upsertPending hsound.coherent (hG call hcall) hup)
    exact hlog.setCall fun hin ↦ by simp [ApiCall.Ingesting, CallPc.Working] at hin
  | parsed hcall hpc =>
    exact hs.moveCall hcall rfl fun hin ↦ ⟨hin.1, Or.inl (hpc ▸ trivial)⟩
  | @uploadedOutput c call file remaining uploaded key hcall hpc =>
    have hput : IngestsHold (s.putAsset site key file.2 (.call c)) := hs
    exact hput.moveCall hcall rfl fun hin ↦ ⟨hin.1, Or.inl (hpc ▸ trivial)⟩
  | @markedSucceeded c call rawUpload uploaded log job hcall hpc hop =>
    have hk := (JobLog.unopened_markSucceeded hop).keysKept
    obtain ⟨old, hl, -, hlog⟩ := JobLog.markSucceeded_ok hop
    exact hs.finish (fun hin ↦ by simp [ApiCall.Ingesting, CallPc.Working] at hin) hk hlog
      (hG call hcall old hl)
  | @markedFailed c call error log job hcall hpc hop =>
    have hk := (JobLog.unopened_markFailed hop).keysKept
    obtain ⟨old, hl, -, hlog⟩ := JobLog.markFailed_ok hop
    exact hs.finish (fun hin ↦ by simp [ApiCall.Ingesting, CallPc.Working] at hin) hk hlog
      (hG call hcall old hl)
  | @polled w locked hidle =>
    have hlog :
        IngestsHold { s with log := (s.log.claimNextPending (fleet.queue w) locked).1 } := by
      refine hs.setLog (JobLog.unopened_claimNextPending s.log _ locked).keysKept fun i c hc ↦ ?_
      rw [JobLog.history_claimNextPending s.log (fleet.queue w) locked
        (fun job hjob ↦ (ne_of_ingestHolder (hG.1 job hjob) hc).symm)
        fun ticket hticket ↦ (ne_of_ingestHolder (hG.2 ticket hticket) hc).symm]
      exact held_of_ingestHolder hc
    exact hlog
  | ran hrun hnext => exact hs
  | runUploadedOutput hrun hpc hkey => exact hs
  | heartbeat hrun hop =>
    have hk := (JobLog.unopened_heartbeat hop).keysKept
    obtain ⟨old, -, -, -, rfl⟩ := JobLog.heartbeat_ok hop
    exact hs.setLog hk (HoldersKept.renew s _ _ _)
  | skipped hrun => exact hs
  | @runSucceeded w run log hrun hop =>
    have hk := (JobLog.unopened_workerSucceeded hop).keysKept
    obtain ⟨old, hf, hst, hlock, rfl⟩ := JobLog.workerSucceeded_ok hop
    exact hs.setLog hk
      (HoldersKept.update (holder_of_run hsound hrun hf hst hlock (hG run hrun)) _ _)
  | @runFailed w run error log hrun hop =>
    have hk := (JobLog.unopened_workerFailed hop).keysKept
    obtain ⟨old, hf, hst, hlock, rfl⟩ := JobLog.workerFailed_ok hop
    exact hs.setLog hk
      (HoldersKept.update (holder_of_run hsound hrun hf hst hlock (hG run hrun)) _ _)

end IngestsHold

/-! ## The law under the condition -/

private theorem respectsClaim_of_ingesting {s s' : Deployment n} (hs : IngestsHold s) {c : ℕ}
    (hcoh : Coherent s.log) {call : ApiCall} (hcall : s.calls c = some call)
    (hin : call.kind = .ingest → call.Ingesting) {label : DeployLabel n}
    (hlabel : finishing ⟨s, label, s'⟩ = some c) : RespectsClaim ⟨s, label, s'⟩ := by
  intro d hd call' hcall' hkind job hjob _
  obtain rfl : c = d := Option.some.inj (hlabel.symm.trans hd)
  obtain rfl := Option.some.inj (hcall.symm.trans hcall')
  obtain ⟨i, row, hf, hkey, hheld⟩ := hs c call hcall (hin hkind)
  obtain rfl : row = job := Table.eq_of_unique (Table.mem_of_find hf) (Table.mem_of_lookup hjob)
    (hkey.trans (Table.unique_of_lookup hjob).symm)
  obtain rfl : row.id = i := Table.primary_of_find hf
  refine ⟨?_, hheld⟩
  obtain ⟨beat, hp⟩ := heldByCall_iff.mp hheld
  have hstored := (hcoh.agrees _ _ hf).phase
  rw [hp] at hstored
  exact hstored.1

private theorem respectsClaim_of_jobs {s s' : Deployment n} {label : DeployLabel n}
    (h : s'.log.jobs = s.log.jobs) : RespectsClaim ⟨s, label, s'⟩ := by
  intro c _ call _ _ job hjob hne
  refine absurd ?_ hne
  rw [h]
  exact Table.find_of_lookup hjob

/-- Every step from a state in which ingests hold their rows respects the claims. -/
theorem IngestsHold.respectsClaim {site : Site} {fleet : Fleet n} {s s' : Deployment n}
    {label : DeployLabel n} (hs : IngestsHold s) (hcoh : Coherent s.log)
    (h : Moves site fleet s label s') : RespectsClaim ⟨s, label, s'⟩ := by
  cases h with
  | markedSucceeded hcall hpc hop =>
    exact respectsClaim_of_ingesting hs hcoh hcall (fun hkind ↦ ⟨hkind, Or.inl (hpc ▸ trivial)⟩) rfl
  | @markedFailed c call error log job hcall hpc hop =>
    exact respectsClaim_of_ingesting hs hcoh hcall (fun hkind ↦ ⟨hkind, Or.inr ⟨error, hpc⟩⟩) rfl
  | gaveUp hcall hpc => exact respectsClaim_of_jobs rfl
  | raised hcall hpc => exact respectsClaim_of_jobs rfl
  -- no other step writes the result of a call
  | _ => exact fun c hc ↦ by cases hc

/-- **Synchronous results respect their claims** in every run in which nothing else touches the
row between an `ingest_document`'s claim and its result. -/
theorem respectsClaim_of_guarded (site : Site) (fleet : Fleet n) (clock : ℚ)
    (labels : List (DeployLabel n))
    (hG : ∀ t ∈ trace (Deployment.step site fleet) (.initial n clock) labels,
      LeavesIngestAlone site fleet t) :
    ∀ t ∈ trace (Deployment.step site fleet) (.initial n clock) labels, RespectsClaim t := by
  intro t ht
  obtain ⟨⟨hsound, hs⟩, hstep, -⟩ := guarded_trace_invariant
    (I := fun s : Deployment n ↦ Sound site fleet s ∧ IngestsHold s)
    (G := LeavesIngestAlone site fleet)
    (fun _ _ _ ⟨hsound, hs⟩ hG h ↦
      have hmoves := Deployment.moves_of_step h
      ⟨hsound.move hmoves, hs.move hsound hG hmoves⟩)
    ⟨Sound.initial site fleet clock, fun _ _ h ↦ nomatch h⟩ hG t ht
  exact hs.respectsClaim hsound.coherent (Deployment.moves_of_step hstep)

/-! ### A submission in between -/

def quietIngest : List (DeployLabel 1) :=
  [.start 0 .ingest sampleRequest 7, .call 0 (.markProcessing none), .call 0 (.uploadRaw none),
   .call 0 (.parse (.ok [(["a.md"], "text")])), .call 0 (.uploadOutput none),
   .call 0 (.markSucceeded none)]

/-- The same document is submitted again while the ingest parses it. -/
def resubmittedIngest : List (DeployLabel 1) :=
  [.start 0 .ingest sampleRequest 7, .call 0 (.markProcessing none), .call 0 (.uploadRaw none),
   .call 0 (.parse (.ok [])), .start 1 .submit sampleRequest 8, .call 0 (.markSucceeded none)]

/-- An ingest that nothing disturbs runs to its end and writes its result under its own claim. -/
theorem respectsClaim_quietIngest :
    (trace (Deployment.step defaultSite oneWorker) (.initial 1 0) quietIngest).length = 6 ∧
      ∀ t ∈ trace (Deployment.step defaultSite oneWorker) (.initial 1 0) quietIngest,
        RespectsClaim t :=
  ⟨by decide +kernel,
    respectsClaim_of_guarded defaultSite oneWorker 0 quietIngest (by decide +kernel)⟩

/-- **The result of an ingest overwrites a submission**: the row is pending, and the ingest marks
it succeeded. -/
theorem sync_result_overwrites_submission : ¬ ∀ t ∈ trace (Deployment.step defaultSite oneWorker)
    (.initial 1 0) resubmittedIngest, RespectsClaim t := by
  decide +kernel

end KnowledgeAlakazam
