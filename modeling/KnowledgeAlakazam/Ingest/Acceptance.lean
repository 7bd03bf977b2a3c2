import KnowledgeAlakazam.Ingest.Uploads

/-!
# Is an accepted submission safe?

Once `create_pending_job` has returned, the client believes that a worker will decide about its
document. The failure path of another `create_pending_job` for the same tenant and source
addresses the row by these two and nothing else, and marks it failed whatever became of it.

`keepsAccepted_iff` says that this is the only way an accepted submission is lost: a step keeps
the promise made to a call if and only if it is not such a failure path, on a row that is not
failed already.
-/

namespace KnowledgeAlakazam

variable {n : ℕ}

/-- What a call accepted: its result, and the tenure of its job when its final `upsert_job` was
committed. -/
def ApiCall.accepted (call : ApiCall) : Option (IngestResult × ℕ) :=
  match call.pc with
  | .returned result tenure => if result.status = .pending then some (result, tenure) else none
  | _ => none

def JobLog.statusAt (log : JobLog) (i : ℕ) : Option JobStatus :=
  (log.jobs.find i).map IngestJob.status

/-- The transition ends a job that had not ended in this way before. -/
def EndsJob (t : Transition (Deployment n) (DeployLabel n)) (i : ℕ) : Prop :=
  ∃ status ∈ t.post.log.statusAt i, status.Terminal ∧ t.pre.log.statusAt i ≠ some status

/-- The transition is by a worker that claimed the job in a tenure later than `m`, or fails it for
exhausted attempts all of which are later than `m`. -/
def ByClaimAfter (t : Transition (Deployment n) (DeployLabel n)) (i m : ℕ) : Prop :=
  match t.label with
  | .run w .finish => ∃ run ∈ t.pre.workers w, run.ticket.id = i ∧ m < run.tenure
  | .poll _ _ => m + (t.pre.log.history i).attempts ≤ (t.pre.log.history i).tenure
  | _ => False

/-- What the step owes to a call: a job the call accepted ends only through a later claim. -/
def KeepsAccepted (c : ℕ) (t : Transition (Deployment n) (DeployLabel n)) : Prop :=
  ∀ call ∈ t.pre.calls c, ∀ acc ∈ call.accepted,
    EndsJob t acc.1.jobId → ByClaimAfter t acc.1.jobId acc.2

/-- The step is the failure path of a submission, on a row the call accepted that is not failed. -/
def FailsAccepted (c : ℕ) (t : Transition (Deployment n) (DeployLabel n)) : Prop :=
  match t.label with
  | .call d (.markFailed none) => ∃ failing ∈ t.pre.calls d, ∃ call ∈ t.pre.calls c,
    ∃ acc ∈ call.accepted,
      ∃ job ∈ t.pre.log.jobs.lookup (failing.prepared.tenantId, failing.prepared.sourceId),
        job.id = acc.1.jobId ∧ job.status ≠ .failed
  | _ => False

section Decidability

variable (t : Transition (Deployment n) (DeployLabel n))

instance (i : ℕ) : Decidable (EndsJob t i) := inferInstanceAs (Decidable (∃ _ ∈ _, _))

instance (i m : ℕ) : Decidable (ByClaimAfter t i m) := by
  unfold ByClaimAfter
  split <;> infer_instance

instance (c : ℕ) : Decidable (KeepsAccepted c t) :=
  inferInstanceAs (Decidable (∀ _ ∈ _, ∀ _ ∈ _, _ → _))

instance (c : ℕ) : Decidable (FailsAccepted c t) := by
  unfold FailsAccepted
  split <;> infer_instance

end Decidability

/-! ## Accepted calls and tenures -/

/-- All attempts that count against an accepted job's budget are later than the acceptance. -/
def AcceptedBefore (s : Deployment n) : Prop :=
  ∀ c call, s.calls c = some call → ∀ acc ∈ call.accepted,
    acc.2 + (s.log.history acc.1.jobId).attempts ≤ (s.log.history acc.1.jobId).tenure

namespace AcceptedBefore

variable {site : Site} {fleet : Fleet n} {s s' : Deployment n}

/-- A step that accepts nothing keeps the invariant, for histories only grow. -/
theorem of_calls (hs : AcceptedBefore s) (hg : JobLog.Grows s.log s'.log)
    (hc : ∀ c call', s'.calls c = some call' → ∀ acc ∈ call'.accepted,
      ∃ call, s.calls c = some call ∧ acc ∈ call.accepted) : AcceptedBefore s' := by
  intro c call' hcall' acc hacc
  obtain ⟨call, hcall, hacc'⟩ := hc c call' hcall' acc hacc
  obtain ⟨newer, hnewer⟩ := hg acc.1.jobId
  rw [hnewer]
  exact LeaseHistory.add_attempts_le_tenure_append (hs c call hcall acc hacc') newer

theorem of_setCall (hs : AcceptedBefore s) (hg : JobLog.Grows s.log s'.log) {c : ℕ}
    {call' : ApiCall} (hcalls : ∀ d, s'.calls d = if d = c then some call' else s.calls d)
    (hacc : call'.accepted = none) : AcceptedBefore s' := by
  refine hs.of_calls hg fun d other hother acc hacc' ↦ ?_
  rw [hcalls] at hother
  split at hother
  · obtain rfl := Option.some.inj hother
    exact nomatch hacc.symm.trans hacc'
  · exact ⟨other, hother, hacc'⟩

/-- **One step keeps the invariant.** -/
theorem move (hs : AcceptedBefore s) {label : DeployLabel n}
    (h : Moves site fleet s label s') : AcceptedBefore s' := by
  have hg := h.grows
  cases h with
  | @accepted c uuid call rawUpload log job hcall hpc hraw hup =>
    intro d other hother acc hacc
    rw [Deployment.calls_setCall] at hother
    split at hother
    · obtain rfl := Option.some.inj hother
      obtain rfl : (ingestResult call.prepared rawUpload 0 .pending job.id,
        (log.history job.id).tenure) = acc := Option.some.inj hacc
      -- the final `upsert_job` has just reset the attempts
      have hzero : (log.history job.id).attempts = 0 := by
        rw [JobLog.history_upsertPending hup, if_pos rfl]
        rfl
      change (log.history job.id).tenure + (log.history job.id).attempts ≤ _
      rw [hzero]
      exact Nat.le_refl _
    · obtain ⟨newer, hnewer⟩ := hg acc.1.jobId
      rw [hnewer]
      exact LeaseHistory.add_attempts_le_tenure_append (hs d other hother acc hacc) newer
  | @started c kind request uuid prepared log job hfree hprep hup =>
    refine hs.of_setCall hg (fun d ↦ Deployment.calls_setCall _ c d _) ?_
    cases kind <;> rfl
  | @gaveUp c step call e hcall hpc =>
    exact hs.of_setCall hg (fun d ↦ Deployment.calls_setCall _ c d _) rfl
  | @raised c step call hcall hpc =>
    exact hs.of_setCall hg (fun d ↦ Deployment.calls_setCall _ c d _) rfl
  | @markedProcessing c call log job hcall hpc hop =>
    exact hs.of_setCall hg (fun d ↦ Deployment.calls_setCall _ c d _) rfl
  | @uploadedRaw c call key content hcall hpc hkey =>
    refine hs.of_setCall hg (fun d ↦ Deployment.calls_setCall _ c d _) ?_
    rw [ApiCall.accepted]
    cases call.kind <;> rfl
  | @parsed c call files hcall hpc =>
    exact hs.of_setCall hg (fun d ↦ Deployment.calls_setCall _ c d _) rfl
  | @uploadedOutput c call file remaining uploaded key hcall hpc =>
    exact hs.of_setCall hg (fun d ↦ Deployment.calls_setCall _ c d _) rfl
  | @markedSucceeded c call rawUpload uploaded log job hcall hpc hop =>
    exact hs.of_setCall hg (fun d ↦ Deployment.calls_setCall _ c d _) rfl
  | @markedFailed c call error log job hcall hpc hop =>
    exact hs.of_setCall hg (fun d ↦ Deployment.calls_setCall _ c d _) rfl
  | tick hop => exact hs.of_calls hg fun c call hcall acc hacc ↦ ⟨call, hcall, hacc⟩
  | polled hidle => exact hs.of_calls hg fun c call hcall acc hacc ↦ ⟨call, hcall, hacc⟩
  | ran hrun hnext => exact hs.of_calls hg fun c call hcall acc hacc ↦ ⟨call, hcall, hacc⟩
  | runUploadedOutput hrun hpc hkey =>
    exact hs.of_calls hg fun c call hcall acc hacc ↦ ⟨call, hcall, hacc⟩
  | heartbeat hrun hop =>
    exact hs.of_calls hg fun c call hcall acc hacc ↦ ⟨call, hcall, hacc⟩
  | skipped hrun => exact hs
  | runSucceeded hrun hop =>
    exact hs.of_calls hg fun c call hcall acc hacc ↦ ⟨call, hcall, hacc⟩
  | runFailed hrun hop =>
    exact hs.of_calls hg fun c call hcall acc hacc ↦ ⟨call, hcall, hacc⟩

end AcceptedBefore

/-! ## The exact condition -/

section Steps

variable {site : Site} {fleet : Fleet n} {s s' : Deployment n}

theorem not_endsJob_of_statusAt {label : DeployLabel n} {i : ℕ}
    (h : s'.log.statusAt i = s.log.statusAt i) : ¬ EndsJob ⟨s, label, s'⟩ i := by
  rintro ⟨status, hstatus, -, hne⟩
  exact hne (h.symm.trans hstatus)

theorem endsJob_update {label : DeployLabel n} {i j : ℕ} {p : Patch IngestJob}
    {e : LeaseEvent Actor ℚ} (hlog : s'.log = s.log.update i p e)
    (h : EndsJob ⟨s, label, s'⟩ j) : j = i := by
  by_contra hne
  refine not_endsJob_of_statusAt ?_ h
  rw [JobLog.statusAt, hlog, JobLog.jobs_update, Table.find_modify_of_ne hne]
  rfl

theorem not_endsJob_upsertPending {label : DeployLabel n} {c uuid : ℕ}
    {repo : IngestJobRepository} {tenantId sourceId rawBucket rawKey : String}
    {log : JobLog} {job : IngestJob} (hlog : s'.log = log)
    (h : s.log.upsertPending c repo uuid tenantId sourceId rawBucket rawKey = some (log, job))
    (i : ℕ) : ¬ EndsJob ⟨s, label, s'⟩ i := by
  rintro ⟨status, hstatus, hterm, hne⟩
  rw [hlog, JobLog.statusAt, JobLog.find_upsertPending h] at hstatus
  split at hstatus
  · obtain rfl := Option.some.inj hstatus
    rw [(JobLog.submitted_upsertPending h).status] at hterm
    exact hterm
  · exact hne hstatus

/-- A result is written by a worker whose claim is later than any acceptance of the job. -/
theorem byClaimAfter_finish (hsound : Sound site fleet s) (ha : Asynchronous s)
    (hacc : AcceptedBefore s) {w : Fin n} {run : WorkerRun} (hrun : s.workers w = some run)
    {old : IngestJob} (hf : s.log.jobs.find run.ticket.id = some old)
    (hst : old.status = .processing) (hlock : old.lockedBy = run.ticket.lockedBy)
    {p : Patch IngestJob} {e : LeaseEvent Actor ℚ}
    (hlog : s'.log = s.log.update run.ticket.id p e) {c : ℕ} :
    KeepsAccepted c ⟨s, .run w .finish, s'⟩ := by
  intro call hcall acc haccepted hends
  have hid : acc.1.jobId = run.ticket.id := endsJob_update hlog hends
  obtain ⟨htenure, hpos⟩ := hsound.current ha hrun hf hst hlock
  have hle := hacc c call hcall acc haccepted
  rw [hid] at hle
  exact ⟨run, hrun, hid.symm, by rw [htenure]; omega⟩

/-- Every step but a submission's failure path keeps what was promised. -/
theorem keepsAccepted_of_moves (hsound : Sound site fleet s) (ha : Asynchronous s)
    (hacc : AcceptedBefore s) {c : ℕ} {label : DeployLabel n}
    (h : Moves site fleet s label s') (hno : ¬ FailsAccepted c ⟨s, label, s'⟩) :
    KeepsAccepted c ⟨s, label, s'⟩ := by
  have hsame : s'.log.jobs = s.log.jobs → KeepsAccepted c ⟨s, label, s'⟩ := by
    intro hjobs call _ acc _ hends
    exact absurd hends (not_endsJob_of_statusAt (by rw [JobLog.statusAt, hjobs]; rfl))
  cases h with
  | tick hop => exact hsame (JobLog.tick_eq_some hop).2.1
  | started hfree hprep hup =>
    exact fun call _ acc _ hends ↦ absurd hends (not_endsJob_upsertPending rfl hup _)
  | gaveUp hcall hpc => exact hsame rfl
  | raised hcall hpc => exact hsame rfl
  | markedProcessing hcall hpc hop => exact absurd hpc (ha.submitting _ _ hcall).2.1
  | uploadedRaw hcall hpc hkey => exact hsame rfl
  | accepted hcall hpc hraw hup =>
    exact fun call _ acc _ hends ↦ absurd hends (not_endsJob_upsertPending rfl hup _)
  | parsed hcall hpc => exact hsame rfl
  | uploadedOutput hcall hpc => exact hsame rfl
  | markedSucceeded hcall hpc hop => exact absurd hpc ((ha.submitting _ _ hcall).2.2.2 _ _)
  | @markedFailed d failing error log job hcall hpc hop =>
    intro call hc acc haccepted hends
    obtain ⟨old, hl, -, rfl⟩ := JobLog.markFailed_ok hop
    have hid : acc.1.jobId = old.id := endsJob_update rfl hends
    obtain ⟨status, hstatus, -, hne⟩ := hends
    have hf := Table.find_of_lookup hl
    rw [IngestJob.primary_eq] at hf
    -- the row was not failed before, so this is the excluded step
    refine absurd ⟨failing, hcall, call, hc, acc, haccepted, old, hl, hid.symm, fun hfailed ↦ ?_⟩
      hno
    refine hne ?_
    rw [hid, JobLog.statusAt] at hstatus ⊢
    have hpost : (s.log.jobs.modify old.id
        (IngestJobRepository.statusPatch s.log.clock .failed (some error))).find old.id
        = some ((IngestJobRepository.statusPatch s.log.clock .failed (some error)).app old) :=
      Table.find_modify_self hf _
    have hst : some JobStatus.failed = some status :=
      (congrArg (Option.map IngestJob.status) hpost).symm.trans hstatus
    rw [← hst]
    exact (congrArg (Option.map IngestJob.status) hf).trans (congrArg some hfailed)
  | polled hidle =>
    exact fun call hcall acc haccepted _ ↦ hacc c call hcall acc haccepted
  | ran hrun hnext => exact hsame rfl
  | runUploadedOutput hrun hpc hkey => exact hsame rfl
  | @heartbeat w run log hrun hop =>
    intro call hc acc haccepted hends
    obtain ⟨old, hf, -, -, rfl⟩ := JobLog.heartbeat_ok hop
    refine absurd hends (not_endsJob_of_statusAt ?_)
    have hid := endsJob_update rfl hends
    rw [hid, JobLog.statusAt, JobLog.statusAt, hf]
    have hpost := Table.find_modify_self hf (DatabaseIngestJobQueue.heartbeatPatch s.log.clock)
    exact (congrArg (Option.map IngestJob.status) hpost).trans rfl
  | skipped hrun => exact hsame rfl
  | runSucceeded hrun hop =>
    obtain ⟨old, hf, hst, hlock, rfl⟩ := JobLog.workerSucceeded_ok hop
    exact byClaimAfter_finish hsound ha hacc hrun hf hst hlock rfl
  | runFailed hrun hop =>
    obtain ⟨old, hf, hst, hlock, rfl⟩ := JobLog.workerFailed_ok hop
    exact byClaimAfter_finish hsound ha hacc hrun hf hst hlock rfl

theorem log_of_markFailed {d : ℕ} {failing : ApiCall} {job : IngestJob}
    (hcall : s.calls d = some failing)
    (hl : s.log.jobs.lookup (failing.prepared.tenantId, failing.prepared.sourceId) = some job)
    (h : s.step site fleet (.call d (.markFailed none)) = some s') :
    ∃ error, s'.log = s.log.update job.id
      (IngestJobRepository.statusPatch s.log.clock .failed (some error)) (.closed (.call d)) := by
  obtain ⟨call, hc, hstep⟩ := Option.bind_eq_some_iff.mp h
  obtain rfl := Option.some.inj (hcall.symm.trans hc)
  cases hpc : failing.pc with
  | toMarkFailed error =>
    refine ⟨error, ?_⟩
    unfold Deployment.stepCall at hstep
    rw [hpc] at hstep
    rw [← Option.some.inj hstep]
    unfold Deployment.callMarkFailed
    rw [JobLog.markFailed_of_lookup d error hl]
    rfl
  | _ => unfold Deployment.stepCall at hstep; rw [hpc] at hstep; exact nomatch hstep

/-- A failure path that hits an accepted row breaks the promise. -/
theorem not_keepsAccepted {c : ℕ} {label : DeployLabel n}
    (h : s.step site fleet label = some s') (hfails : FailsAccepted c ⟨s, label, s'⟩) :
    ¬ KeepsAccepted c ⟨s, label, s'⟩ := by
  intro hkeeps
  unfold FailsAccepted at hfails
  split at hfails
  · rename_i d hlabel
    obtain rfl : label = .call d (.markFailed none) := hlabel
    obtain ⟨failing, hfailing, call, hcall, acc, hacc, job, hjob, hid, hst⟩ := hfails
    obtain ⟨error, hlog⟩ := log_of_markFailed hfailing hjob h
    have hf : s.log.jobs.find job.id = some job := Table.find_of_lookup hjob
    have hpost := Table.find_modify_self hf
      (IngestJobRepository.statusPatch s.log.clock .failed (some error))
    refine hkeeps call hcall acc hacc ⟨.failed, ?_, trivial, ?_⟩
    · rw [JobLog.statusAt, hlog, ← hid]
      exact congrArg (Option.map IngestJob.status) hpost
    · rw [JobLog.statusAt, ← hid, hf]
      exact fun h ↦ hst (Option.some.inj h)
  · exact hfails

end Steps

/-- **A step keeps what was promised to a call if and only if it is not the failure path of a
submission on a row the call accepted**, in every asynchronous deployment. -/
theorem keepsAccepted_iff (site : Site) (fleet : Fleet n) (clock : ℚ)
    (labels : List (DeployLabel n)) (hasync : ∀ label ∈ labels, label.Async) :
    ∀ t ∈ trace (Deployment.step site fleet) (.initial n clock) labels, ∀ c,
      (KeepsAccepted c t ↔ ¬ FailsAccepted c t) := by
  intro t ht c
  obtain ⟨⟨hsound, ha, hacc⟩, hstep, -⟩ := guarded_trace_invariant
    (I := fun s : Deployment n ↦ Sound site fleet s ∧ Asynchronous s ∧ AcceptedBefore s)
    (G := fun t ↦ t.label.Async)
    (fun _ _ _ ⟨hsound, ha, hacc⟩ hG h ↦
      have hmoves := Deployment.moves_of_step h
      ⟨hsound.move hmoves, ha.move hG hmoves, hacc.move hmoves⟩)
    ⟨Sound.initial site fleet clock, Asynchronous.initial clock, fun _ _ h ↦ nomatch h⟩
    (fun t ht ↦ hasync _ (label_mem_of_mem_trace ht)) t ht
  exact ⟨fun hkeeps hfails ↦ not_keepsAccepted hstep hfails hkeeps,
    keepsAccepted_of_moves hsound ha hacc (Deployment.moves_of_step hstep)⟩

/-! ### Two overlapping submissions -/

/-- A submission is accepted while the upload of an earlier one for the same document fails. -/
def overlappingSubmissions : List (DeployLabel 1) :=
  [.start 0 .submit sampleRequest 7, .start 1 .submit sampleRequest 8,
   .call 1 (.uploadRaw none), .call 1 (.accept 9 none),
   .call 0 (.uploadRaw (some ⟨"S3UploadError", "timeout"⟩)), .call 0 (.markFailed none)]

/-- A submission that nothing overlaps is decided by the worker that claims it. -/
def soleSubmission : List (DeployLabel 1) :=
  [.start 0 .submit sampleRequest 7, .call 0 (.uploadRaw none), .call 0 (.accept 9 none),
   .poll 0 [], .run 0 (.download none), .run 0 (.parse (.ok [(["a.md"], "text")])),
   .run 0 (.uploadOutput none), .run 0 .finish]

/-- The worker's result keeps the promise made to the only submission. -/
theorem keepsAccepted_soleSubmission : ∃ t ∈ trace (Deployment.step defaultSite oneWorker)
    (.initial 1 0) soleSubmission, EndsJob t 7 ∧ KeepsAccepted 0 t := by
  obtain ⟨t, ht, hends, hno⟩ : ∃ t ∈ trace (Deployment.step defaultSite oneWorker)
      (.initial 1 0) soleSubmission, EndsJob t 7 ∧ ¬ FailsAccepted 0 t := by decide +kernel
  exact ⟨t, ht, hends,
    (keepsAccepted_iff defaultSite oneWorker 0 soleSubmission (by decide) t ht 0).mpr hno⟩

/-- **An accepted submission can be lost** to the failure path of another one. -/
theorem accepted_submission_lost : ¬ ∀ t ∈ trace (Deployment.step defaultSite oneWorker)
    (.initial 1 0) overlappingSubmissions, KeepsAccepted 1 t := by
  decide +kernel

end KnowledgeAlakazam
