import KnowledgeAlakazam.Ingest.RetryBudget

/-!
# What a row of `ingest_job` always looks like

Nine methods write a job, five of `IngestJobRepository` and four of `DatabaseIngestJobQueue`, and
each of them sets its own columns. The status, the lock, the error and the timestamps of a row
must nevertheless fit together: a worker only takes up a row that is pending or has gone stale,
and only the owner of a processing row may finish it.

`RowSound` says how the columns fit together. It is not inductive by itself, since a heartbeat
moves `heartbeat_at` and leaves `claimed_at`; what a row needs besides is that its heartbeat does
not lie in the future (`RowTimely`).
-/

namespace KnowledgeAlakazam

/-- The text of a failure, which is not empty. -/
abbrev ErrorText := { error : String // error ≠ "" }

/-- A transaction of the API or of a worker, or the passing of time. Failures come with a text. -/
inductive JobOp where
  | tick (seconds : ℚ)
  | upsertPending (c : ℕ) (repo : IngestJobRepository) (uuid : ℕ)
      (tenantId sourceId rawBucket rawKey : String)
  | markProcessing (c : ℕ) (tenantId sourceId : String)
  | markSucceeded (c : ℕ) (tenantId sourceId : String)
  | markFailed (c : ℕ) (tenantId sourceId : String) (error : ErrorText)
  | claimNextPending (queue : DatabaseIngestJobQueue) (locked : List ℕ)
  | heartbeat (claimed : ClaimedIngestJob)
  | workerSucceeded (claimed : ClaimedIngestJob)
  | workerFailed (claimed : ClaimedIngestJob) (error : ErrorText)

/-- The effect of a transaction; one that raises changes nothing. -/
def JobOp.step (s : JobLog) : JobOp → Option JobLog
  | tick seconds => AsyncOp.step s (.tick seconds)
  | upsertPending c repo uuid tenantId sourceId rawBucket rawKey =>
    AsyncOp.step s (.upsertPending c repo uuid tenantId sourceId rawBucket rawKey)
  | markProcessing c tenantId sourceId =>
    match s.markProcessing c tenantId sourceId with
    | .error _ => some s
    | .ok (s', _) => some s'
  | markSucceeded c tenantId sourceId =>
    match s.markSucceeded c tenantId sourceId with
    | .error _ => some s
    | .ok (s', _) => some s'
  | markFailed c tenantId sourceId error =>
    AsyncOp.step s (.markFailed c tenantId sourceId error)
  | claimNextPending queue locked => AsyncOp.step s (.claimNextPending queue locked)
  | heartbeat claimed => AsyncOp.step s (.heartbeat claimed)
  | workerSucceeded claimed => AsyncOp.step s (.workerSucceeded claimed)
  | workerFailed claimed error => AsyncOp.step s (.workerFailed claimed error)

/-! ## The columns fit together -/

/-- The columns of a row fit together. -/
structure RowSound (job : IngestJob) : Prop where
  /-- A row is processing just while somebody has it locked. -/
  locked : job.status = .processing ↔ job.lockedBy ≠ none
  /-- A row is failed just while it has an error. -/
  failed : job.status = .failed ↔ job.error ≠ none
  /-- An error says something. -/
  explained : ∀ error ∈ job.error, error ≠ ""
  /-- A pending row was never claimed. -/
  pending : job.status = .pending →
    job.attemptCount = 0 ∧ job.claimedAt = none ∧ job.heartbeatAt = none
  /-- A processing row was claimed, and its last heartbeat came no earlier. -/
  processing : job.status = .processing → 1 ≤ job.attemptCount ∧
    ∃ claimed beat, job.claimedAt = some claimed ∧ job.heartbeatAt = some beat ∧ claimed ≤ beat
  /-- No row waits for a retry. -/
  unscheduled : job.nextAttemptAt = none
  /-- A row may be tried at least once. -/
  budget : 1 ≤ job.maxAttempts

/-- The columns fit together, and the last heartbeat has been. -/
structure RowTimely (now : ℚ) (job : IngestJob) : Prop extends RowSound job where
  beat_le : ∀ beat ∈ job.heartbeatAt, beat ≤ now

namespace RowTimely

variable {now later : ℚ} {job : IngestJob}

theorem mono (h : RowTimely now job) (hle : now ≤ later) : RowTimely later job :=
  { h with beat_le := fun beat hbeat ↦ (h.beat_le beat hbeat).trans hle }

/-- A submission leaves a row that fits, whatever the row was. -/
theorem reset (repo : IngestJobRepository) (job : IngestJob) :
    RowTimely now (repo.assignStatus .pending none job) where
  locked := ⟨fun h ↦ (nomatch h), fun h ↦ absurd rfl h⟩
  failed := ⟨fun h ↦ (nomatch h), fun h ↦ absurd rfl h⟩
  explained error herror := absurd herror (by simp [IngestJobRepository.assignStatus,
    IngestJobRepository.resetPendingJob])
  pending _ := ⟨rfl, rfl, rfl⟩
  processing h := nomatch h
  unscheduled := rfl
  budget := repo.defaultMaxAttempts_pos
  beat_le beat hbeat := nomatch hbeat

theorem take (job : IngestJob) (owner : String) :
    RowTimely now { job with
      status := .processing
      error := none
      attemptCount := job.attemptCount + 1
      claimedAt := some now
      heartbeatAt := some now
      lockedBy := some owner
      nextAttemptAt := none } where
  locked := ⟨fun _ h ↦ (nomatch h), fun _ ↦ rfl⟩
  failed := ⟨fun h ↦ (nomatch h), fun h ↦ absurd rfl h⟩
  explained _ herror := nomatch herror
  pending h := nomatch h
  processing _ := ⟨Nat.succ_le_succ (Nat.zero_le _), now, now, rfl, rfl, le_refl now⟩
  unscheduled := rfl
  budget := job.maxAttempts_pos
  beat_le _ hbeat := (Option.some.inj hbeat).ge

theorem beat (h : RowTimely now job) (hs : job.status = .processing) :
    RowTimely now { job with heartbeatAt := some now } where
  locked := h.locked
  failed := h.failed
  explained := h.explained
  pending hp := absurd (hp.symm.trans hs) (by decide)
  processing _ := by
    obtain ⟨hcount, claimed, beat, hclaimed, hbeat, hle⟩ := h.processing hs
    exact ⟨hcount, claimed, now, hclaimed, rfl, hle.trans (h.beat_le beat hbeat)⟩
  unscheduled := h.unscheduled
  budget := h.budget
  beat_le _ hbeat := (Option.some.inj hbeat).ge

theorem finish (h : RowTimely now job) {status : JobStatus} {error : Option String}
    (hend : status.Terminal) (hfailed : status = .failed ↔ error ≠ none)
    (hexplained : ∀ e ∈ error, e ≠ "") :
    RowTimely now { job with
      status := status, error := error, lockedBy := none, nextAttemptAt := none } where
  locked := ⟨fun (hp : status = .processing) ↦
    False.elim (show JobStatus.Terminal .processing from hp ▸ hend), fun h ↦ absurd rfl h⟩
  failed := hfailed
  explained := hexplained
  pending := fun (hp : status = .pending) ↦
    False.elim (show JobStatus.Terminal .pending from hp ▸ hend)
  processing := fun (hp : status = .processing) ↦
    False.elim (show JobStatus.Terminal .processing from hp ▸ hend)
  unscheduled := rfl
  budget := h.budget
  beat_le := h.beat_le

theorem succeed (h : RowTimely now job) :
    RowTimely now { job with
      status := .succeeded, error := none, lockedBy := none, nextAttemptAt := none } :=
  h.finish trivial ⟨fun h ↦ (nomatch h), fun h ↦ absurd rfl h⟩ fun _ he ↦ nomatch he

theorem fail (h : RowTimely now job) (error : ErrorText) :
    RowTimely now { job with
      status := .failed, error := some error.1, lockedBy := none, nextAttemptAt := none } :=
  h.finish trivial ⟨fun _ h ↦ (nomatch h), fun _ ↦ rfl⟩ fun _ he ↦ Option.some.inj he ▸ error.2

theorem expire (h : RowTimely now job) :
    RowTimely now (markJobFailedAfterExhaustedAttempts.app job) :=
  h.fail ⟨_, by simp⟩

end RowTimely

/-! ## The rows of the table -/

def RowsTimely (s : JobLog) : Prop :=
  ∀ i job, s.jobs.find i = some job → RowTimely s.clock job

namespace RowsTimely

variable {s s' : JobLog}

theorem start (clock : ℚ) : RowsTimely (JobLog.start clock) :=
  fun i job h ↦ absurd h (by simp [JobLog.start])

theorem update (hs : RowsTimely s) {i : ℕ} {p : Patch IngestJob} {e : LeaseEvent Actor ℚ}
    (hp : ∀ job, s.jobs.find i = some job → RowTimely s.clock (p.app job)) :
    RowsTimely (s.update i p e) := by
  intro j job hj
  rw [JobLog.jobs_update, Table.find_modify] at hj
  split at hj
  · rename_i hji
    obtain ⟨old, hold, rfl⟩ := Option.map_eq_some_iff.mp (hji ▸ hj)
    exact hp old hold
  · exact hs j job hj

theorem tick (hs : RowsTimely s) {seconds : ℚ} (h : s.tick seconds = some s') :
    RowsTimely s' := by
  rw [JobLog.tick] at h
  split at h
  · rename_i hpos
    rw [← Option.some.inj h]
    exact fun i job hi ↦ (hs i job hi).mono (le_add_of_nonneg_right hpos)
  · exact absurd h (by simp)

theorem upsertPending (hs : RowsTimely s) {c : ℕ} {repo : IngestJobRepository} {uuid : ℕ}
    {tenantId sourceId rawBucket rawKey : String} {job : IngestJob}
    (h : s.upsertPending c repo uuid tenantId sourceId rawBucket rawKey = some (s', job)) :
    RowsTimely s' := by
  have hjob : RowTimely s.clock job := by
    rcases JobLog.upsertPending_cases h with ⟨-, rfl, -⟩ | ⟨old, -, rfl, -⟩
    · exact RowTimely.reset repo _
    · exact RowTimely.reset repo _
  intro j job' hj
  rw [JobLog.find_upsertPending h] at hj
  rw [JobLog.clock_upsertPending h]
  split at hj
  · exact Option.some.inj hj ▸ hjob
  · exact hs j job' hj

theorem claimNextPending (queue : DatabaseIngestJobQueue) (locked : List ℕ)
    (hs : RowsTimely s) : RowsTimely (s.claimNextPending queue locked).1 :=
  JobLog.claimNextPending_rule queue locked (P := fun s s' _ ↦ RowsTimely s → RowsTimely s')
    (fun _ hs ↦ hs)
    (fun _ _ _ _ hs ↦ hs.update fun job _ ↦ RowTimely.take job queue.workerId)
    (fun _ _ _ _ _ _ ih hs ↦ ih (hs.update fun job hf ↦ (hs _ job hf).expire)) s hs

end RowsTimely

/-- One transaction keeps the rows fitting. -/
theorem JobOp.step_rowsTimely {s s' : JobLog} {op : JobOp} (hs : RowsTimely s)
    (h : op.step s = some s') : RowsTimely s' := by
  -- An operation that raises leaves the log alone; one that returns changes one row.
  cases op with
  | tick seconds => exact hs.tick h
  | upsertPending c repo uuid tenantId sourceId rawBucket rawKey =>
    rw [step, AsyncOp.step] at h
    split at h
    · exact Option.some.inj h ▸ hs
    · rename_i hup
      exact Option.some.inj h ▸ hs.upsertPending hup
  | markProcessing c tenantId sourceId =>
    rw [step] at h
    split at h
    · exact Option.some.inj h ▸ hs
    · rename_i hup
      obtain ⟨old, -, -, heq⟩ := JobLog.markProcessing_ok hup
      rw [← Option.some.inj h, heq]
      exact hs.update fun job _ ↦ RowTimely.take job _
  | markSucceeded c tenantId sourceId =>
    rw [step] at h
    split at h
    · exact Option.some.inj h ▸ hs
    · rename_i hup
      obtain ⟨old, -, -, heq⟩ := JobLog.markSucceeded_ok hup
      rw [← Option.some.inj h, heq]
      exact hs.update fun job hf ↦ (hs _ job hf).succeed
  | markFailed c tenantId sourceId error =>
    rw [step, AsyncOp.step] at h
    split at h
    · exact Option.some.inj h ▸ hs
    · rename_i hup
      obtain ⟨old, -, -, heq⟩ := JobLog.markFailed_ok hup
      rw [← Option.some.inj h, heq]
      exact hs.update fun job hf ↦ (hs _ job hf).fail error
  | claimNextPending queue locked =>
    exact Option.some.inj h ▸ hs.claimNextPending queue locked
  | heartbeat claimed =>
    rw [step, AsyncOp.step] at h
    split at h
    · exact Option.some.inj h ▸ hs
    · rename_i hup
      obtain ⟨old, hold, hst, -, heq⟩ := JobLog.heartbeat_ok hup
      rw [← Option.some.inj h, heq]
      refine hs.update fun job hf ↦ (hs _ job hf).beat ?_
      rw [Option.some.inj (hf.symm.trans hold)]
      exact hst
  | workerSucceeded claimed =>
    rw [step, AsyncOp.step] at h
    split at h
    · exact Option.some.inj h ▸ hs
    · rename_i hup
      obtain ⟨old, -, -, -, heq⟩ := JobLog.workerSucceeded_ok hup
      rw [← Option.some.inj h, heq]
      exact hs.update fun job hf ↦ (hs _ job hf).succeed
  | workerFailed claimed error =>
    rw [step, AsyncOp.step] at h
    split at h
    · exact Option.some.inj h ▸ hs
    · rename_i hup
      obtain ⟨old, -, -, -, heq⟩ := JobLog.workerFailed_ok hup
      rw [← Option.some.inj h, heq]
      exact hs.update fun job hf ↦ (hs _ job hf).fail error

/-- **The columns of every row fit together**, and a tenant has at most one row for a source, in
every state that transactions of the API and of workers lead to from an empty table. -/
theorem ingest_job_rows_sound (clock : ℚ) (ops : List JobOp) :
    (∀ job ∈ (run JobOp.step (.start clock) ops).jobs.rows, RowSound job) ∧
    ∀ job ∈ (run JobOp.step (.start clock) ops).jobs.rows,
      ∀ job' ∈ (run JobOp.step (.start clock) ops).jobs.rows,
        job.tenantId = job'.tenantId → job.sourceId = job'.sourceId → job = job' := by
  constructor
  · intro job hjob
    have hs : RowsTimely (run JobOp.step (.start clock) ops) :=
      run_induction (fun _ _ _ hs h ↦ JobOp.step_rowsTimely hs h) (RowsTimely.start clock) ops
    exact (hs _ job (Table.find_primary hjob)).toRowSound
  · intro job hjob job' hjob' htenant hsource
    exact Table.eq_of_unique hjob hjob' (Prod.ext htenant hsource)

end KnowledgeAlakazam
