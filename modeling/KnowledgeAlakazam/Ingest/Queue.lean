import KnowledgeAlakazam.Ingest.Job
import Mathlib.Data.List.MinMax
import Mathlib.Data.Prod.Lex

/-!
# `DatabaseIngestJobQueue`: how the workers write jobs

A worker polls with `claimNextPending`, which returns a *ticket* (`ClaimedIngestJob`), and later
addresses the job by the ticket: every other method reads the row by id and refuses unless the row
is processing and locked by the owner the ticket names.

`claimNextPending` is a loop inside one transaction. It takes the oldest claimable row; a row whose
attempts are used up is marked failed and the loop goes on, any other row is claimed. The rows that
other transactions hold locked are skipped. The loop runs on fuel, and `claimLoop_isSome` shows
that the number of rows is always enough.
-/

namespace KnowledgeAlakazam

/-- `ClaimedIngestJob`. -/
structure ClaimedIngestJob where
  id : ℕ
  tenantId : String
  sourceId : String
  rawBucket : String
  rawKey : String
  attemptCount : ℕ
  maxAttempts : ℕ
  lockedBy : Option String
deriving DecidableEq

/-- `ClaimedIngestJob.from_model`. -/
def ClaimedIngestJob.fromModel (job : IngestJob) : ClaimedIngestJob where
  id := job.id
  tenantId := job.tenantId
  sourceId := job.sourceId
  rawBucket := job.rawBucket
  rawKey := job.rawKey
  attemptCount := job.attemptCount
  maxAttempts := job.maxAttempts
  lockedBy := job.lockedBy

/-- The `RuntimeError`s the queue raises. -/
inductive QueueError where
  | disappearedBeforeHeartbeat (id : ℕ)
  | disappearedBeforeStatusUpdate (id : ℕ)
  | noLongerProcessing (id : ℕ)
  | leaseNotOwned (id : ℕ)
deriving DecidableEq

/-- The texts of the errors; `str` prints an id. -/
def QueueError.message (str : ℕ → String) : QueueError → String
  | disappearedBeforeHeartbeat id => "Ingest job disappeared before heartbeat: " ++ str id
  | disappearedBeforeStatusUpdate id => "Ingest job disappeared before status update: " ++ str id
  | noLongerProcessing id =>
    "Ingest job is no longer processing and cannot be updated: " ++ str id
  | leaseNotOwned id => "Ingest job lease is no longer owned by this worker: " ++ str id

/-! ## Claiming -/

/-- The condition `pending_ready`. -/
def pendingReady (now : ℚ) (job : IngestJob) : Bool :=
  job.status == .pending && match job.nextAttemptAt with
    | none => true
    | some t => decide (t ≤ now)

/-- The condition `stale_processing`. -/
def staleProcessing (leaseExpiresBefore : ℚ) (job : IngestJob) : Bool :=
  job.status == .processing && match job.heartbeatAt with
    | none => true
    | some t => decide (t ≤ leaseExpiresBefore)

/-- `pending_job_claim_statement`, executed: the first claimable row by creation time and id that
no other transaction holds locked. -/
def pendingJobClaimStatement (now leaseExpiresBefore : ℚ) (locked : List ℕ) (jobs : IngestJobs) :
    Option IngestJob :=
  (jobs.rows.filter fun job ↦
    (pendingReady now job || staleProcessing leaseExpiresBefore job) &&
      !locked.contains job.id).argmin fun job ↦ toLex (job.createdAt, job.id)

/-- `max(job.max_attempts or 1, 1)`. -/
def effectiveMaxAttempts (job : IngestJob) : ℕ :=
  max (if job.maxAttempts = 0 then 1 else job.maxAttempts) 1

/-- `_job_attempts_exhausted`. -/
def jobAttemptsExhausted (job : IngestJob) : Bool :=
  decide (effectiveMaxAttempts job ≤ job.attemptCount)

/-- `_mark_job_failed_after_exhausted_attempts`. -/
def markJobFailedAfterExhaustedAttempts : Patch IngestJob where
  app job :=
    { job with
      status := .failed
      error := some ("Ingest job exceeded max attempts (" ++ toString (effectiveMaxAttempts job)
        ++ ") after worker lease expired")
      lockedBy := none
      nextAttemptAt := none }
  primary_app _ := rfl
  unique_app _ := rfl

/-- `_claim_job_for_worker`. -/
def claimJobForWorker (now : ℚ) (workerId : String) : Patch IngestJob where
  app job :=
    { job with
      status := .processing
      error := none
      attemptCount := job.attemptCount + 1
      claimedAt := some now
      heartbeatAt := some now
      lockedBy := some workerId
      nextAttemptAt := none }
  primary_app _ := rfl
  unique_app _ := rfl

/-- `_assert_job_lease_owned`. -/
def assertJobLeaseOwned (persisted : IngestJob) (claimed : ClaimedIngestJob) :
    Except QueueError Unit :=
  if persisted.status ≠ .processing then .error (.noLongerProcessing claimed.id)
  else if persisted.lockedBy ≠ claimed.lockedBy then .error (.leaseNotOwned claimed.id)
  else .ok ()

/-! ### Selection and ownership -/

theorem mem_of_pendingJobClaimStatement {now before : ℚ} {locked : List ℕ} {jobs : IngestJobs}
    {job : IngestJob} (h : pendingJobClaimStatement now before locked jobs = some job) :
    job ∈ jobs.rows ∧ (pendingReady now job = true ∨ staleProcessing before job = true) ∧
      job.id ∉ locked := by
  have hmem := List.argmin_mem (Option.mem_def.mpr h)
  rw [List.mem_filter, Bool.and_eq_true, Bool.or_eq_true] at hmem
  exact ⟨hmem.1, hmem.2.1, by simpa using hmem.2.2⟩

theorem status_of_pendingReady {now : ℚ} {job : IngestJob} (h : pendingReady now job = true) :
    job.status = .pending := by
  rw [pendingReady, Bool.and_eq_true] at h
  simpa using h.1

theorem status_of_staleProcessing {before : ℚ} {job : IngestJob}
    (h : staleProcessing before job = true) : job.status = .processing := by
  rw [staleProcessing, Bool.and_eq_true] at h
  simpa using h.1

theorem heartbeat_of_staleProcessing {before beat : ℚ} {job : IngestJob}
    (h : staleProcessing before job = true) (hb : job.heartbeatAt = some beat) :
    beat ≤ before := by
  rw [staleProcessing, Bool.and_eq_true, hb] at h
  simpa using h.2

theorem status_ne_of_claimable {now before : ℚ} {job : IngestJob}
    (h : pendingReady now job = true ∨ staleProcessing before job = true) :
    job.status ≠ .failed := by
  rcases h with h | h
  · rw [status_of_pendingReady h]; exact fun h' ↦ nomatch h'
  · rw [status_of_staleProcessing h]; exact fun h' ↦ nomatch h'

/-- The column's `CHECK` makes the defensive reading of `max_attempts` the plain one. -/
theorem effectiveMaxAttempts_eq (job : IngestJob) : effectiveMaxAttempts job = job.maxAttempts := by
  have hpos := job.maxAttempts_pos
  rw [effectiveMaxAttempts, if_neg (by omega)]
  omega

theorem jobAttemptsExhausted_iff {job : IngestJob} :
    jobAttemptsExhausted job = true ↔ job.maxAttempts ≤ job.attemptCount := by
  rw [jobAttemptsExhausted, effectiveMaxAttempts_eq, decide_eq_true_iff]

theorem assertJobLeaseOwned_ok {persisted : IngestJob} {claimed : ClaimedIngestJob} {u : Unit} :
    assertJobLeaseOwned persisted claimed = .ok u ↔
      persisted.status = .processing ∧ persisted.lockedBy = claimed.lockedBy := by
  rw [assertJobLeaseOwned]
  split
  · rename_i h; simp [h]
  · rename_i h
    split
    · rename_i h'; simp [h']
    · rename_i h'
      simp only [not_not] at h h'
      simp [h, h']

private theorem map_assertJobLeaseOwned_ok {persisted : IngestJob} {claimed : ClaimedIngestJob}
    {α : Type} {a b : α}
    (h : (assertJobLeaseOwned persisted claimed).map (fun _ ↦ a) = .ok b) :
    (persisted.status = .processing ∧ persisted.lockedBy = claimed.lockedBy) ∧ b = a := by
  cases hown : assertJobLeaseOwned persisted claimed with
  | error e => rw [hown] at h; exact absurd h (by simp [Except.map])
  | ok u =>
    rw [hown] at h
    exact ⟨assertJobLeaseOwned_ok.mp hown, (Except.ok.inj h).symm⟩

/-- `DatabaseIngestJobQueue`: a worker's id and lease. The constructor refuses a lease that is not
positive. -/
structure DatabaseIngestJobQueue where
  leaseSeconds : ℚ
  workerId : String
  leaseSeconds_pos : 0 < leaseSeconds

/-- The queue of a worker with the default of its constructor. -/
def DatabaseIngestJobQueue.withDefaults (workerId : String) : DatabaseIngestJobQueue :=
  ⟨300, workerId, by decide⟩

/-- What a poll leads to: the table, the exhausted jobs it warned about, and the ticket. -/
structure ClaimOutcome where
  jobs : IngestJobs
  exhausted : List IngestJob
  ticket : Option ClaimedIngestJob

namespace DatabaseIngestJobQueue

/-- The loop of `claim_next_pending`; no result means that the fuel ran out. -/
def claimLoop (queue : DatabaseIngestJobQueue) (now : ℚ) (locked : List ℕ) :
    ℕ → IngestJobs → Option ClaimOutcome
  | 0, _ => none
  | fuel + 1, jobs =>
    match pendingJobClaimStatement now (now - queue.leaseSeconds) locked jobs with
    | none => some ⟨jobs, [], none⟩
    | some job =>
      if jobAttemptsExhausted job then
        (claimLoop queue now locked fuel
          (jobs.modify job.id markJobFailedAfterExhaustedAttempts)).map fun outcome ↦
            { outcome with
              exhausted := markJobFailedAfterExhaustedAttempts.app job :: outcome.exhausted }
      else
        let claim := claimJobForWorker now queue.workerId
        some ⟨jobs.modify job.id claim, [], some (.fromModel (claim.app job))⟩

/-! ### The loop ends

Every turn of the loop that does not return marks a job failed that was not, so the number of
jobs that are not failed bounds the number of turns. -/

variable {queue : DatabaseIngestJobQueue} {now : ℚ} {locked : List ℕ} {jobs jobs' : IngestJobs}
  {claimed : ClaimedIngestJob}

/-- The number of jobs that are not failed. -/
def unfailed (jobs : IngestJobs) : ℕ := jobs.rows.countP fun job ↦ job.status ≠ .failed

private theorem countP_map_lt {α : Type} {q : α → Bool} {f : α → α} {l : List α}
    (hkeep : ∀ a ∈ l, q (f a) = true → q a = true)
    (hlose : ∃ a ∈ l, q a = true ∧ q (f a) = false) : (l.map f).countP q < l.countP q := by
  have hle : ∀ m : List α, (∀ a ∈ m, q (f a) = true → q a = true) →
      (m.map f).countP q ≤ m.countP q := fun m hm ↦ by
    rw [List.countP_map]
    exact List.countP_mono_left fun a ha hfa ↦ hm a ha hfa
  obtain ⟨a, ha, hqa, hqfa⟩ := hlose
  obtain ⟨l₁, l₂, rfl⟩ := List.append_of_mem ha
  have h₁ := hle l₁ fun b hb ↦ hkeep b (List.mem_append_left _ hb)
  have h₂ := hle l₂ fun b hb ↦ hkeep b (List.mem_append_right _ (List.mem_cons_of_mem _ hb))
  rw [List.map_append, List.countP_append, List.countP_append, List.map_cons,
    List.countP_cons_of_pos hqa, List.countP_cons_of_neg (by rw [hqfa]; simp)]
  omega

theorem unfailed_modify_lt {job : IngestJob} (hmem : job ∈ jobs.rows)
    (hstatus : job.status ≠ .failed) :
    unfailed (jobs.modify job.id markJobFailedAfterExhaustedAttempts) < unfailed jobs := by
  rw [unfailed, unfailed, Table.rows_modify]
  refine countP_map_lt (fun r _ hr ↦ ?_) ⟨job, hmem, by simpa using hstatus, ?_⟩
  · by_cases hid : Row.primary r = job.id
    · rw [if_pos hid] at hr
      exact absurd hr (by simp [markJobFailedAfterExhaustedAttempts])
    · rwa [if_neg hid] at hr
  · simp [markJobFailedAfterExhaustedAttempts]

theorem claimLoop_isSome {fuel : ℕ} (h : unfailed jobs < fuel) :
    (queue.claimLoop now locked fuel jobs).isSome := by
  induction fuel generalizing jobs with
  | zero => exact absurd h (Nat.not_lt_zero _)
  | succ fuel ih =>
    rw [claimLoop]
    cases hsel : pendingJobClaimStatement now (now - queue.leaseSeconds) locked jobs with
    | none => rfl
    | some job =>
      obtain ⟨hmem, hclaimable, -⟩ := mem_of_pendingJobClaimStatement hsel
      have hlt := unfailed_modify_lt hmem (status_ne_of_claimable hclaimable)
      dsimp only
      split
      · rw [Option.isSome_map]
        exact ih (by omega)
      · rfl

/-- `claim_next_pending`: a poll comes to an end within one turn more than there are jobs. -/
def claimNextPending (queue : DatabaseIngestJobQueue) (now : ℚ) (locked : List ℕ)
    (jobs : IngestJobs) : ClaimOutcome :=
  (queue.claimLoop now locked (jobs.rows.length + 1) jobs).get
    (claimLoop_isSome (Nat.lt_succ_of_le List.countP_le_length))

/-- **The rule for polls.** A relation between the table a poll starts from and what the poll
leads to holds if it holds of a poll that finds nothing, of a poll that claims the first row it
finds, and of a poll that first fails an exhausted row if it holds of the rest of the poll. -/
theorem claimNextPending_rule (queue : DatabaseIngestJobQueue) (now : ℚ) (locked : List ℕ)
    {P : IngestJobs → ClaimOutcome → Prop}
    (hnone : ∀ jobs,
      pendingJobClaimStatement now (now - queue.leaseSeconds) locked jobs = none →
      P jobs ⟨jobs, [], none⟩)
    (hclaim : ∀ jobs job,
      pendingJobClaimStatement now (now - queue.leaseSeconds) locked jobs = some job →
      jobAttemptsExhausted job = false →
      P jobs ⟨jobs.modify job.id (claimJobForWorker now queue.workerId), [],
        some (.fromModel ((claimJobForWorker now queue.workerId).app job))⟩)
    (hexhausted : ∀ jobs job outcome,
      pendingJobClaimStatement now (now - queue.leaseSeconds) locked jobs = some job →
      jobAttemptsExhausted job = true →
      P (jobs.modify job.id markJobFailedAfterExhaustedAttempts) outcome →
      P jobs { outcome with
        exhausted := markJobFailedAfterExhaustedAttempts.app job :: outcome.exhausted })
    (jobs : IngestJobs) : P jobs (queue.claimNextPending now locked jobs) := by
  -- On the fuel: each exhausted job takes one, and the loop has enough for all of them.
  have hloop : ∀ fuel jobs outcome, queue.claimLoop now locked fuel jobs = some outcome →
      P jobs outcome := by
    intro fuel
    induction fuel with
    | zero => intro jobs outcome h; exact absurd h (by simp [claimLoop])
    | succ fuel ih =>
      intro jobs outcome h
      rw [claimLoop] at h
      cases hsel : pendingJobClaimStatement now (now - queue.leaseSeconds) locked jobs with
      | none =>
        rw [hsel] at h
        exact Option.some.inj h ▸ hnone jobs hsel
      | some job =>
        rw [hsel] at h
        cases hex : jobAttemptsExhausted job with
        | true =>
          dsimp only at h
          rw [if_pos hex] at h
          obtain ⟨rest, hrest, rfl⟩ := Option.map_eq_some_iff.mp h
          exact hexhausted jobs job rest hsel hex (ih _ _ hrest)
        | false =>
          dsimp only at h
          rw [if_neg (by rw [hex]; simp)] at h
          exact Option.some.inj h ▸ hclaim jobs job hsel hex
  exact hloop _ _ _ (Option.some_get _).symm

/-! ### Heartbeats and results -/

/-- What `heartbeat` assigns to the job. -/
def heartbeatPatch (now : ℚ) : Patch IngestJob where
  app job := { job with heartbeatAt := some now }
  primary_app _ := rfl
  unique_app _ := rfl

/-- `heartbeat`. -/
def heartbeat (now : ℚ) (jobs : IngestJobs) (claimed : ClaimedIngestJob) :
    Except QueueError IngestJobs :=
  match jobs.find claimed.id with
  | none => .error (.disappearedBeforeHeartbeat claimed.id)
  | some job => (assertJobLeaseOwned job claimed).map fun _ ↦
    jobs.modify claimed.id (heartbeatPatch now)

/-- What `_update_status` assigns to the job. -/
def statusPatch (status : JobStatus) (error : Option String) : Patch IngestJob where
  app job :=
    { job with status := status, error := error, lockedBy := none, nextAttemptAt := none }
  primary_app _ := rfl
  unique_app _ := rfl

/-- `_update_status`. -/
def updateStatus (jobs : IngestJobs) (claimed : ClaimedIngestJob) (status : JobStatus)
    (error : Option String) : Except QueueError IngestJobs :=
  match jobs.find claimed.id with
  | none => .error (.disappearedBeforeStatusUpdate claimed.id)
  | some job => (assertJobLeaseOwned job claimed).map fun _ ↦
    jobs.modify claimed.id (statusPatch status error)

/-- `mark_succeeded`. -/
def markSucceeded (jobs : IngestJobs) (claimed : ClaimedIngestJob) : Except QueueError IngestJobs :=
  updateStatus jobs claimed .succeeded none

/-- `mark_failed`. -/
def markFailed (jobs : IngestJobs) (claimed : ClaimedIngestJob) (error : String) :
    Except QueueError IngestJobs :=
  updateStatus jobs claimed .failed (some error)

/-! ## What the methods do -/

theorem heartbeat_ok (h : heartbeat now jobs claimed = .ok jobs') :
    ∃ job, jobs.find claimed.id = some job ∧ job.status = .processing ∧
      job.lockedBy = claimed.lockedBy ∧ jobs' = jobs.modify claimed.id (heartbeatPatch now) := by
  rw [heartbeat] at h
  cases hf : jobs.find claimed.id with
  | none => rw [hf] at h; exact absurd h (by simp)
  | some job =>
    rw [hf] at h
    obtain ⟨hown, rfl⟩ := map_assertJobLeaseOwned_ok h
    exact ⟨job, rfl, hown.1, hown.2, rfl⟩

theorem updateStatus_ok {status : JobStatus} {error : Option String}
    (h : updateStatus jobs claimed status error = .ok jobs') :
    ∃ job, jobs.find claimed.id = some job ∧ job.status = .processing ∧
      job.lockedBy = claimed.lockedBy ∧
      jobs' = jobs.modify claimed.id (statusPatch status error) := by
  rw [updateStatus] at h
  cases hf : jobs.find claimed.id with
  | none => rw [hf] at h; exact absurd h (by simp)
  | some job =>
    rw [hf] at h
    obtain ⟨hown, rfl⟩ := map_assertJobLeaseOwned_ok h
    exact ⟨job, rfl, hown.1, hown.2, rfl⟩

end DatabaseIngestJobQueue

/-! ## Fleets -/

/-- Any number of workers, with distinct ids. -/
structure Fleet (n : ℕ) where
  queue : Fin n → DatabaseIngestJobQueue
  distinct : Function.Injective fun w ↦ (queue w).workerId

def Fleet.workerId {n : ℕ} (fleet : Fleet n) (w : Fin n) : String := (fleet.queue w).workerId

end KnowledgeAlakazam
