import KnowledgeAlakazam.Ingest.Job

/-!
# `IngestJobRepository`: how the API writes jobs

The API addresses a job by tenant and source. Each method is one transaction: it reads the row,
changes it in memory and flushes. `upsertJob` has no result when the insert violates a constraint
(the transaction is rolled back and the error propagates); the `mark…` methods raise when there is
no row.
-/

namespace KnowledgeAlakazam

/-- `IngestJobNotFoundError`. -/
structure IngestJobNotFoundError where
  tenantId : String
  sourceId : String
deriving DecidableEq

/-- The text of the error; `repr` is Python's `repr` on strings. -/
def IngestJobNotFoundError.message (repr : String → String) (e : IngestJobNotFoundError) :
    String :=
  "Ingest job does not exist for tenant=" ++ repr e.tenantId ++ ", source=" ++ repr e.sourceId

/-- `IngestJobRepository`. The constructor refuses a default of no attempts. -/
structure IngestJobRepository where
  defaultMaxAttempts : ℕ
  defaultMaxAttempts_pos : 1 ≤ defaultMaxAttempts

namespace IngestJobRepository

/-- The repository with the default of its constructor. -/
def withDefaults : IngestJobRepository := ⟨3, by decide⟩

/-- `_reset_pending_job`. -/
def resetPendingJob (repo : IngestJobRepository) (job : IngestJob) : IngestJob :=
  { job with
    attemptCount := 0
    maxAttempts := repo.defaultMaxAttempts
    claimedAt := none
    heartbeatAt := none
    lockedBy := none
    nextAttemptAt := none
    maxAttempts_pos := repo.defaultMaxAttempts_pos }

/-- The owner the API writes into a job it processes itself. -/
def apiSync : String := "api-sync"

/-- `_claim_job_for_sync_ingest`. -/
def claimJobForSyncIngest (now : ℚ) (job : IngestJob) : IngestJob :=
  { job with
    attemptCount := job.attemptCount + 1
    claimedAt := some now
    heartbeatAt := some now
    lockedBy := some apiSync
    nextAttemptAt := none }

/-- `_release_job_lock`. -/
def releaseJobLock (job : IngestJob) : IngestJob :=
  { job with lockedBy := none, nextAttemptAt := none }

/-- What `upsert_job` assigns to the job, whether it found it or made it. -/
def assignStatus (repo : IngestJobRepository) (status : JobStatus) (error : Option String)
    (job : IngestJob) : IngestJob :=
  let job := { job with status := status, error := error }
  if status = .pending then repo.resetPendingJob job else job

/-- What `upsert_job` assigns to a job it found. -/
def upsertPatch (repo : IngestJobRepository) (rawBucket rawKey : String) (status : JobStatus)
    (error : Option String) : Patch IngestJob where
  app job := repo.assignStatus status error { job with rawBucket := rawBucket, rawKey := rawKey }
  primary_app job := by cases status <;> rfl
  unique_app job := by cases status <;> rfl

/-- The job `upsert_job` constructs, with the column defaults. -/
def newJob (uuid : ℕ) (now : ℚ) (tenantId sourceId rawBucket rawKey : String) : IngestJob where
  id := uuid
  tenantId := tenantId
  sourceId := sourceId
  rawBucket := rawBucket
  rawKey := rawKey
  status := .pending
  error := none
  attemptCount := 0
  maxAttempts := 3
  claimedAt := none
  heartbeatAt := none
  lockedBy := none
  nextAttemptAt := none
  createdAt := now
  maxAttempts_pos := by decide

/-- `upsert_job`; `uuid` and `now` are what the database assigns to an inserted row. -/
def upsertJob (repo : IngestJobRepository) (uuid : ℕ) (now : ℚ) (jobs : IngestJobs)
    (tenantId sourceId rawBucket rawKey : String) (status : JobStatus) (error : Option String) :
    Option (IngestJobs × IngestJob) :=
  match jobs.lookup (tenantId, sourceId) with
  | none =>
    let job := repo.assignStatus status error
      (newJob uuid now tenantId sourceId rawBucket rawKey)
    (jobs.insert job).map fun jobs' ↦ (jobs', job)
  | some job =>
    let patch := repo.upsertPatch rawBucket rawKey status error
    some (jobs.modify job.id patch, patch.app job)

/-- What `_update_status` assigns to the job. -/
def statusPatch (now : ℚ) (status : JobStatus) (error : Option String) : Patch IngestJob where
  app job :=
    let job := { job with status := status, error := error }
    match status with
    | .processing => claimJobForSyncIngest now job
    | .succeeded => releaseJobLock job
    | .failed => releaseJobLock job
    | .pending => job
  primary_app job := by cases status <;> rfl
  unique_app job := by cases status <;> rfl

/-- `_update_status`. -/
def updateStatus (now : ℚ) (jobs : IngestJobs) (tenantId sourceId : String) (status : JobStatus)
    (error : Option String) : Except IngestJobNotFoundError (IngestJobs × IngestJob) :=
  match jobs.lookup (tenantId, sourceId) with
  | none => .error ⟨tenantId, sourceId⟩
  | some job =>
    let patch := statusPatch now status error
    .ok (jobs.modify job.id patch, patch.app job)

/-- `mark_processing`. -/
def markProcessing (now : ℚ) (jobs : IngestJobs) (tenantId sourceId : String) :
    Except IngestJobNotFoundError (IngestJobs × IngestJob) :=
  updateStatus now jobs tenantId sourceId .processing none

/-- `mark_succeeded`. -/
def markSucceeded (now : ℚ) (jobs : IngestJobs) (tenantId sourceId : String) :
    Except IngestJobNotFoundError (IngestJobs × IngestJob) :=
  updateStatus now jobs tenantId sourceId .succeeded none

/-- `mark_failed`. -/
def markFailed (now : ℚ) (jobs : IngestJobs) (tenantId sourceId error : String) :
    Except IngestJobNotFoundError (IngestJobs × IngestJob) :=
  updateStatus now jobs tenantId sourceId .failed (some error)

/-! ## What the methods do -/

variable {repo : IngestJobRepository} {uuid : ℕ} {now : ℚ} {jobs jobs' : IngestJobs}
  {tenantId sourceId rawBucket rawKey : String} {status : JobStatus} {error : Option String}
  {job : IngestJob}

/-- What `upsert_job` does: it inserts a new job, or it updates the one it found. -/
theorem upsertJob_cases
    (h : repo.upsertJob uuid now jobs tenantId sourceId rawBucket rawKey status error
      = some (jobs', job)) :
    (jobs.lookup (tenantId, sourceId) = none ∧
      job = repo.assignStatus status error (newJob uuid now tenantId sourceId rawBucket rawKey) ∧
      jobs.insert job = some jobs') ∨
    ∃ old, jobs.lookup (tenantId, sourceId) = some old ∧
      job = (repo.upsertPatch rawBucket rawKey status error).app old ∧
      jobs' = jobs.modify old.id (repo.upsertPatch rawBucket rawKey status error) := by
  rw [upsertJob] at h
  cases hl : jobs.lookup (tenantId, sourceId) with
  | none =>
    rw [hl] at h
    obtain ⟨t, ht, heq⟩ := Option.map_eq_some_iff.mp h
    obtain ⟨rfl, rfl⟩ := Prod.mk.inj heq
    exact Or.inl ⟨rfl, rfl, ht⟩
  | some old =>
    rw [hl] at h
    obtain ⟨rfl, rfl⟩ := Prod.mk.inj (Option.some.inj h)
    exact Or.inr ⟨old, rfl, rfl, rfl⟩

theorem updateStatus_ok
    (h : updateStatus now jobs tenantId sourceId status error = .ok (jobs', job)) :
    ∃ old, jobs.lookup (tenantId, sourceId) = some old ∧
      job = (statusPatch now status error).app old ∧
      jobs' = jobs.modify old.id (statusPatch now status error) := by
  rw [updateStatus] at h
  cases hl : jobs.lookup (tenantId, sourceId) with
  | none => rw [hl] at h; exact absurd h (by simp)
  | some old =>
    rw [hl] at h
    obtain ⟨rfl, rfl⟩ := Prod.mk.inj (Except.ok.inj h)
    exact ⟨old, rfl, rfl, rfl⟩

end IngestJobRepository

end KnowledgeAlakazam
