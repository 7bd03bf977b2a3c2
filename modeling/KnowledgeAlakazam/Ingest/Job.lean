import KnowledgeAlakazam.Core.Table
import Mathlib.Algebra.Order.Ring.Rat

/-!
# The `ingest_job` row

The row that the API and the workers share. Time is exact: a timestamp is a rational number of
seconds. Ids stand for UUIDs. The two `CHECK` constraints of the table are part of the type:
`attempt_count` is a natural number, and a row carries the proof that `max_attempts` is positive.
The column `updated_at`, which nothing reads, is left out.
-/

namespace KnowledgeAlakazam

/-- The four values `ck_ingest_job_status` admits. -/
inductive JobStatus where
  | pending
  | processing
  | succeeded
  | failed
deriving DecidableEq, Repr

namespace JobStatus

/-- The status is one a job ends in. -/
def Terminal : JobStatus → Prop
  | succeeded => True
  | failed => True
  | _ => False

instance : DecidablePred Terminal := fun s ↦ by cases s <;> unfold Terminal <;> infer_instance

end JobStatus

/-- A row of `ingest_job`. -/
structure IngestJob where
  id : ℕ
  tenantId : String
  sourceId : String
  rawBucket : String
  rawKey : String
  status : JobStatus
  error : Option String
  attemptCount : ℕ
  maxAttempts : ℕ
  claimedAt : Option ℚ
  heartbeatAt : Option ℚ
  lockedBy : Option String
  nextAttemptAt : Option ℚ
  createdAt : ℚ
  /-- `ck_ingest_job_max_attempts_positive`. -/
  maxAttempts_pos : 1 ≤ maxAttempts
deriving DecidableEq

/-- The primary key, and `uq_ingest_job_tenant_source`. -/
instance : Row IngestJob ℕ (String × String) where
  primary job := job.id
  unique job := (job.tenantId, job.sourceId)

@[simp] theorem IngestJob.primary_eq (job : IngestJob) : Row.primary job = job.id := rfl

/-- The `ingest_job` table. -/
abbrev IngestJobs := Table IngestJob

end KnowledgeAlakazam
