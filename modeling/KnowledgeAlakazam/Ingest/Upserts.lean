import KnowledgeAlakazam.Core.Linearization
import KnowledgeAlakazam.Ingest.Repository
import Mathlib.Data.Fintype.Basic
import Mathlib.Logic.Function.Basic

/-!
# Concurrent upserts of a job

Calls of `upsert_job` for one tenant and source, statement by statement, each in a session of its
own: the `SELECT` of `_get_job`, the flush, and the commit. The database is PostgreSQL at
`READ COMMITTED`. A flush locks the row or the key it is about until the commit, and a flush that
needs a lock of another call waits. An `INSERT` whose key is taken raises, and its transaction is
rolled back. The object-relational mapper updates only the columns that differ from what it loaded,
and issues no `UPDATE` when none does.
-/

namespace KnowledgeAlakazam

/-! ## What a call writes -/

/-- The arguments of `upsert_job` besides the tenant and the source; `now` is the time of the
transaction. -/
structure UpsertRequest where
  repo : IngestJobRepository
  rawBucket : String
  rawKey : String
  status : JobStatus
  error : Option String
  now : ℚ

/-- What an `UPDATE` leaves in a column, for the value that was assigned to the mapped object, the
one it was loaded with and the one in the row. -/
def updated {α : Type} [DecidableEq α] (assigned loaded row : α) : α :=
  if assigned = loaded then row else assigned

theorem updated_self {α : Type} [DecidableEq α] (loaded row : α) :
    updated loaded loaded row = row := if_pos rfl

/-- The columns of a job that differ from what was loaded. -/
def jobDiff (loaded job : IngestJob) : Patch IngestJob where
  app row := { row with
    rawBucket := updated job.rawBucket loaded.rawBucket row.rawBucket
    rawKey := updated job.rawKey loaded.rawKey row.rawKey
    status := updated job.status loaded.status row.status
    error := updated job.error loaded.error row.error
    attemptCount := updated job.attemptCount loaded.attemptCount row.attemptCount
    maxAttempts := updated job.maxAttempts loaded.maxAttempts row.maxAttempts
    claimedAt := updated job.claimedAt loaded.claimedAt row.claimedAt
    heartbeatAt := updated job.heartbeatAt loaded.heartbeatAt row.heartbeatAt
    lockedBy := updated job.lockedBy loaded.lockedBy row.lockedBy
    nextAttemptAt := updated job.nextAttemptAt loaded.nextAttemptAt row.nextAttemptAt
    maxAttempts_pos := by
      unfold updated
      split
      · exact row.maxAttempts_pos
      · exact job.maxAttempts_pos }
  primary_app _ := rfl
  unique_app _ := rfl

inductive JobWrite where
  | insert (job : IngestJob)
  | update (id : ℕ) (patch : Patch IngestJob)

/-- The row or the key that a write keeps from others. -/
inductive JobLock where
  | row (id : ℕ)
  | key (tenantId sourceId : String)
deriving DecidableEq

namespace JobWrite

def apply : JobWrite → IngestJobs → IngestJobs
  | insert job, jobs => jobs.add job
  | update id patch, jobs => jobs.modify id patch

def locks : JobWrite → List JobLock
  | insert job => [.row job.id, .key job.tenantId job.sourceId]
  | update id _ => [.row id]

def Fits (jobs : IngestJobs) : JobWrite → Prop
  | insert job => jobs.Free job
  | update _ _ => True

instance (jobs : IngestJobs) : (write : JobWrite) → Decidable (write.Fits jobs)
  | insert job => inferInstanceAs (Decidable (jobs.Free job))
  | update _ _ => instDecidableTrue

end JobWrite

namespace UpsertRequest

variable (request : UpsertRequest)

/-- What the call assigns to a job that it found. -/
def patch : Patch IngestJob :=
  request.repo.upsertPatch request.rawBucket request.rawKey request.status request.error

def newJob (tenantId sourceId : String) (uuid : ℕ) : IngestJob :=
  request.repo.assignStatus request.status request.error
    (IngestJobRepository.newJob uuid request.now tenantId sourceId request.rawBucket
      request.rawKey)

/-- The flush, for what `_get_job` found. -/
def flush (tenantId sourceId : String) (nextId : ℕ) : Option IngestJob → Option JobWrite
  | none => some (.insert (request.newJob tenantId sourceId nextId))
  | some loaded =>
    let job := request.patch.app loaded
    if job = loaded then none else some (.update loaded.id (jobDiff loaded job))

end UpsertRequest

/-! ## The system -/

/-- The next statement of a call; `found` is what `_get_job` found. -/
inductive UpsertPc where
  | select
  | flush (found : Option IngestJob)
  | commit
  | done
  | failed
deriving DecidableEq

/-- A call: its next statement, and what its transaction wrote. -/
structure UpsertCall where
  pc : UpsertPc
  pending : Option JobWrite

def UpsertCall.locks (call : UpsertCall) : List JobLock :=
  match call.pending with
  | none => []
  | some write => write.locks

/-- The committed table and the calls. -/
structure UpsertState (n : ℕ) where
  jobs : IngestJobs
  nextId : ℕ
  calls : Fin n → UpsertCall

namespace UpsertState

variable {n : ℕ}

def initial (jobs : IngestJobs) (nextId : ℕ) : UpsertState n :=
  ⟨jobs, nextId, fun _ ↦ ⟨.select, none⟩⟩

/-- A call goes on to another statement. -/
def goTo (s : UpsertState n) (i : Fin n) (pc : UpsertPc) (pending : Option JobWrite) :
    UpsertState n :=
  { s with calls := Function.update s.calls i ⟨pc, pending⟩ }

def Blocked (s : UpsertState n) (i : Fin n) (write : JobWrite) : Prop :=
  ∃ j, j ≠ i ∧ ∃ lock ∈ write.locks, lock ∈ (s.calls j).locks

instance (s : UpsertState n) (i : Fin n) (write : JobWrite) : Decidable (s.Blocked i write) :=
  inferInstanceAs (Decidable (∃ _, _ ∧ ∃ lock ∈ _, lock ∈ _))

def commit (s : UpsertState n) (i : Fin n) : UpsertState n :=
  { s.goTo i .done none with
    jobs := match (s.calls i).pending with
      | none => s.jobs
      | some write => write.apply s.jobs }

variable (tenantId sourceId : String) (requests : Fin n → UpsertRequest)

def step (s : UpsertState n) (i : Fin n) : Option (UpsertState n) :=
  match (s.calls i).pc with
  | .select => some (s.goTo i (.flush (s.jobs.lookup (tenantId, sourceId))) none)
  | .flush found => match (requests i).flush tenantId sourceId s.nextId found with
    | none => some (s.goTo i .commit none)
    | some write =>
      if s.Blocked i write then none
      else if write.Fits s.jobs then
        some { s.goTo i .commit (some write) with nextId := s.nextId + 1 }
      else some (s.goTo i .failed none)
  | .commit => some (s.commit i)
  | .done => none
  | .failed => none

end UpsertState

/-! ## When the calls do not disturb each other -/

/-- A column that the `UPDATE` leaves out, since it was loaded with the value that the call
assigns, still has that value. -/
def Kept {α : Type} (assigned loaded row : α) : Prop := assigned = loaded → row = assigned

instance {α : Type} [DecidableEq α] (assigned loaded row : α) :
    Decidable (Kept assigned loaded row) :=
  inferInstanceAs (Decidable (_ = _ → _ = _))

theorem updated_eq_iff {α : Type} [DecidableEq α] {assigned loaded row : α} :
    updated assigned loaded row = assigned ↔ Kept assigned loaded row := by
  unfold updated Kept
  split
  · rename_i heq
    exact ⟨fun h _ ↦ h, fun h ↦ h heq⟩
  · rename_i hne
    exact ⟨fun _ heq ↦ absurd heq hne, fun _ ↦ rfl⟩

theorem Kept.refl {α : Type} (assigned loaded : α) : Kept assigned loaded loaded := Eq.symm

/-- No column that the call assigns is left out of the `UPDATE` and has changed since. -/
def UpsertRequest.Unmixed (request : UpsertRequest) (loaded row : IngestJob) : Prop :=
  Kept request.rawBucket loaded.rawBucket row.rawBucket ∧
  Kept request.rawKey loaded.rawKey row.rawKey ∧
  Kept request.status loaded.status row.status ∧
  Kept request.error loaded.error row.error ∧
  (request.status = .pending →
    Kept 0 loaded.attemptCount row.attemptCount ∧
    Kept request.repo.defaultMaxAttempts loaded.maxAttempts row.maxAttempts ∧
    Kept none loaded.claimedAt row.claimedAt ∧
    Kept none loaded.heartbeatAt row.heartbeatAt ∧
    Kept none loaded.lockedBy row.lockedBy ∧
    Kept none loaded.nextAttemptAt row.nextAttemptAt)

instance (request : UpsertRequest) (loaded row : IngestJob) :
    Decidable (request.Unmixed loaded row) :=
  inferInstanceAs (Decidable (_ ∧ _ ∧ _ ∧ _ ∧ (_ → _ ∧ _ ∧ _ ∧ _ ∧ _ ∧ _)))

theorem UpsertRequest.unmixed_self (request : UpsertRequest) (loaded : IngestJob) :
    request.Unmixed loaded loaded :=
  ⟨.refl _ _, .refl _ _, .refl _ _, .refl _ _, fun _ ↦
    ⟨.refl _ _, .refl _ _, .refl _ _, .refl _ _, .refl _ _, .refl _ _⟩⟩

theorem UpsertRequest.unmixed_iff {request : UpsertRequest} {loaded row : IngestJob} :
    request.Unmixed loaded row ↔
      (jobDiff loaded (request.patch.app loaded)).app row = request.patch.app row := by
  unfold Unmixed
  by_cases hpending : request.status = .pending
  · rw [forall_prop_of_true hpending]
    simp only [jobDiff, patch, IngestJobRepository.upsertPatch, IngestJobRepository.assignStatus,
      if_pos hpending, IngestJobRepository.resetPendingJob, IngestJob.mk.injEq, updated_eq_iff,
      true_and, and_true]
  · rw [forall_prop_of_false hpending]
    simp only [jobDiff, patch, IngestJobRepository.upsertPatch, IngestJobRepository.assignStatus,
      if_neg hpending, IngestJob.mk.injEq, updated_eq_iff, updated_self, true_and, and_true]

section Definitions

variable {n : ℕ} (tenantId sourceId : String) (requests : Fin n → UpsertRequest)

def UpsertState.row (s : UpsertState n) : Option IngestJob := s.jobs.lookup (tenantId, sourceId)

/-- An `INSERT` finds the key free, and an `UPDATE` that leaves out columns leaves out all of them
or none that has changed since the call loaded the row. -/
def UpsertState.Undisturbed (s : UpsertState n) (i : Fin n) : Prop :=
  match (s.calls i).pc with
  | .flush none => s.row tenantId sourceId = none
  | .flush (some loaded) => (requests i).patch.app loaded = loaded ∨
    ∀ row ∈ s.row tenantId sourceId, (requests i).Unmixed loaded row
  | _ => True

instance (s : UpsertState n) (i : Fin n) :
    Decidable (s.Undisturbed tenantId sourceId requests i) := by
  unfold UpsertState.Undisturbed
  split <;> infer_instance

def UpsertRequest.upserted (request : UpsertRequest) (uuid : ℕ) :
    Option IngestJob → Option IngestJob
  | none => some (request.newJob tenantId sourceId uuid)
  | some job => some (request.patch.app job)

/-- What is asked of the calls, in a state of a run from `s₀`: they are serializable, and when all
are done there is one row for the key. -/
structure UpsertState.Upserted (s₀ s : UpsertState n) : Prop where
  serializable : Serializable (UpsertState.step tenantId sourceId requests)
    (fun s i ↦ (s.calls i).pc = .failed) (fun s i ↦ (s.calls i).pc = .done)
    (UpsertState.row tenantId sourceId) 3 s₀ s
  oneRow : 0 < n → (∀ i, (s.calls i).pc = .done) →
    ∃! job, job ∈ s.jobs.rows ∧ (job.tenantId, job.sourceId) = (tenantId, sourceId)

end Definitions

/-! ## What a statement does -/

section Steps

variable {n : ℕ} {tenantId sourceId : String} {requests : Fin n → UpsertRequest}
  {s s' : UpsertState n} {i : Fin n}

namespace UpsertState

theorem goTo_self (s : UpsertState n) (i : Fin n) (pc : UpsertPc) (pending : Option JobWrite) :
    (s.goTo i pc pending).calls i = ⟨pc, pending⟩ := Function.update_self ..

theorem goTo_of_ne {i j : Fin n} (h : j ≠ i) (s : UpsertState n) (pc : UpsertPc)
    (pending : Option JobWrite) : (s.goTo i pc pending).calls j = s.calls j :=
  Function.update_of_ne h ..

inductive Effect (tenantId sourceId : String) (requests : Fin n → UpsertRequest)
    (s : UpsertState n) (i : Fin n) : UpsertState n → Prop
  | selected (hpc : (s.calls i).pc = .select) :
    Effect tenantId sourceId requests s i (s.goTo i (.flush (s.row tenantId sourceId)) none)
  | kept {found : Option IngestJob} (hpc : (s.calls i).pc = .flush found)
    (hflush : (requests i).flush tenantId sourceId s.nextId found = none) :
    Effect tenantId sourceId requests s i (s.goTo i .commit none)
  | wrote {found : Option IngestJob} {write : JobWrite} (hpc : (s.calls i).pc = .flush found)
    (hflush : (requests i).flush tenantId sourceId s.nextId found = some write)
    (hfree : ¬s.Blocked i write) (hfits : write.Fits s.jobs) :
    Effect tenantId sourceId requests s i
      { s.goTo i .commit (some write) with nextId := s.nextId + 1 }
  | raised {found : Option IngestJob} {write : JobWrite} (hpc : (s.calls i).pc = .flush found)
    (hflush : (requests i).flush tenantId sourceId s.nextId found = some write)
    (hfree : ¬s.Blocked i write) (hfits : ¬write.Fits s.jobs) :
    Effect tenantId sourceId requests s i (s.goTo i .failed none)
  | committed (hpc : (s.calls i).pc = .commit) :
    Effect tenantId sourceId requests s i (s.commit i)

theorem effect_of_step (h : s.step tenantId sourceId requests i = some s') :
    Effect tenantId sourceId requests s i s' := by
  unfold step at h
  cases hpc : (s.calls i).pc with
  | select =>
    rw [hpc] at h
    rw [← Option.some.inj h]
    exact .selected hpc
  | flush found =>
    rw [hpc] at h
    dsimp only at h
    cases hflush : (requests i).flush tenantId sourceId s.nextId found with
    | none =>
      rw [hflush] at h
      rw [← Option.some.inj h]
      exact .kept hpc hflush
    | some write =>
      rw [hflush] at h
      dsimp only at h
      split at h
      -- blocked
      · exact absurd h (by simp)
      · rename_i hfree
        split at h
        · rename_i hfits
          rw [← Option.some.inj h]
          exact .wrote hpc hflush hfree hfits
        · rename_i hfits
          rw [← Option.some.inj h]
          exact .raised hpc hflush hfree hfits
  | commit =>
    rw [hpc] at h
    rw [← Option.some.inj h]
    exact .committed hpc
  | done =>
    rw [hpc] at h
    exact absurd h (by simp)
  | failed =>
    rw [hpc] at h
    exact absurd h (by simp)

end UpsertState

end Steps

/-! ## The calls and the row -/

section Invariant

variable {n : ℕ} (tenantId sourceId : String) (uuid : ℕ) (request : UpsertRequest)
  (requests : Fin n → UpsertRequest)

/-- A pending write makes of the committed row what the call is for. -/
inductive UpsertRequest.Writes (row : Option IngestJob) : JobWrite → Prop
  | insert (hrow : row = none) : Writes row (.insert (request.newJob tenantId sourceId uuid))
  | update {job : IngestJob} {patch : Patch IngestJob} (hrow : row = some job)
    (happ : patch.app job = request.patch.app job) : Writes row (.update job.id patch)

/-- What a call has found and written fits the committed row. -/
inductive UpsertRequest.Sound (row : Option IngestJob) : UpsertCall → Prop
  | select : Sound row ⟨.select, none⟩
  | missing : Sound row ⟨.flush none, none⟩
  | found {loaded job : IngestJob} (hrow : row = some job) (hid : job.id = loaded.id) :
    Sound row ⟨.flush (some loaded), none⟩
  | kept {job : IngestJob} (hrow : row = some job) : Sound row ⟨.commit, none⟩
  | wrote {write : JobWrite} (h : request.Writes tenantId sourceId uuid row write) :
    Sound row ⟨.commit, some write⟩
  | done : Sound row ⟨.done, none⟩

/-- The call has taken effect: it is done, or it has nothing to write. -/
def UpsertRequest.Settled (call : UpsertCall) : Prop :=
  match call.pc with
  | .flush (some loaded) => request.patch.app loaded = loaded
  | .commit => call.pending = none
  | .done => True
  | _ => False

/-- All calls fit the row, one of them at most has a pending write, and as long as there is no row
the id `uuid` is not used. -/
structure UpsertState.Sound (s : UpsertState n) : Prop where
  calls : ∀ i, (requests i).Sound tenantId sourceId uuid (s.row tenantId sourceId) (s.calls i)
  alone : ∀ i j, (s.calls i).pending ≠ none → (s.calls j).pending ≠ none → i = j
  first : s.row tenantId sourceId = none →
    s.jobs.find uuid = none ∧ ((∀ i, (s.calls i).pending = none) → s.nextId = uuid)

/-- A step of a call, as seen in the row. -/
abbrev UpsertState.Takes (i : Fin n) (s s' : UpsertState n) : Prop :=
  TakesEffect (row tenantId sourceId) (fun s j ↦ (requests j).Settled (s.calls j))
    (fun j ↦ (requests j).upserted tenantId sourceId uuid) i s s'

end Invariant

section Steps

variable {n : ℕ} {tenantId sourceId : String} {uuid : ℕ} {request : UpsertRequest}
  {requests : Fin n → UpsertRequest} {s s' : UpsertState n} {i : Fin n}

@[simp] theorem UpsertRequest.id_newJob :
    (request.newJob tenantId sourceId uuid).id = uuid := by
  unfold newJob IngestJobRepository.assignStatus
  dsimp only
  split <;> rfl

@[simp] theorem UpsertRequest.unique_newJob :
    Row.unique (request.newJob tenantId sourceId uuid) = (tenantId, sourceId) := by
  unfold newJob IngestJobRepository.assignStatus
  dsimp only
  split <;> rfl

theorem UpsertRequest.free_newJob {jobs : IngestJobs} (hid : jobs.find uuid = none)
    (hkey : jobs.lookup (tenantId, sourceId) = none) :
    jobs.Free (request.newJob tenantId sourceId uuid) := by
  refine ⟨?_, ?_⟩
  · rw [IngestJob.primary_eq, id_newJob]
    exact hid
  · rw [unique_newJob]
    exact hkey

theorem UpsertRequest.Writes.row_apply {jobs : IngestJobs} {write : JobWrite}
    (h : request.Writes tenantId sourceId uuid (jobs.lookup (tenantId, sourceId)) write)
    (hfree : jobs.lookup (tenantId, sourceId) = none → jobs.find uuid = none) :
    (write.apply jobs).lookup (tenantId, sourceId)
      = request.upserted tenantId sourceId uuid (jobs.lookup (tenantId, sourceId)) := by
  cases h with
  | insert hrow =>
    have hins : jobs.insert (request.newJob tenantId sourceId uuid)
        = some (jobs.add (request.newJob tenantId sourceId uuid)) :=
      (free_newJob (hfree hrow) hrow).insert
    rw [hrow]
    exact (Table.lookup_insert hins _).trans (if_pos unique_newJob)
  | @update job patch hrow happ =>
    rw [JobWrite.apply, Table.lookup_modify, hrow, Option.map_some, IngestJob.primary_eq,
      if_pos rfl, happ]
    rfl

/-- What a call has found and written fits the row that another call has made. -/
theorem UpsertRequest.Sound.upserted {row : Option IngestJob} {call : UpsertCall}
    (h : request.Sound tenantId sourceId uuid row call) (hpending : call.pending = none)
    (other : UpsertRequest) :
    request.Sound tenantId sourceId uuid (other.upserted tenantId sourceId uuid row) call := by
  cases h with
  | select => exact .select
  | missing => exact .missing
  | found hrow hid =>
    rw [hrow]
    exact .found rfl ((other.patch.primary_app _).trans hid)
  | kept hrow =>
    rw [hrow]
    exact .kept rfl
  | wrote h => exact absurd hpending (by simp)
  | done => exact .done

theorem UpsertRequest.upserted_ne_none {row : Option IngestJob} :
    request.upserted tenantId sourceId uuid row ≠ none := by
  cases row <;> exact Option.some_ne_none _

theorem UpsertRequest.Writes.reuse {row : Option IngestJob} {write : JobWrite} {nextId : ℕ}
    (h : request.Writes tenantId sourceId nextId row write) (heq : row = none → nextId = uuid) :
    request.Writes tenantId sourceId uuid row write := by
  cases h with
  | insert hrow =>
    rw [heq hrow]
    exact .insert hrow
  | update hrow happ => exact .update hrow happ

theorem UpsertRequest.locks_newJob :
    (JobWrite.insert (request.newJob tenantId sourceId uuid)).locks
      = [.row uuid, .key tenantId sourceId] := by
  have hkey : Row.unique (request.newJob tenantId sourceId uuid) = (tenantId, sourceId) :=
    unique_newJob
  obtain ⟨htenant, hsource⟩ := Prod.mk.inj hkey
  rw [JobWrite.locks, id_newJob]
  exact congrArg₂ (fun t s ↦ [JobLock.row uuid, .key t s]) htenant hsource

def UpsertPc.rank : UpsertPc → ℕ
  | select => 0
  | flush _ => 1
  | commit => 2
  | failed => 2
  | done => 3

namespace UpsertState

theorem Sound.goTo (h : s.Sound tenantId sourceId uuid requests) {pc : UpsertPc}
    (hpending : (s.calls i).pending = none)
    (hcall : (requests i).Sound tenantId sourceId uuid (s.row tenantId sourceId) ⟨pc, none⟩) :
    (s.goTo i pc none).Sound tenantId sourceId uuid requests := by
  have hsame : ∀ j, ((s.goTo i pc none).calls j).pending = (s.calls j).pending := by
    intro j
    by_cases hj : j = i
    · rw [hj, goTo_self, hpending]
    · rw [goTo_of_ne hj]
  refine ⟨fun j ↦ ?_, fun j k hj hk ↦ ?_, fun hrow ↦ ?_⟩
  · by_cases hj : j = i
    · rw [hj, goTo_self]
      exact hcall
    · rw [goTo_of_ne hj]
      exact h.calls j
  · exact h.alone j k (hsame j ▸ hj) (hsame k ▸ hk)
  · exact ⟨(h.first hrow).1, fun hnone ↦ (h.first hrow).2 fun j ↦ (hsame j).symm.trans (hnone j)⟩

theorem settled_goTo {pc : UpsertPc} {pending : Option JobWrite}
    (h : (requests i).Settled ⟨pc, pending⟩ ↔ (requests i).Settled (s.calls i)) (j : Fin n) :
    (requests j).Settled ((s.goTo i pc pending).calls j) ↔ (requests j).Settled (s.calls j) := by
  by_cases hj : j = i
  · subst hj
    rw [goTo_self]
    exact h
  · rw [goTo_of_ne hj]

theorem settled_goTo_settled {pc : UpsertPc} {pending : Option JobWrite}
    (h : (requests i).Settled ⟨pc, pending⟩) (j : Fin n) :
    (requests j).Settled ((s.goTo i pc pending).calls j)
      ↔ j = i ∨ (requests j).Settled (s.calls j) := by
  by_cases hj : j = i
  · subst hj
    rw [goTo_self]
    exact ⟨fun _ ↦ Or.inl rfl, fun _ ↦ h⟩
  · rw [goTo_of_ne hj]
    exact ⟨Or.inr, fun hor ↦ hor.resolve_left hj⟩

theorem commit_of_none (h : (s.calls i).pending = none) : s.commit i = s.goTo i .done none := by
  unfold commit
  rw [h]
  rfl

theorem Sound.pending_flush (h : s.Sound tenantId sourceId uuid requests)
    {found : Option IngestJob} (hpc : (s.calls i).pc = .flush found) :
    (s.calls i).pending = none := by
  have hcall := h.calls i
  generalize s.calls i = call at hcall hpc ⊢
  cases hcall with
  | wrote => cases hpc
  | select | missing | found | kept | done => rfl

theorem flush_of_settled {found : Option IngestJob} (hpc : (s.calls i).pc = .flush found)
    (h : (requests i).Settled (s.calls i)) :
    (requests i).flush tenantId sourceId s.nextId found = none := by
  unfold UpsertRequest.Settled at h
  rw [hpc] at h
  cases found with
  | none => exact absurd h id
  | some loaded => exact if_pos h

/-- A pending write keeps the others out: when a call need not wait, there is none. -/
theorem Sound.pending_eq_none (h : s.Sound tenantId sourceId uuid requests) {nextId : ℕ}
    {found : Option IngestJob} {write : JobWrite} (hpc : (s.calls i).pc = .flush found)
    (hwrites : (requests i).Writes tenantId sourceId nextId (s.row tenantId sourceId) write)
    (hfree : ¬s.Blocked i write) (j : Fin n) : (s.calls j).pending = none := by
  by_cases hj : j = i
  · rw [hj]
    exact h.pending_flush hpc
  have hcall := h.calls j
  unfold Blocked UpsertCall.locks at hfree
  generalize hcallj : s.calls j = call at hcall ⊢
  cases hcall with
  | select | missing | found | kept | done => rfl
  | @wrote other hother =>
    -- both writes are about the one row, or about its key
    refine absurd ⟨j, hj, ?_⟩ hfree
    rw [hcallj]
    cases hother with
    | insert hrow =>
      cases hwrites with
      | insert =>
        rw [UpsertRequest.locks_newJob]
        refine ⟨.key tenantId sourceId, by simp, ?_⟩
        change _ ∈ (JobWrite.insert _).locks
        rw [UpsertRequest.locks_newJob]
        simp
      | update hrow' => exact absurd (hrow.symm.trans hrow') (by simp)
    | update hrow =>
      cases hwrites with
      | insert hrow' => exact absurd (hrow'.symm.trans hrow) (by simp)
      | @update job patch hrow' =>
        obtain rfl := Option.some.inj (hrow.symm.trans hrow')
        exact ⟨_, List.mem_singleton_self _, List.mem_singleton_self _⟩

theorem Sound.writes (h : s.Sound tenantId sourceId uuid requests)
    (hguard : s.Undisturbed tenantId sourceId requests i) {found : Option IngestJob}
    {write : JobWrite} (hpc : (s.calls i).pc = .flush found)
    (hflush : (requests i).flush tenantId sourceId s.nextId found = some write) :
    (requests i).Writes tenantId sourceId s.nextId (s.row tenantId sourceId) write := by
  unfold Undisturbed at hguard
  rw [hpc] at hguard
  cases found with
  | none =>
    obtain rfl := Option.some.inj hflush
    exact .insert hguard
  | some loaded =>
    have hcall := h.calls i
    generalize s.calls i = call at hcall hpc
    cases hcall with
    | @found loaded' job hrow hid =>
      obtain rfl : loaded' = loaded := Option.some.inj (UpsertPc.flush.inj hpc)
      unfold UpsertRequest.flush at hflush
      dsimp only at hflush
      split at hflush
      · exact absurd hflush (by simp)
      · rename_i hne
        obtain rfl := Option.some.inj hflush
        rw [← hid]
        exact .update hrow (UpsertRequest.unmixed_iff.mp ((hguard.resolve_left hne) job hrow))
    | select | missing | kept | wrote | done => cases hpc

theorem Sound.selected (h : s.Sound tenantId sourceId uuid requests)
    (hpc : (s.calls i).pc = .select) :
    let s' := s.goTo i (.flush (s.row tenantId sourceId)) none
    s'.Sound tenantId sourceId uuid requests ∧
      Takes tenantId sourceId uuid requests i s s' := by
  have hpending : (s.calls i).pending = none := by
    have hcall := h.calls i
    generalize s.calls i = call at hcall hpc ⊢
    cases hcall with
    | wrote => cases hpc
    | select | missing | found | kept | done => rfl
  have hunsettled : ¬(requests i).Settled (s.calls i) := by
    unfold UpsertRequest.Settled
    rw [hpc]
    exact id
  intro s'
  cases hrow : s.row tenantId sourceId with
  | none =>
    refine ⟨h.goTo hpending (hrow ▸ .missing), .stays rfl (settled_goTo ?_)⟩
    rw [hrow]
    exact ⟨False.elim, fun hs ↦ absurd hs hunsettled⟩
  | some job =>
    have hfound : (requests i).Sound tenantId sourceId uuid (s.row tenantId sourceId)
        ⟨.flush (some job), none⟩ := .found hrow rfl
    refine ⟨h.goTo hpending (hrow ▸ hfound), ?_⟩
    by_cases hsame : (requests i).patch.app job = job
    · -- there is nothing to write: the call takes effect now
      refine .settles hunsettled ?_ (settled_goTo_settled (hrow ▸ hsame))
      change s.row tenantId sourceId = _
      rw [hrow]
      exact congrArg some hsame.symm
    · refine .stays rfl (settled_goTo ?_)
      rw [hrow]
      exact ⟨fun hs ↦ absurd hs hsame, fun hs ↦ absurd hs hunsettled⟩

theorem Sound.kept (h : s.Sound tenantId sourceId uuid requests) {found : Option IngestJob}
    (hpc : (s.calls i).pc = .flush found)
    (hflush : (requests i).flush tenantId sourceId s.nextId found = none) :
    (s.goTo i .commit none).Sound tenantId sourceId uuid requests ∧
      Takes tenantId sourceId uuid requests i s (s.goTo i .commit none) := by
  have hcall := h.calls i
  generalize hcalli : s.calls i = call at hcall hpc
  cases hcall with
  | missing =>
    cases UpsertPc.flush.inj hpc
    cases hflush
  | @found loaded job hrow hid =>
    obtain rfl := UpsertPc.flush.inj hpc
    refine ⟨h.goTo (by rw [hcalli]) (.kept hrow), .stays rfl (settled_goTo ?_)⟩
    unfold UpsertRequest.flush at hflush
    dsimp only at hflush
    split at hflush
    · rename_i hsame
      rw [hcalli]
      exact ⟨fun _ ↦ hsame, fun _ ↦ rfl⟩
    · exact absurd hflush (by simp)
  | select | kept | wrote | done => cases hpc

theorem Sound.wrote (h : s.Sound tenantId sourceId uuid requests) {found : Option IngestJob}
    {write : JobWrite} (hpc : (s.calls i).pc = .flush found)
    (hflush : (requests i).flush tenantId sourceId s.nextId found = some write)
    (hwrites : (requests i).Writes tenantId sourceId s.nextId (s.row tenantId sourceId) write)
    (hfree : ¬s.Blocked i write) :
    let s' := { s.goTo i .commit (some write) with nextId := s.nextId + 1 }
    s'.Sound tenantId sourceId uuid requests ∧
      Takes tenantId sourceId uuid requests i s s' := by
  have hnone := h.pending_eq_none hpc hwrites hfree
  have hunsettled : ¬(requests i).Settled (s.calls i) := fun hs ↦ by
    rw [flush_of_settled hpc hs] at hflush
    exact absurd hflush (by simp)
  have hown : ∀ j, ((s.goTo i .commit (some write)).calls j).pending ≠ none → j = i := by
    intro j hj
    by_contra hne
    rw [goTo_of_ne hne] at hj
    exact hj (hnone j)
  refine ⟨⟨fun j ↦ ?_, fun j k hj hk ↦ (hown j hj).trans (hown k hk).symm,
    fun hrow ↦ ⟨(h.first hrow).1, fun hall ↦ ?_⟩⟩, .stays rfl (settled_goTo ?_)⟩
  · change (requests j).Sound _ _ _ _ ((s.goTo i .commit (some write)).calls j)
    by_cases hj : j = i
    · rw [hj, goTo_self]
      exact .wrote (hwrites.reuse fun hrow ↦ (h.first hrow).2 hnone)
    · rw [goTo_of_ne hj]
      exact h.calls j
  · have hi : ((s.goTo i .commit (some write)).calls i).pending = none := hall i
    rw [goTo_self] at hi
    exact absurd hi (by simp)
  · exact ⟨fun hs ↦ absurd hs (by simp [UpsertRequest.Settled]), fun hs ↦ absurd hs hunsettled⟩

theorem Sound.committed_none (h : s.Sound tenantId sourceId uuid requests)
    (hpc : (s.calls i).pc = .commit) (hpending : (s.calls i).pending = none) :
    (s.commit i).Sound tenantId sourceId uuid requests ∧
      Takes tenantId sourceId uuid requests i s (s.commit i) := by
  rw [commit_of_none hpending]
  refine ⟨h.goTo hpending .done, .stays rfl (settled_goTo ⟨fun _ ↦ ?_, fun _ ↦ trivial⟩)⟩
  unfold UpsertRequest.Settled
  rw [hpc]
  exact hpending

theorem Sound.committed_some (h : s.Sound tenantId sourceId uuid requests)
    (hpc : (s.calls i).pc = .commit) {write : JobWrite}
    (hpending : (s.calls i).pending = some write) :
    (s.commit i).Sound tenantId sourceId uuid requests ∧
      Takes tenantId sourceId uuid requests i s (s.commit i) := by
  -- No two calls have a write pending, so the row is still the one that this write was made for.
  have hothers : ∀ j, j ≠ i → (s.calls j).pending = none := by
    intro j hj
    by_contra hne
    exact hj (h.alone j i hne (by rw [hpending]; simp))
  have hwrites : (requests i).Writes tenantId sourceId uuid (s.row tenantId sourceId) write := by
    have hcall := h.calls i
    generalize s.calls i = call at hcall hpending
    cases hcall with
    | wrote hwrites =>
      obtain rfl := Option.some.inj hpending
      exact hwrites
    | select | missing | found | kept | done => cases hpending
  have hunsettled : ¬(requests i).Settled (s.calls i) := by
    unfold UpsertRequest.Settled
    rw [hpc]
    dsimp only
    rw [hpending]
    simp
  have hrow : (s.commit i).row tenantId sourceId
      = (requests i).upserted tenantId sourceId uuid (s.row tenantId sourceId) := by
    unfold row commit
    rw [hpending]
    exact hwrites.row_apply fun hnone ↦ (h.first hnone).1
  have hnone : ∀ j, ((s.goTo i .done none).calls j).pending = none := by
    intro j
    by_cases hj : j = i
    · rw [hj, goTo_self]
    · rw [goTo_of_ne hj]
      exact hothers j hj
  refine ⟨⟨fun j ↦ ?_, fun j k hj _ ↦ absurd (hnone j) hj, fun hrow' ↦ ?_⟩,
    .settles hunsettled hrow (settled_goTo_settled trivial)⟩
  · rw [hrow]
    change (requests j).Sound _ _ _ _ ((s.goTo i .done none).calls j)
    by_cases hj : j = i
    · rw [hj, goTo_self]
      exact .done
    · rw [goTo_of_ne hj]
      exact (h.calls j).upserted (hothers j hj) (requests i)
  · rw [hrow] at hrow'
    exact absurd hrow' UpsertRequest.upserted_ne_none

/-- **One step** of a call that is not disturbed. -/
theorem Effect.sound (h : s.Sound tenantId sourceId uuid requests)
    (hguard : s.Undisturbed tenantId sourceId requests i)
    (heffect : Effect tenantId sourceId requests s i s') :
    s'.Sound tenantId sourceId uuid requests ∧
      Takes tenantId sourceId uuid requests i s s' := by
  cases heffect with
  | selected hpc => exact h.selected hpc
  | kept hpc hflush => exact h.kept hpc hflush
  | wrote hpc hflush hfree _ => exact h.wrote hpc hflush (h.writes hguard hpc hflush) hfree
  | raised hpc hflush hfree hfits =>
    have hwrites := h.writes hguard hpc hflush
    have hnone := h.pending_eq_none hpc hwrites hfree
    refine absurd ?_ hfits
    cases hwrites with
    | update => trivial
    | insert hrow =>
      rw [(h.first hrow).2 hnone]
      exact UpsertRequest.free_newJob (h.first hrow).1 hrow
  | committed hpc =>
    cases hpending : (s.calls i).pending with
    | none => exact h.committed_none hpc hpending
    | some write => exact h.committed_some hpc hpending

/-! ## Progress -/

theorem exists_step (tenantId sourceId : String) (requests : Fin n → UpsertRequest)
    (hdone : (s.calls i).pc ≠ .done) (hfailed : (s.calls i).pc ≠ .failed)
    (hfree : ∀ write, ¬s.Blocked i write) :
    ∃ s', s.step tenantId sourceId requests i = some s' := by
  unfold step
  cases hpc : (s.calls i).pc with
  | select => exact ⟨_, rfl⟩
  | flush found =>
    dsimp only
    split
    · exact ⟨_, rfl⟩
    · rw [if_neg (hfree _)]
      split <;> exact ⟨_, rfl⟩
  | commit => exact ⟨_, rfl⟩
  | done => exact absurd hpc hdone
  | failed => exact absurd hpc hfailed

theorem Sound.ne_failed (h : s.Sound tenantId sourceId uuid requests) (i : Fin n) :
    (s.calls i).pc ≠ .failed := by
  intro hpc
  have hcall := h.calls i
  generalize s.calls i = call at hcall hpc
  cases hcall <;> cases hpc

/-- **The calls do not wait for each other for ever.** -/
theorem Sound.proceeds (h : s.Sound tenantId sourceId uuid requests)
    (hstuck : ∀ i, s.step tenantId sourceId requests i = none) (i : Fin n) :
    (s.calls i).pc = .done := by
  have hcommit : ∀ j, (s.calls j).pc ≠ .commit := by
    intro j hpc
    have hj := hstuck j
    unfold step at hj
    rw [hpc] at hj
    exact absurd hj (by simp)
  -- whoever has locked something is about to commit
  have hlocks : ∀ j, (s.calls j).locks = [] := by
    intro j
    have hcall := h.calls j
    have hpc := hcommit j
    generalize s.calls j = call at hcall hpc ⊢
    cases hcall with
    | wrote => exact absurd rfl hpc
    | select | missing | found | kept | done => rfl
  by_contra hdone
  have hfree : ∀ write, ¬s.Blocked i write := by
    rintro write ⟨j, -, lock, -, hlock⟩
    rw [hlocks j] at hlock
    exact absurd hlock (by simp)
  obtain ⟨s', hs'⟩ := exists_step tenantId sourceId requests hdone (h.ne_failed i) hfree
  exact absurd (hs'.symm.trans (hstuck i)) (by simp)

/-! ## One call after another -/

/-- The calls of a list are done, and the others have not begun. -/
structure Idle (tenantId sourceId : String) (uuid : ℕ) (requests : Fin n → UpsertRequest)
    (past : List (Fin n)) (s : UpsertState n) : Prop where
  sound : s.Sound tenantId sourceId uuid requests
  done : ∀ i ∈ past, s.calls i = ⟨.done, none⟩
  fresh : ∀ i, i ∉ past → s.calls i = ⟨.select, none⟩

/-- Next to calls that are done or have not begun, one call is under way; the row is as it found
it. -/
structure Alone (tenantId sourceId : String) (uuid : ℕ) (requests : Fin n → UpsertRequest)
    (past : List (Fin n)) (i : Fin n) (v : Option IngestJob) (s : UpsertState n) : Prop where
  sound : s.Sound tenantId sourceId uuid requests
  new : i ∉ past
  done : ∀ j ∈ past, s.calls j = ⟨.done, none⟩
  fresh : ∀ j, j ≠ i → j ∉ past → s.calls j = ⟨.select, none⟩
  found : ∀ found, (s.calls i).pc = .flush found → s.row tenantId sourceId = found
  effect : ¬(requests i).Settled (s.calls i) ∧ s.row tenantId sourceId = v ∨
    (requests i).Settled (s.calls i) ∧
      s.row tenantId sourceId = (requests i).upserted tenantId sourceId uuid v

theorem Effect.calls_of_ne (h : Effect tenantId sourceId requests s i s') {j : Fin n}
    (hj : j ≠ i) : s'.calls j = s.calls j := by
  cases h <;> exact goTo_of_ne hj ..

theorem Effect.rank (h : Effect tenantId sourceId requests s i s') :
    (s'.calls i).pc.rank = (s.calls i).pc.rank + 1 := by
  have hself : ∀ pc pending, ((s.goTo i pc pending).calls i).pc = pc := fun pc pending ↦ by
    rw [goTo_self]
  cases h with
  | selected hpc => rw [hself, hpc]; rfl
  | kept hpc => rw [hself, hpc]; rfl
  | wrote hpc =>
    rw [hpc]
    exact congrArg UpsertPc.rank (hself _ _)
  | raised hpc => rw [hself, hpc]; rfl
  | committed hpc =>
    rw [hpc]
    exact congrArg UpsertPc.rank (hself _ _)

theorem Alone.step {past : List (Fin n)} {v : Option IngestJob}
    (h : s.Alone tenantId sourceId uuid requests past i v) (hrank : (s.calls i).pc.rank < 3) :
    ∃ s', s.step tenantId sourceId requests i = some s' ∧
      s'.Alone tenantId sourceId uuid requests past i v ∧
      (s'.calls i).pc.rank = (s.calls i).pc.rank + 1 := by
  -- The other calls are done or have not begun, so no lock is held.
  have hfree : ∀ write, ¬s.Blocked i write := by
    rintro write ⟨j, hj, lock, -, hlock⟩
    by_cases hmem : j ∈ past
    · rw [h.done j hmem] at hlock
      exact absurd hlock (by simp [UpsertCall.locks])
    · rw [h.fresh j hj hmem] at hlock
      exact absurd hlock (by simp [UpsertCall.locks])
  -- The row that was read is still there as it was: only this call has moved since.
  have hguard : s.Undisturbed tenantId sourceId requests i := by
    unfold Undisturbed
    split
    · rename_i hpc
      exact h.found _ hpc
    · rename_i loaded hpc
      refine Or.inr fun row hrow ↦ ?_
      obtain rfl := Option.some.inj ((h.found _ hpc).symm.trans hrow)
      exact (requests i).unmixed_self loaded
    · trivial
  have hdone : (s.calls i).pc ≠ .done := by
    intro hpc
    rw [hpc] at hrank
    exact absurd hrank (by decide)
  obtain ⟨s', hs'⟩ := exists_step tenantId sourceId requests hdone (h.sound.ne_failed i) hfree
  have heffect := effect_of_step hs'
  obtain ⟨hsound, htakes⟩ := heffect.sound h.sound hguard
  refine ⟨s', hs', ⟨hsound, h.new, fun j hj ↦ ?_, fun j hji hj ↦ ?_, fun found hpc ↦ ?_, ?_⟩,
    heffect.rank⟩
  · rw [heffect.calls_of_ne fun hji ↦ h.new (hji ▸ hj)]
    exact h.done j hj
  · rw [heffect.calls_of_ne hji]
    exact h.fresh j hji hj
  · have hself : ∀ pc pending, ((s.goTo i pc pending).calls i).pc = pc := fun pc pending ↦ by
      rw [goTo_self]
    cases heffect with
    | selected =>
      rw [hself] at hpc
      exact UpsertPc.flush.inj hpc
    | kept => cases (hself _ _).symm.trans hpc
    | wrote => cases (hself .commit _).symm.trans hpc
    | raised => cases (hself _ _).symm.trans hpc
    | committed => cases (hself .done none).symm.trans hpc
  · cases htakes with
    | stays hview hsettled =>
      rw [hview]
      exact h.effect.imp (fun he ↦ ⟨fun hs ↦ he.1 ((hsettled i).mp hs), he.2⟩)
        fun he ↦ ⟨(hsettled i).mpr he.1, he.2⟩
    | settles hi hview hsettled =>
      obtain ⟨-, hrow⟩ | ⟨hs, -⟩ := h.effect
      · exact Or.inr ⟨(hsettled i).mpr (Or.inl rfl), hrow ▸ hview⟩
      · exact absurd hs hi

theorem Idle.run_replicate {past : List (Fin n)} (h : s.Idle tenantId sourceId uuid requests past)
    (hi : i ∉ past) :
    let s' := run (UpsertState.step tenantId sourceId requests) s (List.replicate 3 i)
    s'.Idle tenantId sourceId uuid requests (past ++ [i]) ∧
      s'.row tenantId sourceId
        = (requests i).upserted tenantId sourceId uuid (s.row tenantId sourceId) := by
  have hcall := h.fresh i hi
  have halone : s.Alone tenantId sourceId uuid requests past i (s.row tenantId sourceId) := by
    refine ⟨h.sound, hi, h.done, fun j _ hj ↦ h.fresh j hj, fun found hpc ↦ ?_, Or.inl ⟨?_, rfl⟩⟩
    · rw [hcall] at hpc
      cases hpc
    · rw [hcall]
      exact id
  have hrank : (s.calls i).pc.rank = 0 := by
    rw [hcall]
    rfl
  -- A call takes three steps, and alone it gets through all of them.
  obtain ⟨hend, hthree⟩ := KnowledgeAlakazam.run_replicate
    (I := Alone tenantId sourceId uuid requests past i (s.row tenantId sourceId))
    (r := fun s ↦ (s.calls i).pc.rank) (k := 3) (fun s h hlt ↦ h.step hlt) (m := 3) halone
    (by rw [hrank])
  intro s'
  have hdone : s'.calls i = ⟨.done, none⟩ := by
    have hcall := hend.sound.calls i
    have hthree : (s'.calls i).pc.rank = 3 := by rw [hthree, hrank]
    change (requests i).Sound _ _ _ _ (s'.calls i) at hcall
    generalize s'.calls i = call at hcall hthree ⊢
    cases hcall with
    | done => rfl
    | select | missing | found | kept | wrote => cases hthree
  refine ⟨⟨hend.sound, fun j hj ↦ ?_, fun j hj ↦ ?_⟩, ?_⟩
  · rcases List.mem_append.mp hj with hj | hj
    · exact hend.done j hj
    · rw [List.mem_singleton.mp hj]
      exact hdone
  · rw [List.mem_append, List.mem_singleton, not_or] at hj
    exact hend.fresh j hj.2 hj.1
  · obtain ⟨hs, -⟩ | ⟨-, hrow⟩ := hend.effect
    · refine absurd ?_ hs
      change (requests i).Settled (s'.calls i)
      rw [hdone]
      trivial
    · exact hrow

theorem sound_initial (tenantId sourceId : String) (requests : Fin n → UpsertRequest)
    {jobs : IngestJobs} (hfresh : jobs.find uuid = none) :
    (initial jobs uuid : UpsertState n).Sound tenantId sourceId uuid requests :=
  ⟨fun _ ↦ .select, fun _ _ h ↦ absurd rfl h, fun _ ↦ ⟨hfresh, fun _ ↦ rfl⟩⟩

end UpsertState

/-- **Main result.** In every run in which no call disturbs another, no call raises, none waits
for ever, and when all are done there is one row for the key: the one that the calls leave when
they are executed one after another, in some order. -/
theorem upsertJob_upserted (tenantId sourceId : String) (requests : Fin n → UpsertRequest)
    (jobs : IngestJobs) (nextId : ℕ) (hfresh : jobs.find nextId = none) (labels : List (Fin n))
    (hguard : ∀ t ∈ trace (UpsertState.step tenantId sourceId requests) (.initial jobs nextId)
      labels, t.pre.Undisturbed tenantId sourceId requests t.label) :
    UpsertState.Upserted tenantId sourceId requests (.initial jobs nextId)
      (run (UpsertState.step tenantId sourceId requests) (.initial jobs nextId) labels) := by
  have hinitial := UpsertState.sound_initial tenantId sourceId requests hfresh
  obtain ⟨hsound, hlinear⟩ := linearized_run
    (fun s i s' h hguard hstep ↦ (UpsertState.effect_of_step hstep).sound h hguard) hinitial
    (fun i ↦ id) hguard
  have hsettled : ∀ (s : UpsertState n) (i : Fin n), (s.calls i).pc = .done →
      (requests i).Settled (s.calls i) := by
    intro s i hdone
    unfold UpsertRequest.Settled
    rw [hdone]
    trivial
  refine ⟨?_, fun hn hdone ↦ ?_⟩
  · refine hlinear.serializable (J := UpsertState.Idle tenantId sourceId nextId requests)
      hsound.ne_failed hsound.proceeds (hsettled _) ?_ (fun past i s h hi ↦ h.run_replicate hi)
      ⟨hinitial, fun i hi ↦ absurd hi (by simp), fun i _ ↦ rfl⟩
    intro past i s h hi
    rw [h.done i hi]
  · obtain ⟨job, hjob⟩ := Option.ne_none_iff_exists'.mp (hlinear.of_settled (P := (· ≠ none))
      (fun _ _ ↦ UpsertRequest.upserted_ne_none) (hsettled _ _ (hdone ⟨0, hn⟩)))
    exact ⟨job, Table.lookup_eq_some.mp hjob, fun other hother ↦
      Option.some.inj ((Table.lookup_eq_some.mpr hother).symm.trans hjob)⟩

end Steps

end KnowledgeAlakazam
