import KnowledgeAlakazam.Core.Lease
import KnowledgeAlakazam.Core.Transition
import KnowledgeAlakazam.Ingest.Queue
import KnowledgeAlakazam.Ingest.Repository

/-!
# The job table with its history

A `JobLog` is the job table, the clock, and for every job the history of what was done to it. The
table and the clock are what the program has; the histories are ghosts, written by each
transaction next to the row it changes and read by no transaction. They are histories of leased
tasks, so "how often was this job claimed since its last reset" and "who holds it" have one
answer for every row.

Each transaction of the API and of the workers is one function on `JobLog`, named after the method
it runs. The main result of the module is that every one of them keeps the log *coherent*: each
history is lawful for a leased task, and each row stores what its history says (`Agrees`). This is
the refinement of the abstract lease discipline by the two classes that share the table.
-/

namespace KnowledgeAlakazam

/-- Who acts on a job: an API call, or a worker. -/
inductive Actor where
  | call (c : ℕ)
  | worker (workerId : String)
deriving DecidableEq

/-- What the actor writes into `locked_by` while it holds a job. -/
def Actor.lock : Actor → String
  | call _ => IngestJobRepository.apiSync
  | worker workerId => workerId

abbrev JobHistory := LeaseHistory Actor ℚ

/-- The job table, the clock, and the histories of the jobs. -/
structure JobLog where
  jobs : IngestJobs
  clock : ℚ
  /-- Ghost: what was done to the job with an id, newest first. -/
  history : ℕ → JobHistory

namespace JobLog

def start (clock : ℚ) : JobLog := ⟨Table.empty, clock, fun _ ↦ []⟩

def record (s : JobLog) (i : ℕ) (e : LeaseEvent Actor ℚ) : JobLog :=
  { s with history := Function.update s.history i (e :: s.history i) }

/-- A row is updated and the event recorded. -/
def update (s : JobLog) (i : ℕ) (p : Patch IngestJob) (e : LeaseEvent Actor ℚ) : JobLog :=
  { s.record i e with jobs := s.jobs.modify i p }

/-! ## The transactions -/

def tick (s : JobLog) (seconds : ℚ) : Option JobLog :=
  if 0 ≤ seconds then some { s with clock := s.clock + seconds } else none

/-- `upsert_job(status="pending")`, issued by an API call. -/
def upsertPending (s : JobLog) (c : ℕ) (repo : IngestJobRepository) (uuid : ℕ)
    (tenantId sourceId rawBucket rawKey : String) : Option (JobLog × IngestJob) :=
  (repo.upsertJob uuid s.clock s.jobs tenantId sourceId rawBucket rawKey .pending none).map
    fun (jobs, job) ↦
      ({ s with jobs := jobs }.record job.id (.opened (.call c) repo.defaultMaxAttempts), job)

/-- `mark_processing`, issued by an API call. -/
def markProcessing (s : JobLog) (c : ℕ) (tenantId sourceId : String) :
    Except IngestJobNotFoundError (JobLog × IngestJob) :=
  (IngestJobRepository.markProcessing s.clock s.jobs tenantId sourceId).map fun (jobs, job) ↦
    ({ s with jobs := jobs }.record job.id (.seized (.call c) s.clock), job)

/-- `mark_succeeded`, issued by an API call. -/
def markSucceeded (s : JobLog) (c : ℕ) (tenantId sourceId : String) :
    Except IngestJobNotFoundError (JobLog × IngestJob) :=
  (IngestJobRepository.markSucceeded s.clock s.jobs tenantId sourceId).map fun (jobs, job) ↦
    ({ s with jobs := jobs }.record job.id (.closed (.call c)), job)

/-- `mark_failed`, issued by an API call. -/
def markFailed (s : JobLog) (c : ℕ) (tenantId sourceId error : String) :
    Except IngestJobNotFoundError (JobLog × IngestJob) :=
  (IngestJobRepository.markFailed s.clock s.jobs tenantId sourceId error).map fun (jobs, job) ↦
    ({ s with jobs := jobs }.record job.id (.closed (.call c)), job)

/-- Record what a poll did: the jobs it failed, then the job it claimed. -/
def recordClaim (s : JobLog) (queue : DatabaseIngestJobQueue) (outcome : ClaimOutcome) : JobLog :=
  let failed := outcome.exhausted.foldl
    (fun s job ↦ s.record job.id (.expired s.clock queue.leaseSeconds))
    { s with jobs := outcome.jobs }
  match outcome.ticket with
  | none => failed
  | some ticket =>
    failed.record ticket.id (.acquired (.worker queue.workerId) s.clock queue.leaseSeconds)

/-- `claim_next_pending`, run by a worker while other transactions hold some rows locked. -/
def claimNextPending (s : JobLog) (queue : DatabaseIngestJobQueue) (locked : List ℕ) :
    JobLog × Option ClaimedIngestJob :=
  let outcome := queue.claimNextPending s.clock locked s.jobs
  (s.recordClaim queue outcome, outcome.ticket)

/-- `heartbeat`, run by the holder of a ticket. -/
def heartbeat (s : JobLog) (claimed : ClaimedIngestJob) : Except QueueError JobLog :=
  (DatabaseIngestJobQueue.heartbeat s.clock s.jobs claimed).map fun jobs ↦
    { s with jobs := jobs }.record claimed.id (.renewed s.clock)

def holder (claimed : ClaimedIngestJob) : Actor := .worker (claimed.lockedBy.getD "")

/-- `mark_succeeded`, run by the holder of a ticket. -/
def workerSucceeded (s : JobLog) (claimed : ClaimedIngestJob) : Except QueueError JobLog :=
  (DatabaseIngestJobQueue.markSucceeded s.jobs claimed).map fun jobs ↦
    { s with jobs := jobs }.record claimed.id (.closed (holder claimed))

/-- `mark_failed`, run by the holder of a ticket. -/
def workerFailed (s : JobLog) (claimed : ClaimedIngestJob) (error : String) :
    Except QueueError JobLog :=
  (DatabaseIngestJobQueue.markFailed s.jobs claimed error).map fun jobs ↦
    { s with jobs := jobs }.record claimed.id (.closed (holder claimed))

/-! ## Reading a log after an update -/

@[simp] theorem clock_update (s : JobLog) (i : ℕ) (p : Patch IngestJob)
    (e : LeaseEvent Actor ℚ) : (s.update i p e).clock = s.clock := rfl

@[simp] theorem jobs_update (s : JobLog) (i : ℕ) (p : Patch IngestJob)
    (e : LeaseEvent Actor ℚ) : (s.update i p e).jobs = s.jobs.modify i p := rfl

theorem history_update (s : JobLog) (i j : ℕ) (p : Patch IngestJob) (e : LeaseEvent Actor ℚ) :
    (s.update i p e).history j = if j = i then e :: s.history i else s.history j :=
  Function.update_apply ..

@[simp] theorem history_update_self (s : JobLog) (i : ℕ) (p : Patch IngestJob)
    (e : LeaseEvent Actor ℚ) : (s.update i p e).history i = e :: s.history i := by
  rw [history_update, if_pos rfl]

theorem history_update_of_ne (s : JobLog) {i j : ℕ} (h : j ≠ i) (p : Patch IngestJob)
    (e : LeaseEvent Actor ℚ) : (s.update i p e).history j = s.history j := by
  rw [history_update, if_neg h]

/-! ## What the transactions do

One lemma a transaction: it either adds a row, or is an update of one row. A poll is a chain of
updates, and has a rule instead. -/

section Cases

variable {s s' : JobLog} {c : ℕ} {repo : IngestJobRepository} {uuid : ℕ}
  {tenantId sourceId rawBucket rawKey error : String} {job : IngestJob}
  {claimed : ClaimedIngestJob}

theorem tick_eq_some {seconds : ℚ} (h : s.tick seconds = some s') :
    0 ≤ seconds ∧ s'.jobs = s.jobs ∧ s'.history = s.history := by
  rw [tick] at h
  split at h
  · rename_i hpos
    rw [← Option.some.inj h]
    exact ⟨hpos, rfl, rfl⟩
  · exact absurd h (by simp)

theorem upsertPending_cases
    (h : s.upsertPending c repo uuid tenantId sourceId rawBucket rawKey = some (s', job)) :
    (s.jobs.lookup (tenantId, sourceId) = none ∧
      job = repo.assignStatus .pending none
        (IngestJobRepository.newJob uuid s.clock tenantId sourceId rawBucket rawKey) ∧
      ∃ jobs', s.jobs.insert job = some jobs' ∧
        s' = { s with jobs := jobs' }.record job.id
          (.opened (.call c) repo.defaultMaxAttempts)) ∨
    ∃ old, s.jobs.lookup (tenantId, sourceId) = some old ∧
      job = (repo.upsertPatch rawBucket rawKey .pending none).app old ∧
      s' = s.update old.id (repo.upsertPatch rawBucket rawKey .pending none)
        (.opened (.call c) repo.defaultMaxAttempts) := by
  rw [upsertPending] at h
  obtain ⟨⟨jobs', job'⟩, hup, heq⟩ := Option.map_eq_some_iff.mp h
  obtain ⟨rfl, rfl⟩ := Prod.mk.inj heq
  rcases IngestJobRepository.upsertJob_cases hup with ⟨hl, hjob, hins⟩ | ⟨old, hl, hjob, hjobs⟩
  · exact Or.inl ⟨hl, hjob, jobs', hins, rfl⟩
  · refine Or.inr ⟨old, hl, hjob, ?_⟩
    rw [hjob, hjobs]
    rfl

theorem clock_upsertPending
    (h : s.upsertPending c repo uuid tenantId sourceId rawBucket rawKey = some (s', job)) :
    s'.clock = s.clock := by
  rcases upsertPending_cases h with ⟨-, -, jobs', -, rfl⟩ | ⟨old, -, -, rfl⟩
  · rfl
  · rfl

/-- The rows after a submission, whether it inserted or updated. -/
theorem find_upsertPending
    (h : s.upsertPending c repo uuid tenantId sourceId rawBucket rawKey = some (s', job))
    (j : ℕ) : s'.jobs.find j = if j = job.id then some job else s.jobs.find j := by
  rcases upsertPending_cases h with ⟨-, -, jobs', hins, rfl⟩ | ⟨old, hl, hjob, rfl⟩
  · rw [record, Table.find_insert hins, IngestJob.primary_eq]
    simp only [eq_comm]
  · have hid : job.id = old.id := by rw [hjob]; exact Patch.primary_app _ old
    rw [jobs_update, Table.find_modify, hid]
    split
    · rename_i hj
      have hf : s.jobs.find j = some old := hj ▸ Table.find_of_lookup hl
      rw [hf, Option.map_some, hjob]
    · rfl

theorem history_upsertPending
    (h : s.upsertPending c repo uuid tenantId sourceId rawBucket rawKey = some (s', job))
    (j : ℕ) : s'.history j = if j = job.id
      then .opened (.call c) repo.defaultMaxAttempts :: s.history j else s.history j := by
  rcases upsertPending_cases h with ⟨-, -, jobs', -, rfl⟩ | ⟨old, -, hjob, rfl⟩
  · rw [record]
    dsimp only
    rw [Function.update_apply]
    split
    · rename_i hj; rw [hj]
    · rfl
  · have hid : job.id = old.id := by rw [hjob]; exact Patch.primary_app _ old
    rw [history_update, hid]
    split
    · rename_i hj; rw [hj]
    · rfl

/-- The row a submission leaves behind. -/
structure Submitted (repo : IngestJobRepository) (tenantId sourceId rawBucket rawKey : String)
    (job : IngestJob) : Prop where
  tenantId : job.tenantId = tenantId
  sourceId : job.sourceId = sourceId
  rawBucket : job.rawBucket = rawBucket
  rawKey : job.rawKey = rawKey
  status : job.status = .pending
  attemptCount : job.attemptCount = 0
  maxAttempts : job.maxAttempts = repo.defaultMaxAttempts
  lockedBy : job.lockedBy = none

theorem submitted_upsertPending
    (h : s.upsertPending c repo uuid tenantId sourceId rawBucket rawKey = some (s', job)) :
    Submitted repo tenantId sourceId rawBucket rawKey job := by
  rcases upsertPending_cases h with ⟨-, rfl, -⟩ | ⟨old, hl, rfl, -⟩
  · exact ⟨rfl, rfl, rfl, rfl, rfl, rfl, rfl, rfl⟩
  · obtain ⟨htenant, hsource⟩ := Prod.mk.inj (Table.unique_of_lookup hl)
    exact ⟨htenant, hsource, rfl, rfl, rfl, rfl, rfl, rfl⟩

private theorem of_map_ok {ε α β : Type} {x : Except ε α} {f : α → β} {b : β}
    (h : x.map f = .ok b) : ∃ a, x = .ok a ∧ b = f a := by
  cases x with
  | error e => exact absurd h (by simp [Except.map])
  | ok a => exact ⟨a, rfl, (Except.ok.inj h).symm⟩

theorem markProcessing_ok (h : s.markProcessing c tenantId sourceId = .ok (s', job)) :
    ∃ old, s.jobs.lookup (tenantId, sourceId) = some old ∧
      job = (IngestJobRepository.statusPatch s.clock .processing none).app old ∧
      s' = s.update old.id (IngestJobRepository.statusPatch s.clock .processing none)
        (.seized (.call c) s.clock) := by
  obtain ⟨⟨jobs', job'⟩, hup, heq⟩ := of_map_ok h
  obtain ⟨rfl, rfl⟩ := Prod.mk.inj heq
  obtain ⟨old, hl, rfl, rfl⟩ := IngestJobRepository.updateStatus_ok hup
  exact ⟨old, hl, rfl, rfl⟩

theorem markProcessing_error {e : IngestJobNotFoundError}
    (h : s.markProcessing c tenantId sourceId = .error e) :
    s.jobs.lookup (tenantId, sourceId) = none := by
  rw [markProcessing, IngestJobRepository.markProcessing, IngestJobRepository.updateStatus] at h
  cases hl : s.jobs.lookup (tenantId, sourceId) with
  | none => rfl
  | some job => rw [hl] at h; cases h

theorem markSucceeded_ok (h : s.markSucceeded c tenantId sourceId = .ok (s', job)) :
    ∃ old, s.jobs.lookup (tenantId, sourceId) = some old ∧
      job = (IngestJobRepository.statusPatch s.clock .succeeded none).app old ∧
      s' = s.update old.id (IngestJobRepository.statusPatch s.clock .succeeded none)
        (.closed (.call c)) := by
  obtain ⟨⟨jobs', job'⟩, hup, heq⟩ := of_map_ok h
  obtain ⟨rfl, rfl⟩ := Prod.mk.inj heq
  obtain ⟨old, hl, rfl, rfl⟩ := IngestJobRepository.updateStatus_ok hup
  exact ⟨old, hl, rfl, rfl⟩

theorem markFailed_ok (h : s.markFailed c tenantId sourceId error = .ok (s', job)) :
    ∃ old, s.jobs.lookup (tenantId, sourceId) = some old ∧
      job = (IngestJobRepository.statusPatch s.clock .failed (some error)).app old ∧
      s' = s.update old.id (IngestJobRepository.statusPatch s.clock .failed (some error))
        (.closed (.call c)) := by
  obtain ⟨⟨jobs', job'⟩, hup, heq⟩ := of_map_ok h
  obtain ⟨rfl, rfl⟩ := Prod.mk.inj heq
  obtain ⟨old, hl, rfl, rfl⟩ := IngestJobRepository.updateStatus_ok hup
  exact ⟨old, hl, rfl, rfl⟩

theorem markFailed_of_lookup (c : ℕ) (error : String)
    (h : s.jobs.lookup (tenantId, sourceId) = some job) :
    s.markFailed c tenantId sourceId error
      = .ok (s.update job.id (IngestJobRepository.statusPatch s.clock .failed (some error))
          (.closed (.call c)),
        (IngestJobRepository.statusPatch s.clock .failed (some error)).app job) := by
  unfold markFailed IngestJobRepository.markFailed IngestJobRepository.updateStatus
  rw [h]
  rfl

theorem heartbeat_ok (h : s.heartbeat claimed = .ok s') :
    ∃ old, s.jobs.find claimed.id = some old ∧ old.status = .processing ∧
      old.lockedBy = claimed.lockedBy ∧
      s' = s.update claimed.id (DatabaseIngestJobQueue.heartbeatPatch s.clock)
        (.renewed s.clock) := by
  obtain ⟨jobs', hup, rfl⟩ := of_map_ok h
  obtain ⟨old, hf, hst, hlock, rfl⟩ := DatabaseIngestJobQueue.heartbeat_ok hup
  exact ⟨old, hf, hst, hlock, rfl⟩

theorem workerSucceeded_ok (h : s.workerSucceeded claimed = .ok s') :
    ∃ old, s.jobs.find claimed.id = some old ∧ old.status = .processing ∧
      old.lockedBy = claimed.lockedBy ∧
      s' = s.update claimed.id (DatabaseIngestJobQueue.statusPatch .succeeded none)
        (.closed (holder claimed)) := by
  obtain ⟨jobs', hup, rfl⟩ := of_map_ok h
  obtain ⟨old, hf, hst, hlock, rfl⟩ := DatabaseIngestJobQueue.updateStatus_ok hup
  exact ⟨old, hf, hst, hlock, rfl⟩

theorem workerFailed_ok (h : s.workerFailed claimed error = .ok s') :
    ∃ old, s.jobs.find claimed.id = some old ∧ old.status = .processing ∧
      old.lockedBy = claimed.lockedBy ∧
      s' = s.update claimed.id (DatabaseIngestJobQueue.statusPatch .failed (some error))
        (.closed (holder claimed)) := by
  obtain ⟨jobs', hup, rfl⟩ := of_map_ok h
  obtain ⟨old, hf, hst, hlock, rfl⟩ := DatabaseIngestJobQueue.updateStatus_ok hup
  exact ⟨old, hf, hst, hlock, rfl⟩

end Cases

/-- **The rule for polls of a log.** A relation between the log before and after a poll and the
ticket it returns holds if it holds of a poll that finds nothing, of a poll that claims the first
row it finds, and of a poll that first fails an exhausted row if it holds of the rest of it. -/
theorem claimNextPending_rule (queue : DatabaseIngestJobQueue) (locked : List ℕ)
    {P : JobLog → JobLog → Option ClaimedIngestJob → Prop}
    (hnone : ∀ s, P s s none)
    (hclaim : ∀ s job,
      pendingJobClaimStatement s.clock (s.clock - queue.leaseSeconds) locked s.jobs = some job →
      jobAttemptsExhausted job = false →
      P s (s.update job.id (claimJobForWorker s.clock queue.workerId)
          (.acquired (.worker queue.workerId) s.clock queue.leaseSeconds))
        (some (.fromModel ((claimJobForWorker s.clock queue.workerId).app job))))
    (hexpired : ∀ s job s' ticket,
      pendingJobClaimStatement s.clock (s.clock - queue.leaseSeconds) locked s.jobs = some job →
      jobAttemptsExhausted job = true →
      P (s.update job.id markJobFailedAfterExhaustedAttempts
        (.expired s.clock queue.leaseSeconds)) s' ticket →
      P s s' ticket)
    (s : JobLog) :
    P s (s.claimNextPending queue locked).1 (s.claimNextPending queue locked).2 := by
  have hrule := DatabaseIngestJobQueue.claimNextPending_rule queue s.clock locked
    (P := fun jobs outcome ↦ ∀ s₀ : JobLog, s₀.clock = s.clock → s₀.jobs = jobs →
      P s₀ (s₀.recordClaim queue outcome) outcome.ticket)
    (fun jobs _ s₀ _ hjobs ↦ hjobs ▸ hnone s₀)
    (fun jobs job hsel hex s₀ hclock hjobs ↦ by
      obtain ⟨jobs₀, clock₀, history₀⟩ := s₀
      subst hclock hjobs
      exact hclaim _ job hsel hex)
    (fun jobs job outcome hsel hex ih s₀ hclock hjobs ↦ by
      obtain ⟨jobs₀, clock₀, history₀⟩ := s₀
      subst hclock hjobs
      exact hexpired _ job _ _ hsel hex (ih _ rfl rfl))
    s.jobs
  exact hrule s rfl rfl

private theorem jobs_foldl_expired (s : JobLog) (lease : ℚ) (exhausted : List IngestJob) :
    (exhausted.foldl (fun s job ↦ s.record job.id (.expired s.clock lease)) s).jobs = s.jobs ∧
      (exhausted.foldl (fun s job ↦ s.record job.id (.expired s.clock lease)) s).clock
        = s.clock := by
  induction exhausted generalizing s with
  | nil => exact ⟨rfl, rfl⟩
  | cons job exhausted ih => exact ih (s.record job.id (.expired s.clock lease))

theorem jobs_claimNextPending (s : JobLog) (queue : DatabaseIngestJobQueue) (locked : List ℕ) :
    (s.claimNextPending queue locked).1.jobs =
      (queue.claimNextPending s.clock locked s.jobs).jobs := by
  rw [claimNextPending, recordClaim]
  split
  · exact (jobs_foldl_expired _ _ _).1
  · exact (jobs_foldl_expired _ _ _).1

theorem clock_claimNextPending (s : JobLog) (queue : DatabaseIngestJobQueue)
    (locked : List ℕ) : (s.claimNextPending queue locked).1.clock = s.clock := by
  rw [claimNextPending, recordClaim]
  split
  · exact (jobs_foldl_expired _ _ _).2
  · exact (jobs_foldl_expired _ _ _).2

private theorem history_foldl_expired (s : JobLog) (lease : ℚ) {exhausted : List IngestJob} {i : ℕ}
    (h : ∀ job ∈ exhausted, job.id ≠ i) :
    (exhausted.foldl (fun s job ↦ s.record job.id (.expired s.clock lease)) s).history i
      = s.history i := by
  induction exhausted generalizing s with
  | nil => rfl
  | cons job exhausted ih =>
    rw [List.foldl_cons, ih _ fun other hother ↦ h other (List.mem_cons_of_mem _ hother)]
    exact Function.update_of_ne (h job List.mem_cons_self).symm _ _

/-- A poll leaves the history of a job alone that it neither claims nor fails. -/
theorem history_claimNextPending (s : JobLog) (queue : DatabaseIngestJobQueue)
    (locked : List ℕ) {i : ℕ}
    (hexhausted : ∀ job ∈ (queue.claimNextPending s.clock locked s.jobs).exhausted, job.id ≠ i)
    (hticket : ∀ ticket ∈ (queue.claimNextPending s.clock locked s.jobs).ticket, ticket.id ≠ i) :
    (s.claimNextPending queue locked).1.history i = s.history i := by
  rw [claimNextPending, recordClaim]
  split
  · exact history_foldl_expired _ queue.leaseSeconds hexhausted
  · rename_i ticket hsome
    have hne : i ≠ ticket.id := (hticket ticket hsome).symm
    rw [record]
    dsimp only
    rw [Function.update_of_ne hne]
    exact history_foldl_expired _ queue.leaseSeconds hexhausted

/-! ## Histories only grow -/

/-- Every history is continued. -/
def Grows (s s' : JobLog) : Prop := ∀ i, ∃ newer, s'.history i = newer ++ s.history i

theorem Grows.refl (s : JobLog) : Grows s s := fun _ ↦ ⟨[], rfl⟩

theorem Grows.trans {s s' s'' : JobLog} (h : Grows s s') (h' : Grows s' s'') : Grows s s'' := by
  intro i
  obtain ⟨newer, hnewer⟩ := h i
  obtain ⟨newest, hnewest⟩ := h' i
  exact ⟨newest ++ newer, by rw [hnewest, hnewer, List.append_assoc]⟩

theorem grows_update (s : JobLog) (i : ℕ) (p : Patch IngestJob) (e : LeaseEvent Actor ℚ) :
    Grows s (s.update i p e) := by
  intro j
  rw [history_update]
  split
  · rename_i hj; exact ⟨[e], by rw [hj]; rfl⟩
  · exact ⟨[], rfl⟩

theorem grows_tick {s s' : JobLog} {seconds : ℚ} (h : s.tick seconds = some s') :
    Grows s s' := by
  intro j
  rw [(tick_eq_some h).2.2]
  exact ⟨[], rfl⟩

theorem grows_upsertPending {s s' : JobLog} {c : ℕ} {repo : IngestJobRepository} {uuid : ℕ}
    {tenantId sourceId rawBucket rawKey : String} {job : IngestJob}
    (h : s.upsertPending c repo uuid tenantId sourceId rawBucket rawKey = some (s', job)) :
    Grows s s' := by
  intro j
  rw [history_upsertPending h]
  split
  · exact ⟨[_], rfl⟩
  · exact ⟨[], rfl⟩

theorem grows_claimNextPending (s : JobLog) (queue : DatabaseIngestJobQueue)
    (locked : List ℕ) : Grows s (s.claimNextPending queue locked).1 :=
  claimNextPending_rule queue locked (P := fun s s' _ ↦ Grows s s') Grows.refl
    (fun s _ _ _ ↦ grows_update s _ _ _)
    (fun s _ _ _ _ _ ih ↦ Grows.trans (grows_update s _ _ _) ih) s

/-! ## Who took a job last

Only a poll takes jobs, and it takes the job its ticket names. -/

/-- Between two logs nobody took the job. -/
def Untaken (s s' : JobLog) (i : ℕ) : Prop :=
  (s'.history i).tenure = (s.history i).tenure ∧ (s'.history i).taker = (s.history i).taker

theorem Untaken.refl (s : JobLog) (i : ℕ) : Untaken s s i := ⟨rfl, rfl⟩

theorem Untaken.trans {s s' s'' : JobLog} {i : ℕ} (h : Untaken s s' i) (h' : Untaken s' s'' i) :
    Untaken s s'' i :=
  ⟨h'.1.trans h.1, h'.2.trans h.2⟩

theorem Untaken.stands {s s' : JobLog} {i n : ℕ} {who : Actor} (h : Untaken s s' i)
    (hs : (s.history i).Stands who n) : (s'.history i).Stands who n :=
  ⟨by rw [h.1]; exact hs.le, by rw [h.1, h.2]; exact hs.eq_of_taker⟩

theorem untaken_record (s : JobLog) (i j : ℕ) {e : LeaseEvent Actor ℚ} (he : ¬ e.Takes) :
    Untaken s (s.record i e) j := by
  by_cases hji : j = i
  · subst hji
    rw [Untaken, record]
    dsimp only
    rw [Function.update_self]
    exact ⟨LeaseHistory.tenure_cons_of_not_takes he _, LeaseHistory.taker_cons_of_not_takes he _⟩
  · rw [Untaken, record]
    dsimp only
    rw [Function.update_of_ne hji]
    exact ⟨rfl, rfl⟩

theorem untaken_update (s : JobLog) (i j : ℕ) (p : Patch IngestJob) {e : LeaseEvent Actor ℚ}
    (he : ¬ e.Takes) : Untaken s (s.update i p e) j :=
  untaken_record s i j he

theorem untaken_tick {s s' : JobLog} {seconds : ℚ} (h : s.tick seconds = some s') (j : ℕ) :
    Untaken s s' j := by
  rw [Untaken, (tick_eq_some h).2.2]
  exact ⟨rfl, rfl⟩

theorem untaken_upsertPending {s s' : JobLog} {c : ℕ} {repo : IngestJobRepository} {uuid : ℕ}
    {tenantId sourceId rawBucket rawKey : String} {job : IngestJob}
    (h : s.upsertPending c repo uuid tenantId sourceId rawBucket rawKey = some (s', job))
    (j : ℕ) : Untaken s s' j := by
  rw [Untaken, history_upsertPending h]
  split <;> exact ⟨rfl, rfl⟩

theorem untaken_markSucceeded {s s' : JobLog} {c : ℕ} {tenantId sourceId : String}
    {job : IngestJob} (h : s.markSucceeded c tenantId sourceId = .ok (s', job)) (j : ℕ) :
    Untaken s s' j := by
  obtain ⟨old, -, -, rfl⟩ := markSucceeded_ok h
  exact untaken_update s old.id j _ fun h ↦ h

theorem untaken_markFailed {s s' : JobLog} {c : ℕ} {tenantId sourceId error : String}
    {job : IngestJob} (h : s.markFailed c tenantId sourceId error = .ok (s', job)) (j : ℕ) :
    Untaken s s' j := by
  obtain ⟨old, -, -, rfl⟩ := markFailed_ok h
  exact untaken_update s old.id j _ fun h ↦ h

theorem untaken_heartbeat {s s' : JobLog} {claimed : ClaimedIngestJob}
    (h : s.heartbeat claimed = .ok s') (j : ℕ) : Untaken s s' j := by
  obtain ⟨old, -, -, -, rfl⟩ := heartbeat_ok h
  exact untaken_update s claimed.id j _ fun h ↦ h

theorem untaken_workerSucceeded {s s' : JobLog} {claimed : ClaimedIngestJob}
    (h : s.workerSucceeded claimed = .ok s') (j : ℕ) : Untaken s s' j := by
  obtain ⟨old, -, -, -, rfl⟩ := workerSucceeded_ok h
  exact untaken_update s claimed.id j _ fun h ↦ h

theorem untaken_workerFailed {s s' : JobLog} {claimed : ClaimedIngestJob} {error : String}
    (h : s.workerFailed claimed error = .ok s') (j : ℕ) : Untaken s s' j := by
  obtain ⟨old, -, -, -, rfl⟩ := workerFailed_ok h
  exact untaken_update s claimed.id j _ fun h ↦ h

theorem stands_markProcessing {s s' : JobLog} {c : ℕ} {tenantId sourceId workerId : String}
    {job : IngestJob} (h : s.markProcessing c tenantId sourceId = .ok (s', job)) {i n : ℕ}
    (hs : (s.history i).Stands (.worker workerId) n) :
    (s'.history i).Stands (.worker workerId) n := by
  obtain ⟨old, -, -, rfl⟩ := markProcessing_ok h
  rw [history_update]
  split
  · rename_i hi
    subst hi
    exact ⟨Nat.le_succ_of_le hs.le, fun h ↦ nomatch h⟩
  · exact hs

theorem taken_of_claimNextPending (s : JobLog) (queue : DatabaseIngestJobQueue)
    (locked : List ℕ) (j : ℕ) :
    if (s.claimNextPending queue locked).2.map (·.id) = some j then
      ((s.claimNextPending queue locked).1.history j).tenure = (s.history j).tenure + 1 ∧
      ((s.claimNextPending queue locked).1.history j).taker = some (.worker queue.workerId)
    else Untaken s (s.claimNextPending queue locked).1 j := by
  refine claimNextPending_rule queue locked
    (P := fun s s' ticket ↦ if ticket.map (·.id) = some j then
      (s'.history j).tenure = (s.history j).tenure + 1 ∧
        (s'.history j).taker = some (.worker queue.workerId) else Untaken s s' j)
    (fun s ↦ ?_) (fun s job _ _ ↦ ?_) (fun s job s' ticket _ _ ih ↦ ?_) s
  · rw [if_neg (by simp)]
    exact Untaken.refl s j
  · split
    · rename_i hj
      obtain rfl : job.id = j := Option.some.inj hj
      rw [history_update_self]
      exact ⟨rfl, rfl⟩
    · rename_i hj
      have hne : j ≠ job.id := fun h ↦ hj (congrArg some h.symm)
      rw [Untaken, history_update_of_ne s hne]
      exact ⟨rfl, rfl⟩
  · have hun : Untaken s (s.update job.id markJobFailedAfterExhaustedAttempts
        (.expired s.clock queue.leaseSeconds)) j := untaken_update _ _ j _ fun h ↦ h
    split
    · rename_i hj
      rw [if_pos hj] at ih
      exact ⟨by rw [ih.1, hun.1], ih.2⟩
    · rename_i hj
      rw [if_neg hj] at ih
      exact hun.trans ih

theorem untaken_claimNextPending {s : JobLog} {queue : DatabaseIngestJobQueue}
    {locked : List ℕ} {j : ℕ}
    (h : ∀ ticket, (s.claimNextPending queue locked).2 = some ticket → ticket.id ≠ j) :
    Untaken s (s.claimNextPending queue locked).1 j := by
  have htaken := taken_of_claimNextPending s queue locked j
  rwa [if_neg] at htaken
  intro hj
  obtain ⟨ticket, hticket, hid⟩ := Option.map_eq_some_iff.mp hj
  exact h ticket hticket hid

theorem stands_claimNextPending {s : JobLog} {queue : DatabaseIngestJobQueue}
    {locked : List ℕ} {i n : ℕ} {who : Actor} (hs : (s.history i).Stands who n)
    (hne : who ≠ .worker queue.workerId) :
    ((s.claimNextPending queue locked).1.history i).Stands who n := by
  have htaken := taken_of_claimNextPending s queue locked i
  split at htaken
  · exact ⟨by rw [htaken.1]; exact Nat.le_succ_of_le hs.le,
      fun h ↦ absurd (Option.some.inj (h.symm.trans htaken.2)) hne⟩
  · exact htaken.stands hs

/-- What a ticket says about the row it was issued for. -/
theorem find_of_claimNextPending {s : JobLog} {queue : DatabaseIngestJobQueue}
    {locked : List ℕ} {ticket : ClaimedIngestJob}
    (h : (s.claimNextPending queue locked).2 = some ticket) :
    ∃ job, (s.claimNextPending queue locked).1.jobs.find ticket.id = some job ∧
      ticket = .fromModel job ∧ job.status = .processing ∧
      job.lockedBy = some queue.workerId := by
  refine claimNextPending_rule queue locked
    (P := fun _ s' result ↦ result = some ticket → ∃ job, s'.jobs.find ticket.id = some job ∧
      ticket = .fromModel job ∧ job.status = .processing ∧ job.lockedBy = some queue.workerId)
    (fun _ h ↦ absurd h (by simp)) (fun s job hsel _ h ↦ ?_) (fun _ _ _ _ _ _ ih ↦ ih) s h
  have hf : s.jobs.find job.id = some job :=
    Table.find_primary (mem_of_pendingJobClaimStatement hsel).1
  rw [← Option.some.inj h]
  exact ⟨_, Table.find_modify_self hf _, rfl, rfl, rfl⟩

/-! ## Whose document a job is

Only a submission says what a job is about, and who it was opened by. -/

/-- The columns that name the document of a job. -/
def document (job : IngestJob) : String × String × String × String :=
  (job.tenantId, job.sourceId, job.rawBucket, job.rawKey)

/-- Between two logs nobody submitted anything. -/
def Unopened (s s' : JobLog) : Prop :=
  ∀ j, (s'.history j).opener = (s.history j).opener ∧
    (s'.jobs.find j).map document = (s.jobs.find j).map document

theorem Unopened.trans {s s' s'' : JobLog} (h : Unopened s s') (h' : Unopened s' s'') :
    Unopened s s'' :=
  fun j ↦ ⟨(h' j).1.trans (h j).1, (h' j).2.trans (h j).2⟩

theorem Unopened.find {s s' : JobLog} (h : Unopened s s') {j : ℕ} {job' : IngestJob}
    (hf : s'.jobs.find j = some job') :
    ∃ job, s.jobs.find j = some job ∧ document job = document job' := by
  have hj := (h j).2
  rw [hf, Option.map_some] at hj
  exact Option.map_eq_some_iff.mp hj.symm

theorem Unopened.find' {s s' : JobLog} (h : Unopened s s') {j : ℕ} {job : IngestJob}
    (hf : s.jobs.find j = some job) :
    ∃ job', s'.jobs.find j = some job' ∧ document job' = document job := by
  have hj := (h j).2
  rw [hf, Option.map_some] at hj
  exact Option.map_eq_some_iff.mp hj

theorem unopened_update (s : JobLog) (i : ℕ) {p : Patch IngestJob} {e : LeaseEvent Actor ℚ}
    (hp : ∀ job, document (p.app job) = document job) (he : ¬ e.Opens) :
    Unopened s (s.update i p e) := by
  intro j
  by_cases hji : j = i
  · subst hji
    rw [history_update_self, jobs_update, Table.find_modify, if_pos rfl, Option.map_map]
    refine ⟨?_, by rw [show document ∘ p.app = document from funext hp]⟩
    cases e with
    | opened who b => exact absurd trivial he
    | acquired who t l => rfl
    | seized who t => rfl
    | renewed t => rfl
    | expired t l => rfl
    | closed who => rfl
  · rw [history_update_of_ne s hji, jobs_update, Table.find_modify_of_ne hji]
    exact ⟨rfl, rfl⟩

theorem unopened_tick {s s' : JobLog} {seconds : ℚ} (h : s.tick seconds = some s') :
    Unopened s s' := by
  obtain ⟨-, hjobs, hhistory⟩ := tick_eq_some h
  intro j
  rw [hjobs, hhistory]
  exact ⟨rfl, rfl⟩

theorem unopened_markProcessing {s s' : JobLog} {c : ℕ} {tenantId sourceId : String}
    {job : IngestJob} (h : s.markProcessing c tenantId sourceId = .ok (s', job)) :
    Unopened s s' := by
  obtain ⟨old, -, -, rfl⟩ := markProcessing_ok h
  exact unopened_update s old.id (fun _ ↦ rfl) fun h ↦ h

theorem unopened_markSucceeded {s s' : JobLog} {c : ℕ} {tenantId sourceId : String}
    {job : IngestJob} (h : s.markSucceeded c tenantId sourceId = .ok (s', job)) :
    Unopened s s' := by
  obtain ⟨old, -, -, rfl⟩ := markSucceeded_ok h
  exact unopened_update s old.id (fun _ ↦ rfl) fun h ↦ h

theorem unopened_markFailed {s s' : JobLog} {c : ℕ} {tenantId sourceId error : String}
    {job : IngestJob} (h : s.markFailed c tenantId sourceId error = .ok (s', job)) :
    Unopened s s' := by
  obtain ⟨old, -, -, rfl⟩ := markFailed_ok h
  exact unopened_update s old.id (fun _ ↦ rfl) fun h ↦ h

theorem unopened_heartbeat {s s' : JobLog} {claimed : ClaimedIngestJob}
    (h : s.heartbeat claimed = .ok s') : Unopened s s' := by
  obtain ⟨old, -, -, -, rfl⟩ := heartbeat_ok h
  exact unopened_update s claimed.id (fun _ ↦ rfl) fun h ↦ h

theorem unopened_workerSucceeded {s s' : JobLog} {claimed : ClaimedIngestJob}
    (h : s.workerSucceeded claimed = .ok s') : Unopened s s' := by
  obtain ⟨old, -, -, -, rfl⟩ := workerSucceeded_ok h
  exact unopened_update s claimed.id (fun _ ↦ rfl) fun h ↦ h

theorem unopened_workerFailed {s s' : JobLog} {claimed : ClaimedIngestJob} {error : String}
    (h : s.workerFailed claimed error = .ok s') : Unopened s s' := by
  obtain ⟨old, -, -, -, rfl⟩ := workerFailed_ok h
  exact unopened_update s claimed.id (fun _ ↦ rfl) fun h ↦ h

theorem unopened_claimNextPending (s : JobLog) (queue : DatabaseIngestJobQueue)
    (locked : List ℕ) : Unopened s (s.claimNextPending queue locked).1 :=
  claimNextPending_rule queue locked (P := fun s s' _ ↦ Unopened s s')
    (fun _ _ ↦ ⟨rfl, rfl⟩)
    (fun s job _ _ ↦ unopened_update s job.id (fun _ ↦ rfl) fun h ↦ h)
    (fun s job _ _ _ _ ih ↦ by
      refine Unopened.trans ?_ ih
      exact unopened_update s job.id (fun _ ↦ rfl) fun h ↦ h) s

theorem document_of_claimNextPending {s : JobLog} {queue : DatabaseIngestJobQueue}
    {locked : List ℕ} {ticket : ClaimedIngestJob}
    (h : (s.claimNextPending queue locked).2 = some ticket) :
    ∃ job, s.jobs.find ticket.id = some job ∧
      document job = (ticket.tenantId, ticket.sourceId, ticket.rawBucket, ticket.rawKey) := by
  obtain ⟨job', hf, heq, -, -⟩ := find_of_claimNextPending h
  obtain ⟨job, hjob, hdoc⟩ := (unopened_claimNextPending s queue locked).find hf
  exact ⟨job, hjob, by rw [hdoc, heq]; rfl⟩

end JobLog

/-! ## Coherence -/

def Stored (job : IngestJob) : LeasePhase Actor ℚ → Prop
  | .absent => False
  | .waiting => job.status = .pending
  | .held who beat =>
    job.status = .processing ∧ job.heartbeatAt = some beat ∧ job.lockedBy = some who.lock
  | .closed => job.status.Terminal

/-- The row stores what the history says. -/
structure Agrees (job : IngestJob) (h : JobHistory) : Prop where
  attempts : job.attemptCount = h.attempts
  budget : job.maxAttempts = h.budget
  phase : Stored job h.phase

namespace Agrees

variable {job : IngestJob} {h : JobHistory}

theorem ne_nil (ha : Agrees job h) : h ≠ [] := by
  rintro rfl
  exact ha.phase

theorem waiting_of_pending (ha : Agrees job h) (hs : job.status = .pending) :
    h.phase = .waiting := by
  have hp := ha.phase
  cases hc : h.phase with
  | absent => rw [hc] at hp; exact hp.elim
  | waiting => rfl
  | held who beat => rw [hc] at hp; exact absurd (hs.symm.trans hp.1) (by decide)
  | closed => rw [hc, Stored, hs] at hp; exact absurd hp (by decide)

theorem held_of_processing (ha : Agrees job h) (hs : job.status = .processing) :
    ∃ who beat, h.phase = .held who beat ∧ job.heartbeatAt = some beat ∧
      job.lockedBy = some who.lock := by
  have hp := ha.phase
  cases hc : h.phase with
  | absent => rw [hc] at hp; exact hp.elim
  | waiting => rw [hc] at hp; exact absurd (hs.symm.trans hp) (by decide)
  | held who beat => rw [hc] at hp; exact ⟨who, beat, rfl, hp.2⟩
  | closed => rw [hc, Stored, hs] at hp; exact absurd hp (by decide)

end Agrees

/-- Every history is lawful, and every row stores what its history says. -/
structure Coherent (s : JobLog) : Prop where
  lawful : ∀ i, (s.history i).Lawful
  absent : ∀ i, s.jobs.find i = none → s.history i = []
  agrees : ∀ i job, s.jobs.find i = some job → Agrees job (s.history i)

namespace Coherent

variable {s s' : JobLog} {job : IngestJob}

theorem start (clock : ℚ) : Coherent (JobLog.start clock) where
  lawful _ := trivial
  absent _ _ := rfl
  agrees i job h := absurd h (by simp [JobLog.start])

/-- An update keeps the log coherent if its event is legal and the new row agrees with it. -/
theorem update (hs : Coherent s) {i : ℕ} (hf : s.jobs.find i = some job) {p : Patch IngestJob}
    {e : LeaseEvent Actor ℚ} (hlegal : (s.history i).Legal e)
    (hagrees : Agrees (p.app job) (e :: s.history i)) : Coherent (s.update i p e) where
  lawful j := by
    rw [JobLog.history_update]
    split
    · exact ⟨hlegal, hs.lawful i⟩
    · exact hs.lawful j
  absent j hj := by
    rw [JobLog.jobs_update, Table.find_modify] at hj
    split at hj
    · rename_i hji
      rw [hji, hf] at hj
      exact absurd hj (by simp)
    · rename_i hji
      rw [JobLog.history_update_of_ne s hji]
      exact hs.absent j hj
  agrees j job' hj := by
    by_cases hji : j = i
    · subst hji
      rw [JobLog.jobs_update, Table.find_modify_self hf] at hj
      rw [JobLog.history_update_self, ← Option.some.inj hj]
      exact hagrees
    · rw [JobLog.jobs_update, Table.find_modify_of_ne hji] at hj
      rw [JobLog.history_update_of_ne s hji]
      exact hs.agrees j job' hj

theorem find_of_lookup (hs : Coherent s) {k : String × String}
    (h : s.jobs.lookup k = some job) :
    s.jobs.find job.id = some job ∧ Agrees job (s.history job.id) :=
  ⟨Table.find_of_lookup h, hs.agrees _ _ (Table.find_of_lookup h)⟩

theorem tick (hs : Coherent s) {seconds : ℚ} (h : s.tick seconds = some s') : Coherent s' := by
  obtain ⟨-, hjobs, hhistory⟩ := JobLog.tick_eq_some h
  refine ⟨fun i ↦ ?_, fun i hi ↦ ?_, fun i job hi ↦ ?_⟩
  · rw [hhistory]; exact hs.lawful i
  · rw [hhistory]; exact hs.absent i (hjobs ▸ hi)
  · rw [hhistory]; exact hs.agrees i job (hjobs ▸ hi)

/-! ### The API -/

theorem upsertPending (hs : Coherent s) {c : ℕ} {repo : IngestJobRepository} {uuid : ℕ}
    {tenantId sourceId rawBucket rawKey : String}
    (h : s.upsertPending c repo uuid tenantId sourceId rawBucket rawKey = some (s', job)) :
    Coherent s' := by
  have hrow := JobLog.submitted_upsertPending h
  have hfind := JobLog.find_upsertPending h
  have hhistory := JobLog.history_upsertPending h
  refine ⟨fun j ↦ ?_, fun j hj ↦ ?_, fun j job' hj ↦ ?_⟩
  · rw [hhistory]
    split
    · exact ⟨repo.defaultMaxAttempts_pos, hs.lawful j⟩
    · exact hs.lawful j
  · rw [hfind] at hj
    split at hj
    · exact absurd hj (by simp)
    · rename_i hne
      rw [hhistory, if_neg hne]
      exact hs.absent j hj
  · rw [hfind] at hj
    split at hj
    · rename_i heq
      rw [hhistory, if_pos heq, ← Option.some.inj hj]
      exact ⟨hrow.attemptCount, hrow.maxAttempts, hrow.status⟩
    · rename_i hne
      rw [hhistory, if_neg hne]
      exact hs.agrees j job' hj

theorem markProcessing (hs : Coherent s) {c : ℕ} {tenantId sourceId : String}
    (h : s.markProcessing c tenantId sourceId = .ok (s', job)) : Coherent s' := by
  obtain ⟨old, hl, -, rfl⟩ := JobLog.markProcessing_ok h
  obtain ⟨hf, ha⟩ := hs.find_of_lookup hl
  exact hs.update hf ha.ne_nil ⟨congrArg (· + 1) ha.attempts, ha.budget, rfl, rfl, rfl⟩

theorem markSucceeded (hs : Coherent s) {c : ℕ} {tenantId sourceId : String}
    (h : s.markSucceeded c tenantId sourceId = .ok (s', job)) : Coherent s' := by
  obtain ⟨old, hl, -, rfl⟩ := JobLog.markSucceeded_ok h
  obtain ⟨hf, ha⟩ := hs.find_of_lookup hl
  exact hs.update hf ha.ne_nil ⟨ha.attempts, ha.budget, trivial⟩

theorem markFailed (hs : Coherent s) {c : ℕ} {tenantId sourceId error : String}
    (h : s.markFailed c tenantId sourceId error = .ok (s', job)) : Coherent s' := by
  obtain ⟨old, hl, -, rfl⟩ := JobLog.markFailed_ok h
  obtain ⟨hf, ha⟩ := hs.find_of_lookup hl
  exact hs.update hf ha.ne_nil ⟨ha.attempts, ha.budget, trivial⟩

/-! ### The workers -/

/-- What the claim statement selects is up for acquisition, or stale. -/
theorem waiting_or_stale (hs : Coherent s) {lease : ℚ} {locked : List ℕ}
    (h : pendingJobClaimStatement s.clock (s.clock - lease) locked s.jobs = some job) :
    s.jobs.find job.id = some job ∧ ((s.history job.id).phase = .waiting ∨
      (s.history job.id).Stale s.clock lease) := by
  obtain ⟨hmem, hclaimable, -⟩ := mem_of_pendingJobClaimStatement h
  have hf : s.jobs.find job.id = some job := Table.find_primary hmem
  have ha := hs.agrees _ _ hf
  refine ⟨hf, hclaimable.imp (fun hp ↦ ha.waiting_of_pending (status_of_pendingReady hp))
    fun hp ↦ ?_⟩
  obtain ⟨who, beat, hheld, hbeat, -⟩ := ha.held_of_processing (status_of_staleProcessing hp)
  exact ⟨who, beat, hheld, le_sub_iff_add_le.mp (heartbeat_of_staleProcessing hp hbeat)⟩

theorem claim (hs : Coherent s) {lease : ℚ} {workerId : String} {locked : List ℕ}
    (hsel : pendingJobClaimStatement s.clock (s.clock - lease) locked s.jobs = some job)
    (hex : jobAttemptsExhausted job = false) :
    Coherent (s.update job.id (claimJobForWorker s.clock workerId)
      (.acquired (.worker workerId) s.clock lease)) := by
  obtain ⟨hf, hready⟩ := hs.waiting_or_stale hsel
  have ha := hs.agrees _ _ hf
  have hlt : (s.history job.id).attempts < (s.history job.id).budget := by
    rw [← ha.attempts, ← ha.budget, ← Nat.not_le, ← jobAttemptsExhausted_iff, hex]
    exact Bool.false_ne_true
  exact hs.update hf ⟨hready, hlt⟩ ⟨congrArg (· + 1) ha.attempts, ha.budget, rfl, rfl, rfl⟩

/-- Failing an exhausted row that the claim statement selects: it is stale, for a row up for
acquisition has used none of its attempts. -/
theorem expire (hs : Coherent s) {lease : ℚ} {locked : List ℕ}
    (hsel : pendingJobClaimStatement s.clock (s.clock - lease) locked s.jobs = some job)
    (hex : jobAttemptsExhausted job = true) :
    Coherent (s.update job.id markJobFailedAfterExhaustedAttempts (.expired s.clock lease)) := by
  obtain ⟨hf, hready⟩ := hs.waiting_or_stale hsel
  have ha := hs.agrees _ _ hf
  have hle : (s.history job.id).budget ≤ (s.history job.id).attempts := by
    rw [← ha.attempts, ← ha.budget]
    exact jobAttemptsExhausted_iff.mp hex
  have hstale : (s.history job.id).Stale s.clock lease := by
    refine hready.resolve_left fun hw ↦ ?_
    obtain ⟨hzero, hpos⟩ := (hs.lawful job.id).attempts_of_waiting hw
    omega
  exact hs.update hf ⟨hstale, hle⟩ ⟨ha.attempts, ha.budget, trivial⟩

theorem claimNextPending (queue : DatabaseIngestJobQueue) (locked : List ℕ) (hs : Coherent s) :
    Coherent (s.claimNextPending queue locked).1 :=
  JobLog.claimNextPending_rule queue locked (P := fun s s' _ ↦ Coherent s → Coherent s')
    (fun _ hs ↦ hs)
    (fun _ _ hsel hex hs ↦ hs.claim hsel hex)
    (fun _ _ _ _ hsel hex ih hs ↦ ih (hs.expire hsel hex)) s hs

variable {claimed : ClaimedIngestJob}

theorem heartbeat (hs : Coherent s) (h : s.heartbeat claimed = .ok s') : Coherent s' := by
  obtain ⟨old, hf, hst, -, rfl⟩ := JobLog.heartbeat_ok h
  have ha := hs.agrees _ _ hf
  obtain ⟨who, beat, hheld, -, hlock⟩ := ha.held_of_processing hst
  refine hs.update hf ⟨who, beat, hheld⟩ ⟨ha.attempts, ha.budget, ?_⟩
  rw [LeaseHistory.phase, hheld]
  exact ⟨hst, rfl, hlock⟩

theorem workerSucceeded (hs : Coherent s) (h : s.workerSucceeded claimed = .ok s') :
    Coherent s' := by
  obtain ⟨old, hf, -, -, rfl⟩ := JobLog.workerSucceeded_ok h
  have ha := hs.agrees _ _ hf
  exact hs.update hf ha.ne_nil ⟨ha.attempts, ha.budget, trivial⟩

theorem workerFailed (hs : Coherent s) {error : String}
    (h : s.workerFailed claimed error = .ok s') : Coherent s' := by
  obtain ⟨old, hf, -, -, rfl⟩ := JobLog.workerFailed_ok h
  have ha := hs.agrees _ _ hf
  exact hs.update hf ha.ne_nil ⟨ha.attempts, ha.budget, trivial⟩

end Coherent

end KnowledgeAlakazam
