import KnowledgeAlakazam.Ingest.JobLog
import Mathlib.Data.Fintype.Basic
import Mathlib.Algebra.Order.Ring.Rat
import Mathlib.Tactic.NormNum

/-!
# Heartbeats and results, statement by statement

A poll locks the row it selects until it commits, so it is one step. A heartbeat or a result is
not: it reads the row without a lock, checks in memory that the ticket still owns it, and sends
its `UPDATE` later. The session remembers the row it read, and the `UPDATE` names the row by its
primary key and writes the columns whose assigned value differs from the value read. Other
transactions may commit in between.

The fence this is meant to be: once a job has been claimed again, its earlier ticket changes
nothing any more. It holds in every run in which no poll claims a job while a worker is between
its check and its `UPDATE` of that job (`fenced_of_guarded`), and a poll in that window breaks it
(`stale_result_overwrites_claim`).
-/

namespace KnowledgeAlakazam

/-- What a worker writes with a ticket. -/
inductive QueueWrite where
  | heartbeat
  | succeeded
  | failed (error : String)
deriving DecidableEq

/-- What the method assigns to the row it read. -/
def QueueWrite.patch (now : ℚ) : QueueWrite → Patch IngestJob
  | heartbeat => DatabaseIngestJobQueue.heartbeatPatch now
  | succeeded => DatabaseIngestJobQueue.statusPatch .succeeded none
  | failed error => DatabaseIngestJobQueue.statusPatch .failed (some error)

def QueueWrite.event (now : ℚ) (claimed : ClaimedIngestJob) : QueueWrite → LeaseEvent Actor ℚ
  | heartbeat => .renewed now
  | succeeded => .closed (JobLog.holder claimed)
  | failed _ => .closed (JobLog.holder claimed)

/-- The flush of a session: the columns that a queue method assigns are written where the assigned
value differs from the value the session loaded. -/
def changedColumns (loaded assigned : IngestJob) : Patch IngestJob where
  app current :=
    { current with
      status := if assigned.status = loaded.status then current.status else assigned.status
      error := if assigned.error = loaded.error then current.error else assigned.error
      heartbeatAt :=
        if assigned.heartbeatAt = loaded.heartbeatAt then current.heartbeatAt
        else assigned.heartbeatAt
      lockedBy :=
        if assigned.lockedBy = loaded.lockedBy then current.lockedBy else assigned.lockedBy
      nextAttemptAt :=
        if assigned.nextAttemptAt = loaded.nextAttemptAt then current.nextAttemptAt
        else assigned.nextAttemptAt }
  primary_app _ := rfl
  unique_app _ := rfl

/-- A transaction of a queue method that read the row and passed the check. -/
structure QueueSession where
  write : QueueWrite
  /-- The row as it was read. -/
  loaded : IngestJob
  /-- The clock when the method assigned to it. -/
  now : ℚ

def QueueSession.flush (session : QueueSession) : Patch IngestJob :=
  changedColumns session.loaded ((session.write.patch session.now).app session.loaded)

/-- A worker: it runs one job at a time, in at most one transaction at a time. The number beside a
ticket is a ghost: the tenure of the job the ticket was issued for. -/
inductive WorkerState where
  | idle
  | running (ticket : ClaimedIngestJob) (tenure : ℕ)
  | writing (ticket : ClaimedIngestJob) (tenure : ℕ) (session : QueueSession)

/-- The ticket a worker runs, with its tenure. -/
def WorkerState.ticket : WorkerState → Option (ClaimedIngestJob × ℕ)
  | idle => none
  | running ticket tenure => some (ticket, tenure)
  | writing ticket tenure _ => some (ticket, tenure)

/-- The ticket whose check a worker passed and whose `UPDATE` is outstanding. -/
def WorkerState.outstanding : WorkerState → Option (ClaimedIngestJob × ℕ)
  | writing ticket tenure _ => some (ticket, tenure)
  | _ => none

structure FenceState (n : ℕ) where
  log : JobLog
  workers : Fin n → WorkerState

inductive FenceLabel (n : ℕ) where
  | tick (seconds : ℚ)
  /-- A submission resets a job to pending. -/
  | submit (c : ℕ) (repo : IngestJobRepository) (uuid : ℕ)
      (tenantId sourceId rawBucket rawKey : String)
  /-- The API fails a job. -/
  | apiFailed (c : ℕ) (tenantId sourceId error : String)
  /-- `claim_next_pending`. -/
  | poll (w : Fin n) (locked : List ℕ)
  /-- The `SELECT` and the check of a queue method. -/
  | select (w : Fin n) (write : QueueWrite)
  /-- The `UPDATE` and the commit. -/
  | update (w : Fin n)
  /-- The transaction of a queue method is given up. -/
  | abort (w : Fin n)
  /-- The run ends without a result. -/
  | stop (w : Fin n)

namespace FenceState

variable {n : ℕ}

def start (n : ℕ) (log : JobLog) : FenceState n := ⟨log, fun _ ↦ .idle⟩

def setWorker (s : FenceState n) (w : Fin n) (state : WorkerState) : FenceState n :=
  { s with workers := Function.update s.workers w state }

/-- After a result the worker is idle, after a heartbeat it goes on. -/
def afterWrite (ticket : ClaimedIngestJob) (tenure : ℕ) : QueueWrite → WorkerState
  | .heartbeat => .running ticket tenure
  | _ => .idle

def step (fleet : Fleet n) (s : FenceState n) : FenceLabel n → Option (FenceState n)
  | .tick seconds => (s.log.tick seconds).map fun log ↦ { s with log := log }
  | .submit c repo uuid tenantId sourceId rawBucket rawKey =>
    (s.log.upsertPending c repo uuid tenantId sourceId rawBucket rawKey).map
      fun (log, _) ↦ { s with log := log }
  | .apiFailed c tenantId sourceId error =>
    match s.log.markFailed c tenantId sourceId error with
    | .error _ => none
    | .ok (log, _) => some { s with log := log }
  | .poll w locked =>
    match s.workers w with
    | .idle =>
      let claim := s.log.claimNextPending (fleet.queue w) locked
      match claim.2 with
      | none => some { s with log := claim.1 }
      | some ticket =>
        some ({ s with log := claim.1 }.setWorker w
          (.running ticket (claim.1.history ticket.id).tenure))
    | _ => none
  | .select w write =>
    match s.workers w with
    | .running ticket tenure =>
      match s.log.jobs.find ticket.id with
      | none => some (s.setWorker w (afterWrite ticket tenure write))
      | some job =>
        match assertJobLeaseOwned job ticket with
        | .error _ => some (s.setWorker w (afterWrite ticket tenure write))
        | .ok () => some (s.setWorker w (.writing ticket tenure ⟨write, job, s.log.clock⟩))
    | _ => none
  | .update w =>
    match s.workers w with
    | .writing ticket tenure session =>
      some ({ s with
        log := s.log.update ticket.id session.flush
          (session.write.event session.now ticket) }.setWorker w
            (afterWrite ticket tenure session.write))
    | _ => none
  | .abort w =>
    match s.workers w with
    | .writing ticket tenure session =>
      some (s.setWorker w (afterWrite ticket tenure session.write))
    | _ => none
  | .stop w =>
    match s.workers w with
    | .idle => none
    | _ => some (s.setWorker w .idle)

end FenceState

/-! ## The fence -/

variable {n : ℕ}

def fencedColumns (job : IngestJob) :
    JobStatus × Option String × Option String × Option ℚ :=
  (job.status, job.error, job.lockedBy, job.heartbeatAt)

/-- The ticket with which a transition writes. -/
def writer (t : Transition (FenceState n) (FenceLabel n)) : Option (ClaimedIngestJob × ℕ) :=
  match t.label with
  | .update w => (t.pre.workers w).ticket
  | _ => none

/-- A ticket whose job was claimed again changes none of the protected columns. -/
def Fenced (t : Transition (FenceState n) (FenceLabel n)) : Prop :=
  ∀ held ∈ writer t, held.2 < (t.pre.log.history held.1.id).tenure →
    (t.post.log.jobs.find held.1.id).map fencedColumns
      = (t.pre.log.jobs.find held.1.id).map fencedColumns

/-- A poll does not claim a job that a worker is about to `UPDATE`. -/
def NotClaimedWhileWriting (fleet : Fleet n) (t : Transition (FenceState n) (FenceLabel n)) :
    Prop :=
  match t.label with
  | .poll v locked =>
    ∀ ticket ∈ (t.pre.log.claimNextPending (fleet.queue v) locked).2, ∀ w,
      ∀ held ∈ (t.pre.workers w).outstanding, held.1.id ≠ ticket.id
  | _ => True

instance (t : Transition (FenceState n) (FenceLabel n)) : Decidable (Fenced t) :=
  inferInstanceAs (Decidable (∀ _ ∈ _, _ → _))

instance (fleet : Fleet n) (t : Transition (FenceState n) (FenceLabel n)) :
    Decidable (NotClaimedWhileWriting fleet t) := by
  unfold NotClaimedWhileWriting
  cases t.label <;> infer_instance

/-! ## What holds between the log and the workers -/

/-- A locked row is locked by whoever took the job last. -/
def LockedByTaker (log : JobLog) : Prop :=
  ∀ i job workerId, log.jobs.find i = some job → job.lockedBy = some workerId →
    (log.history i).taker = some (.worker workerId)

theorem LockedByTaker.update {log : JobLog} (hl : LockedByTaker log) {i : ℕ}
    {p : Patch IngestJob} {e : LeaseEvent Actor ℚ}
    (h : ∀ job workerId, log.jobs.find i = some job → (p.app job).lockedBy = some workerId →
      LeaseHistory.taker (e :: log.history i) = some (.worker workerId)) :
    LockedByTaker (log.update i p e) := by
  intro j job workerId hj hlock
  by_cases hji : j = i
  · subst hji
    rw [JobLog.jobs_update, Table.find_modify, if_pos rfl] at hj
    obtain ⟨old, hold, rfl⟩ := Option.map_eq_some_iff.mp hj
    rw [JobLog.history_update_self]
    exact h old workerId hold hlock
  · rw [JobLog.jobs_update, Table.find_modify_of_ne hji] at hj
    rw [JobLog.history_update_of_ne log hji]
    exact hl j job workerId hj hlock

theorem LockedByTaker.upsertPending {log log' : JobLog} (hl : LockedByTaker log) {c : ℕ}
    {repo : IngestJobRepository} {uuid : ℕ} {tenantId sourceId rawBucket rawKey : String}
    {job : IngestJob}
    (h : log.upsertPending c repo uuid tenantId sourceId rawBucket rawKey = some (log', job)) :
    LockedByTaker log' := by
  intro j job' workerId hj hlock
  rw [JobLog.find_upsertPending h] at hj
  split at hj
  · rw [← Option.some.inj hj, (JobLog.submitted_upsertPending h).lockedBy] at hlock
    cases hlock
  · rw [(JobLog.untaken_upsertPending h j).2]
    exact hl j job' workerId hj hlock

theorem LockedByTaker.claimNextPending {log : JobLog} (queue : DatabaseIngestJobQueue)
    (locked : List ℕ) (hl : LockedByTaker log) :
    LockedByTaker (log.claimNextPending queue locked).1 :=
  JobLog.claimNextPending_rule queue locked (P := fun s s' _ ↦ LockedByTaker s → LockedByTaker s')
    (fun _ hl ↦ hl)
    (fun _ _ _ _ hl ↦ hl.update fun job workerId _ hlock ↦ by
      rw [LeaseHistory.taker, ← Option.some.inj hlock])
    (fun _ _ _ _ _ _ ih hl ↦ ih (hl.update fun _ _ _ hlock ↦ nomatch hlock)) log hl

theorem lockedBy_flush {session : QueueSession} {job : IngestJob} {workerId : String}
    (h : (session.flush.app job).lockedBy = some workerId) : job.lockedBy = some workerId := by
  obtain ⟨write, loaded, now⟩ := session
  have hassigned : ((write.patch now).app loaded).lockedBy = loaded.lockedBy ∨
      ((write.patch now).app loaded).lockedBy = none := by
    cases write with
    | heartbeat => exact Or.inl rfl
    | succeeded => exact Or.inr rfl
    | failed error => exact Or.inr rfl
  dsimp only [QueueSession.flush, changedColumns] at h
  split at h
  · exact h
  · rename_i hne
    rw [hassigned.resolve_left hne] at h
    exact nomatch h

/-- The invariant of guarded runs. -/
structure FenceInv (fleet : Fleet n) (s : FenceState n) : Prop where
  /-- Locks are held by the last takers. -/
  locked : LockedByTaker s.log
  /-- A worker's ticket is in its name, and the worker stands in the ticket's tenure. -/
  stands : ∀ w, ∀ held ∈ (s.workers w).ticket, held.1.lockedBy = some (fleet.workerId w) ∧
    (s.log.history held.1.id).Stands (.worker (fleet.workerId w)) held.2
  /-- A ticket whose check was passed is the last of its job. -/
  current : ∀ w, ∀ held ∈ (s.workers w).outstanding,
    held.2 = (s.log.history held.1.id).tenure

namespace FenceInv

variable {fleet : Fleet n} {s : FenceState n}

theorem start (fleet : Fleet n) (clock : ℚ) :
    FenceInv fleet (FenceState.start n (.start clock)) where
  locked _ _ _ h _ := nomatch h
  stands _ _ h := nomatch h
  current _ _ h := nomatch h

/-- A transaction in which nobody takes a job keeps the invariant if it keeps the locks right. -/
theorem of_untaken (hs : FenceInv fleet s) {log : JobLog} (hl : LockedByTaker log)
    (hu : ∀ i, JobLog.Untaken s.log log i) : FenceInv fleet { s with log := log } where
  locked := hl
  stands w held h := (hs.stands w held h).imp_right (hu _).stands
  current w held h := by rw [(hu _).1]; exact hs.current w held h

theorem setWorker (hs : FenceInv fleet s) {w : Fin n} {state : WorkerState}
    (hstands : ∀ held ∈ state.ticket, held.1.lockedBy = some (fleet.workerId w) ∧
      (s.log.history held.1.id).Stands (.worker (fleet.workerId w)) held.2)
    (hcurrent : ∀ held ∈ state.outstanding, held.2 = (s.log.history held.1.id).tenure) :
    FenceInv fleet (s.setWorker w state) where
  locked := hs.locked
  stands v held h := by
    rw [FenceState.setWorker] at h
    by_cases hvw : v = w
    · subst hvw
      dsimp only at h
      rw [Function.update_self] at h
      exact hstands held h
    · dsimp only at h
      rw [Function.update_of_ne hvw] at h
      exact hs.stands v held h
  current v held h := by
    rw [FenceState.setWorker] at h
    by_cases hvw : v = w
    · subst hvw
      dsimp only at h
      rw [Function.update_self] at h
      exact hcurrent held h
    · dsimp only at h
      rw [Function.update_of_ne hvw] at h
      exact hs.current v held h

theorem afterWrite (hs : FenceInv fleet s) {w : Fin n} {ticket : ClaimedIngestJob} {tenure : ℕ}
    (h : (s.workers w).ticket = some (ticket, tenure)) (write : QueueWrite) :
    FenceInv fleet (s.setWorker w (FenceState.afterWrite ticket tenure write)) := by
  refine hs.setWorker (fun held hheld ↦ ?_) (fun held hheld ↦ ?_)
  · cases write with
    | heartbeat => exact hs.stands w held (h ▸ hheld)
    | succeeded => exact nomatch hheld
    | failed error => exact nomatch hheld
  · cases write <;> exact nomatch hheld

/-- A poll that claims no job with an outstanding `UPDATE` keeps the invariant. -/
theorem claimNextPending (hs : FenceInv fleet s) {w : Fin n} (hidle : s.workers w = .idle)
    {locked : List ℕ}
    (hG : ∀ ticket ∈ (s.log.claimNextPending (fleet.queue w) locked).2, ∀ v,
      ∀ held ∈ (s.workers v).outstanding, held.1.id ≠ ticket.id) :
    FenceInv fleet { s with log := (s.log.claimNextPending (fleet.queue w) locked).1 } where
  locked := hs.locked.claimNextPending _ _
  stands v held h := by
    obtain ⟨hlock, hstands⟩ := hs.stands v held h
    refine ⟨hlock, JobLog.stands_claimNextPending hstands fun hid ↦ ?_⟩
    obtain rfl : v = w := fleet.distinct (Actor.worker.inj hid)
    exact nomatch (hidle ▸ h : held ∈ WorkerState.idle.ticket)
  current v held h := by
    rw [(JobLog.untaken_claimNextPending fun ticket ht ↦ (hG ticket ht v held h).symm).1]
    exact hs.current v held h

theorem claimed (hs : FenceInv fleet s) {w : Fin n} {ticket : ClaimedIngestJob} {job : IngestJob}
    (htjob : ticket = .fromModel job) (hlock : job.lockedBy = some (fleet.workerId w)) :
    FenceInv fleet (s.setWorker w (.running ticket (s.log.history ticket.id).tenure)) := by
  refine hs.setWorker (fun held hheld ↦ ?_) (fun held hheld ↦ nomatch hheld)
  obtain rfl : (ticket, _) = held := Option.some.inj hheld
  exact ⟨by rw [htjob]; exact hlock, LeaseHistory.stands_tenure _ _⟩

/-- A ticket that passes the check is the last of its job. -/
theorem checked (hs : FenceInv fleet s) {w : Fin n} {ticket : ClaimedIngestJob} {tenure : ℕ}
    (hrun : s.workers w = .running ticket tenure) {job : IngestJob}
    (hf : s.log.jobs.find ticket.id = some job) (hown : assertJobLeaseOwned job ticket = .ok ())
    (session : QueueSession) : FenceInv fleet (s.setWorker w (.writing ticket tenure session)) := by
  obtain ⟨hlock, hstands⟩ := hs.stands w (ticket, tenure) (by rw [hrun]; rfl)
  -- the row is locked by this worker, so nobody took the job since its ticket
  have htaker := hs.locked ticket.id job _ hf ((assertJobLeaseOwned_ok.mp hown).2.trans hlock)
  refine hs.setWorker (fun held hheld ↦ ?_) (fun held hheld ↦ ?_)
  · obtain rfl : (ticket, tenure) = held := Option.some.inj hheld
    exact ⟨hlock, hstands⟩
  · obtain rfl : (ticket, tenure) = held := Option.some.inj hheld
    exact hstands.eq_of_taker htaker

theorem flushed (hs : FenceInv fleet s) (ticket : ClaimedIngestJob) (session : QueueSession) :
    FenceInv fleet { s with
      log := s.log.update ticket.id session.flush (session.write.event session.now ticket) } := by
  have hevent : ¬ (session.write.event session.now ticket).Takes := by
    cases session.write <;> exact fun h ↦ h
  refine hs.of_untaken (hs.locked.update fun job workerId hf hlock ↦ ?_)
    fun i ↦ JobLog.untaken_update _ _ i _ hevent
  rw [LeaseHistory.taker_cons_of_not_takes hevent]
  exact hs.locked _ job workerId hf (lockedBy_flush hlock)

/-- **One guarded step keeps the invariant.** -/
theorem step (hs : FenceInv fleet s) {label : FenceLabel n} {s' : FenceState n}
    (hG : NotClaimedWhileWriting fleet ⟨s, label, s'⟩)
    (h : FenceState.step fleet s label = some s') : FenceInv fleet s' := by
  cases label with
  | tick seconds =>
    obtain ⟨log, hlog, rfl⟩ := Option.map_eq_some_iff.mp h
    refine hs.of_untaken (fun i job workerId hf hlock ↦ ?_) (JobLog.untaken_tick hlog)
    rw [(JobLog.untaken_tick hlog i).2]
    exact hs.locked i job workerId ((JobLog.tick_eq_some hlog).2.1 ▸ hf) hlock
  | submit c repo uuid tenantId sourceId rawBucket rawKey =>
    obtain ⟨⟨log, job⟩, hlog, rfl⟩ := Option.map_eq_some_iff.mp h
    exact hs.of_untaken (hs.locked.upsertPending hlog) (JobLog.untaken_upsertPending hlog)
  | apiFailed c tenantId sourceId error =>
    rw [FenceState.step] at h
    split at h
    · exact nomatch h
    · rename_i log job hlog
      obtain ⟨old, -, -, rfl⟩ := JobLog.markFailed_ok hlog
      rw [← Option.some.inj h]
      exact hs.of_untaken (hs.locked.update fun _ _ _ hlock ↦ nomatch hlock)
        fun i ↦ JobLog.untaken_update _ _ i _ fun h ↦ h
  | poll w locked =>
    rw [FenceState.step] at h
    split at h
    · rename_i hidle
      have hclaim := hs.claimNextPending hidle hG
      dsimp only at h
      split at h
      · exact Option.some.inj h ▸ hclaim
      · rename_i ticket hticket
        obtain ⟨job, -, htjob, -, hlock⟩ := JobLog.find_of_claimNextPending hticket
        exact Option.some.inj h ▸ hclaim.claimed htjob hlock
    · exact nomatch h
  | select w write =>
    rw [FenceState.step] at h
    split at h
    · rename_i ticket tenure hrun
      -- Without its row, or with a row that another worker took, the write ends here.
      have hticket : (s.workers w).ticket = some (ticket, tenure) := by rw [hrun]; rfl
      split at h
      · exact Option.some.inj h ▸ hs.afterWrite hticket write
      · rename_i job hf
        split at h
        · exact Option.some.inj h ▸ hs.afterWrite hticket write
        · rename_i hown
          exact Option.some.inj h ▸ hs.checked hrun hf hown _
    · exact nomatch h
  | update w =>
    rw [FenceState.step] at h
    split at h
    · rename_i ticket tenure session hrun
      rw [← Option.some.inj h]
      exact (hs.flushed ticket session).afterWrite
        (show (s.workers w).ticket = _ by rw [hrun]; rfl) session.write
    · exact nomatch h
  | abort w =>
    rw [FenceState.step] at h
    split at h
    · rename_i ticket tenure session hrun
      rw [← Option.some.inj h]
      exact hs.afterWrite (show (s.workers w).ticket = _ by rw [hrun]; rfl) session.write
    · exact nomatch h
  | stop w =>
    rw [FenceState.step] at h
    split at h
    · exact nomatch h
    · rw [← Option.some.inj h]
      exact hs.setWorker (fun held hheld ↦ nomatch hheld) fun held hheld ↦ nomatch hheld

/-- Under the invariant every write is by the last ticket of its job. -/
theorem fenced (hs : FenceInv fleet s) {label : FenceLabel n} {s' : FenceState n}
    (h : FenceState.step fleet s label = some s') : Fenced ⟨s, label, s'⟩ := by
  intro held hheld hlt
  cases label with
  | update w =>
    rw [FenceState.step] at h
    split at h
    · rename_i ticket tenure session hrun
      have hcur := hs.current w held (by
        rw [writer] at hheld
        dsimp only at hheld
        rw [hrun] at hheld ⊢
        exact hheld)
      exact absurd hlt (by rw [hcur]; exact Nat.lt_irrefl _)
    · cases h
  -- no other transition writes with a ticket
  | _ => cases hheld

end FenceInv

/-- **Stale tickets are fenced off** in every run in which no poll claims a job while a worker is
between its ownership check and its `UPDATE` of that job. -/
theorem fenced_of_guarded (fleet : Fleet n) (clock : ℚ) (labels : List (FenceLabel n))
    (hG : ∀ t ∈ trace (FenceState.step fleet) (.start n (.start clock)) labels,
      NotClaimedWhileWriting fleet t) :
    ∀ t ∈ trace (FenceState.step fleet) (.start n (.start clock)) labels, Fenced t := by
  intro t ht
  obtain ⟨hinv, hstep, -⟩ := guarded_trace_invariant (I := FenceInv fleet)
    (fun _ _ _ hs hG h ↦ hs.step hG h) (FenceInv.start fleet clock) hG t ht
  exact hinv.fenced hstep

/-! ### A takeover inside the window -/

def firstWorker : Fin 2 := 0

def secondWorker : Fin 2 := 1

/-- Two workers with the default lease. -/
def twoWorkers : Fleet 2 where
  queue w := .withDefaults (if w = firstWorker then "host:1" else "host:2")
  distinct := by decide

/-- A submission of a document, as the API's repository makes it. -/
def submitDocument : FenceLabel 2 :=
  .submit 0 .withDefaults 7 "acme" "doc" "raw" "acme/doc/a.pdf"

/-- The first worker runs a job to its end. -/
def undisturbedRun : List (FenceLabel 2) :=
  [submitDocument, .poll firstWorker [], .select firstWorker .heartbeat, .update firstWorker,
   .select firstWorker .succeeded, .update firstWorker]

/-- The first worker checks its lease, the lease runs out, the second worker claims the job, and
the first worker's `UPDATE` arrives. -/
def takeoverRun : List (FenceLabel 2) :=
  [submitDocument, .poll firstWorker [], .select firstWorker .succeeded, .tick 400,
   .poll secondWorker [], .update firstWorker]

/-- All writes of a worker that nobody disturbs are its own. -/
theorem fenced_undisturbedRun :
    (trace (FenceState.step twoWorkers) (.start 2 (.start 0)) undisturbedRun).length = 6 ∧
      ∀ t ∈ trace (FenceState.step twoWorkers) (.start 2 (.start 0)) undisturbedRun, Fenced t :=
  ⟨by decide +kernel, fenced_of_guarded twoWorkers 0 undisturbedRun (by decide +kernel)⟩

/-- **The fence has a gap**: the stale result of the first worker marks the job of the second
succeeded and takes its lock away. -/
theorem stale_result_overwrites_claim :
    ¬ ∀ t ∈ trace (FenceState.step twoWorkers) (.start 2 (.start 0)) takeoverRun, Fenced t := by
  decide +kernel

end KnowledgeAlakazam
