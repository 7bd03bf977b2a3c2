import KnowledgeAlakazam.Ingest.JobLog

/-!
# The retry budget and the exclusivity of leases

An asynchronous deployment is any interleaving of whole transactions: submissions reset jobs to
pending, the API may fail a job, and workers poll, heartbeat and finish jobs, with tickets that
may be of any age. A transaction that raises changes nothing.

Coherence reduces the laws to the laws of lawful histories in `Core.Lease`; all that is left to
check is that an asynchronous deployment never seizes a job.
-/

namespace KnowledgeAlakazam

/-- A transaction of an asynchronous deployment, or the passing of time. -/
inductive AsyncOp where
  | tick (seconds : ℚ)
  | upsertPending (c : ℕ) (repo : IngestJobRepository) (uuid : ℕ)
      (tenantId sourceId rawBucket rawKey : String)
  | markFailed (c : ℕ) (tenantId sourceId error : String)
  | claimNextPending (queue : DatabaseIngestJobQueue) (locked : List ℕ)
  | heartbeat (claimed : ClaimedIngestJob)
  | workerSucceeded (claimed : ClaimedIngestJob)
  | workerFailed (claimed : ClaimedIngestJob) (error : String)

def AsyncOp.step (s : JobLog) : AsyncOp → Option JobLog
  | tick seconds => s.tick seconds
  | upsertPending c repo uuid tenantId sourceId rawBucket rawKey =>
    match s.upsertPending c repo uuid tenantId sourceId rawBucket rawKey with
    | none => some s
    | some (s', _) => some s'
  | markFailed c tenantId sourceId error =>
    match s.markFailed c tenantId sourceId error with
    | .error _ => some s
    | .ok (s', _) => some s'
  | claimNextPending queue locked => some (s.claimNextPending queue locked).1
  | heartbeat claimed =>
    match s.heartbeat claimed with
    | .error _ => some s
    | .ok s' => some s'
  | workerSucceeded claimed =>
    match s.workerSucceeded claimed with
    | .error _ => some s
    | .ok s' => some s'
  | workerFailed claimed error =>
    match s.workerFailed claimed error with
    | .error _ => some s
    | .ok s' => some s'

/-! ## Nobody seizes -/

/-- No job was ever seized. -/
def Unseized (s : JobLog) : Prop := ∀ i, ∀ e ∈ s.history i, ¬ e.Seizes

theorem Unseized.update {s : JobLog} (hs : Unseized s) {i : ℕ} {p : Patch IngestJob}
    {e : LeaseEvent Actor ℚ} (he : ¬ e.Seizes) : Unseized (s.update i p e) := by
  intro j x hx
  rw [JobLog.history_update] at hx
  split at hx
  · rcases List.mem_cons.mp hx with rfl | hx
    · exact he
    · exact hs i x hx
  · exact hs j x hx

theorem Unseized.upsertPending {s s' : JobLog} {job : IngestJob} (hs : Unseized s) {c : ℕ}
    {repo : IngestJobRepository} {uuid : ℕ} {tenantId sourceId rawBucket rawKey : String}
    (h : s.upsertPending c repo uuid tenantId sourceId rawBucket rawKey = some (s', job)) :
    Unseized s' := by
  intro j e he
  rw [JobLog.history_upsertPending h] at he
  split at he
  · rcases List.mem_cons.mp he with rfl | he
    · exact fun h ↦ h
    · exact hs j e he
  · exact hs j e he

theorem Unseized.claimNextPending {s : JobLog} (queue : DatabaseIngestJobQueue)
    (locked : List ℕ) (hs : Unseized s) : Unseized (s.claimNextPending queue locked).1 :=
  JobLog.claimNextPending_rule queue locked (P := fun s s' _ ↦ Unseized s → Unseized s')
    (fun _ hs ↦ hs)
    (fun _ _ _ _ hs ↦ hs.update fun h ↦ h)
    (fun _ _ _ _ _ _ ih hs ↦ ih (hs.update fun h ↦ h)) s hs

/-! ## The step and the run -/

theorem AsyncOp.step_coherent {s s' : JobLog} {op : AsyncOp} (hs : Coherent s ∧ Unseized s)
    (h : op.step s = some s') : Coherent s' ∧ Unseized s' := by
  obtain ⟨hc, hu⟩ := hs
  -- No operation of the asynchronous service takes a job without a claim, so no job is seized.
  cases op with
  | tick seconds =>
    refine ⟨hc.tick h, ?_⟩
    rw [Unseized, (JobLog.tick_eq_some h).2.2]
    exact hu
  | upsertPending c repo uuid tenantId sourceId rawBucket rawKey =>
    rw [step] at h
    split at h
    · exact Option.some.inj h ▸ ⟨hc, hu⟩
    · rename_i hup
      exact Option.some.inj h ▸ ⟨hc.upsertPending hup, hu.upsertPending hup⟩
  | markFailed c tenantId sourceId error =>
    rw [step] at h
    split at h
    · exact Option.some.inj h ▸ ⟨hc, hu⟩
    · rename_i hup
      obtain ⟨old, -, -, heq⟩ := JobLog.markFailed_ok hup
      exact Option.some.inj h ▸ ⟨hc.markFailed hup, heq ▸ hu.update fun h ↦ h⟩
  | claimNextPending queue locked =>
    exact Option.some.inj h ▸ ⟨hc.claimNextPending queue locked, hu.claimNextPending queue locked⟩
  | heartbeat claimed =>
    rw [step] at h
    split at h
    · exact Option.some.inj h ▸ ⟨hc, hu⟩
    · rename_i hup
      obtain ⟨old, -, -, -, heq⟩ := JobLog.heartbeat_ok hup
      exact Option.some.inj h ▸ ⟨hc.heartbeat hup, heq ▸ hu.update fun h ↦ h⟩
  | workerSucceeded claimed =>
    rw [step] at h
    split at h
    · exact Option.some.inj h ▸ ⟨hc, hu⟩
    · rename_i hup
      obtain ⟨old, -, -, -, heq⟩ := JobLog.workerSucceeded_ok hup
      exact Option.some.inj h ▸ ⟨hc.workerSucceeded hup, heq ▸ hu.update fun h ↦ h⟩
  | workerFailed claimed error =>
    rw [step] at h
    split at h
    · exact Option.some.inj h ▸ ⟨hc, hu⟩
    · rename_i hup
      obtain ⟨old, -, -, -, heq⟩ := JobLog.workerFailed_ok hup
      exact Option.some.inj h ▸ ⟨hc.workerFailed hup, heq ▸ hu.update fun h ↦ h⟩

/-- What a poll claims was not finished, and if it was processing, its lease had run out. -/
theorem JobLog.claimNextPending_ready {s : JobLog} (hs : Coherent s)
    {queue : DatabaseIngestJobQueue} {locked : List ℕ} {ticket : ClaimedIngestJob}
    (h : (s.claimNextPending queue locked).2 = some ticket) :
    ∃ job, s.jobs.find ticket.id = some job ∧ ¬ job.status.Terminal ∧
      (job.status = .processing → ∃ beat, job.heartbeatAt = some beat ∧
        (s.history ticket.id).lastBeat = some beat ∧ beat + queue.leaseSeconds ≤ s.clock) := by
  refine JobLog.claimNextPending_rule queue locked
    (P := fun s _ result ↦ Coherent s → result = some ticket →
      ∃ job, s.jobs.find ticket.id = some job ∧ ¬ job.status.Terminal ∧
        (job.status = .processing → ∃ beat, job.heartbeatAt = some beat ∧
          (s.history ticket.id).lastBeat = some beat ∧ beat + queue.leaseSeconds ≤ s.clock))
    (fun _ _ h ↦ absurd h (by simp)) (fun s job hsel _ hs h ↦ ?_)
    (fun s job s' result hsel hex ih hs h ↦ ?_) s hs h
  · obtain ⟨hmem, hclaimable, -⟩ := mem_of_pendingJobClaimStatement hsel
    have hf : s.jobs.find job.id = some job := Table.find_primary hmem
    rw [← Option.some.inj h]
    refine ⟨job, hf, ?_, fun hp ↦ ?_⟩
    · rcases hclaimable with hp | hp
      · rw [status_of_pendingReady hp]; exact fun h ↦ h
      · rw [status_of_staleProcessing hp]; exact fun h ↦ h
    · obtain ⟨who, beat, hheld, hbeat, -⟩ := (hs.agrees _ _ hf).held_of_processing hp
      refine ⟨beat, hbeat, LeaseHistory.lastBeat_of_held hheld, ?_⟩
      refine le_sub_iff_add_le.mp (heartbeat_of_staleProcessing
        (hclaimable.resolve_left fun hp' ↦ ?_) hbeat)
      exact absurd ((status_of_pendingReady hp').symm.trans hp) (by decide)
  · obtain ⟨found, hfound, hopen, hstale⟩ := ih (hs.expire hsel hex) h
    have hf : s.jobs.find job.id = some job :=
      Table.find_primary (mem_of_pendingJobClaimStatement hsel).1
    -- the row that was failed on the way is not the one that is claimed
    have hne : ticket.id ≠ job.id := by
      intro heq
      rw [heq, jobs_update, Table.find_modify_self hf] at hfound
      exact hopen (Option.some.inj hfound ▸ trivial)
    rw [jobs_update, Table.find_modify_of_ne hne] at hfound
    rw [history_update_of_ne s hne, clock_update] at hstale
    exact ⟨found, hfound, hopen, hstale⟩

/-- The laws of a job in terms of its row and its history, newest event first. -/
structure RetryDiscipline (job : IngestJob) (h : JobHistory) : Prop where
  /-- The status is the phase the history leads to. -/
  status : Stored job h.phase
  /-- The attempts are the claims since the last reset. -/
  counted : job.attemptCount = h.attempts
  /-- They stay within the budget. -/
  bounded : job.attemptCount ≤ job.maxAttempts
  /-- A claim of a job that is held comes a full lease after its last heartbeat. -/
  exclusive : ∀ (newer older : JobHistory) who time lease holder beat,
    h = newer ++ .acquired who time lease :: older → older.phase = .held holder beat →
      ∃ b, older.lastBeat = some b ∧ b + lease ≤ time
  /-- A job is failed for exhausted attempts after exactly as many claims as its budget, and a
  full lease after its last heartbeat. -/
  exact : ∀ (newer older : JobHistory) time lease, h = newer ++ .expired time lease :: older →
    older.attempts = older.budget ∧ ∃ b, older.lastBeat = some b ∧ b + lease ≤ time
  /-- Between the end of a job and a later claim there is a reset. -/
  reopened : ∀ (newer between older : JobHistory) who time lease e,
    h = newer ++ .acquired who time lease :: (between ++ e :: older) → e.Ends →
      ∃ x ∈ between, x.Opens

theorem Coherent.retryDiscipline {s : JobLog} (hs : Coherent s) (hu : Unseized s) {i : ℕ}
    {job : IngestJob} (hf : s.jobs.find i = some job) : RetryDiscipline job (s.history i) where
  status := (hs.agrees i job hf).phase
  counted := (hs.agrees i job hf).attempts
  bounded := by
    rw [(hs.agrees i job hf).attempts, (hs.agrees i job hf).budget]
    exact (hs.lawful i).attempts_le_budget (hu i)
  exclusive newer older who time lease holder beat heq hp :=
    LeaseHistory.Lawful.acquired_of_held (heq ▸ hs.lawful i) hp
  exact newer older time lease heq :=
    LeaseHistory.Lawful.expired_exact (heq ▸ hs.lawful i) fun e he ↦
      hu i e (heq ▸ List.mem_append_right _ (List.mem_cons_of_mem _ he))
  reopened newer between older who time lease e heq he :=
    LeaseHistory.Lawful.opened_between (heq ▸ hs.lawful i) he fun x hx ↦
      hu i x (heq ▸ List.mem_append_right _ (List.mem_cons_of_mem _ (List.mem_append_left _ hx)))

/-- **The retry budget is kept and leases are exclusive**, in every state of every asynchronous
deployment that starts from an empty table, and in every poll of it. -/
theorem retry_budget_and_lease_exclusivity (clock : ℚ) (ops : List AsyncOp) :
    (∀ i job, (run AsyncOp.step (.start clock) ops).jobs.find i = some job →
      RetryDiscipline job ((run AsyncOp.step (.start clock) ops).history i)) ∧
    ∀ t ∈ trace AsyncOp.step (.start clock) ops, ∀ queue locked ticket,
      t.label = .claimNextPending queue locked →
      (t.pre.claimNextPending queue locked).2 = some ticket →
      ∃ job, t.pre.jobs.find ticket.id = some job ∧ ¬ job.status.Terminal ∧
        (job.status = .processing → ∃ beat, job.heartbeatAt = some beat ∧
          (t.pre.history ticket.id).lastBeat = some beat ∧
          beat + queue.leaseSeconds ≤ t.pre.clock) := by
  have hstart : Coherent (JobLog.start clock) ∧ Unseized (JobLog.start clock) :=
    ⟨Coherent.start clock, fun _ _ he ↦ absurd he (by simp [JobLog.start])⟩
  constructor
  · intro i job hf
    obtain ⟨hc, hu⟩ := run_induction (fun _ _ _ hs h ↦ AsyncOp.step_coherent hs h) hstart ops
    exact hc.retryDiscipline hu hf
  · intro t ht queue locked ticket _ hticket
    obtain ⟨⟨hc, -⟩, -, -⟩ :=
      trace_invariant (fun _ _ _ hs h ↦ AsyncOp.step_coherent hs h) hstart ops t ht
    exact JobLog.claimNextPending_ready hc hticket

end KnowledgeAlakazam
