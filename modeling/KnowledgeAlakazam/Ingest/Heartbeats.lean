import KnowledgeAlakazam.Ingest.Fencing
import KnowledgeAlakazam.Ingest.Polling
import KnowledgeAlakazam.Ingest.Uploads
import Mathlib.Tactic.Linarith

/-!
# Does a worker that sends its heartbeats keep its lease?

While `process_job` works, a background task sleeps for `heartbeat_interval_seconds`, sends a
heartbeat and sleeps again. The interval is a third of the lease, at most a minute and at least a
tenth of a second; `run_cli` hands the same lease to the worker and to its queue. A lease is stale
as soon as the last heartbeat is a whole lease old, so the worker keeps it just if the interval is
shorter than the lease, and the lower bound on the interval breaks that: a lease of a tenth of a
second or less runs out before the first heartbeat (`keepsLeases_iff`).

Time is the clock of the deployment, and the heartbeats of one worker, the *holder*, are on time.
The state remembers when its task wakes up; the clock does not pass that time, and the task sends
its heartbeat just then. Transactions take no time. Everybody else does as they please: the other
workers with heartbeats or without, the API, whoever submits the document of the job again.
-/

namespace KnowledgeAlakazam

/-- `heartbeat_interval_seconds` of `IngestWorker`. -/
def heartbeatIntervalSeconds (workerJobLeaseSeconds : ℚ) : ℚ :=
  max (1 / 10) (min (workerJobLeaseSeconds / 3) 60)

/-- The interval fits into a lease unless the lease is too short for the lower bound. -/
theorem heartbeatIntervalSeconds_lt_iff {lease : ℚ} (hpos : 0 < lease) :
    heartbeatIntervalSeconds lease < lease ↔ 1 / 10 < lease := by
  -- the third alone would do, whatever the upper bound makes of it
  have hthird : min (lease / 3) 60 < lease := by
    calc min (lease / 3) 60 ≤ lease / 3 := min_le_left _ _
      _ < lease := by linarith
  rw [heartbeatIntervalSeconds, max_lt_iff, and_iff_left hthird]

theorem heartbeatIntervalSeconds_nonneg (lease : ℚ) : 0 ≤ heartbeatIntervalSeconds lease :=
  le_max_of_le_left (by norm_num)

/-! ## Deployments in time -/

/-- The background task of the run is alive: `process_job` ends it before `mark_failed`. -/
def RunPc.Heartbeating : RunPc → Prop
  | toMarkFailed _ => False
  | _ => True

instance : DecidablePred RunPc.Heartbeating := fun pc ↦ by
  cases pc <;> unfold RunPc.Heartbeating <;> infer_instance

/-- A deployment, and the time at which the heartbeat task of its holder wakes up. -/
structure TimedDeployment (n : ℕ) extends Deployment n where
  wakeUp : Option ℚ

/-- The step begins a sleep of the holder's task: it starts a run, or sends a heartbeat. -/
def DeployLabel.StartsSleep {n : ℕ} (holder : Fin n) : DeployLabel n → Prop
  | .poll w _ => w = holder
  | .run w .heartbeat => w = holder
  | _ => False

instance {n : ℕ} (holder : Fin n) : DecidablePred (DeployLabel.StartsSleep holder)
  | .poll w _ => inferInstanceAs (Decidable (w = holder))
  | .run w .heartbeat => inferInstanceAs (Decidable (w = holder))
  | .run _ (.download _) => instDecidableFalse
  | .run _ (.parse _) => instDecidableFalse
  | .run _ (.uploadOutput _) => instDecidableFalse
  | .run _ .finish => instDecidableFalse
  | .run _ .stop => instDecidableFalse
  | .tick _ => instDecidableFalse
  | .start _ _ _ _ => instDecidableFalse
  | .call _ _ => instDecidableFalse

namespace TimedDeployment

variable {n : ℕ}

def initial (n : ℕ) (clock : ℚ) : TimedDeployment n := ⟨.initial n clock, none⟩

/-- The clock does not pass a wake-up of the holder's task, and the task sends its heartbeats when
it wakes up. -/
def OnTime (holder : Fin n) (s : TimedDeployment n) : DeployLabel n → Prop
  | .tick seconds => ∀ due ∈ s.wakeUp, s.log.clock + seconds ≤ due
  | .run w .heartbeat => w = holder → s.wakeUp = some s.log.clock
  | _ => True

instance (holder : Fin n) (s : TimedDeployment n) : DecidablePred (s.OnTime holder)
  | .tick _ => inferInstanceAs (Decidable (∀ _ ∈ _, _))
  | .run w .heartbeat => inferInstanceAs (Decidable (w = holder → _))
  | .run _ (.download _) => instDecidableTrue
  | .run _ (.parse _) => instDecidableTrue
  | .run _ (.uploadOutput _) => instDecidableTrue
  | .run _ .finish => instDecidableTrue
  | .run _ .stop => instDecidableTrue
  | .poll _ _ => instDecidableTrue
  | .start _ _ _ _ => instDecidableTrue
  | .call _ _ => instDecidableTrue

/-- When the holder's task wakes up after a step: it sleeps for the interval of its lease, and it
is gone when the run has ended or gone to its failure path. -/
def wakeUpAfter (fleet : Fleet n) (holder : Fin n) (s : TimedDeployment n)
    (label : DeployLabel n) (next : Deployment n) : Option ℚ :=
  match next.workers holder with
  | none => none
  | some run =>
    if run.pc.Heartbeating then
      -- the first sleep begins with the claim, the next ones after a heartbeat
      if label.StartsSleep holder then
        some (s.log.clock + heartbeatIntervalSeconds (fleet.queue holder).leaseSeconds)
      else s.wakeUp
    else none

/-- One step of a deployment whose holder is on time. -/
def step (site : Site) (fleet : Fleet n) (holder : Fin n) (s : TimedDeployment n)
    (label : DeployLabel n) : Option (TimedDeployment n) :=
  if s.OnTime holder label then
    (s.toDeployment.step site fleet label).map fun next ↦
      ⟨next, s.wakeUpAfter fleet holder label next⟩
  else none

end TimedDeployment

/-! ## The law -/

/-- The poll selects the job: it gives it up as exhausted, or claims it. -/
def ClaimOutcome.Selected (outcome : ClaimOutcome) (i : ℕ) : Prop :=
  (∃ job ∈ outcome.exhausted, job.id = i) ∨ ∃ ticket ∈ outcome.ticket, ticket.id = i

/-- The worker holds the job: it runs it, its background task is alive, and the row still is its
own, so that a heartbeat would go through. -/
def Holds {n : ℕ} (s : Deployment n) (w : Fin n) (i : ℕ) : Prop :=
  ∃ run ∈ s.workers w, run.pc.Heartbeating ∧ run.ticket.id = i ∧
    ∃ job ∈ s.log.jobs.find i, assertJobLeaseOwned job run.ticket = .ok ()

/-- A poll of another worker with the same lease selects no job of the holder. -/
def KeepsLease {n : ℕ} (fleet : Fleet n) (holder : Fin n)
    (t : Transition (TimedDeployment n) (DeployLabel n)) : Prop :=
  match t.label with
  | .poll w locked =>
    w ≠ holder → (fleet.queue w).leaseSeconds = (fleet.queue holder).leaseSeconds →
      ∀ i, Holds t.pre.toDeployment holder i →
        ¬ ((fleet.queue w).claimNextPending t.pre.log.clock locked t.pre.log.jobs).Selected i
  | _ => True

/-- In every run, every holder with this lease keeps its jobs. -/
def KeepsLeases (lease : ℚ) : Prop :=
  ∀ (n : ℕ) (site : Site) (fleet : Fleet n) (holder : Fin n),
    (fleet.queue holder).leaseSeconds = lease →
    ∀ (clock : ℚ) (labels : List (DeployLabel n)),
      ∀ t ∈ trace (TimedDeployment.step site fleet holder) (.initial n clock) labels,
        KeepsLease fleet holder t

/-! ## What a step does to the heartbeats

A step other than a tick takes no time, and it leaves each row alone or leaves it with a heartbeat
of this moment, if the row is processing at all. -/

/-- No time passes, and a row that is touched and processing has just had a heartbeat. -/
structure BeatsKept (s s' : JobLog) : Prop where
  clock : s'.clock = s.clock
  rows : ∀ i, s'.jobs.find i = s.jobs.find i ∨
    ∀ job ∈ s'.jobs.find i, job.status = .processing → job.heartbeatAt = some s.clock

namespace BeatsKept

variable {s s' s'' : JobLog}

theorem refl (s : JobLog) : BeatsKept s s := ⟨rfl, fun _ ↦ .inl rfl⟩

theorem trans (h : BeatsKept s s') (h' : BeatsKept s' s'') : BeatsKept s s'' where
  clock := h'.clock.trans h.clock
  rows i := by
    rcases h'.rows i with heq | hbeat
    · rw [heq]
      exact h.rows i
    · exact .inr (h.clock ▸ hbeat)

theorem update (s : JobLog) (i : ℕ) {p : Patch IngestJob} (e : LeaseEvent Actor ℚ)
    (hp : ∀ job, (p.app job).status = .processing → (p.app job).heartbeatAt = some s.clock) :
    BeatsKept s (s.update i p e) where
  clock := rfl
  rows j := by
    rw [JobLog.jobs_update, Table.find_modify]
    split
    · refine .inr fun job hjob ↦ ?_
      obtain ⟨old, -, rfl⟩ := Option.map_eq_some_iff.mp hjob
      exact hp old
    · exact .inl rfl

theorem upsertPending {c : ℕ} {repo : IngestJobRepository} {uuid : ℕ}
    {tenantId sourceId rawBucket rawKey : String} {job : IngestJob}
    (h : s.upsertPending c repo uuid tenantId sourceId rawBucket rawKey = some (s', job)) :
    BeatsKept s s' where
  clock := JobLog.clock_upsertPending h
  rows i := by
    rw [JobLog.find_upsertPending h]
    split
    · refine .inr fun row hrow hst ↦ ?_
      rw [← Option.some.inj hrow, (JobLog.submitted_upsertPending h).status] at hst
      cases hst
    · exact .inl rfl

theorem claimNextPending (queue : DatabaseIngestJobQueue) (locked : List ℕ) (s : JobLog) :
    BeatsKept s (s.claimNextPending queue locked).1 :=
  JobLog.claimNextPending_rule queue locked (P := fun s s' _ ↦ BeatsKept s s') refl
    (fun s _ _ _ ↦ update s _ _ fun _ _ ↦ rfl)
    (fun s job _ _ _ _ ih ↦ by
      refine BeatsKept.trans ?_ ih
      exact update s job.id _ fun _ h ↦ nomatch h) s

end BeatsKept

theorem Moves.beatsKept {n : ℕ} {site : Site} {fleet : Fleet n} {s s' : Deployment n}
    {label : DeployLabel n} (h : Moves site fleet s label s')
    (hlabel : ∀ seconds, label ≠ .tick seconds) : BeatsKept s.log s'.log :=
  h.log_rule (BeatsKept.refl _)
    (fun seconds _ htick _ ↦ absurd htick (hlabel seconds))
    (fun _ _ _ _ _ _ _ _ hup ↦ BeatsKept.upsertPending hup)
    (fun _ _ ↦ BeatsKept.claimNextPending _ _ _)
    fun _ _ _ hp ↦ BeatsKept.update _ _ _ hp

namespace Deployment

variable {n : ℕ} {site : Site} {fleet : Fleet n} {s s' : Deployment n} {w : Fin n}

theorem workers_setRun_self (s : Deployment n) (w : Fin n) (run : Option WorkerRun) :
    (s.setRun w run).workers w = run := by
  rw [workers_setRun, if_pos rfl]

theorem workers_setRun_of_ne (s : Deployment n) {v : Fin n} (h : w ≠ v)
    (run : Option WorkerRun) : (s.setRun v run).workers w = s.workers w := by
  rw [workers_setRun, if_neg h]

theorem workers_of_ne {label : DeployLabel n} (h : Moves site fleet s label s')
    (hpoll : ∀ locked, label ≠ .poll w locked) (hrun : ∀ step, label ≠ .run w step) :
    s'.workers w = s.workers w := by
  have hne : ∀ {v : Fin n} {step : RunStep}, label = .run v step → w ≠ v := by
    rintro v step hlabel rfl
    exact hrun step hlabel
  cases h with
  | polled hidle =>
    refine workers_setRun_of_ne _ ?_ _
    rintro rfl
    exact hpoll _ rfl
  | ran hv hnext => exact workers_setRun_of_ne _ (hne rfl) _
  | runUploadedOutput hv hpc hkey => exact workers_setRun_of_ne _ (hne rfl) _
  | runSucceeded hv hop => exact workers_setRun_of_ne _ (hne rfl) _
  | runFailed hv hop => exact workers_setRun_of_ne _ (hne rfl) _
  | _ => rfl

theorem ticket_of_run {run : WorkerRun} {step : RunStep} (hrun : s.workers w = some run)
    (h : Moves site fleet s (.run w step) s') :
    ∀ run' ∈ s'.workers w, run'.ticket = run.ticket := by
  intro run' hrun'
  cases h with
  | ran hw hnext =>
    obtain rfl := Option.some.inj (hrun.symm.trans hw)
    rw [workers_setRun_self] at hrun'
    exact (hnext run' hrun').1
  | runUploadedOutput hw hpc hkey =>
    obtain rfl := Option.some.inj (hrun.symm.trans hw)
    rw [workers_setRun_self] at hrun'
    rw [← Option.some.inj hrun']
  | heartbeat hw hop => rw [Option.some.inj (hrun.symm.trans hrun')]
  | skipped hw => rw [Option.some.inj (hrun.symm.trans hrun')]
  | runSucceeded hw hop =>
    rw [workers_setRun_self] at hrun'
    exact nomatch hrun'
  | runFailed hw hop =>
    rw [workers_setRun_self] at hrun'
    exact nomatch hrun'

/-- A run that has gone to its failure path has no background task any more. -/
theorem workers_of_toMarkFailed {run : WorkerRun} {error : String} {step : RunStep}
    (hpc : run.pc = .toMarkFailed error) (h : s.stepRun site w run step = some s') :
    s'.workers w = none := by
  unfold stepRun at h
  rw [hpc] at h
  cases step with
  | finish =>
    rw [← Option.some.inj h, runFailed]
    split <;> rw [workers_setRun_self]
  | stop => rw [← Option.some.inj h, workers_setRun_self]
  | _ => cases h

/-- A worker comes to a run by a poll of its own, and the run's background task does not come back
to life. -/
theorem exists_run_before {label : DeployLabel n} (h : s.step site fleet label = some s')
    (hpoll : ∀ locked, label ≠ .poll w locked) {run' : WorkerRun}
    (hrun' : s'.workers w = some run') :
    ∃ run, s.workers w = some run ∧ run'.ticket = run.ticket ∧
      (run'.pc.Heartbeating → run.pc.Heartbeating) := by
  by_cases hlabel : ∃ step, label = .run w step
  · obtain ⟨step, rfl⟩ := hlabel
    have hmoves := moves_of_step h
    obtain ⟨run, hrun, hstep⟩ := Option.bind_eq_some_iff.mp h
    refine ⟨run, hrun, ticket_of_run hrun hmoves run' hrun', fun _ ↦ ?_⟩
    -- from the failure path the run can only end
    cases hpc : run.pc with
    | toMarkFailed error =>
      exact nomatch (workers_of_toMarkFailed hpc hstep).symm.trans hrun'
    | _ => trivial
  · rw [workers_of_ne (moves_of_step h) hpoll fun step heq ↦ hlabel ⟨step, heq⟩] at hrun'
    exact ⟨run', hrun', rfl, fun hbeat ↦ hbeat⟩

end Deployment

/-! ### Claims and heartbeats -/

/-- What a poll selects is claimable in the table it starts from. -/
theorem DatabaseIngestJobQueue.claimable_of_selected {queue : DatabaseIngestJobQueue} {now : ℚ}
    {locked : List ℕ} {jobs : IngestJobs} {i : ℕ}
    (h : (queue.claimNextPending now locked jobs).Selected i) :
    ∃ job, jobs.find i = some job ∧ queue.Claimable now locked job := by
  refine claimNextPending_rule queue now locked
    (P := fun jobs outcome ↦ outcome.Selected i →
      ∃ job, jobs.find i = some job ∧ queue.Claimable now locked job)
    (fun jobs _ h ↦ ?_) (fun jobs job hsel _ h ↦ ?_) (fun jobs job rest hsel _ ih h ↦ ?_) jobs h
  · rcases h with ⟨job, hjob, -⟩ | ⟨ticket, hticket, -⟩
    · exact nomatch hjob
    · exact nomatch hticket
  · obtain ⟨hmem, hclaimable, -⟩ := pendingJobClaimStatement_eq_some hsel
    rcases h with ⟨job, hjob, -⟩ | ⟨ticket, hticket, rfl⟩
    · exact nomatch hjob
    · obtain rfl := Option.some.inj hticket
      exact ⟨job, Table.find_primary hmem, hclaimable⟩
  · obtain ⟨hmem, hclaimable, -⟩ := pendingJobClaimStatement_eq_some hsel
    by_cases hi : i = job.id
    · exact ⟨job, hi ▸ Table.find_primary hmem, hclaimable⟩
    · -- the rest of the poll has selected it, and its row is as it was
      rw [Table.find_modify_of_ne hi] at ih
      refine ih ?_
      rcases h with ⟨row, hrow, rfl⟩ | hticket
      · rcases List.mem_cons.mp hrow with rfl | hrow
        · exact absurd rfl hi
        · exact .inl ⟨row, hrow, rfl⟩
      · exact .inr hticket

theorem JobLog.heartbeatAt_of_claimNextPending {s : JobLog} {queue : DatabaseIngestJobQueue}
    {locked : List ℕ} {ticket : ClaimedIngestJob}
    (h : (s.claimNextPending queue locked).2 = some ticket) :
    ∀ job ∈ (s.claimNextPending queue locked).1.jobs.find ticket.id,
      job.heartbeatAt = some s.clock := by
  refine claimNextPending_rule queue locked
    (P := fun s s' result ↦ result = some ticket →
      ∀ job ∈ s'.jobs.find ticket.id, job.heartbeatAt = some s.clock)
    (fun _ h ↦ nomatch h) (fun s row hsel _ h job hjob ↦ ?_) (fun _ _ _ _ _ _ ih ↦ ih) s h
  have hf : s.jobs.find row.id = some row :=
    Table.find_primary (mem_of_pendingJobClaimStatement hsel).1
  obtain rfl := Option.some.inj h
  obtain rfl := Option.some.inj ((Table.find_modify_self hf _).symm.trans hjob)
  rfl

namespace Deployment

variable {n : ℕ} {site : Site} {fleet : Fleet n} {s s' : Deployment n} {w : Fin n}

theorem heartbeatAt_runHeartbeat (s : Deployment n) (run : WorkerRun) :
    ∀ job ∈ (s.runHeartbeat run).log.jobs.find run.ticket.id,
      assertJobLeaseOwned job run.ticket = .ok () → job.heartbeatAt = some s.log.clock := by
  intro job hjob hown
  rw [runHeartbeat] at hjob
  cases hbeat : s.log.heartbeat run.ticket with
  | ok log =>
    rw [hbeat] at hjob
    obtain ⟨old, hf, -, -, rfl⟩ := JobLog.heartbeat_ok hbeat
    obtain rfl := Option.some.inj ((Table.find_modify_self hf _).symm.trans hjob)
    rfl
  | error e =>
    -- a heartbeat that raises has found a row of somebody else
    rw [hbeat] at hjob
    rw [JobLog.heartbeat, DatabaseIngestJobQueue.heartbeat, Option.mem_def.mp hjob] at hbeat
    dsimp only at hbeat
    rw [hown] at hbeat
    cases hbeat

theorem eq_runHeartbeat {run : WorkerRun} (h : s.stepRun site w run .heartbeat = some s') :
    s' = s.runHeartbeat run := by
  unfold stepRun at h
  cases hpc : run.pc with
  | toMarkFailed error =>
    rw [hpc] at h
    exact nomatch h
  | _ =>
    rw [hpc] at h
    exact (Option.some.inj h).symm

/-- When a sleep begins, the row of the run has just had a heartbeat. -/
theorem heartbeatAt_of_startsSleep {label : DeployLabel n} (h : s.step site fleet label = some s')
    (hlabel : label.StartsSleep w) :
    ∀ run ∈ s'.workers w, ∀ job ∈ s'.log.jobs.find run.ticket.id,
      assertJobLeaseOwned job run.ticket = .ok () → job.heartbeatAt = some s.log.clock := by
  intro run hrun job hjob hown
  unfold DeployLabel.StartsSleep at hlabel
  split at hlabel
  · rename_i v locked
    subst hlabel
    rw [Deployment.step] at h
    split at h
    · rw [← Option.some.inj h, poll, workers_setRun_self] at hrun
      obtain ⟨ticket, hticket, rfl⟩ := Option.map_eq_some_iff.mp hrun
      rw [← Option.some.inj h] at hjob
      exact JobLog.heartbeatAt_of_claimNextPending hticket job hjob
    · cases h
  · subst hlabel
    obtain ⟨before, hbefore, hstep⟩ := Option.bind_eq_some_iff.mp h
    have hticket := ticket_of_run hbefore (moves_of_step h) run hrun
    rw [eq_runHeartbeat hstep, hticket] at hjob
    exact heartbeatAt_runHeartbeat s before job hjob (hticket ▸ hown)
  · exact hlabel.elim

end Deployment

/-! ## On time all the time -/

/-- The invariant of a holder that sends a heartbeat in every period: while its background task is
alive, the next heartbeat is due at the wake-up, and the last one is in its row. -/
structure Punctual {n : ℕ} (period : ℚ) (holder : Fin n) (s : TimedDeployment n) : Prop where
  /-- The task of a run sleeps. -/
  asleep : ∀ run, s.workers holder = some run → run.pc.Heartbeating → s.wakeUp ≠ none
  /-- It wakes up within a period. -/
  next : ∀ due ∈ s.wakeUp, RenewsOnTime period s.log.clock due s.log.clock
  /-- It wakes up within a period of the last heartbeat. -/
  last : ∀ run, s.workers holder = some run → ∀ due ∈ s.wakeUp,
    ∀ job ∈ s.log.jobs.find run.ticket.id, assertJobLeaseOwned job run.ticket = .ok () →
      ∃ beat ∈ job.heartbeatAt, RenewsOnTime period beat due s.log.clock

namespace TimedDeployment

variable {n : ℕ} {site : Site} {fleet : Fleet n} {holder : Fin n} {s s' : TimedDeployment n}
  {label : DeployLabel n} {next : Deployment n}

theorem step_eq_some (h : step site fleet holder s label = some s') :
    s.OnTime holder label ∧ ∃ next, s.toDeployment.step site fleet label = some next ∧
      s' = ⟨next, s.wakeUpAfter fleet holder label next⟩ := by
  rw [step] at h
  split at h
  · rename_i hon
    obtain ⟨next, hnext, rfl⟩ := Option.map_eq_some_iff.mp h
    exact ⟨hon, next, hnext, rfl⟩
  · exact nomatch h

theorem step_of_onTime (hon : s.OnTime holder label)
    (h : s.toDeployment.step site fleet label = some next) :
    step site fleet holder s label = some ⟨next, s.wakeUpAfter fleet holder label next⟩ := by
  rw [step, if_pos hon, h]
  rfl

/-- While the task is alive, it wakes up an interval after a claim or a heartbeat, and otherwise
when it would have. -/
theorem wakeUpAfter_eq {run : WorkerRun} (hrun : next.workers holder = some run)
    (hbeat : run.pc.Heartbeating) :
    s.wakeUpAfter fleet holder label next = if label.StartsSleep holder
      then some (s.log.clock + heartbeatIntervalSeconds (fleet.queue holder).leaseSeconds)
      else s.wakeUp := by
  rw [wakeUpAfter, hrun]
  exact if_pos hbeat

theorem exists_of_mem_wakeUpAfter {due : ℚ} (h : due ∈ s.wakeUpAfter fleet holder label next) :
    ∃ run, next.workers holder = some run ∧ run.pc.Heartbeating := by
  rw [wakeUpAfter] at h
  split at h
  · exact nomatch h
  · rename_i run hrun
    split at h
    · rename_i hbeat
      exact ⟨run, hrun, hbeat⟩
    · exact nomatch h

end TimedDeployment

namespace Punctual

variable {n : ℕ} {site : Site} {fleet : Fleet n} {holder : Fin n} {s s' : TimedDeployment n}
  {label : DeployLabel n} {next : Deployment n} {period : ℚ}

theorem initial (period : ℚ) (holder : Fin n) (clock : ℚ) :
    Punctual period holder (TimedDeployment.initial n clock) where
  asleep _ h := nomatch h
  next _ h := nomatch h
  last _ h := nomatch h

theorem sleep (hlabel : label.StartsSleep holder)
    (h : s.toDeployment.step site fleet label = some next)
    (hclock : next.log.clock = s.log.clock) :
    Punctual (heartbeatIntervalSeconds (fleet.queue holder).leaseSeconds) holder
      ⟨next, s.wakeUpAfter fleet holder label next⟩ := by
  have hdue : ∀ due ∈ s.wakeUpAfter fleet holder label next, RenewsOnTime
      (heartbeatIntervalSeconds (fleet.queue holder).leaseSeconds) next.log.clock due
      next.log.clock := by
    intro due hdue
    obtain ⟨run, hrun, hbeat⟩ := TimedDeployment.exists_of_mem_wakeUpAfter hdue
    rw [TimedDeployment.wakeUpAfter_eq hrun hbeat, if_pos hlabel] at hdue
    rw [← Option.some.inj hdue, hclock]
    exact RenewsOnTime.renew (heartbeatIntervalSeconds_nonneg _) _
  constructor
  · intro run hrun hbeat
    rw [TimedDeployment.wakeUpAfter_eq hrun hbeat, if_pos hlabel]
    exact Option.some_ne_none _
  · exact hdue
  · intro run hrun due hmem job hjob hown
    have hbeat := Deployment.heartbeatAt_of_startsSleep h hlabel run hrun job hjob hown
    exact ⟨s.log.clock, hbeat, hclock ▸ hdue due hmem⟩

theorem sleepOn (hs : Punctual period holder s) (hlabel : ¬ label.StartsSleep holder)
    (h : s.toDeployment.step site fleet label = some next)
    (hnext : ∀ due ∈ s.wakeUp, RenewsOnTime period next.log.clock due next.log.clock)
    (hlast : ∀ due ∈ s.wakeUp, ∀ run, s.workers holder = some run →
      ∀ job ∈ next.log.jobs.find run.ticket.id, assertJobLeaseOwned job run.ticket = .ok () →
        ∃ beat ∈ job.heartbeatAt, RenewsOnTime period beat due next.log.clock) :
    Punctual period holder ⟨next, s.wakeUpAfter fleet holder label next⟩ := by
  have hpoll : ∀ locked, label ≠ .poll holder locked := by
    rintro locked rfl
    exact hlabel rfl
  have hwake : ∀ due ∈ s.wakeUpAfter fleet holder label next, due ∈ s.wakeUp := by
    intro due hdue
    obtain ⟨run, hrun, hbeat⟩ := TimedDeployment.exists_of_mem_wakeUpAfter hdue
    rwa [TimedDeployment.wakeUpAfter_eq hrun hbeat, if_neg hlabel] at hdue
  constructor
  · intro run' hrun' hbeat
    obtain ⟨run, hrun, -, hbefore⟩ := Deployment.exists_run_before h hpoll hrun'
    rw [TimedDeployment.wakeUpAfter_eq hrun' hbeat, if_neg hlabel]
    exact hs.asleep run hrun (hbefore hbeat)
  · exact fun due hdue ↦ hnext due (hwake due hdue)
  · intro run' hrun' due hdue job hjob hown
    obtain ⟨run, hrun, hticket, -⟩ := Deployment.exists_run_before h hpoll hrun'
    rw [hticket] at hjob hown
    exact hlast due (hwake due hdue) run hrun job hjob hown

theorem tick (hs : Punctual period holder s) {seconds : ℚ} (hon : s.OnTime holder (.tick seconds))
    (h : s.toDeployment.step site fleet (.tick seconds) = some next) :
    Punctual period holder ⟨next, s.wakeUpAfter fleet holder (.tick seconds) next⟩ := by
  obtain ⟨log, hlog, hnext⟩ := Option.map_eq_some_iff.mp h
  obtain ⟨hpos, hjobs, -⟩ := JobLog.tick_eq_some hlog
  have hclock : next.log.clock = s.log.clock + seconds := by
    rw [JobLog.tick, if_pos hpos] at hlog
    rw [← hnext, ← Option.some.inj hlog]
  refine hs.sleepOn (fun hlabel ↦ hlabel) h (fun due hdue ↦ ?_)
    fun due hdue run hrun job hjob hown ↦ ?_
  · rw [hclock]
    exact ((hs.next due hdue).wait (hon due hdue)).mono (le_add_of_nonneg_right hpos)
  · rw [← hnext] at hjob
    dsimp only at hjob
    rw [hjobs] at hjob
    obtain ⟨beat, hbeat, hrenews⟩ := hs.last run hrun due hdue job hjob hown
    exact ⟨beat, hbeat, hclock ▸ hrenews.wait (hon due hdue)⟩

theorem keep (hs : Punctual period holder s) (hlabel : ¬ label.StartsSleep holder)
    (h : s.toDeployment.step site fleet label = some next)
    (hkept : BeatsKept s.log next.log) :
    Punctual period holder ⟨next, s.wakeUpAfter fleet holder label next⟩ := by
  refine hs.sleepOn hlabel h (fun due hdue ↦ ?_) fun due hdue run hrun job hjob hown ↦ ?_
  · rw [hkept.clock]
    exact hs.next due hdue
  · rw [hkept.clock]
    rcases hkept.rows run.ticket.id with heq | hbeat
    · exact hs.last run hrun due hdue job (heq ▸ hjob) hown
    · -- whoever touched the row has left a heartbeat of this moment
      have hprocessing := (assertJobLeaseOwned_ok.mp hown).1
      exact ⟨s.log.clock, hbeat job hjob hprocessing, hs.next due hdue⟩

/-- **One step keeps the invariant.** -/
theorem step (hs : Punctual (heartbeatIntervalSeconds (fleet.queue holder).leaseSeconds) holder s)
    (h : TimedDeployment.step site fleet holder s label = some s') :
    Punctual (heartbeatIntervalSeconds (fleet.queue holder).leaseSeconds) holder s' := by
  obtain ⟨hon, next, hnext, rfl⟩ := TimedDeployment.step_eq_some h
  -- time passes, or a sleep begins, or somebody else moves
  by_cases htick : ∃ seconds, label = .tick seconds
  · obtain ⟨seconds, rfl⟩ := htick
    exact hs.tick hon hnext
  · have hkept : BeatsKept s.log next.log :=
      (Deployment.moves_of_step hnext).beatsKept fun seconds heq ↦ htick ⟨seconds, heq⟩
    by_cases hlabel : label.StartsSleep holder
    · exact sleep hlabel hnext hkept.clock
    · exact hs.keep hlabel hnext hkept

/-- **A punctual holder keeps its lease** if the lease is longer than the period. -/
theorem keepsLease (hs : Punctual period holder s)
    (hlt : period < (fleet.queue holder).leaseSeconds) :
    KeepsLease fleet holder ⟨s, label, s'⟩ := by
  cases label with
  | poll w locked =>
    rintro - hlease i ⟨run, hrun, hbeating, rfl, job, hjob, hown⟩ hselected
    obtain ⟨row, hrow, hclaimable⟩ := DatabaseIngestJobQueue.claimable_of_selected hselected
    obtain rfl := Option.some.inj (hjob.symm.trans hrow)
    obtain ⟨due, hdue⟩ := Option.ne_none_iff_exists'.mp (hs.asleep run hrun hbeating)
    obtain ⟨beat, hbeat, hrenews⟩ := hs.last run hrun due hdue job hjob hown
    rcases hclaimable.2 with ⟨hpending, -⟩ | ⟨-, hstale⟩
    · -- the row is the holder's own, so it is processing
      exact nomatch hpending.symm.trans (assertJobLeaseOwned_ok.mp hown).1
    · have hle : beat ≤ s.log.clock - (fleet.queue w).leaseSeconds := hstale beat hbeat
      rw [hlease] at hle
      exact hrenews.not_lapsed hlt (le_sub_iff_add_le.mp hle)
  | _ => trivial

end Punctual

/-! ## Leases that are too short -/

theorem DatabaseIngestJobQueue.claimNextPending_single {queue : DatabaseIngestJobQueue} {now : ℚ}
    {locked : List ℕ} {jobs : IngestJobs} {job : IngestJob} (hrows : jobs.rows = [job])
    (hclaimable : queue.Claimable now locked job) (hleft : job.AttemptsLeft) :
    queue.claimNextPending now locked jobs =
      ⟨jobs.modify job.id (claimJobForWorker now queue.workerId), [],
        some (.fromModel ((claimJobForWorker now queue.workerId).app job))⟩ := by
  refine claimNextPending_rule queue now locked
    (P := fun jobs outcome ↦ jobs.rows = [job] → outcome =
      ⟨jobs.modify job.id (claimJobForWorker now queue.workerId), [],
        some (.fromModel ((claimJobForWorker now queue.workerId).app job))⟩)
    (fun jobs hnone hrows ↦ ?_) (fun jobs row hsel _ hrows ↦ ?_)
    (fun jobs row rest hsel hex _ hrows ↦ ?_) jobs hrows
  · have hmem : job ∈ jobs.rows := hrows ▸ List.mem_singleton_self job
    exact absurd hclaimable (pendingJobClaimStatement_eq_none.mp hnone job hmem)
  · have hmem := (pendingJobClaimStatement_eq_some hsel).1
    rw [hrows] at hmem
    rw [List.mem_singleton.mp hmem]
  · have hmem := (pendingJobClaimStatement_eq_some hsel).1
    rw [hrows] at hmem
    rw [List.mem_singleton.mp hmem, attemptsLeft_iff.mp hleft] at hex
    exact nomatch hex

def twoWorkersWithLease (lease : ℚ) (hpos : 0 < lease) : Fleet 2 where
  queue w := ⟨lease, twoWorkers.workerId w, hpos⟩
  distinct := twoWorkers.distinct

/-- The first worker claims a document, and the second one polls when the first heartbeat is due. -/
def pollBeforeHeartbeat : List (DeployLabel 2) :=
  [.start 0 .submit sampleRequest 7, .poll firstWorker [], .tick (1 / 10), .poll secondWorker []]

/-- The document is submitted: a table with one row, which is up for its first attempt. -/
theorem exists_submitted : ∃ submitted ∈ Deployment.startCall defaultSite (.initial 2 0) 0 .submit
    sampleRequest 7, ∃ job, submitted.log.jobs.rows = [job] ∧ job.status = .pending ∧
      job.nextAttemptAt = none ∧ job.attemptCount + 1 < job.maxAttempts ∧
      submitted.log.clock = 0 ∧ ∀ w, submitted.workers w = none := by
  obtain ⟨submitted, hsubmitted, hrows, hjob⟩ : ∃ submitted ∈ Deployment.startCall defaultSite
      (.initial 2 0) 0 .submit sampleRequest 7, submitted.log.jobs.rows.length = 1 ∧
      ∀ job ∈ submitted.log.jobs.rows, job.status = .pending ∧ job.nextAttemptAt = none ∧
        job.attemptCount + 1 < job.maxAttempts ∧ submitted.log.clock = 0 ∧
        ∀ w, (submitted.workers w).isNone := by
    decide +kernel
  obtain ⟨job, hrow⟩ := List.length_eq_one_iff.mp hrows
  obtain ⟨hst, hnext, hattempts, hclock, hidle⟩ := hjob job (hrow ▸ List.mem_singleton_self job)
  exact ⟨submitted, hsubmitted, job, hrow, hst, hnext, hattempts, hclock,
    fun w ↦ Option.isNone_iff_eq_none.mp (hidle w)⟩

theorem Deployment.poll_single {n : ℕ} {s : Deployment n} {queue : DatabaseIngestJobQueue}
    {locked : List ℕ} {job : IngestJob} (w : Fin n) (hrows : s.log.jobs.rows = [job])
    (hclaimable : queue.Claimable s.log.clock locked job) (hleft : job.AttemptsLeft) :
    (s.poll queue w locked).log.jobs.rows
      = [(claimJobForWorker s.log.clock queue.workerId).app job] ∧
    ∃ tenure, (s.poll queue w locked).workers w = some
      ⟨.fromModel ((claimJobForWorker s.log.clock queue.workerId).app job), tenure,
        .toDownload⟩ := by
  have hpoll := DatabaseIngestJobQueue.claimNextPending_single hrows hclaimable hleft
  constructor
  · change (s.log.claimNextPending queue locked).1.jobs.rows = _
    rw [JobLog.claimNextPending, hpoll]
    change (s.log.jobs.modify job.id _).rows = _
    rw [Table.rows_modify, hrows, List.map_singleton, if_pos (IngestJob.primary_eq job)]
  · rw [poll, workers_setRun_self, JobLog.claimNextPending, hpoll]
    exact ⟨_, rfl⟩

/-- The first worker has claimed the document: its row is locked for another attempt or two, and
the first heartbeat is due in a tenth of a second at the earliest. -/
structure FirstClaimed (s : TimedDeployment 2) (run : WorkerRun) (job : IngestJob) : Prop where
  clock : s.log.clock = 0
  rows : s.log.jobs.rows = [job]
  running : s.workers firstWorker = some run
  idle : s.workers secondWorker = none
  heartbeating : run.pc.Heartbeating
  ticket : run.ticket = .fromModel job
  status : job.status = .processing
  heartbeatAt : job.heartbeatAt = some 0
  attemptsLeft : job.AttemptsLeft
  wakeUp : ∀ due ∈ s.wakeUp, 1 / 10 ≤ due

theorem exists_firstClaimed {lease : ℚ} (hpos : 0 < lease) :
    ∃ s s' run job,
      TimedDeployment.step defaultSite (twoWorkersWithLease lease hpos) firstWorker (.initial 2 0)
        (.start 0 .submit sampleRequest 7) = some s ∧
      TimedDeployment.step defaultSite (twoWorkersWithLease lease hpos) firstWorker s
        (.poll firstWorker []) = some s' ∧ FirstClaimed s' run job := by
  obtain ⟨submitted, hstart, job, hrows, hst, hnext, hattempts, hclock, hidle⟩ := exists_submitted
  let queue := (twoWorkersWithLease lease hpos).queue firstWorker
  have hclaimable : queue.Claimable submitted.log.clock [] job :=
    ⟨List.not_mem_nil, .inl ⟨hst, fun t ht ↦ nomatch hnext.symm.trans ht⟩⟩
  obtain ⟨hrow, tenure, hrun⟩ := Deployment.poll_single firstWorker hrows hclaimable
    (Nat.lt_of_succ_lt hattempts)
  -- The one pending row is claimed, at the time at which it was submitted.
  have hstep : submitted.step defaultSite (twoWorkersWithLease lease hpos) (.poll firstWorker [])
      = some (submitted.poll queue firstWorker []) := by
    rw [Deployment.step, hidle]
  let row := (claimJobForWorker submitted.log.clock queue.workerId).app job
  refine ⟨_, _, ⟨.fromModel row, tenure, .toDownload⟩, row,
    TimedDeployment.step_of_onTime trivial hstart, TimedDeployment.step_of_onTime trivial hstep, ?_⟩
  have hkept := BeatsKept.claimNextPending queue [] submitted.log
  exact {
    clock := hkept.clock.trans hclock
    rows := hrow
    running := hrun
    idle := by
      dsimp only
      rw [Deployment.poll, Deployment.workers_setRun_of_ne _ (by decide)]
      exact hidle secondWorker
    heartbeating := trivial
    ticket := rfl
    status := rfl
    heartbeatAt := congrArg some hclock
    attemptsLeft := hattempts
    wakeUp := fun due hdue ↦ by
      have hlabel : (DeployLabel.poll firstWorker []).StartsSleep firstWorker := rfl
      rw [TimedDeployment.wakeUpAfter_eq hrun trivial, if_pos hlabel] at hdue
      rw [← Option.some.inj hdue]
      dsimp only
      rw [hclock, zero_add]
      exact le_max_left _ _ }

theorem FirstClaimed.selected {lease : ℚ} (hpos : 0 < lease) (hle : lease ≤ 1 / 10)
    {s : TimedDeployment 2} {run : WorkerRun} {job : IngestJob} (hs : FirstClaimed s run job) :
    ∃ t ∈ trace (TimedDeployment.step defaultSite (twoWorkersWithLease lease hpos) firstWorker) s
      [.tick (1 / 10), .poll secondWorker []],
      ¬ KeepsLease (twoWorkersWithLease lease hpos) firstWorker t := by
  let queue := (twoWorkersWithLease lease hpos).queue secondWorker
  let later : Deployment 2 :=
    { s.toDeployment with log := { s.log with clock := s.log.clock + 1 / 10 } }
  have hclock : s.log.clock + 1 / 10 = 1 / 10 := by rw [hs.clock, zero_add]
  have hon : s.OnTime firstWorker (.tick (1 / 10)) := fun due hdue ↦ by
    rw [hclock]
    exact hs.wakeUp due hdue
  have htick : s.toDeployment.step defaultSite (twoWorkersWithLease lease hpos) (.tick (1 / 10))
      = some later := by
    rw [Deployment.step, JobLog.tick, if_pos (by norm_num)]
    rfl
  have hpoll : later.step defaultSite (twoWorkersWithLease lease hpos) (.poll secondWorker [])
      = some (later.poll queue secondWorker []) := by
    rw [Deployment.step, show later.workers secondWorker = none from hs.idle]
  have hclaimable : queue.Claimable later.log.clock [] job := by
    refine ⟨List.not_mem_nil, .inr ⟨hs.status, fun beat hbeat ↦ ?_⟩⟩
    obtain rfl := Option.some.inj (hs.heartbeatAt.symm.trans hbeat)
    rw [show later.log.clock = 1 / 10 from hclock]
    exact sub_nonneg.mpr hle
  have hselected := DatabaseIngestJobQueue.claimNextPending_single
    (show later.log.jobs.rows = [job] from hs.rows) hclaimable hs.attemptsLeft
  let atWakeUp : TimedDeployment 2 := ⟨later, s.wakeUpAfter (twoWorkersWithLease lease hpos)
    firstWorker (.tick (1 / 10)) later⟩
  have hon' : atWakeUp.OnTime firstWorker (.poll secondWorker []) := trivial
  rw [trace_cons_of_some (TimedDeployment.step_of_onTime hon htick),
    trace_cons_of_some (TimedDeployment.step_of_onTime hon' hpoll)]
  refine ⟨_, List.mem_cons_of_mem _ List.mem_cons_self, fun hkeeps ↦ ?_⟩
  refine hkeeps (by decide) rfl job.id ?_ ?_
  · -- the row still is the first worker's: a heartbeat now would go through
    have hfind : s.log.jobs.find job.id = some job :=
      Table.find_primary (hs.rows ▸ List.mem_singleton_self job)
    refine ⟨run, hs.running, hs.heartbeating, by rw [hs.ticket]; rfl, job, hfind, ?_⟩
    rw [assertJobLeaseOwned_ok, hs.ticket]
    exact ⟨hs.status, rfl⟩
  · rw [show _ = _ from hselected]
    exact .inr ⟨_, rfl, rfl⟩

/-- **A lease of a tenth of a second or less is lost**: the second worker's poll selects the job
while the first worker runs it. -/
theorem not_keepsLeases {lease : ℚ} (hpos : 0 < lease) (hle : lease ≤ 1 / 10) :
    ¬ KeepsLeases lease := by
  intro hkeeps
  obtain ⟨s, s', run, job, hstart, hclaim, hs⟩ := exists_firstClaimed hpos
  obtain ⟨t, ht, hlost⟩ := hs.selected hpos hle
  refine hlost (hkeeps 2 defaultSite (twoWorkersWithLease lease hpos) firstWorker rfl 0
    pollBeforeHeartbeat t ?_)
  rw [pollBeforeHeartbeat, trace_cons_of_some hstart, trace_cons_of_some hclaim]
  exact List.mem_cons_of_mem _ (List.mem_cons_of_mem _ ht)

/-- **A worker that sends its heartbeats keeps its lease just if the lease is longer than a tenth
of a second.** -/
theorem keepsLeases_iff {lease : ℚ} (hpos : 0 < lease) : KeepsLeases lease ↔ 1 / 10 < lease := by
  constructor
  · intro hkeeps
    by_contra hle
    exact not_keepsLeases hpos (not_lt.mp hle) hkeeps
  · rintro hlong n site fleet holder rfl clock labels t ht
    have hlt := (heartbeatIntervalSeconds_lt_iff hpos).mpr hlong
    obtain ⟨hs, -, -⟩ := trace_invariant (fun _ _ _ hs h ↦ Punctual.step hs h)
      (Punctual.initial _ holder clock) labels t ht
    exact hs.keepsLease hlt

/-- Workers with the default lease keep it. -/
theorem keepsLeases_default : KeepsLeases 300 :=
  (keepsLeases_iff (by norm_num)).mpr (by norm_num)

/-- **A lease of a twentieth of a second is lost before the first heartbeat.** -/
theorem short_lease_lost : ¬ KeepsLeases (1 / 20) :=
  not_keepsLeases (by norm_num) (by norm_num)

end KnowledgeAlakazam
