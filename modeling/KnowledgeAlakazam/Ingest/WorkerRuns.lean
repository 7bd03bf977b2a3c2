import KnowledgeAlakazam.Ingest.Heartbeats

/-!
# Processing a job

`process_job`, from the ticket to the mark, as long as the worker is alone with the row of its
ticket: nobody else writes to that row while time passes and the run takes its steps. Then the row
stays the worker's own, the mark at the end is accepted, and it is the verdict of the processing:
the row is succeeded if nothing was raised, and failed with the first error otherwise. The other
rows stay.
-/

namespace KnowledgeAlakazam

/-! ## The steps -/

/-- What happens while a worker processes a job: time passes, or the run takes a step. The run is
not stopped. -/
inductive WorkStep where
  | wait (seconds : ℚ)
  | download (failure : Option PyException)
  | parse (outcome : Except PyException (List LocalFile))
  | uploadOutput (failure : Option PyException)
  | heartbeat
  | finish

variable {n : ℕ}

def WorkStep.label (w : Fin n) : WorkStep → DeployLabel n
  | wait seconds => .tick seconds
  | download failure => .run w (.download failure)
  | parse outcome => .run w (.parse outcome)
  | uploadOutput failure => .run w (.uploadOutput failure)
  | heartbeat => .run w .heartbeat
  | finish => .run w .finish

/-- The error that the processing of a job came to, if a worker is on its failure path. -/
def Deployment.errorOf (s : Deployment n) (w : Fin n) : Option String :=
  match (s.workers w).map WorkerRun.pc with
  | some (.toMarkFailed error) => some error
  | _ => none

/-- The first error in a run of a worker. -/
def firstError (w : Fin n) (ts : List (Transition (Deployment n) (DeployLabel n))) :
    Option String :=
  ts.findSome? fun t ↦ t.post.errorOf w

/-! ## One step -/

variable {site : Site} {fleet : Fleet n} {w : Fin n} {s s' : Deployment n}

/-- A worker runs a job whose row is its own. -/
structure Holding (s : Deployment n) (w : Fin n) (r : WorkerRun) (job : IngestJob) : Prop where
  running : s.workers w = some r
  find : s.log.jobs.find r.ticket.id = some job
  processing : job.status = .processing
  locked : job.lockedBy = r.ticket.lockedBy

/-- The rows are the same, but for the heartbeat. -/
def SameBut (job row : IngestJob) : Prop := { job with heartbeatAt := row.heartbeatAt } = row

/-- The row of a job whose processing came to an end. -/
def EndedAs (error : Option String) (job row : IngestJob) : Prop :=
  ∃ job', SameBut job job' ∧ row = { job' with
    status := if error = none then .succeeded else .failed
    error := error
    lockedBy := none
    nextAttemptAt := none }

/-- Time does not go back, and the other rows stay. -/
structure OthersKept (s s' : Deployment n) (i : ℕ) : Prop where
  clock : s.log.clock ≤ s'.log.clock
  find : ∀ j, j ≠ i → s'.log.jobs.find j = s.log.jobs.find j

namespace OthersKept

theorem refl (s : Deployment n) (i : ℕ) : OthersKept s s i := ⟨le_rfl, fun _ _ ↦ rfl⟩

theorem trans {s'' : Deployment n} {i : ℕ} (h : OthersKept s s' i) (h' : OthersKept s' s'' i) :
    OthersKept s s'' i :=
  ⟨h.clock.trans h'.clock, fun j hj ↦ (h'.find j hj).trans (h.find j hj)⟩

end OthersKept

theorem SameBut.refl (job : IngestJob) : SameBut job job := rfl

theorem SameBut.trans {a b c : IngestJob} (h : SameBut a b) (h' : SameBut b c) : SameBut a c := by
  rw [SameBut] at *
  rw [← h', ← h]

/-- What a step does to a job that is processed: it goes on, or it is finished. -/
inductive Worked (s : Deployment n) (w : Fin n) (r : WorkerRun) (job : IngestJob)
    (s' : Deployment n) : Prop
  | goesOn {r' : WorkerRun} {job' : IngestJob} (holding : Holding s' w r' job')
    (ticket : r'.ticket = r.ticket) (same : SameBut job job')
    (error : ∀ e, r.pc = .toMarkFailed e → r'.pc = .toMarkFailed e)
  | finished {row : IngestJob} (idle : s'.workers w = none)
    (find : s'.log.jobs.find r.ticket.id = some row) (ended : EndedAs (s.errorOf w) job row)

section Step

variable {r : WorkerRun} {job : IngestJob}

theorem Holding.goesOn (h : Holding s w r job) {r' : WorkerRun} (hlog : s'.log = s.log)
    (hrun : s'.workers w = some r') (hticket : r'.ticket = r.ticket)
    (herror : ∀ e, r.pc ≠ .toMarkFailed e) :
    Worked s w r job s' ∧ OthersKept s s' r.ticket.id := by
  refine ⟨.goesOn ⟨hrun, ?_, h.processing, ?_⟩ hticket (SameBut.refl job)
    fun e he ↦ absurd he (herror e), ?_, fun j _ ↦ ?_⟩
  · rw [hlog, hticket]
    exact h.find
  · rw [hticket]
    exact h.locked
  · rw [hlog]
  · rw [hlog]

theorem OthersKept.update {i : ℕ} {p : Patch IngestJob} {e : LeaseEvent Actor ℚ}
    (hlog : s'.log = s.log.update i p e) : OthersKept s s' i where
  clock := by rw [hlog, JobLog.clock_update]
  find j hj := by rw [hlog, JobLog.jobs_update, Table.find_modify_of_ne hj]

theorem errorOf_eq (hrun : s.workers w = some r) :
    s.errorOf w = match r.pc with
      | .toMarkFailed error => some error
      | _ => none := by
  rw [Deployment.errorOf, hrun, Option.map_some]
  cases r.pc <;> rfl

theorem Holding.heartbeat (h : Holding s w r job) (herror : ∀ e, r.pc ≠ .toMarkFailed e) :
    Worked s w r job (s.runHeartbeat r) ∧ OthersKept s (s.runHeartbeat r) r.ticket.id := by
  rw [Deployment.runHeartbeat]
  split
  · exact h.goesOn rfl h.running rfl herror
  · rename_i log hbeat
    obtain ⟨old, hf, hst, hlock, rfl⟩ := JobLog.heartbeat_ok hbeat
    obtain rfl := Option.some.inj (h.find.symm.trans hf)
    exact ⟨.goesOn ⟨h.running, Table.find_modify_self hf _, hst, hlock⟩ rfl rfl fun _ he ↦ he,
      OthersKept.update rfl⟩

/-- The queue accepts the mark of a worker whose row is its own. -/
theorem Holding.updateStatus_eq (h : Holding s w r job) (status : JobStatus)
    (error : Option String) :
    DatabaseIngestJobQueue.updateStatus s.log.jobs r.ticket status error = .ok
      (s.log.jobs.modify r.ticket.id (DatabaseIngestJobQueue.statusPatch status error)) := by
  rw [DatabaseIngestJobQueue.updateStatus, h.find]
  dsimp only
  have hown : assertJobLeaseOwned job r.ticket = .ok () :=
    assertJobLeaseOwned_ok.mpr ⟨h.processing, h.locked⟩
  rw [hown]
  rfl

theorem Holding.succeeded (h : Holding s w r job) (hpc : s.errorOf w = none) :
    Worked s w r job (s.runSucceeded w r) ∧ OthersKept s (s.runSucceeded w r) r.ticket.id := by
  rw [Deployment.runSucceeded, JobLog.workerSucceeded, DatabaseIngestJobQueue.markSucceeded,
    h.updateStatus_eq]
  refine ⟨.finished (Deployment.workers_setRun_self _ _ _) (Table.find_modify_self h.find _) ?_,
    OthersKept.update rfl⟩
  rw [hpc]
  exact ⟨job, SameBut.refl job, rfl⟩

theorem Holding.failed (h : Holding s w r job) {error : String}
    (hpc : s.errorOf w = some error) :
    Worked s w r job (s.runFailed w r error) ∧
      OthersKept s (s.runFailed w r error) r.ticket.id := by
  rw [Deployment.runFailed, JobLog.workerFailed, DatabaseIngestJobQueue.markFailed,
    h.updateStatus_eq]
  refine ⟨.finished (Deployment.workers_setRun_self _ _ _) (Table.find_modify_self h.find _) ?_,
    OthersKept.update rfl⟩
  rw [hpc]
  exact ⟨job, SameBut.refl job, rfl⟩

theorem goesOn_of_stepRun {step : RunStep} (h : s.stepRun site w r step = some s')
    (hstep : step ≠ .heartbeat ∧ step ≠ .finish ∧ step ≠ .stop) :
    s'.log = s.log ∧ (∃ r', s'.workers w = some r' ∧ r'.ticket = r.ticket) ∧
      ∀ e, r.pc ≠ .toMarkFailed e := by
  unfold Deployment.stepRun at h
  split at h
  · rename_i failure hpc
    rw [← Option.some.inj h]
    unfold Deployment.runDownload
    refine ⟨?_, ?_, fun e he ↦ by rw [hpc] at he; cases he⟩
    · split <;> rfl
    · split <;> exact ⟨_, Deployment.workers_setRun_self _ _ _, rfl⟩
  · rename_i outcome prepared hpc
    rw [← Option.some.inj h]
    unfold Deployment.runParse
    refine ⟨?_, ?_, fun e he ↦ by rw [hpc] at he; cases he⟩
    · split <;> rfl
    · split <;> exact ⟨_, Deployment.workers_setRun_self _ _ _, rfl⟩
  · rename_i failure prepared file remaining hpc
    rw [← Option.some.inj h]
    unfold Deployment.runUploadOutput
    refine ⟨?_, ?_, fun e he ↦ by rw [hpc] at he; cases he⟩
    · split <;> rfl
    · split <;> exact ⟨_, Deployment.workers_setRun_self _ _ _, rfl⟩
  · cases h
  · exact absurd rfl hstep.1
  · exact absurd rfl hstep.2.1
  · exact absurd rfl hstep.2.1
  · exact absurd rfl hstep.2.2
  · cases h

theorem finish_cases (h : s.stepRun site w r .finish = some s') :
    (∃ prepared, r.pc = .toUploadOutput prepared [] ∧ s' = s.runSucceeded w r) ∨
      ∃ error, r.pc = .toMarkFailed error ∧ s' = s.runFailed w r error := by
  unfold Deployment.stepRun at h
  cases hpc : r.pc with
  | toDownload =>
    rw [hpc] at h
    cases h
  | toParse prepared =>
    rw [hpc] at h
    cases h
  | toUploadOutput prepared remaining =>
    rw [hpc] at h
    cases remaining with
    | nil => exact .inl ⟨prepared, rfl, (Option.some.inj h).symm⟩
    | cons file remaining => cases h
  | toMarkFailed error =>
    rw [hpc] at h
    exact .inr ⟨error, rfl, (Option.some.inj h).symm⟩

/-- **One step of the worker.** -/
theorem Holding.work (h : Holding s w r job) {step : WorkStep}
    (hstep : s.step site fleet (step.label w) = some s') :
    Worked s w r job s' ∧ OthersKept s s' r.ticket.id := by
  have hrun : ∀ {rs : RunStep}, s.step site fleet (.run w rs) = some s' →
      s.stepRun site w r rs = some s' := by
    intro rs hrs
    rw [Deployment.step, h.running] at hrs
    exact hrs
  have hplain : ∀ {rs : RunStep}, s.step site fleet (.run w rs) = some s' →
      rs ≠ .heartbeat ∧ rs ≠ .finish ∧ rs ≠ .stop →
      Worked s w r job s' ∧ OthersKept s s' r.ticket.id := by
    intro rs hrs hne
    obtain ⟨hlog, ⟨r', hr', hticket⟩, herror⟩ := goesOn_of_stepRun (hrun hrs) hne
    exact h.goesOn hlog hr' hticket herror
  cases step with
  | wait seconds =>
    obtain ⟨log, htick, rfl⟩ := Option.map_eq_some_iff.mp hstep
    obtain ⟨hpos, hjobs, -⟩ := JobLog.tick_eq_some htick
    refine ⟨.goesOn ⟨h.running, hjobs ▸ h.find, h.processing, h.locked⟩ rfl (SameBut.refl job)
      fun _ he ↦ he, ?_, fun j _ ↦ by rw [hjobs]⟩
    rw [JobLog.tick, if_pos hpos] at htick
    rw [← Option.some.inj htick]
    exact le_add_of_nonneg_right hpos
  | download failure => exact hplain hstep (by simp)
  | parse outcome => exact hplain hstep (by simp)
  | uploadOutput failure => exact hplain hstep (by simp)
  | heartbeat =>
    have hbeat := hrun hstep
    -- the background task is cancelled before the failure is stored
    have herror : ∀ e, r.pc ≠ .toMarkFailed e := by
      intro e hpc
      unfold Deployment.stepRun at hbeat
      rw [hpc] at hbeat
      cases hbeat
    rw [Deployment.eq_runHeartbeat hbeat]
    exact h.heartbeat herror
  | finish =>
    rcases finish_cases (hrun hstep) with ⟨prepared, hpc, rfl⟩ | ⟨error, hpc, rfl⟩
    · exact h.succeeded (by rw [errorOf_eq h.running, hpc])
    · exact h.failed (by rw [errorOf_eq h.running, hpc])

end Step

/-! ## The whole run -/

/-- Without a job there is nothing to do but to wait. -/
structure Idle (s s' : Deployment n) (w : Fin n) : Prop where
  idle : s'.workers w = none
  jobs : s'.log.jobs = s.log.jobs
  clock : s.log.clock ≤ s'.log.clock

theorem Idle.refl (h : s.workers w = none) : Idle s s w := ⟨h, rfl, le_rfl⟩

theorem Idle.trans {s'' : Deployment n} (h : Idle s s' w) (h' : Idle s' s'' w) : Idle s s'' w :=
  ⟨h'.idle, h'.jobs.trans h.jobs, h.clock.trans h'.clock⟩

theorem Deployment.errorOf_idle (h : s.workers w = none) : s.errorOf w = none := by
  rw [errorOf, h]
  rfl

theorem Idle.tick {seconds : ℚ} (h : s.workers w = none)
    (hstep : s.step site fleet (.tick seconds) = some s') : Idle s s' w := by
  obtain ⟨log, htick, rfl⟩ := Option.map_eq_some_iff.mp hstep
  rw [JobLog.tick] at htick
  split at htick
  · rename_i hpos
    rw [← Option.some.inj htick]
    exact ⟨h, rfl, le_add_of_nonneg_right hpos⟩
  · cases htick

theorem Idle.step (h : s.workers w = none) {step : WorkStep}
    (hstep : s.step site fleet (step.label w) = some s') : Idle s s' w := by
  cases step with
  | wait seconds => exact Idle.tick h hstep
  | _ =>
    rw [WorkStep.label, Deployment.step, h] at hstep
    cases hstep

theorem Idle.run (site : Site) (fleet : Fleet n) (h : s.workers w = none) (work : List WorkStep) :
    Idle s (run (Deployment.step site fleet) s (work.map (WorkStep.label w))) w ∧
      firstError w (trace (Deployment.step site fleet) s (work.map (WorkStep.label w))) = none := by
  induction work generalizing s with
  | nil => exact ⟨Idle.refl h, rfl⟩
  | cons step work ih =>
    rw [List.map_cons]
    cases hstep : s.step site fleet (step.label w) with
    | none =>
      rw [run_cons_of_none hstep, trace_cons_of_none hstep]
      exact ih h
    | some s' =>
      rw [run_cons_of_some hstep, trace_cons_of_some hstep]
      have hidle := Idle.step h hstep
      obtain ⟨hrun, herror⟩ := ih hidle.idle
      refine ⟨hidle.trans hrun, ?_⟩
      rw [firstError, List.findSome?_cons, Deployment.errorOf_idle hidle.idle]
      exact herror

theorem EndedAs.of_same {error : Option String} {job job' row : IngestJob}
    (hsame : SameBut job job') (h : EndedAs error job' row) : EndedAs error job row := by
  obtain ⟨job'', hsame', hrow⟩ := h
  exact ⟨job'', hsame.trans hsame', hrow⟩

theorem EndedAs.terminal {error : Option String} {job row : IngestJob}
    (h : EndedAs error job row) : row.status.Terminal := by
  obtain ⟨job', -, rfl⟩ := h
  dsimp only
  split
  · trivial
  · trivial

theorem firstError_cons (w : Fin n) (t : Transition (Deployment n) (DeployLabel n))
    (ts : List (Transition (Deployment n) (DeployLabel n))) :
    firstError w (t :: ts) = (t.post.errorOf w).or (firstError w ts) := by
  rw [firstError, List.findSome?_cons]
  cases t.post.errorOf w <;> rfl

variable (site fleet) in
/-- **The whole run.** While a worker processes a job whose row is its own, the row stays its own,
and it ends with the verdict of the processing. The other rows stay. -/
theorem Holding.run {r : WorkerRun} {job : IngestJob} (h : Holding s w r job)
    (work : List WorkStep) :
    OthersKept s (run (Deployment.step site fleet) s (work.map (WorkStep.label w)))
      r.ticket.id ∧
    ((run (Deployment.step site fleet) s (work.map (WorkStep.label w))).workers w = none →
      ∃ row, (run (Deployment.step site fleet) s
          (work.map (WorkStep.label w))).log.jobs.find r.ticket.id = some row ∧
        EndedAs ((s.errorOf w).or (firstError w (trace (Deployment.step site fleet) s
          (work.map (WorkStep.label w))))) job row) := by
  induction work generalizing s r job with
  | nil =>
    exact ⟨OthersKept.refl s _, fun hidle ↦ nomatch (hidle.symm.trans h.running)⟩
  | cons step work ih =>
    rw [List.map_cons]
    cases hstep : s.step site fleet (step.label w) with
    | none =>
      rw [run_cons_of_none hstep, trace_cons_of_none hstep]
      exact ih h
    | some s' =>
      rw [run_cons_of_some hstep, trace_cons_of_some hstep, firstError_cons]
      obtain ⟨hworked, hkept⟩ := h.work hstep
      cases hworked with
      | goesOn h' hticket hsame herror =>
        rename_i r' job'
        obtain ⟨hkept', hend⟩ := ih h'
        rw [hticket] at hkept' hend
        refine ⟨hkept.trans hkept', fun hidle ↦ ?_⟩
        obtain ⟨row, hrow, hended⟩ := hend hidle
        refine ⟨row, hrow, EndedAs.of_same hsame ?_⟩
        -- an error that there was is still there
        cases herr : s.errorOf w with
        | none => exact hended
        | some e =>
          have hpc : r.pc = .toMarkFailed e := by
            rw [errorOf_eq h.running] at herr
            split at herr
            · rename_i hpc
              rw [hpc, Option.some.inj herr]
            · cases herr
          rw [errorOf_eq h'.running, herror e hpc] at hended
          exact hended
      | finished hidle hfind hended =>
        rename_i row
        obtain ⟨hrest, herror⟩ := Idle.run site fleet hidle work
        refine ⟨hkept.trans ⟨hrest.clock, fun j _ ↦ by rw [hrest.jobs]⟩, fun _ ↦ ⟨row, ?_, ?_⟩⟩
        · rw [hrest.jobs]
          exact hfind
        · rw [Deployment.errorOf_idle hidle, herror, Option.or_none, Option.or_none]
          exact hended

end KnowledgeAlakazam
