import KnowledgeAlakazam.Ingest.Polling
import KnowledgeAlakazam.Ingest.WorkerRuns

/-!
# The loop of a worker drains the queue

`IngestWorker.run` is a loop: a pass polls the queue, processes the job it was given to the end,
and begins again. Whatever went on before, and wherever it broke off, a worker that is started
again when all leases have run out works off everything that is there. Here the whole loop is
described by the table it starts from: it takes up every job that has attempts left, in the order
of their creation, each once; every job it takes up ends with the verdict of its processing;
every job without attempts left is failed; nothing else changes.

A job is never given back, so each pass makes the list of the jobs to come shorter by its head.
The induction is over the passes, with that list as a parameter.
-/

namespace KnowledgeAlakazam

/-! ## The loop -/

/-- A pass of the loop of `run`: the time since the pass before, in which the worker slept if it
had found nothing, and what happens after the poll. -/
structure Pass where
  slept : ℚ
  work : List WorkStep

variable {n : ℕ}

section Loop

variable (site : Site) (fleet : Fleet n) (w : Fin n)

/-- `claim_next_pending`, at the beginning of a pass. -/
def Pass.polled (pass : Pass) (s : Deployment n) : Deployment n :=
  run (Deployment.step site fleet) s [.tick pass.slept, .poll w []]

/-- `process_job`, if there is a job. -/
def Pass.processed (pass : Pass) (s : Deployment n) : Deployment n :=
  run (Deployment.step site fleet) (pass.polled site fleet w s) (pass.work.map (WorkStep.label w))

/-- The error that the processing of a pass comes to, if it raises. -/
def Pass.error (pass : Pass) (s : Deployment n) : Option String :=
  firstError w (trace (Deployment.step site fleet) (pass.polled site fleet w s)
    (pass.work.map (WorkStep.label w)))

/-- The job that a pass took up, with that error. -/
def Pass.served (pass : Pass) (s : Deployment n) : Option (ClaimedIngestJob × Option String) :=
  ((pass.polled site fleet w s).workers w).map fun r ↦ (r.ticket, pass.error site fleet w s)

/-- `run`, stopped after these passes: the jobs it took up, in order. -/
def servedBy : Deployment n → List Pass → List (ClaimedIngestJob × Option String)
  | _, [] => []
  | s, pass :: passes => (pass.served site fleet w s).toList ++
    servedBy (pass.processed site fleet w s) passes

/-- `run`, stopped after these passes: the deployment afterwards. -/
def workedBy : Deployment n → List Pass → Deployment n
  | s, [] => s
  | s, pass :: passes => workedBy (pass.processed site fleet w s) passes

/-- Every pass comes to an end: `process_job` has returned before the next poll. -/
def Completes : Deployment n → List Pass → Prop
  | _, [] => True
  | s, pass :: passes => ((pass.processed site fleet w s).workers w).isNone ∧
    Completes (pass.processed site fleet w s) passes

/-- The worker's process is started again, when its lease has run out. -/
def Deployment.restarted (s : Deployment n) : Deployment n :=
  run (Deployment.step site fleet) s [.run w .stop, .tick (fleet.queue w).leaseSeconds]

instance decidableCompletes : (s : Deployment n) → (passes : List Pass) →
    Decidable (Completes site fleet w s passes)
  | _, [] => isTrue trivial
  | s, pass :: passes =>
    match decEq ((pass.processed site fleet w s).workers w).isNone true,
      decidableCompletes (pass.processed site fleet w s) passes with
    | isTrue hend, isTrue hends => isTrue ⟨hend, hends⟩
    | isFalse hend, _ => isFalse fun h ↦ hend h.1
    | _, isFalse hends => isFalse fun h ↦ hends h.2

end Loop

variable {site : Site} {fleet : Fleet n} {w : Fin n} {s s' : Deployment n}

/-! ## A pass -/

/-- The jobs that a worker would work off, in the order in which it takes them up. -/
def Deployment.backlog (s : Deployment n) : List IngestJob :=
  (s.log.jobs.rows.filter fun job ↦ ¬job.status.Terminal ∧ job.AttemptsLeft).insertionSort
    fun job other ↦ toLex (job.createdAt, job.id) ≤ toLex (other.createdAt, other.id)

/-- The ticket that a worker gets for a job. -/
def IngestJob.ticket (workerId : String) (job : IngestJob) : ClaimedIngestJob :=
  .fromModel ((claimJobForWorker job.createdAt workerId).app job)

/-- What a worker that works everything off makes of a row. -/
inductive WorkedOff (workerId : String) (served : List (ClaimedIngestJob × Option String)) :
    IngestJob → IngestJob → Prop
  | kept {job : IngestJob} (ended : job.status.Terminal) : WorkedOff workerId served job job
  | exhausted {job : IngestJob} (unfinished : ¬job.status.Terminal) (spent : ¬job.AttemptsLeft) :
    WorkedOff workerId served job (markJobFailedAfterExhaustedAttempts.app job)
  | served {job row : IngestJob} {error : Option String} {now : ℚ}
    (unfinished : ¬job.status.Terminal) (left : job.AttemptsLeft)
    (mem : (job.ticket workerId, error) ∈ served)
    (ended : EndedAs error ((claimJobForWorker now workerId).app job) row) :
    WorkedOff workerId served job row

/-- Every row that is not finished may be claimed. -/
def Overdue (queue : DatabaseIngestJobQueue) (s : Deployment n) : Prop :=
  ∀ job ∈ s.log.jobs.rows, ¬job.status.Terminal → queue.Claimable s.log.clock [] job

structure IsBacklog (s : Deployment n) (jobs : List IngestJob) : Prop where
  ordered : jobs.Pairwise IngestJob.Before
  mem : ∀ job, job ∈ jobs ↔ job ∈ s.log.jobs.rows ∧ ¬job.status.Terminal ∧ job.AttemptsLeft

theorem isBacklog_backlog (s : Deployment n) : IsBacklog s s.backlog where
  ordered := by
    have hsorted := List.pairwise_insertionSort
      (fun job other : IngestJob ↦
        toLex (job.createdAt, job.id) ≤ toLex (other.createdAt, other.id))
      (s.log.jobs.rows.filter fun job ↦ ¬job.status.Terminal ∧ job.AttemptsLeft)
    have hids : s.backlog.Pairwise fun job other ↦ job.id ≠ other.id := by
      have hnodup : (s.backlog.map fun job ↦ job.id).Nodup :=
        (((List.perm_insertionSort _ _).map _).nodup_iff).mpr
          (s.log.jobs.primary_nodup.sublist (List.filter_sublist.map _))
      exact List.pairwise_map.mp hnodup
    refine (hsorted.and hids).imp fun {job other} h ↦ ?_
    rw [Prod.Lex.toLex_le_toLex] at h
    rcases h with ⟨hlt | ⟨heq, hle⟩, hne⟩
    · exact .inl hlt
    · exact .inr ⟨heq, lt_of_le_of_ne hle hne⟩
  mem job := by
    rw [Deployment.backlog, List.mem_insertionSort, List.mem_filter, decide_eq_true_iff]

theorem IsBacklog.nil (h : ∀ job ∈ s.log.jobs.rows, job.status.Terminal) : IsBacklog s [] where
  ordered := .nil
  mem job := ⟨fun hjob ↦ (nomatch hjob), fun hjob ↦ absurd (h job hjob.1) hjob.2.1⟩

/-- The row is as it was, or it is worked off. -/
def RowDone (workerId : String) (served : List (ClaimedIngestJob × Option String))
    (job row : IngestJob) : Prop :=
  row = job ∨ row.status.Terminal ∧ WorkedOff workerId served job row

section Pass

theorem DatabaseIngestJobQueue.Claimable.mono {queue : DatabaseIngestJobQueue} {now later : ℚ}
    {locked : List ℕ} {job : IngestJob} (h : queue.Claimable now locked job) (hle : now ≤ later) :
    queue.Claimable later locked job :=
  ⟨h.1, h.2.imp (fun h ↦ ⟨h.1, fun t ht ↦ (h.2 t ht).trans hle⟩)
    fun h ↦ ⟨h.1, fun t ht ↦ (h.2 t ht).trans (sub_le_sub_right hle _)⟩⟩

theorem not_claimable_of_terminal {queue : DatabaseIngestJobQueue} {now : ℚ} {locked : List ℕ}
    {job : IngestJob} (h : job.status.Terminal) : ¬queue.Claimable now locked job := by
  rintro ⟨-, ⟨hst, -⟩ | ⟨hst, -⟩⟩
  · rw [hst] at h
    exact h
  · rw [hst] at h
    exact h

/-- What a worker without a job comes to by the poll of a pass. -/
structure Began (fleet : Fleet n) (w : Fin n) (s s' : Deployment n)
    (taken : Option IngestJob) : Prop where
  clock : s.log.clock ≤ s'.log.clock
  next : ∀ job ∈ taken, (fleet.queue w).NextPending s'.log.clock [] s.log.jobs job
  nothing : taken = none → ∀ job ∈ s.log.jobs.rows,
    (fleet.queue w).Claimable s'.log.clock [] job → ¬job.AttemptsLeft
  find : ∀ i, s'.log.jobs.find i =
    (s.log.jobs.find i).map ((fleet.queue w).polled s'.log.clock [] taken)
  workers : (s'.workers w).map (fun r ↦ (r.ticket, r.pc)) =
    taken.map fun job ↦ (job.ticket (fleet.workerId w), .toDownload)

theorem Began.poll (fleet : Fleet n) (w : Fin n) (s : Deployment n) :
    ∃ taken, Began fleet w s (s.poll (fleet.queue w) w []) taken := by
  obtain ⟨taken, hpolled⟩ := (fleet.queue w).exists_polled s.log.clock [] s.log.jobs
  have hclock : (s.poll (fleet.queue w) w []).log.clock = s.log.clock :=
    JobLog.clock_claimNextPending _ _ _
  refine ⟨taken, hclock.ge, ?_, ?_, fun i ↦ ?_, ?_⟩
  · rw [hclock]
    exact hpolled.taken_next
  · rw [hclock]
    exact hpolled.taken_none
  · have hjobs : (s.poll (fleet.queue w) w []).log.jobs =
        ((fleet.queue w).claimNextPending s.log.clock [] s.log.jobs).jobs :=
      JobLog.jobs_claimNextPending _ _ _
    rw [hclock, hjobs]
    refine Table.find_of_rows_map (fun row ↦ ?_) hpolled.rows_eq i
    rw [DatabaseIngestJobQueue.polled]
    split
    · exact Patch.primary_app _ row
    · split
      · exact Patch.primary_app _ row
      · rfl
  · have hticket : (s.log.claimNextPending (fleet.queue w) []).2 = _ := hpolled.ticket_eq
    rw [Deployment.poll, Deployment.workers_setRun_self, hticket, Option.map_map, Option.map_map]
    rfl

/-- A pass begins with a poll, the time before it aside. -/
theorem Pass.began (site : Site) (fleet : Fleet n) (pass : Pass) (h : s.workers w = none) :
    ∃ taken, Began fleet w s (pass.polled site fleet w s) taken := by
  have hpoll : ∀ {s₁ : Deployment n}, Idle s s₁ w → ∃ taken, Began fleet w s
      (run (Deployment.step site fleet) s₁ [.poll w []]) taken := by
    intro s₁ hidle
    have hstep : s₁.step site fleet (.poll w []) = some (s₁.poll (fleet.queue w) w []) := by
      rw [Deployment.step, hidle.idle]
    obtain ⟨taken, hbegan⟩ := Began.poll fleet w s₁
    rw [run_cons_of_some hstep]
    refine ⟨taken, hidle.clock.trans hbegan.clock, ?_, ?_, ?_, hbegan.workers⟩
    · exact hidle.jobs ▸ hbegan.next
    · exact hidle.jobs ▸ hbegan.nothing
    · exact hidle.jobs ▸ hbegan.find
  rw [Pass.polled]
  cases htick : s.step site fleet (.tick pass.slept) with
  | none =>
    rw [run_cons_of_none htick]
    exact hpoll (Idle.refl h)
  | some s₁ =>
    rw [run_cons_of_some htick]
    exact hpoll (Idle.tick h htick)

theorem polled_of_ne {queue : DatabaseIngestJobQueue} {now : ℚ} {taken : Option IngestJob}
    {row : IngestJob} (hne : taken ≠ some row) (hleft : row.AttemptsLeft) :
    queue.polled now [] taken row = row := by
  rw [DatabaseIngestJobQueue.polled, if_neg hne, if_neg fun h ↦ h.2.1 hleft]

theorem rowDone_polled {queue : DatabaseIngestJobQueue} {now : ℚ} {taken : Option IngestJob}
    {row : IngestJob} (workerId : String) (served : List (ClaimedIngestJob × Option String))
    (hne : taken ≠ some row) : RowDone workerId served row (queue.polled now [] taken row) := by
  rw [DatabaseIngestJobQueue.polled, if_neg hne]
  split
  · rename_i h
    exact .inr ⟨trivial, .exhausted (fun hend ↦ not_claimable_of_terminal hend h.1) h.2.1⟩
  · exact .inl rfl

/-- A pass with no job to come fails the jobs that are exhausted. -/
theorem Pass.found_nothing (pass : Pass) (h : s.workers w = none)
    (hdue : Overdue (fleet.queue w) s) (hlist : IsBacklog s []) :
    pass.served site fleet w s = none ∧
      ∀ i, Option.Rel (fun job row ↦ row.status.Terminal ∧
        WorkedOff (fleet.workerId w) [] job row)
        (s.log.jobs.find i) ((pass.processed site fleet w s).log.jobs.find i) := by
  obtain ⟨taken, hbegan⟩ := pass.began site fleet h
  have hclaimable : ∀ job ∈ s.log.jobs.rows, ¬job.status.Terminal →
      (fleet.queue w).Claimable (pass.polled site fleet w s).log.clock [] job :=
    fun job hjob hopen ↦ (hdue job hjob hopen).mono hbegan.clock
  have hnone : taken = none := by
    cases taken with
    | none => rfl
    | some job =>
      obtain ⟨hmem, hc, hleft, -⟩ := hbegan.next job rfl
      exact absurd ((hlist.mem job).mpr ⟨hmem, fun hend ↦ not_claimable_of_terminal hend hc,
        hleft⟩) List.not_mem_nil
  subst hnone
  have hidle : (pass.polled site fleet w s).workers w = none := by
    simpa using hbegan.workers
  refine ⟨by rw [Pass.served, hidle, Option.map_none], fun i ↦ ?_⟩
  rw [Pass.processed, (Idle.run site fleet hidle pass.work).1.jobs, hbegan.find]
  cases hfind : s.log.jobs.find i with
  | none => exact .none
  | some row =>
    refine .some ?_
    have hmem := Table.mem_of_find hfind
    by_cases hend : row.status.Terminal
    · rw [DatabaseIngestJobQueue.polled_of_not_claimable (by simp)
        (not_claimable_of_terminal hend)]
      exact ⟨hend, .kept hend⟩
    · have hspent := hbegan.nothing rfl row hmem (hclaimable row hmem hend)
      rw [DatabaseIngestJobQueue.polled, if_neg (by simp),
        if_pos ⟨hclaimable row hmem hend, hspent, by simp⟩]
      exact ⟨trivial, .exhausted hend hspent⟩

theorem Began.taken_eq {job : IngestJob} {rest : List IngestJob} {taken : Option IngestJob}
    (hbegan : Began fleet w s s' taken) (hdue : Overdue (fleet.queue w) s)
    (hlist : IsBacklog s (job :: rest)) : taken = some job := by
  obtain ⟨hmem, hopen, hleft⟩ := (hlist.mem job).mp List.mem_cons_self
  have hclaimable := (hdue job hmem hopen).mono hbegan.clock
  cases taken with
  | none => exact absurd hleft (hbegan.nothing rfl job hmem hclaimable)
  | some other =>
    obtain ⟨hmem', hclaimable', hleft', hleast⟩ := hbegan.next other rfl
    by_cases heq : job = other
    · rw [heq]
    · have hother : other ∈ job :: rest := (hlist.mem other).mpr
        ⟨hmem', fun hend ↦ not_claimable_of_terminal hend hclaimable', hleft'⟩
      have hrest := (List.mem_cons.mp hother).resolve_left (Ne.symm heq)
      have hbefore := (List.pairwise_cons.mp hlist.ordered).1 other hrest
      exact absurd (hleast job hmem hclaimable hleft heq) hbefore.asymm

theorem Began.holding {job : IngestJob} (hbegan : Began fleet w s s' (some job)) :
    ∃ r, Holding s' w r ((claimJobForWorker s'.log.clock (fleet.workerId w)).app job) ∧
      r.ticket = job.ticket (fleet.workerId w) ∧ s'.errorOf w = none := by
  obtain ⟨r, hrun, heq⟩ := Option.map_eq_some_iff.mp hbegan.workers
  obtain ⟨hticket, hpc⟩ := Prod.mk.inj heq
  refine ⟨r, ⟨hrun, ?_, rfl, ?_⟩, hticket, ?_⟩
  · rw [hticket, hbegan.find]
    have hfind : s.log.jobs.find (job.ticket (fleet.workerId w)).id = some job :=
      Table.find_primary (hbegan.next job rfl).mem
    rw [hfind, Option.map_some, DatabaseIngestJobQueue.polled, if_pos rfl]
    rfl
  · rw [hticket]
    rfl
  · rw [errorOf_eq hrun, hpc]

theorem Pass.took {job : IngestJob} {rest : List IngestJob} (pass : Pass)
    (h : s.workers w = none) (hdue : Overdue (fleet.queue w) s)
    (hlist : IsBacklog s (job :: rest))
    (hend : (pass.processed site fleet w s).workers w = none) :
    pass.served site fleet w s =
        some (job.ticket (fleet.workerId w), pass.error site fleet w s) ∧
      s.log.clock ≤ (pass.processed site fleet w s).log.clock ∧
      IsBacklog (pass.processed site fleet w s) rest ∧
      ∀ i, Option.Rel (RowDone (fleet.workerId w)
          [(job.ticket (fleet.workerId w), pass.error site fleet w s)])
        (s.log.jobs.find i) ((pass.processed site fleet w s).log.jobs.find i) := by
  obtain ⟨taken, hbegan⟩ := pass.began site fleet h
  obtain rfl := hbegan.taken_eq hdue hlist
  obtain ⟨hmem, hopen, hleft⟩ := (hlist.mem job).mp List.mem_cons_self
  obtain ⟨r, holding, hticket, herror⟩ := hbegan.holding
  obtain ⟨hkept, hrun⟩ := holding.run site fleet pass.work
  obtain ⟨row, hrow, hended⟩ := hrun hend
  rw [herror, Option.none_or] at hended
  rw [hticket] at hkept hrow
  have hother : ∀ i, i ≠ job.id → (pass.processed site fleet w s).log.jobs.find i =
      (s.log.jobs.find i).map ((fleet.queue w).polled
        (pass.polled site fleet w s).log.clock [] (some job)) := fun i hi ↦ by
    rw [← hbegan.find]
    exact hkept.find i hi
  have hne : ∀ other ∈ s.log.jobs.rows, other ≠ job → other.id ≠ job.id :=
    fun other hother hne heq ↦ hne (Table.eq_of_primary hother hmem heq)
  refine ⟨?_, hbegan.clock.trans hkept.clock, ⟨?_, fun other ↦ ⟨fun hrest ↦ ?_, ?_⟩⟩, fun i ↦ ?_⟩
  · rw [Pass.served, holding.running, Option.map_some, hticket]
  · exact (List.pairwise_cons.mp hlist.ordered).2
  · -- a job to come is neither taken nor failed
    obtain ⟨hmem', hopen', hleft'⟩ := (hlist.mem other).mp (List.mem_cons_of_mem _ hrest)
    have hbefore := (List.pairwise_cons.mp hlist.ordered).1 other hrest
    have hnejob : other ≠ job := by
      rintro rfl
      exact hbefore.asymm hbefore
    have hfind := hother other.id (hne other hmem' hnejob)
    rw [show s.log.jobs.find other.id = some other from Table.find_primary hmem',
      Option.map_some, polled_of_ne (fun heq ↦ hnejob (Option.some.inj heq).symm) hleft'] at hfind
    exact ⟨Table.mem_of_find hfind, hopen', hleft'⟩
  · rintro ⟨hmem', hopen', hleft'⟩
    have hfind : (pass.processed site fleet w s).log.jobs.find other.id = some other :=
      Table.find_primary hmem'
    by_cases hi : other.id = job.id
    · rw [hi] at hfind
      obtain rfl := Option.some.inj (hrow.symm.trans hfind)
      exact absurd hended.terminal hopen'
    · rw [hother _ hi] at hfind
      obtain ⟨old, hold, heq⟩ := Option.map_eq_some_iff.mp hfind
      have hnejob : job ≠ old := by
        rintro rfl
        exact hi (Table.primary_of_find hold).symm
      rcases rowDone_polled (fleet.workerId w) []
        (fun heq ↦ hnejob (Option.some.inj heq) : some job ≠ some old) with hsame | ⟨hend', -⟩
      · rw [hsame] at heq
        obtain rfl := heq
        have hin := (hlist.mem old).mpr ⟨Table.mem_of_find hold, hopen', hleft'⟩
        exact (List.mem_cons.mp hin).resolve_left hnejob.symm
      · rw [heq] at hend'
        exact absurd hend' hopen'
  · by_cases hi : i = job.id
    · have hfind : (pass.processed site fleet w s).log.jobs.find job.id = some row := hrow
      rw [hi, hfind, show s.log.jobs.find job.id = some job from Table.find_primary hmem]
      exact .some (.inr ⟨hended.terminal, .served hopen hleft List.mem_cons_self hended⟩)
    · rw [hother i hi]
      cases hfind : s.log.jobs.find i with
      | none => exact .none
      | some other =>
        refine .some (rowDone_polled _ _ fun heq ↦ hi ?_)
        rw [Option.some.inj heq]
        exact (Table.primary_of_find hfind).symm

end Pass

/-! ## The loop -/

section Loop

variable {workerId : String} {served served' : List (ClaimedIngestJob × Option String)}
  {job row : IngestJob}

theorem WorkedOff.mono (h : WorkedOff workerId served job row) (hle : served ⊆ served') :
    WorkedOff workerId served' job row := by
  cases h with
  | kept hend => exact .kept hend
  | exhausted hopen hspent => exact .exhausted hopen hspent
  | served hopen hleft hmem hended => exact .served hopen hleft (hle hmem) hended

theorem WorkedOff.terminal (h : WorkedOff workerId served job row) : row.status.Terminal := by
  cases h with
  | kept hend => exact hend
  | exhausted hopen hspent => trivial
  | served hopen hleft hmem hended => exact hended.terminal

theorem WorkedOff.eq_of_terminal (h : WorkedOff workerId served job row)
    (hend : job.status.Terminal) : row = job := by
  cases h with
  | kept hend => rfl
  | exhausted hopen hspent => exact absurd hend hopen
  | served hopen hleft hmem hended => exact absurd hend hopen

/-- What a pass does to a row and what the passes after it do to it. -/
theorem RowDone.worked {mid : IngestJob} (h : RowDone workerId served job mid)
    (h' : WorkedOff workerId served' mid row) :
    WorkedOff workerId (served ++ served') job row := by
  rcases h with rfl | ⟨hend, hworked⟩
  · exact h'.mono (List.subset_append_right _ _)
  · obtain rfl := h'.eq_of_terminal hend
    exact hworked.mono (List.subset_append_left _ _)

theorem rel_trans {α : Type} {P Q R : α → α → Prop} (h : ∀ a b c, P a b → Q b c → R a c)
    {x y z : Option α} (hxy : Option.Rel P x y) (hyz : Option.Rel Q y z) : Option.Rel R x z := by
  cases hxy with
  | none => cases hyz with
    | none => exact .none
  | some hab => cases hyz with
    | some hbc => exact .some (h _ _ _ hab hbc)

theorem exists_row_of_rel {P : IngestJob → IngestJob → Prop}
    (h : ∀ i, Option.Rel P (s.log.jobs.find i) (s'.log.jobs.find i))
    (hrow : row ∈ s'.log.jobs.rows) : ∃ job ∈ s.log.jobs.rows, P job row := by
  have hrel := h row.id
  rw [show s'.log.jobs.find row.id = some row from Table.find_primary hrow] at hrel
  cases hfind : s.log.jobs.find row.id with
  | none =>
    rw [hfind] at hrel
    cases hrel
  | some job =>
    rw [hfind] at hrel
    cases hrel with
    | some hjob => exact ⟨job, Table.mem_of_find hfind, hjob⟩

theorem Overdue.of_rows {queue : DatabaseIngestJobQueue} (h : Overdue queue s)
    (hclock : s.log.clock ≤ s'.log.clock)
    (hrows : ∀ i, Option.Rel (RowDone workerId served) (s.log.jobs.find i)
      (s'.log.jobs.find i)) : Overdue queue s' := by
  intro row hrow hopen
  obtain ⟨job, hjob, rfl | ⟨hend, -⟩⟩ := exists_row_of_rel hrows hrow
  · exact (h row hjob hopen).mono hclock
  · exact absurd hend hopen

/-- **The passes of the loop.** The list of the jobs to come goes down by its head in each pass;
one pass more fails what is exhausted. -/
theorem workedBy_rows {passes : List Pass} {jobs : List IngestJob} (h : s.workers w = none)
    (hdue : Overdue (fleet.queue w) s) (hlist : IsBacklog s jobs)
    (hends : Completes site fleet w s passes)
    (hlength : jobs.length < passes.length ∨ ∀ job ∈ s.log.jobs.rows, job.status.Terminal) :
    (servedBy site fleet w s passes).map Prod.fst =
        jobs.map (IngestJob.ticket (fleet.workerId w)) ∧
      ∀ i, Option.Rel (WorkedOff (fleet.workerId w) (servedBy site fleet w s passes))
        (s.log.jobs.find i) ((workedBy site fleet w s passes).log.jobs.find i) := by
  induction passes generalizing s jobs with
  | nil =>
    -- No pass is left, so there was no backlog to begin with.
    have hall := hlength.resolve_left (Nat.not_lt_zero _)
    have hnil : jobs = [] := List.eq_nil_iff_forall_not_mem.mpr fun job hjob ↦
      ((hlist.mem job).mp hjob).2.1 (hall job ((hlist.mem job).mp hjob).1)
    refine ⟨by rw [hnil]; rfl, fun i ↦ ?_⟩
    rw [workedBy]
    cases hfind : s.log.jobs.find i with
    | none => exact .none
    | some row => exact .some (.kept (hall row (Table.mem_of_find hfind)))
  | cons pass passes ih =>
    rw [servedBy, workedBy]
    have hidle : (pass.processed site fleet w s).workers w = none := by
      simpa using hends.1
    cases jobs with
    | nil =>
      -- a pass with nothing to do fails what has no attempts left, and ends the backlog
      obtain ⟨hserved, hrows⟩ := pass.found_nothing h hdue hlist
      have hall : ∀ row ∈ (pass.processed site fleet w s).log.jobs.rows, row.status.Terminal := by
        intro row hrow
        obtain ⟨-, -, hend, -⟩ := exists_row_of_rel hrows hrow
        exact hend
      obtain ⟨hmap, hrest⟩ := ih hidle (fun row hrow hopen ↦
        absurd (hall row hrow) hopen) (IsBacklog.nil hall) hends.2 (.inr hall)
      rw [hserved, Option.toList_none, List.nil_append]
      refine ⟨hmap, fun i ↦ rel_trans (fun _ _ _ hjob hrow ↦ ?_) (hrows i) (hrest i)⟩
      exact (show RowDone (fleet.workerId w) [] _ _ from .inr hjob).worked hrow
    | cons job jobs =>
      obtain ⟨hserved, hclock, hlist', hrows⟩ := pass.took h hdue hlist hidle
      have hlt : jobs.length < passes.length := by
        rcases hlength with hlt | hall
        · simpa using hlt
        · obtain ⟨hmem, hopen, -⟩ := (hlist.mem job).mp List.mem_cons_self
          exact absurd (hall job hmem) hopen
      obtain ⟨hmap, hrest⟩ := ih hidle (hdue.of_rows hclock hrows) hlist' hends.2 (.inl hlt)
      rw [hserved, Option.toList_some, List.map_append, hmap, List.map_cons]
      exact ⟨rfl, fun i ↦ rel_trans (fun _ _ _ hjob hrow ↦ hjob.worked hrow) (hrows i) (hrest i)⟩

end Loop

/-! ## What a deployment leaves behind -/

/-- No row waits for a later time: none is scheduled, and no heartbeat lies ahead. -/
def NothingAhead (s : JobLog) : Prop :=
  ∀ i job, s.jobs.find i = some job →
    job.nextAttemptAt = none ∧ ∀ beat ∈ job.heartbeatAt, beat ≤ s.clock

namespace NothingAhead

variable {log log' : JobLog}

theorem update (h : NothingAhead log) {i : ℕ} {p : Patch IngestJob} {e : LeaseEvent Actor ℚ}
    (hp : ∀ job, log.jobs.find i = some job → (p.app job).nextAttemptAt = none ∧
      ∀ beat ∈ (p.app job).heartbeatAt, beat ≤ log.clock) : NothingAhead (log.update i p e) := by
  intro j job hj
  rw [JobLog.jobs_update, Table.find_modify] at hj
  split at hj
  · rename_i hji
    obtain ⟨old, hold, rfl⟩ := Option.map_eq_some_iff.mp (hji ▸ hj)
    exact hp old hold
  · exact h j job hj

theorem start (clock : ℚ) : NothingAhead (JobLog.start clock) :=
  fun i job h ↦ absurd h (by simp [JobLog.start])

theorem tick (h : NothingAhead log) {seconds : ℚ} (htick : log.tick seconds = some log') :
    NothingAhead log' := by
  rw [JobLog.tick] at htick
  split at htick
  · rename_i hpos
    rw [← Option.some.inj htick]
    exact fun i job hi ↦ ⟨(h i job hi).1, fun beat hbeat ↦
      ((h i job hi).2 beat hbeat).trans (le_add_of_nonneg_right hpos)⟩
  · cases htick

theorem upsertPending (h : NothingAhead log) {c : ℕ} {repo : IngestJobRepository} {uuid : ℕ}
    {tenantId sourceId rawBucket rawKey : String} {job : IngestJob}
    (hup : log.upsertPending c repo uuid tenantId sourceId rawBucket rawKey = some (log', job)) :
    NothingAhead log' := by
  have hjob : job.nextAttemptAt = none ∧ job.heartbeatAt = none := by
    rcases JobLog.upsertPending_cases hup with ⟨-, rfl, -⟩ | ⟨old, -, rfl, -⟩
    · exact ⟨rfl, rfl⟩
    · exact ⟨rfl, rfl⟩
  intro j job' hj
  rw [JobLog.find_upsertPending hup] at hj
  rw [JobLog.clock_upsertPending hup]
  split at hj
  · rw [← Option.some.inj hj, hjob.2]
    exact ⟨hjob.1, fun beat hbeat ↦ absurd hbeat (Option.not_mem_none beat)⟩
  · exact h j job' hj

theorem claimNextPending (h : NothingAhead log) (queue : DatabaseIngestJobQueue)
    (locked : List ℕ) : NothingAhead (log.claimNextPending queue locked).1 :=
  JobLog.claimNextPending_rule queue locked (P := fun s s' _ ↦ NothingAhead s → NothingAhead s')
    (fun _ hs ↦ hs)
    (fun _ _ _ _ hs ↦ hs.update fun _ _ ↦ ⟨rfl, fun _ hbeat ↦ (Option.some.inj hbeat).ge⟩)
    (fun _ _ _ _ _ _ ih hs ↦ ih (hs.update fun job hf ↦ ⟨rfl, (hs _ job hf).2⟩)) log h

theorem mark (h : NothingAhead log) {i : ℕ} {old : IngestJob} {p : Patch IngestJob}
    {e : LeaseEvent Actor ℚ} (hold : log.jobs.find i = some old)
    (hnext : (p.app old).nextAttemptAt = none)
    (hbeat : (p.app old).heartbeatAt = old.heartbeatAt ∨
      (p.app old).heartbeatAt = some log.clock) : NothingAhead (log.update i p e) := by
  refine h.update fun job hjob ↦ ?_
  obtain rfl := Option.some.inj (hold.symm.trans hjob)
  refine ⟨hnext, fun beat hb ↦ ?_⟩
  rcases hbeat with heq | heq
  · exact (h i _ hold).2 beat (heq ▸ hb)
  · rw [heq] at hb
    exact (Option.some.inj hb).ge

theorem move {label : DeployLabel n} (h : NothingAhead s.log)
    (hmove : Moves site fleet s label s') : NothingAhead s'.log := by
  cases hmove with
  | tick hop => exact h.tick hop
  | started hfree hprep hup => exact h.upsertPending hup
  | accepted hcall hpc hraw hup => exact h.upsertPending hup
  | polled hidle => exact h.claimNextPending _ _
  | markedProcessing hcall hpc hop =>
    obtain ⟨old, hl, -, rfl⟩ := JobLog.markProcessing_ok hop
    exact h.mark (Table.find_of_lookup hl) rfl (.inr rfl)
  | markedSucceeded hcall hpc hop =>
    obtain ⟨old, hl, -, rfl⟩ := JobLog.markSucceeded_ok hop
    exact h.mark (Table.find_of_lookup hl) rfl (.inl rfl)
  | markedFailed hcall hpc hop =>
    obtain ⟨old, hl, -, rfl⟩ := JobLog.markFailed_ok hop
    exact h.mark (Table.find_of_lookup hl) rfl (.inl rfl)
  | heartbeat hrun hop =>
    obtain ⟨old, hf, -, -, rfl⟩ := JobLog.heartbeat_ok hop
    exact h.mark hf (h _ old hf).1 (.inr rfl)
  | runSucceeded hrun hop =>
    obtain ⟨old, hf, -, -, rfl⟩ := JobLog.workerSucceeded_ok hop
    exact h.mark hf rfl (.inl rfl)
  | runFailed hrun hop =>
    obtain ⟨old, hf, -, -, rfl⟩ := JobLog.workerFailed_ok hop
    exact h.mark hf rfl (.inl rfl)
  -- nothing else is a transaction
  | _ => exact h

end NothingAhead

/-- When a lease has passed, every row that is not finished may be claimed. -/
theorem overdue_restarted (site : Site) (fleet : Fleet n) (w : Fin n)
    (h : NothingAhead s.log) : (s.restarted site fleet w).workers w = none ∧
      Overdue (fleet.queue w) (s.restarted site fleet w) := by
  have hpos := (fleet.queue w).leaseSeconds_pos.le
  -- After a lease no heartbeat is recent any more, and no retry lies ahead.
  have htick : ∀ s₁ : Deployment n, s₁.log = s.log → s₁.workers w = none →
      (run (Deployment.step site fleet) s₁ [.tick (fleet.queue w).leaseSeconds]).workers w = none ∧
        Overdue (fleet.queue w)
          (run (Deployment.step site fleet) s₁ [.tick (fleet.queue w).leaseSeconds]) := by
    intro s₁ hlog hidle
    have hstep : s₁.step site fleet (.tick (fleet.queue w).leaseSeconds) = some { s₁ with
        log := { s₁.log with clock := s₁.log.clock + (fleet.queue w).leaseSeconds } } := by
      rw [Deployment.step, JobLog.tick, if_pos hpos]
      rfl
    rw [run_cons_of_some hstep, run]
    refine ⟨hidle, fun job hjob hopen ↦ ?_⟩
    rw [hlog] at hjob ⊢
    obtain ⟨hnext, hbeat⟩ := h job.id job (Table.find_primary hjob)
    refine ⟨List.not_mem_nil, ?_⟩
    cases hst : job.status with
    | pending => exact .inl ⟨rfl, fun t ht ↦ absurd (hnext ▸ ht) (Option.not_mem_none t)⟩
    | processing =>
      refine .inr ⟨rfl, fun t ht ↦ ?_⟩
      rw [add_sub_cancel_right]
      exact hbeat t ht
    | succeeded => exact absurd (hst ▸ trivial) hopen
    | failed => exact absurd (hst ▸ trivial) hopen
  rw [Deployment.restarted]
  cases hrun : s.workers w with
  | none =>
    have hstop : s.step site fleet (.run w .stop) = none := by
      rw [Deployment.step, hrun, Option.bind_none]
    rw [run_cons_of_none hstop]
    exact htick s rfl hrun
  | some r =>
    have hstop : s.step site fleet (.run w .stop) = some (s.setRun w none) := by
      rw [Deployment.step, hrun]
      rfl
    rw [run_cons_of_some hstop]
    exact htick _ rfl (Deployment.workers_setRun_self _ _ _)

/-- **Main result.** Whatever API calls and workers did before, and wherever it broke off: a worker
that is started again when its lease has passed takes up every unfinished job that has attempts
left, in the order of creation, each once. Each of them ends as its processing did. The unfinished
jobs without attempts left are failed, the rows of the finished jobs stay as they are, and nothing
is left pending or processing. -/
theorem backlog_worked_off (site : Site) (fleet : Fleet n) (clock : ℚ)
    (labels : List (DeployLabel n)) (w : Fin n) (passes : List Pass) (s : Deployment n)
    (hs : s = (run (Deployment.step site fleet) (.initial n clock) labels).restarted site fleet w)
    (hends : Completes site fleet w s passes) (hlength : s.backlog.length < passes.length) :
    (servedBy site fleet w s passes).map Prod.fst =
        s.backlog.map (IngestJob.ticket (fleet.workerId w)) ∧
      (∀ i, Option.Rel (WorkedOff (fleet.workerId w) (servedBy site fleet w s passes))
        (s.log.jobs.find i) ((workedBy site fleet w s passes).log.jobs.find i)) ∧
      ∀ row ∈ (workedBy site fleet w s passes).log.jobs.rows, row.status.Terminal := by
  have hahead : NothingAhead (run (Deployment.step site fleet) (.initial n clock) labels).log :=
    run_induction (I := fun s : Deployment n ↦ NothingAhead s.log)
      (fun _ _ _ hs hstep ↦ hs.move (Deployment.moves_of_step hstep))
      (NothingAhead.start clock) labels
  obtain ⟨hidle, hdue⟩ := overdue_restarted site fleet w hahead
  rw [← hs] at hidle hdue
  obtain ⟨hserved, hrows⟩ :=
    workedBy_rows hidle hdue (isBacklog_backlog s) hends (.inl hlength)
  refine ⟨hserved, hrows, fun row hrow ↦ ?_⟩
  obtain ⟨job, hjob, hworked⟩ := exists_row_of_rel hrows hrow
  exact hworked.terminal

/-- A worker stops while it processes a document, and another document arrives. -/
def interrupted (w : Fin n) : List (DeployLabel n) :=
  [.start 0 .submit sampleRequest 7, .call 0 (.uploadRaw none), .poll w [], .run w (.download none),
    .start 1 .submit { sampleRequest with sourceId := some "other" } 8, .call 1 (.uploadRaw none)]

/-- One document is processed, one cannot be downloaded, and then there is nothing to do. -/
def threePasses : List Pass :=
  [⟨0, [.download none, .parse (.ok []), .finish]⟩,
    ⟨0, [.wait 1, .download (some ⟨"OSError", "gone"⟩), .finish]⟩, ⟨5, []⟩]

/-- The deployment in which the worker is started again. -/
def afterInterruption (w : Fin n) (fleet : Fleet n) : Deployment n :=
  (run (Deployment.step defaultSite fleet) (.initial n 0) (interrupted w)).restarted defaultSite
    fleet w

theorem interrupted_worked_off :
    (servedBy defaultSite oneWorker 0 (afterInterruption 0 oneWorker) threePasses).map
        (fun served ↦ (served.1.id, served.1.attemptCount, served.2)) =
      [(7, 2, none), (8, 1, some "gone")] ∧
    ∀ row ∈ (workedBy defaultSite oneWorker 0 (afterInterruption 0 oneWorker)
      threePasses).log.jobs.rows, row.status.Terminal :=
  ⟨by decide +kernel, (backlog_worked_off defaultSite oneWorker 0 (interrupted 0) 0 threePasses _
    rfl (by decide +kernel) (by decide +kernel)).2.2⟩

end KnowledgeAlakazam
