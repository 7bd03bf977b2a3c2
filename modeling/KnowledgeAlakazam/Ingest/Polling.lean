import KnowledgeAlakazam.Ingest.Queue

/-!
# Which job a poll takes

The loop of `claim_next_pending` reruns a query whose answer its own body changes: an exhausted
row it finds is marked failed, so that the next turn finds another row. Here the outcome of the
whole poll is described by the table it starts from. A row is claimable by its own columns and the
lock on it; the poll takes the least claimable row that has attempts left, marks failed the
exhausted claimable rows before it, and leaves everything else alone. When no claimable row has
attempts left it takes nothing, and all the exhausted claimable rows have been marked failed.

The argument is the one of a scan. A turn on an exhausted row removes the *least* claimable row
from the claimable ones and changes no other row, so the row the rest of the poll takes is the one
the whole poll takes, and the row that was removed lies before it.
-/

namespace KnowledgeAlakazam

/-- The order `created_at ASC, id ASC`. -/
def IngestJob.Before (job other : IngestJob) : Prop :=
  job.createdAt < other.createdAt ∨ job.createdAt = other.createdAt ∧ job.id < other.id

instance (job other : IngestJob) : Decidable (job.Before other) :=
  inferInstanceAs (Decidable (_ ∨ _ ∧ _))

theorem IngestJob.Before.asymm {job other : IngestJob} (h : job.Before other) :
    ¬other.Before job := by
  rintro (hlt | ⟨heq, hid⟩)
  · rcases h with hlt' | ⟨heq', -⟩
    · exact lt_asymm hlt hlt'
    · exact hlt.ne heq'.symm
  · rcases h with hlt' | ⟨-, hid'⟩
    · exact hlt'.ne heq.symm
    · exact lt_asymm hid hid'

def IngestJob.AttemptsLeft (job : IngestJob) : Prop := job.attemptCount < job.maxAttempts

instance (job : IngestJob) : Decidable job.AttemptsLeft := inferInstanceAs (Decidable (_ < _))

namespace DatabaseIngestJobQueue

variable {queue : DatabaseIngestJobQueue} {now : ℚ} {locked : List ℕ} {jobs : IngestJobs}
  {job other row : IngestJob}

/-- No other transaction holds the row locked, and it is pending and due, or processing with no
heartbeat within the lease. -/
def Claimable (queue : DatabaseIngestJobQueue) (now : ℚ) (locked : List ℕ) (job : IngestJob) :
    Prop :=
  job.id ∉ locked ∧
    (job.status = .pending ∧ (∀ t ∈ job.nextAttemptAt, t ≤ now) ∨
      job.status = .processing ∧ ∀ t ∈ job.heartbeatAt, t ≤ now - queue.leaseSeconds)

instance (queue : DatabaseIngestJobQueue) (now : ℚ) (locked : List ℕ) (job : IngestJob) :
    Decidable (queue.Claimable now locked job) :=
  inferInstanceAs (Decidable (_ ∧ (_ ∧ _ ∨ _ ∧ _)))

/-- The row a poll takes: of the claimable rows with attempts left the least one. -/
structure NextPending (queue : DatabaseIngestJobQueue) (now : ℚ) (locked : List ℕ)
    (jobs : IngestJobs) (job : IngestJob) : Prop where
  mem : job ∈ jobs.rows
  claimable : queue.Claimable now locked job
  attemptsLeft : job.AttemptsLeft
  least : ∀ other ∈ jobs.rows, queue.Claimable now locked other → other.AttemptsLeft →
    other ≠ job → job.Before other

/-! ## What the query selects -/

theorem pendingReady_iff : pendingReady now job = true ↔
    job.status = .pending ∧ ∀ t ∈ job.nextAttemptAt, t ≤ now := by
  rw [pendingReady, Bool.and_eq_true, beq_iff_eq]
  cases job.nextAttemptAt with
  | none => simp
  | some t => simp

theorem staleProcessing_iff {before : ℚ} : staleProcessing before job = true ↔
    job.status = .processing ∧ ∀ t ∈ job.heartbeatAt, t ≤ before := by
  rw [staleProcessing, Bool.and_eq_true, beq_iff_eq]
  cases job.heartbeatAt with
  | none => simp
  | some t => simp

theorem selects_iff :
    ((pendingReady now job || staleProcessing (now - queue.leaseSeconds) job) &&
      !locked.contains job.id) = true ↔ queue.Claimable now locked job := by
  rw [Bool.and_eq_true, Bool.or_eq_true, pendingReady_iff, staleProcessing_iff, Claimable, and_comm]
  simp

theorem pendingJobClaimStatement_eq_none :
    pendingJobClaimStatement now (now - queue.leaseSeconds) locked jobs = none ↔
      ∀ job ∈ jobs.rows, ¬queue.Claimable now locked job := by
  rw [pendingJobClaimStatement, List.argmin_eq_none, List.filter_eq_nil_iff]
  exact forall₂_congr fun job _ ↦ not_congr selects_iff

/-- The row that is selected is claimable, and comes before every other claimable row. -/
theorem pendingJobClaimStatement_eq_some
    (h : pendingJobClaimStatement now (now - queue.leaseSeconds) locked jobs = some job) :
    job ∈ jobs.rows ∧ queue.Claimable now locked job ∧
      ∀ other ∈ jobs.rows, queue.Claimable now locked other → other ≠ job → job.Before other := by
  rw [pendingJobClaimStatement] at h
  have hmem := List.mem_filter.mp (List.argmin_mem (Option.mem_def.mpr h))
  refine ⟨hmem.1, selects_iff.mp hmem.2, fun other hother hc hne ↦ ?_⟩
  have hle := List.le_of_mem_argmin (List.mem_filter.mpr ⟨hother, selects_iff.mpr hc⟩)
    (Option.mem_def.mpr h)
  rw [Prod.Lex.toLex_le_toLex] at hle
  rcases hle with hlt | ⟨heq, hle⟩
  · exact .inl hlt
  · have hid : job.id ≠ other.id := fun hid ↦ hne (jobs.eq_of_primary hother hmem.1 hid.symm)
    exact .inr ⟨heq, lt_of_le_of_ne hle hid⟩

/-! ## What a poll does to a row -/

/-- What a poll that takes `taken` makes of a row. -/
def polled (queue : DatabaseIngestJobQueue) (now : ℚ) (locked : List ℕ)
    (taken : Option IngestJob) (row : IngestJob) : IngestJob :=
  if taken = some row then (claimJobForWorker now queue.workerId).app row
  else if queue.Claimable now locked row ∧ ¬row.AttemptsLeft ∧ ∀ job ∈ taken, row.Before job then
    markJobFailedAfterExhaustedAttempts.app row
  else row

/-- What a poll leads to, by the table it starts from and the row it takes. -/
structure Polled (queue : DatabaseIngestJobQueue) (now : ℚ) (locked : List ℕ) (jobs : IngestJobs)
    (outcome : ClaimOutcome) (taken : Option IngestJob) : Prop where
  taken_next : ∀ job ∈ taken, queue.NextPending now locked jobs job
  taken_none : taken = none → ∀ job ∈ jobs.rows, queue.Claimable now locked job →
    ¬job.AttemptsLeft
  ticket_eq : outcome.ticket =
    taken.map fun job ↦ .fromModel ((claimJobForWorker now queue.workerId).app job)
  rows_eq : outcome.jobs.rows = jobs.rows.map (queue.polled now locked taken)

theorem attemptsLeft_iff : job.AttemptsLeft ↔ jobAttemptsExhausted job = false := by
  rw [IngestJob.AttemptsLeft, ← not_le, ← jobAttemptsExhausted_iff, Bool.not_eq_true]

theorem not_claimable_failed :
    ¬queue.Claimable now locked (markJobFailedAfterExhaustedAttempts.app job) := by
  rintro ⟨-, ⟨h, -⟩ | ⟨h, -⟩⟩
  · exact absurd h (by simp [markJobFailedAfterExhaustedAttempts])
  · exact absurd h (by simp [markJobFailedAfterExhaustedAttempts])

theorem polled_of_not_claimable {taken : Option IngestJob} (hne : taken ≠ some row)
    (h : ¬queue.Claimable now locked row) : queue.polled now locked taken row = row := by
  rw [polled, if_neg hne, if_neg fun h' ↦ h h'.1]

theorem Polled.nothing
    (h : pendingJobClaimStatement now (now - queue.leaseSeconds) locked jobs = none) :
    queue.Polled now locked jobs ⟨jobs, [], none⟩ none where
  taken_next _ hjob := absurd hjob (Option.not_mem_none _)
  taken_none _ job hjob hc := absurd hc (pendingJobClaimStatement_eq_none.mp h job hjob)
  ticket_eq := rfl
  rows_eq := by
    refine (List.map_id _).symm.trans (List.map_congr_left fun row hrow ↦ ?_)
    exact (polled_of_not_claimable (Option.some_ne_none _).symm
      (pendingJobClaimStatement_eq_none.mp h row hrow)).symm

/-- A poll that claims the first row it finds. No claimable row comes before that one, so none is
marked failed. -/
theorem Polled.first
    (h : pendingJobClaimStatement now (now - queue.leaseSeconds) locked jobs = some job)
    (hleft : jobAttemptsExhausted job = false) :
    queue.Polled now locked jobs ⟨jobs.modify job.id (claimJobForWorker now queue.workerId), [],
      some (.fromModel ((claimJobForWorker now queue.workerId).app job))⟩ (some job) := by
  obtain ⟨hmem, hc, hleast⟩ := pendingJobClaimStatement_eq_some h
  refine ⟨fun job' hjob' ↦ ?_, fun hnone ↦ absurd hnone (Option.some_ne_none _), rfl, ?_⟩
  · obtain rfl := Option.some.inj hjob'
    exact ⟨hmem, hc, attemptsLeft_iff.mpr hleft, fun other ho hco _ ↦ hleast other ho hco⟩
  · rw [Table.rows_modify]
    refine List.map_congr_left fun row hrow ↦ ?_
    by_cases heq : row = job
    · rw [heq, polled, if_pos (IngestJob.primary_eq job), if_pos rfl]
    · have hid : ¬Row.primary row = job.id := fun hid ↦ heq (Table.eq_of_primary hrow hmem hid)
      rw [if_neg hid, polled, if_neg fun h' ↦ heq (Option.some.inj h').symm, if_neg]
      rintro ⟨hcrow, -, hbefore⟩
      exact (hleast row hrow hcrow heq).asymm (hbefore job rfl)

theorem rows_modify_job (hmem : job ∈ jobs.rows) (patch : Patch IngestJob) :
    (jobs.modify job.id patch).rows =
      jobs.rows.map fun row ↦ if row = job then patch.app row else row := by
  rw [Table.rows_modify]
  refine List.map_congr_left fun row hrow ↦ ?_
  by_cases heq : row = job
  · rw [if_pos heq, heq, if_pos (IngestJob.primary_eq job)]
  · have hid : ¬Row.primary row = job.id := fun hid ↦ heq (Table.eq_of_primary hrow hmem hid)
    rw [if_neg heq, if_neg hid]

/-- A poll that first fails an exhausted row does what the rest of the poll does to the other
rows, and takes what the rest of the poll takes. -/
theorem Polled.next {outcome : ClaimOutcome} {taken : Option IngestJob}
    (h : pendingJobClaimStatement now (now - queue.leaseSeconds) locked jobs = some job)
    (hex : jobAttemptsExhausted job = true)
    (hrest : queue.Polled now locked (jobs.modify job.id markJobFailedAfterExhaustedAttempts)
      outcome taken) : queue.Polled now locked jobs
    { outcome with
      exhausted := markJobFailedAfterExhaustedAttempts.app job :: outcome.exhausted } taken := by
  obtain ⟨hmem, hc, hleast⟩ := pendingJobClaimStatement_eq_some h
  have hnoleft : ¬job.AttemptsLeft := fun hl ↦ by
    rw [attemptsLeft_iff.mp hl] at hex
    exact Bool.false_ne_true hex
  have hrows := rows_modify_job hmem markJobFailedAfterExhaustedAttempts
  -- the claimable rows of the rest of the poll are the claimable rows other than `job`
  have hkept : ∀ row ∈ jobs.rows, row.AttemptsLeft →
      row ∈ (jobs.modify job.id markJobFailedAfterExhaustedAttempts).rows := by
    intro row hrow hl
    have hne : row ≠ job := by
      rintro rfl
      exact hnoleft hl
    rw [hrows]
    exact List.mem_map.mpr ⟨row, hrow, if_neg hne⟩
  have hother : ∀ row ∈ (jobs.modify job.id markJobFailedAfterExhaustedAttempts).rows,
      queue.Claimable now locked row → row ∈ jobs.rows ∧ row ≠ job := by
    intro row hrow hcrow
    rw [hrows] at hrow
    obtain ⟨row', hrow', rfl⟩ := List.mem_map.mp hrow
    by_cases heq : row' = job
    · rw [if_pos heq] at hcrow
      exact absurd hcrow not_claimable_failed
    · rw [if_neg heq]
      exact ⟨hrow', heq⟩
  refine ⟨fun next hnext ↦ ?_, fun hnone row hrow hcrow hl ↦ ?_, hrest.ticket_eq, ?_⟩
  · obtain ⟨hmem', hc', hleft', hleast'⟩ := hrest.taken_next next hnext
    exact ⟨(hother next hmem' hc').1, hc', hleft', fun row hrow hcrow hl hne ↦
      hleast' row (hkept row hrow hl) hcrow hl hne⟩
  · exact hrest.taken_none hnone row (hkept row hrow hl) hcrow hl
  · rw [hrest.rows_eq, hrows, List.map_map]
    refine List.map_congr_left fun row hrow ↦ ?_
    rw [Function.comp_apply]
    by_cases heq : row = job
    · -- `job` comes before the row that is taken, so the description has it failed
      have hbefore : ∀ next ∈ taken, job.Before next := by
        intro next hnext
        have hc' := (hrest.taken_next next hnext).claimable
        obtain ⟨hmem', hne⟩ := hother next (hrest.taken_next next hnext).mem hc'
        exact hleast next hmem' hc' hne
      have hne : taken ≠ some job := fun heq' ↦ hnoleft (hrest.taken_next job heq').attemptsLeft
      have hne' : taken ≠ some (markJobFailedAfterExhaustedAttempts.app job) := fun heq' ↦
        not_claimable_failed (hrest.taken_next _ heq').claimable
      rw [heq, if_pos rfl, polled_of_not_claimable hne' not_claimable_failed, polled, if_neg hne,
        if_pos ⟨hc, hnoleft, hbefore⟩]
    · rw [if_neg heq]

/-! ## The main result -/

theorem exists_polled (queue : DatabaseIngestJobQueue) (now : ℚ) (locked : List ℕ)
    (jobs : IngestJobs) :
    ∃ taken, queue.Polled now locked jobs (queue.claimNextPending now locked jobs) taken := by
  refine queue.claimNextPending_rule now locked (P := fun jobs outcome ↦
    ∃ taken, queue.Polled now locked jobs outcome taken) ?_ ?_ ?_ jobs
  · intro jobs h
    exact ⟨none, .nothing h⟩
  · intro jobs job h hleft
    exact ⟨some job, .first h hleft⟩
  · intro jobs job outcome h hex hrest
    exact hrest.imp fun taken hrest ↦ hrest.next h hex

theorem claimLoop_succ {fuel : ℕ} {outcome : ClaimOutcome}
    (h : queue.claimLoop now locked fuel jobs = some outcome) :
    queue.claimLoop now locked (fuel + 1) jobs = some outcome := by
  induction fuel generalizing jobs outcome with
  | zero => exact absurd h (by simp [claimLoop])
  | succ fuel ih =>
    rw [claimLoop] at h ⊢
    cases hsel : pendingJobClaimStatement now (now - queue.leaseSeconds) locked jobs with
    | none => rwa [hsel] at h
    | some job =>
      rw [hsel] at h
      dsimp only at h ⊢
      by_cases hex : jobAttemptsExhausted job = true
      · rw [if_pos hex] at h ⊢
        obtain ⟨rest, hrest, rfl⟩ := Option.map_eq_some_iff.mp h
        rw [ih hrest, Option.map_some]
      · rwa [if_neg hex] at h ⊢

/-- With more fuel than there are rows the loop gives what the poll leads to. -/
theorem claimLoop_eq {fuel : ℕ} (h : jobs.rows.length < fuel) :
    queue.claimLoop now locked fuel jobs = some (queue.claimNextPending now locked jobs) := by
  induction fuel, h using Nat.le_induction with
  | base => exact (Option.some_get _).symm
  | succ fuel _ ih => exact claimLoop_succ ih

/-- **Main result.** The loop of `claim_next_pending` ends. Its outcome is the one `Polled`
describes: the ticket is for the least claimable row with attempts left, exactly the exhausted
claimable rows before that one are failed, and nothing else changes. There is no ticket exactly
when no claimable row has attempts left, and then all the exhausted claimable rows are failed. -/
theorem claimNextPending_takes_next (queue : DatabaseIngestJobQueue) (now : ℚ) (locked : List ℕ)
    (jobs : IngestJobs) :
    ∃ outcome taken,
      (∀ fuel, jobs.rows.length < fuel →
        queue.claimLoop now locked fuel jobs = some outcome) ∧
      queue.Polled now locked jobs outcome taken ∧
      (outcome.ticket = none ↔
        ∀ job ∈ jobs.rows, queue.Claimable now locked job → ¬job.AttemptsLeft) ∧
      ∀ ticket ∈ outcome.ticket, ∃ job row, queue.NextPending now locked jobs job ∧
        row ∈ outcome.jobs.rows ∧ row.id = job.id ∧ row.status = .processing ∧
        row.attemptCount = job.attemptCount + 1 ∧ row.claimedAt = some now ∧
        row.heartbeatAt = some now ∧ row.lockedBy = some queue.workerId ∧
        ticket = .fromModel row := by
  obtain ⟨taken, hpolled⟩ := exists_polled queue now locked jobs
  refine ⟨_, taken, fun fuel ↦ claimLoop_eq, hpolled, ?_, ?_⟩
  · rw [hpolled.ticket_eq, Option.map_eq_none_iff]
    refine ⟨hpolled.taken_none, fun hnone ↦ Option.eq_none_iff_forall_not_mem.mpr fun job hjob ↦ ?_⟩
    have hnext := hpolled.taken_next job hjob
    exact hnone job hnext.mem hnext.claimable hnext.attemptsLeft
  · intro ticket hticket
    rw [hpolled.ticket_eq] at hticket
    obtain ⟨job, htaken, rfl⟩ := Option.map_eq_some_iff.mp hticket
    have hnext := hpolled.taken_next job htaken
    refine ⟨job, (claimJobForWorker now queue.workerId).app job, hnext, ?_, rfl, rfl, rfl, rfl, rfl,
      rfl, rfl⟩
    rw [hpolled.rows_eq]
    refine List.mem_map.mpr ⟨job, hnext.mem, ?_⟩
    rw [polled, if_pos htaken]

end DatabaseIngestJobQueue

end KnowledgeAlakazam
