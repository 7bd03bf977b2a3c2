import KnowledgeAlakazam.Wiki.CompileFailure

/-!
# Does a compile settle its job?

A compile that returns should leave its job succeeded, and one that raises should leave it failed,
with an error that says something. The row goes through four units of work: it is created, marked
processing, and marked succeeded or failed at the end. Only what comes after the second one stands
in the `try` block, and the `except` block starts by reading the id of the job. That is an
attribute of an object of the session, which any unit of work that is rolled back has expired: then
the reading itself raises, and nothing marks the job.

`compileSettles_iff` is the exact answer, from the moment the row is committed on: the job is
settled if and only if it could be marked processing and either there was nothing to write the page
from, or the title could not be read, in both cases for a reason that has a text, or no statement
and no commit raised. Of the failing calls, `lost_page_leaves_processing` loses the connection at
the page, `lost_start_leaves_pending` before the `try` block, and in
`silent_exception_leaves_no_error` the query times out with an exception that has no text.
-/

namespace KnowledgeAlakazam

open Program WikiRepository

/-- The row of the job has this status and this error. -/
def WikiStore.JobIs (w : WikiStore) (jobId : ℕ) (status : String) (error : Option String) : Prop :=
  (w.compileJobs.find jobId).map (fun row ↦ (row.status, row.error)) = some (status, error)

instance (w : WikiStore) (jobId : ℕ) (status : String) (error : Option String) :
    Decidable (w.JobIs jobId status error) := inferInstanceAs (Decidable (_ = _))

theorem WikiStore.JobIs.isSome {w : WikiStore} {jobId : ℕ} {status : String}
    {error : Option String} (h : w.JobIs jobId status error) :
    (w.compileJobs.find jobId).isSome := by
  obtain ⟨row, hrow, -⟩ := Option.map_eq_some_iff.mp h
  rw [hrow]
  rfl

section Definitions

variable (unicode : UnicodeData)

namespace WikiCompiler

/-- A compile as far as the commit of its job's row. -/
def openJob (call : CompileCall) : WikiProgram (CompileRequest × WikiCompileJob) := do
  let request ← ofExcept (call.request unicode)
  let job ← transaction
    (createCompileJob request.tenantId request.jobSourceId (some request.slug))
  return (request, job)

/-- The work on a job that was opened: the second half of `_start_job`, and the `try` block. -/
def workOnJob (request : CompileRequest) (answer : Except PyException RAGQueryResult)
    (job : WikiCompileJob) : WikiProgram WikiCompileResult := do
  let job ← transaction (markCompileJobProcessing job.id)
  fillPage unicode request answer job

end WikiCompiler

open WikiCompiler

/-- If the work on the job is interrupted, the job can be marked failed then. -/
def MarkFailedSucceeds (request : CompileRequest) (answer : Except PyException RAGQueryResult)
    (job : WikiCompileJob) (s : Session WikiStore PyException) : Prop :=
  match workOnJob unicode request answer job s with
  | (.ok _, _) => True
  | (.error e, s') => (transaction (markCompileJobFailed job.id e.text) s').1.isOk = true

instance (request : CompileRequest) (answer : Except PyException RAGQueryResult)
    (job : WikiCompileJob) (s : Session WikiStore PyException) :
    Decidable (MarkFailedSucceeds unicode request answer job s) := by
  unfold MarkFailedSucceeds
  split <;> infer_instance

/-- A call that returns leaves its job succeeded. A call that raises leaves it failed, with an
error that is not empty, and raises the exception that interrupted the work on the job. -/
def Settles (request : CompileRequest) (answer : Except PyException RAGQueryResult)
    (job : WikiCompileJob) (s : Session WikiStore PyException)
    (ending : Except PyException WikiCompileResult × Session WikiStore PyException) : Prop :=
  match ending with
  | (.ok _, s') => s'.committed.JobIs job.id "succeeded" none
  | (.error e, s') => (workOnJob unicode request answer job s).1 = .error e ∧
    ∃ text, text ≠ "" ∧ s'.committed.JobIs job.id "failed" (some text)

/-- What interrupts the compile, if something does, is an error with a text, and comes before the
first unit of work of the page. -/
def CompileInput.Recordable (input : CompileInput) (store : WikiStore)
    (outcomes : List (Option PyException)) : Prop :=
  match interruption (input.pageStart store) outcomes with
  | some e => e.text ≠ ""
  | none => interruption (input.length unicode store) outcomes = none

instance (input : CompileInput) (store : WikiStore) (outcomes : List (Option PyException)) :
    Decidable (input.Recordable unicode store outcomes) := by
  unfold CompileInput.Recordable
  split <;> infer_instance

/-- The job can be marked processing, and what interrupts the compile then is recorded. -/
def Settleable (call : CompileCall) (answer : Except PyException RAGQueryResult)
    (store : WikiStore) (outcomes : List (Option PyException)) : Prop :=
  interruption 4 outcomes = none ∧
    match call.input unicode answer with
    | .error e => e.text ≠ ""
    | .ok input => input.Recordable unicode store outcomes

instance (call : CompileCall) (answer : Except PyException RAGQueryResult) (store : WikiStore)
    (outcomes : List (Option PyException)) :
    Decidable (Settleable unicode call answer store outcomes) :=
  @instDecidableAnd _ _ _ <| match call.input unicode answer with
    | .error e => (inferInstance : Decidable (e.text ≠ ""))
    | .ok input => (inferInstance : Decidable (input.Recordable unicode store outcomes))

end Definitions

/-! ## The job's row -/

namespace WikiCompiler

variable (W : WikiStore)

theorem inTx_createCompileJob_find (tenantId sourceId : String) (targetSlug : Option String) :
    InTx (createCompileJob tenantId sourceId targetSlug) W fun job W' ↦
      W'.JobIs job.id "pending" none := by
  refine (InTx.freshId (T := fun _ _ ↦ True) fun _ ↦ trivial).bind fun id W₁ _ ↦ ?_
  refine InTx.statement fun job W' h ↦ ?_
  split at h
  · rename_i jobs hins
    obtain ⟨rfl, rfl⟩ := Prod.mk.inj (Except.ok.inj h)
    exact congrArg _ (Table.find_insert_self hins)
  · cases h

theorem inTx_updateCompileJobStatus_find (jobId : ℕ) (status : String) (error : Option String) :
    InTx (updateCompileJobStatus jobId status error) W fun job W' ↦
      job.id = jobId ∧ W'.JobIs jobId status error := by
  refine InTx.statement fun job W' h ↦ ?_
  split at h
  · rename_i row hfind
    obtain ⟨rfl, rfl⟩ := Prod.mk.inj (Except.ok.inj h)
    exact ⟨Table.primary_of_find hfind, congrArg _ (Table.find_modify_self hfind _)⟩
  · cases h

theorem outTx_updateCompileJobStatus (jobId : ℕ) (status : String) (error : Option String) :
    OutTx (transaction (updateCompileJobStatus jobId status error)) W
      (fun job W' ↦ job.id = jobId ∧ W'.JobIs jobId status error)
      fun _ W' ↦ W = W' :=
  OutTx.transaction (inTx_updateCompileJobStatus_find W jobId status error) fun _ ↦ rfl

variable (unicode : UnicodeData)

theorem outTx_writePage_jobs (tenantId slug : String) (evidence : CompilerEvidence)
    (title : Option String) :
    OutTx (writePage unicode tenantId slug evidence title) W
      (fun _ W' ↦ W'.compileJobs = W.compileJobs) fun _ W' ↦ W'.compileJobs = W.compileJobs := by
  refine (outTx_writePage unicode W tenantId slug evidence title).mono ?_ ?_
  · rintro written W' ⟨⟨resolved, update, page, W₁, -, rfl, hprep, hwritten⟩, -⟩
    exact Written.compileJobs hprep hwritten
  · rintro e _ rfl
    rfl

theorem outTx_addClaims (tenantId : String) (written : PageWritten) :
    OutTx (written.claims.mapM' (addClaim unicode tenantId written)) W
      (fun _ W' ↦ W'.compileJobs = W.compileJobs) fun _ W' ↦ W'.compileJobs = W.compileJobs := by
  refine OutTx.mapM' (I := fun _ _ (W' : WikiStore) ↦ W'.compileJobs = W.compileJobs)
    (fun claimText _ _ W₁ h ↦ ?_) rfl
  refine (WikiService.outTx_addClaimWithSources unicode W₁ _ _ claimText _ _ _).mono ?_ ?_
  · rintro bundle W' ⟨resolved, -, hadded, -⟩
    rw [hadded.store]
    exact h
  · rintro e _ rfl
    exact h

/-- What the `try` block does to the jobs: all of it marks this one succeeded, any part of it
changes none. -/
theorem outTx_fillPage (request : CompileRequest) (answer : Except PyException RAGQueryResult)
    (job : WikiCompileJob) :
    OutTx (fillPage unicode request answer job) W (fun _ W' ↦ W'.JobIs job.id "succeeded" none)
      fun _ W' ↦ W'.compileJobs = W.compileJobs := by
  refine ((outTx_searchEvidence unicode W request answer).mono (fun _ _ h ↦ h) ?_).bind ?_
  · rintro e _ rfl
    rfl
  rintro evidence _ rfl
  have hpage : OutTx (updateExistingPageWithEvidence unicode request.tenantId request.slug evidence
      (some request.title)) W (fun _ W' ↦ W'.compileJobs = W.compileJobs)
      fun _ W' ↦ W'.compileJobs = W.compileJobs := by
    refine (outTx_writePage_jobs W unicode request.tenantId request.slug evidence _).bind
      fun written W₁ hsame ↦ ?_
    refine ((outTx_addClaims W₁ unicode request.tenantId written).mono (fun _ _ h ↦ h.trans hsame)
      fun _ _ h ↦ h.trans hsame).bind fun _ W₂ h ↦ ?_
    exact OutTx.pure h
  refine hpage.bind fun page W₁ hsame ↦ ?_
  refine ((outTx_updateCompileJobStatus W₁ job.id "succeeded" none).mono (fun _ _ h ↦ h) ?_).bind
    fun _ W' h ↦ OutTx.pure h.2
  rintro e _ rfl
  exact hsame

section Opened

variable {unicode : UnicodeData} {call : CompileCall} {answer : Except PyException RAGQueryResult}
  {request : CompileRequest} {job : WikiCompileJob} {s s₁ : Session WikiStore PyException}

theorem openJob_ok (h : openJob unicode call s = (.ok (request, job), s₁)) :
    call.request unicode = .ok request ∧ transaction (createCompileJob request.tenantId
      request.jobSourceId (some request.slug)) s = (.ok job, s₁) := by
  unfold openJob at h
  cases hrequest : call.request unicode with
  | error e =>
    rw [hrequest] at h
    cases h
  | ok request' =>
    rw [hrequest] at h
    replace h := (bind_ok rfl).symm.trans h
    rcases hcreate : transaction (createCompileJob request'.tenantId request'.jobSourceId
      (some request'.slug)) s with ⟨e | job', s'⟩
    · rw [bind_error hcreate] at h
      cases h
    · rw [bind_ok hcreate] at h
      obtain ⟨hresult, rfl⟩ := Prod.mk.inj h
      obtain ⟨rfl, rfl⟩ := Prod.mk.inj (Except.ok.inj hresult)
      exact ⟨rfl, hcreate⟩

theorem program_of_openJob (h : openJob unicode call s = (.ok (request, job), s₁)) :
    call.program unicode answer s = (transaction (markCompileJobProcessing job.id) >>= fun job ↦
      loading >>= fun loaded ↦ Program.except (fillPage unicode request answer job)
        (recordFailure loaded job)) s₁ := by
  obtain ⟨hrequest, hcreate⟩ := openJob_ok h
  rw [CompileCall.program_eq, hrequest]
  refine (bind_ok rfl).trans ?_
  unfold compile startJob
  rw [bind_assoc, bind_ok hcreate]

end Opened

theorem outTx_openJob (call : CompileCall) :
    OutTx (openJob unicode call) W (fun opened W' ↦ W'.JobIs opened.2.id "pending" none)
      fun _ _ ↦ True := by
  refine (OutTx.ofExcept (Q := fun _ W' ↦ W = W') (fun _ _ ↦ rfl) fun _ _ ↦ trivial).bind ?_
  rintro request _ rfl
  refine (OutTx.transaction (inTx_createCompileJob_find W request.tenantId request.jobSourceId
    (some request.slug)) fun _ ↦ trivial).bind fun job W' h ↦ ?_
  exact OutTx.pure h

end WikiCompiler

/-! ## The law -/

section Law

open WikiCompiler

variable (unicode : UnicodeData)

theorem WikiStore.JobIs.status_eq {w : WikiStore} {jobId : ℕ} {status status' : String}
    {error error' : Option String} (h : w.JobIs jobId status error)
    (h' : w.JobIs jobId status' error') : status = status' ∧ error = error' :=
  Prod.mk.inj (Option.some.inj (h.symm.trans h'))

theorem Settles.of_raised {unicode : UnicodeData} {request : CompileRequest}
    {answer : Except PyException RAGQueryResult} {job : WikiCompileJob}
    {s : Session WikiStore PyException}
    {ending : Except PyException WikiCompileResult × Session WikiStore PyException}
    (h : Settles unicode request answer job s ending) (hraised : ending.1.isOk = false)
    (status : String) (error : Option String)
    (hrow : ending.2.committed.JobIs job.id status error) :
    status = "failed" ∧ error ≠ some "" := by
  obtain ⟨e | result, s'⟩ := ending
  · obtain ⟨-, text, htext, hfailed⟩ := h
    obtain ⟨rfl, rfl⟩ := hfailed.status_eq hrow
    exact ⟨rfl, fun hempty ↦ htext (Option.some.inj hempty)⟩
  · cases hraised

section Interrupted

variable {unicode} {request : CompileRequest} {answer : Except PyException RAGQueryResult}
  {job job' : WikiCompileJob} {s s₁ s₂ : Session WikiStore PyException} {S₁ : WikiStore}
  {e : PyException}

/-- A `try` block that was interrupted before anything was rolled back: the job is marked failed,
and it depends on the text of the error whether that says something. -/
theorem settles_iff_of_kept (hmark : MarkFailedSucceeds unicode request answer job s)
    (hstart : transaction (markCompileJobProcessing job.id) s = (.ok job', s₁))
    (hid : job'.id = job.id) (hidle₁ : s₁.Idle S₁)
    (hfill : fillPage unicode request answer job' s₁ = (.error e, s₂))
    (hkept : s₂.rollbacks = s₁.rollbacks) :
    Settles unicode request answer job s (Program.except (fillPage unicode request answer job')
        (recordFailure s₁.rollbacks job') s₁) ↔ e.text ≠ "" := by
  obtain ⟨S₂, hidle₂, -⟩ := (outTx_fillPage S₁ unicode request answer job').error hidle₁ hfill
  have hwork : workOnJob unicode request answer job s = (.error e, s₂) :=
    (bind_ok hstart).trans hfill
  have hread : (attributeOf s₁.rollbacks job'.id : WikiProgram ℕ) s₂ = (.ok job.id, s₂) := by
    rw [hid]
    exact if_pos hkept
  unfold MarkFailedSucceeds at hmark
  unfold Settles
  rw [hwork] at hmark ⊢
  obtain ⟨row, hfail⟩ := run_ok hmark
  obtain ⟨S₃, hidle₃, -, hfailed⟩ := (outTx_updateCompileJobStatus S₂ job.id _ _).ok hidle₂ hfail
  have hend : (recordFailure s₁.rollbacks job' e : WikiProgram WikiCompileResult) s₂ =
      (.error e, _) := (bind_ok hread).trans (bind_ok hfail)
  rw [except_error hfill, hend]
  dsimp only
  rw [hidle₃.committed]
  refine ⟨?_, fun htext ↦ ⟨rfl, e.text, htext, hfailed⟩⟩
  rintro ⟨-, text, htext, hrow⟩
  rwa [Option.some.inj (hfailed.status_eq hrow).2]

/-- A unit of work of the `try` block that was interrupted: the job is not marked. -/
theorem not_settles_of_discarded (hmark : MarkFailedSucceeds unicode request answer job s)
    (hstart : transaction (markCompileJobProcessing job.id) s = (.ok job', s₁))
    (hidle₁ : s₁.Idle S₁) (hrow : S₁.JobIs job.id "processing" none)
    (hfill : fillPage unicode request answer job' s₁ = (.error e, s₂))
    (hdiscarded : Discarded s₁.rollbacks s₂) :
    ¬Settles unicode request answer job s (Program.except (fillPage unicode request answer job')
        (recordFailure s₁.rollbacks job') s₁) := by
  obtain ⟨S₂, hidle₂, hjobs⟩ := (outTx_fillPage S₁ unicode request answer job').error hidle₁ hfill
  have hwork : workOnJob unicode request answer job s = (.error e, s₂) :=
    (bind_ok hstart).trans hfill
  rcases hdiscarded with hrolled | ⟨-, rest, hrefused⟩
  · -- the id of the job has expired
    have hread : (attributeOf s₁.rollbacks job'.id : WikiProgram ℕ) s₂ =
        (.error SessionErrors.missingGreenlet, s₂) := if_neg (Nat.ne_of_gt hrolled)
    rw [except_error hfill, show (recordFailure s₁.rollbacks job' e : WikiProgram
      WikiCompileResult) s₂ = _ from bind_error hread]
    rintro ⟨-, text, -, hfailed⟩
    rw [hidle₂.committed] at hfailed
    have hkept : S₂.JobIs job.id "processing" none := by
      rw [WikiStore.JobIs, hjobs]
      exact hrow
    exact absurd (hkept.status_eq hfailed).1 (by decide)
  · -- the session could not have marked the job
    unfold MarkFailedSucceeds at hmark
    rw [hwork] at hmark
    dsimp only at hmark
    rw [markCompileJobFailed, updateCompileJobStatus, transaction_refused hidle₂ hrefused] at hmark
    exact absurd hmark Bool.false_ne_true

end Interrupted

/-- The `try` block of a compile that has an input: the title is read first, and units of work
follow. -/
theorem settles_iff_of_input {input : CompileInput} {answer : Except PyException RAGQueryResult}
    {job job' : WikiCompileJob} {s s₁ : Session WikiStore PyException} {S₁ store : WikiStore}
    {outcomes : List (Option PyException)} (hmade : input.MadeFrom unicode answer)
    (hmark : MarkFailedSucceeds unicode input.request answer job s)
    (hstart : transaction (markCompileJobProcessing job.id) s = (.ok job', s₁))
    (hid : job'.id = job.id) (hidle₁ : s₁.Idle S₁) (hrow : S₁.JobIs job.id "processing" none)
    (hnum₁ : S₁.Numbered s₁.nextId) (hpages₁ : S₁.pages = store.pages)
    (houtcomes₁ : s₁.outcomes = outcomes.drop 4) (hfour : interruption 4 outcomes = none)
    (hdriver : DriverErrors outcomes) :
    Settles unicode input.request answer job s
        (Program.except (fillPage unicode input.request answer job')
          (recordFailure s₁.rollbacks job') s₁) ↔
      input.Recordable unicode store outcomes := by
  have hopened : Session.Between (input.Opened (input.found store) job'.id) s₁ := by
    refine ⟨S₁, hidle₁, ⟨hnum₁, ?_⟩, hid ▸ hrow.isSome⟩
    rw [CompileInput.found, WikiStore.pageBySlug, hpages₁]
    rfl
  have hdriver₁ : DriverErrors s₁.outcomes := fun e he ↦
    hdriver e (List.mem_of_mem_drop (houtcomes₁ ▸ he))
  have htitles := takes_resolvePageTitle (input.found store) (R := input.Opened
    (input.found store) job'.id) hmade.named fun _ _ h ↦ h.1.2
  rw [CompileInput.Recordable, CompileInput.length, CompileInput.pageEnd, Nat.add_assoc,
    interruption_add (input.pageStart store), CompileInput.pageStart, interruption_add, hfour,
    Option.none_or, ← houtcomes₁, ← List.drop_drop, ← houtcomes₁]
  cases hread : interruption (CompileInput.titleLength (input.found store)) s₁.outcomes with
  | some e =>
    obtain ⟨s₂, hrun, hkept⟩ := htitles.run_error ⟨hopened, hdriver₁⟩ hread
    exact settles_iff_of_kept hmark hstart hid hidle₁
      ((fillPage_eq_titled hmade job' s₁).trans (bind_error hrun)) hkept
  | none =>
    obtain ⟨title, s₂, hrun, hpassed, S₂, hidle₂, rfl, hopened₂⟩ :=
      htitles.run_ok ⟨hopened, hdriver₁⟩ hread
    have hfills := takes_fillTitled hmade job' store
    have hfilled := (fillPage_eq_titled hmade job' s₁).trans (bind_ok hrun)
    rw [← hpassed.outcomes]
    dsimp only
    rw [Option.none_or]
    cases hrest : interruption (input.pageLength unicode store + input.finishLength unicode)
      s₂.outcomes with
    | some e =>
      obtain ⟨s₃, hrun₃, hdiscarded⟩ := hfills.run_error ⟨S₂, hidle₂, hopened₂⟩ hrest
      rw [hpassed.rollbacks] at hdiscarded
      exact iff_of_false (not_settles_of_discarded hmark hstart hidle₁ hrow
        (hfilled.trans hrun₃) hdiscarded) (by simp)
    | none =>
      obtain ⟨result, s₃, hrun₃, -⟩ := hfills.run_ok ⟨S₂, hidle₂, hopened₂⟩ hrest
      obtain ⟨S₃, hidle₃, hdone⟩ := (outTx_fillPage S₁ unicode input.request answer job').ok hidle₁
        (hfilled.trans hrun₃)
      refine iff_of_true ?_ rfl
      rw [except_ok (hfilled.trans hrun₃)]
      change s₃.committed.JobIs job.id "succeeded" none
      rw [hidle₃.committed, ← hid]
      exact hdone

/-- **Main result.** From the moment the job's row is committed, and provided that the job can be
marked failed when it comes to that, a compile settles its job just if it is interrupted where the
failure path can say so, or not at all. -/
theorem compileSettles_iff (call : CompileCall) (answer : Except PyException RAGQueryResult)
    (store : WikiStore) (nextId : ℕ) (outcomes : List (Option PyException))
    (hstore : store.Numbered nextId) (hdriver : DriverErrors outcomes)
    {request : CompileRequest} {job : WikiCompileJob} {s : Session WikiStore PyException}
    (hopen : openJob unicode call (Session.start store nextId outcomes) = (.ok (request, job), s))
    (hmark : MarkFailedSucceeds unicode request answer job s) :
    Settles unicode request answer job s
        (call.program unicode answer (Session.start store nextId outcomes)) ↔
      Settleable unicode call answer store outcomes := by
  obtain ⟨S, hidle, hpending⟩ := (outTx_openJob store unicode call).ok
    (Session.idle_start store nextId outcomes) hopen
  obtain ⟨hrequest, hcreate⟩ := openJob_ok hopen
  rw [program_of_openJob hopen]
  unfold Settleable
  rw [CompileCall.input, hrequest, show (4 : ℕ) = 2 + 2 from rfl, interruption_add]
  -- the row is committed, so nothing has raised yet
  have hcreates := takes_createCompileJob request.tenantId request.jobSourceId
    (some request.slug) (R := fun n S ↦ S.Numbered n ∧ S.pages = store.pages)
    (fun n S jobs h hjobs ↦
      ⟨{ WikiStore.Numbered.mono _ _ _ (Nat.le_succ n) h.1 with compileJobs := hjobs }, h.2⟩)
    fun n S h ↦ h.1
  have hbetween : Session.Between (fun n S ↦ S.Numbered n ∧ S.pages = store.pages)
    (Session.start store nextId outcomes) :=
      ⟨store, Session.idle_start store nextId outcomes, hstore, rfl⟩
  have htwo : interruption 2 outcomes = none := by
    cases htwo : interruption 2 outcomes with
    | none => rfl
    | some e =>
      obtain ⟨s', hrun, -⟩ := hcreates.run_error hbetween htwo
      exact nomatch hcreate.symm.trans hrun
  obtain ⟨job₀, s₀, hrun, hpassed, hopened⟩ := hcreates.run_ok hbetween htwo
  obtain ⟨hjob, rfl⟩ := Prod.mk.inj (hrun.symm.trans hcreate)
  obtain rfl := Except.ok.inj hjob
  have houtcomes : s₀.outcomes = outcomes.drop 2 := hpassed.outcomes
  have hprocesses : Takes Discarded _ (transaction (markCompileJobProcessing job₀.id)) 2 _ :=
    takes_updateCompileJobStatus job₀.id "processing" none
      (R := fun n S ↦ S.Numbered n ∧ S.pages = store.pages) fun n S patch h ↦
        ⟨{ h.1 with compileJobs := h.1.compileJobs.modify _ _ }, h.2⟩
  rw [htwo, Option.none_or, ← houtcomes]
  cases hfour : interruption 2 s₀.outcomes with
  | some e =>
    -- the handler is not there yet, and the row stays as it was created
    obtain ⟨s₁, hstart, -⟩ := hprocesses.run_error hopened hfour
    obtain ⟨S₁, hidle₁, rfl⟩ := (outTx_updateCompileJobStatus S job₀.id _ _).error hidle hstart
    refine ⟨?_, fun h ↦ absurd h.1 (by simp)⟩
    unfold Settles
    rw [bind_error hstart]
    rintro ⟨-, text, -, hfailed⟩
    rw [hidle₁.committed] at hfailed
    exact absurd (hpending.status_eq hfailed).1 (by decide)
  | none =>
    obtain ⟨job', s₁, hstart, hpassed₁, S₁, hidle₁, hid, ⟨hnum₁, hpages₁⟩, hfind₁⟩ :=
      hprocesses.run_ok hopened hfour
    obtain ⟨S₁', hidle₁', -, hrow⟩ := (outTx_updateCompileJobStatus S job₀.id _ _).ok hidle hstart
    obtain rfl := hidle₁.committed.symm.trans hidle₁'.committed
    rw [bind_ok hstart]
    change Settles unicode request answer job₀ s₀ (Program.except _ _ s₁) ↔
      none = none ∧ (match request.input unicode answer with | .error e => _ | .ok input => _)
    rw [eq_self, true_and]
    cases hinput : request.input unicode answer with
    | error e =>
      exact settles_iff_of_kept hmark hstart hid hidle₁ (fillPage_error hinput job' s₁) rfl
    | ok input =>
      obtain ⟨rfl, hmade⟩ := CompileRequest.madeFrom_of_input hinput
      have houtcomes₁ : s₁.outcomes = outcomes.drop 4 := by
        rw [hpassed₁.outcomes, houtcomes, List.drop_drop]
      have hnone : interruption 4 outcomes = none := by
        rw [show (4 : ℕ) = 2 + 2 from rfl, interruption_add, htwo, Option.none_or, ← houtcomes,
          hfour]
      exact settles_iff_of_input unicode hmade hmark hstart hid hidle₁ hrow hnum₁ hpages₁
        houtcomes₁ hnone hdriver

end Law

/-- A compile that nothing interrupts settles its job. -/
theorem twoClaims_settles :
    ∃ request job s,
      WikiCompiler.openJob asciiData (.sourceToPages "acme" "d" none) (Session.start .empty 0 [])
        = (.ok (request, job), s) ∧
      Settles asciiData request (.ok twoClaims) job s
        ((CompileCall.sourceToPages "acme" "d" none).program asciiData (.ok twoClaims)
          (Session.start .empty 0 [])) := by
  have hopen : ∃ request job s,
      WikiCompiler.openJob asciiData (.sourceToPages "acme" "d" none) (Session.start .empty 0 [])
        = (.ok (request, job), s) ∧ MarkFailedSucceeds asciiData request (.ok twoClaims) job s :=
    ⟨_, _, _, rfl, by decide +kernel⟩
  obtain ⟨request, job, s, hopen, hmark⟩ := hopen
  refine ⟨request, job, s, hopen, ?_⟩
  rw [compileSettles_iff asciiData _ _ _ _ _
    ⟨.empty 0, .empty 0, .empty 0, .empty 0, .empty 0, .empty 0⟩
    (fun _ h ↦ absurd h List.not_mem_nil) hopen hmark]
  decide +kernel

/-! ## The failing calls -/

/-- The connection is lost at the `INSERT` of the page: the job stays in processing. -/
theorem lost_page_leaves_processing :
    ∃ request job s,
      WikiCompiler.openJob asciiData (.sourceToPages "acme" "d" none)
        (Session.start .empty 0 (lostAt 6)) = (.ok (request, job), s) ∧
      MarkFailedSucceeds asciiData request (.ok twoClaims) job s ∧
      ¬Settles asciiData request (.ok twoClaims) job s
        ((CompileCall.sourceToPages "acme" "d" none).program asciiData (.ok twoClaims)
          (Session.start .empty 0 (lostAt 6))) := by
  refine ⟨_, _, _, rfl, by decide +kernel, fun h ↦ ?_⟩
  exact absurd (h.of_raised (by decide +kernel) "processing" none (by decide +kernel)).1 (by decide)

/-- The query times out, with an exception that has no text. -/
def silentTimeout : Except PyException RAGQueryResult := .error ⟨"TimeoutError", ""⟩

theorem silent_exception_leaves_no_error :
    ∃ request job s,
      WikiCompiler.openJob asciiData (.sourceToPages "acme" "d" none) (Session.start .empty 0 [])
        = (.ok (request, job), s) ∧
      MarkFailedSucceeds asciiData request silentTimeout job s ∧
      ¬Settles asciiData request silentTimeout job s
        ((CompileCall.sourceToPages "acme" "d" none).program asciiData silentTimeout
          (Session.start .empty 0 [])) := by
  refine ⟨_, _, _, rfl, by decide +kernel, fun h ↦ ?_⟩
  exact (h.of_raised (by decide +kernel) "failed" (some "") (by decide +kernel)).2 rfl

/-- The connection is lost when the job is to be marked processing: it stays pending, though it
could be marked failed. -/
theorem lost_start_leaves_pending :
    ∃ request job s,
      WikiCompiler.openJob asciiData (.sourceToPages "acme" "d" none)
        (Session.start .empty 0 (lostAt 2)) = (.ok (request, job), s) ∧
      MarkFailedSucceeds asciiData request (.ok twoClaims) job s ∧
      ¬Settles asciiData request (.ok twoClaims) job s
        ((CompileCall.sourceToPages "acme" "d" none).program asciiData (.ok twoClaims)
          (Session.start .empty 0 (lostAt 2))) := by
  refine ⟨_, _, _, rfl, by decide +kernel, fun h ↦ ?_⟩
  exact absurd (h.of_raised (by decide +kernel) "pending" none (by decide +kernel)).1 (by decide)

end KnowledgeAlakazam
