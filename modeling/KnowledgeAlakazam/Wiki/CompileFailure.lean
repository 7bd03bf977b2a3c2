import KnowledgeAlakazam.Wiki.CompileSteps

/-!
# Is a compile all-or-nothing?

A compile that fails should leave the wiki as it was, its own job apart. Every unit of work of a
compile is all or nothing, but there is one for the page and one for each claim, and the failure
path never takes back what was committed.

`allOrNothing_iff` is the exact answer, for every call, every answer of the query and every way in
which the statements and commits can end: a compile that raises leaves the wiki as it was if and
only if none of them raises after the commit of the page, which is a fact about the outcomes and
about how many statements a page and its claims take. The failing call is
`failed_compile_leaves_page`: the page is there, with the first of its two claims.
-/

namespace KnowledgeAlakazam

open Program WikiRepository WikiCompiler

section Definitions

variable (unicode : UnicodeData)

/-- The job is new, and nothing else differs. -/
def JobAdded (W W' : WikiStore) (jobId : ℕ) : Prop :=
  SameContent W W' ∧ ∃ row : WikiCompileJob, row.id = jobId ∧
    W'.compileJobs.rows = W.compileJobs.rows ++ [row]

/-- The stores differ in one new compile job, or not at all. -/
def OnlyJobDiffers (W W' : WikiStore) : Prop := W' = W ∨ ∃ jobId, JobAdded W W' jobId

/-- If the call ends by raising, pages, revisions, links, claims and claim sources are those that
were committed before, and so are all compile jobs but its own. -/
def AllOrNothing (store : WikiStore)
    (ending : Except PyException WikiCompileResult × Session WikiStore PyException) : Prop :=
  ending.1.isOk = false → OnlyJobDiffers store ending.2.committed

/-- If no statement of the call raises as far as the commit of the page, none raises after it. -/
def NothingRaisesAfterPage (call : CompileCall) (answer : Except PyException RAGQueryResult)
    (store : WikiStore) (outcomes : List (Option PyException)) : Prop :=
  match call.input unicode answer with
  | .error _ => True
  | .ok input => interruption (input.pageEnd unicode store) outcomes = none →
    interruption (input.length unicode store) outcomes = none

instance (call : CompileCall) (answer : Except PyException RAGQueryResult) (store : WikiStore)
    (outcomes : List (Option PyException)) :
    Decidable (NothingRaisesAfterPage unicode call answer store outcomes) := by
  unfold NothingRaisesAfterPage
  split <;> infer_instance

end Definitions

/-! ## The stages of a compile -/

section Stages

variable {unicode : UnicodeData} {request : CompileRequest}
  {answer : Except PyException RAGQueryResult} {job : WikiCompileJob} {written : PageWritten}
  {s s₁ s₂ : Session WikiStore PyException}

namespace WikiCompiler

theorem compile_of_not_started {e : PyException} (h : startJob request s = (.error e, s₁)) :
    compile unicode request answer s = (.error e, s₁) :=
  bind_error h

theorem compile_of_started (h : startJob request s = (.ok job, s₁)) :
    compile unicode request answer s = Program.except (fillPage unicode request answer job)
      (recordFailure s₁.rollbacks job) s₁ :=
  (bind_ok h).trans (bind_ok rfl)

theorem fillPage_of_no_page {e : PyException}
    (h : fillUpToPage unicode request answer s₁ = (.error e, s₂)) :
    fillPage unicode request answer job s₁ = (.error e, s₂) := by
  rw [fillPage_eq]
  exact bind_error h

theorem fillPage_of_page (h : fillUpToPage unicode request answer s₁ = (.ok written, s₂)) :
    fillPage unicode request answer job s₁ = finishPage unicode request job written s₂ := by
  rw [fillPage_eq]
  exact bind_ok h

end WikiCompiler

end Stages

/-! ## The job's row -/

section Store

variable {W W' : WikiStore} {jobId : ℕ}

theorem JobAdded.onlyJobDiffers (h : JobAdded W W' jobId) : OnlyJobDiffers W W' := .inr ⟨jobId, h⟩

theorem JobAdded.update (h : JobAdded W W' jobId) (patch : Patch WikiCompileJob) :
    JobAdded W { W' with compileJobs := W'.compileJobs.modify jobId patch } jobId := by
  obtain ⟨hsame, row, rfl, hrows⟩ := h
  exact ⟨hsame.trans (SameContent.setJobs W' _), patch.app row, patch.primary_app row,
    Table.rows_modify_last hrows patch⟩

namespace WikiCompiler

theorem inTx_createCompileJob_added (W : WikiStore) (tenantId sourceId : String)
    (targetSlug : Option String) :
    InTx (createCompileJob tenantId sourceId targetSlug) W fun job W' ↦ JobAdded W W' job.id := by
  refine (InTx.freshId (T := fun _ W' ↦ W = W') fun _ ↦ rfl).bind ?_
  rintro id _ rfl
  refine InTx.statement fun job W' h ↦ ?_
  split at h
  · rename_i jobs hins
    obtain ⟨rfl, rfl⟩ := Prod.mk.inj (Except.ok.inj h)
    exact ⟨SameContent.setJobs W _, _, rfl, Table.rows_insert hins⟩
  · exact nomatch h

theorem inTx_updateCompileJobStatus_added (h : JobAdded W W' jobId) (status : String)
    (error : Option String) :
    InTx (updateCompileJobStatus jobId status error) W' fun job W'' ↦
      job.id = jobId ∧ JobAdded W W'' jobId := by
  refine InTx.statement fun job W'' hrun ↦ ?_
  split at hrun
  · rename_i row hfind
    obtain ⟨rfl, rfl⟩ := Prod.mk.inj (Except.ok.inj hrun)
    exact ⟨Table.primary_of_find hfind, h.update _⟩
  · exact nomatch hrun

theorem outTx_startJob_added (W : WikiStore) (request : CompileRequest) :
    OutTx (startJob request) W (fun job W' ↦ JobAdded W W' job.id)
      fun _ W' ↦ OnlyJobDiffers W W' := by
  refine (OutTx.transaction (inTx_createCompileJob_added W request.tenantId request.jobSourceId
    (some request.slug)) fun _ ↦ .inl rfl).bind fun job W₁ h ↦ ?_
  refine OutTx.transaction ?_ fun _ ↦ h.onlyJobDiffers
  exact (inTx_updateCompileJobStatus_added h "processing" none).mono
    fun job' W' ⟨hid, h'⟩ ↦ hid ▸ h'

/-- The failure path ends by raising, and changes the job at most. -/
theorem outTx_recordFailure_added {α : Type} {job : WikiCompileJob} (h : JobAdded W W' job.id)
    (loaded : ℕ) (e : PyException) :
    OutTx (recordFailure loaded job e : WikiProgram α) W' (fun _ _ ↦ False)
      fun _ W'' ↦ OnlyJobDiffers W W'' :=
  OutTx.attributeOf_bind (fun _ ↦ h.onlyJobDiffers)
    ((OutTx.transaction (inTx_updateCompileJobStatus_added h "failed" (some e.text))
      fun _ ↦ h.onlyJobDiffers).bind fun _ _ h' ↦ OutTx.raise h'.2.onlyJobDiffers)

end WikiCompiler

end Store

/-! ## The law -/

section Law

variable {unicode : UnicodeData} {request : CompileRequest}
  {answer : Except PyException RAGQueryResult} {store : WikiStore}

theorem outTx_finishPage (W : WikiStore) (request : CompileRequest) (job : WikiCompileJob)
    (written : PageWritten) :
    OutTx (finishPage unicode request job written) W (fun _ _ ↦ True)
      fun _ W' ↦ W'.revisions = W.revisions := by
  have hclaims : OutTx (written.claims.mapM' (addClaim unicode request.tenantId written)) W
      (fun _ W' ↦ W'.revisions = W.revisions) fun _ W' ↦ W'.revisions = W.revisions := by
    refine OutTx.mapM' (I := fun _ _ (W' : WikiStore) ↦ W'.revisions = W.revisions)
      (fun claimText _ _ W₁ h ↦ ?_) rfl
    refine (WikiService.outTx_addClaimWithSources unicode W₁ _ _ claimText _ _ _).mono ?_ ?_
    · rintro bundle W' ⟨resolved, -, hadded, -⟩
      rw [hadded.store]
      exact h
    · rintro e _ rfl
      exact h
  refine hclaims.bind fun _ W₁ h ↦ ?_
  refine ((outTx_markJobSucceeded W₁ job.id).mono (fun _ _ h ↦ h) ?_).bind fun _ W' h' ↦ ?_
  · intro e W' h'
    rw [h'.revisions, h]
  · exact OutTx.pure trivial

theorem outTx_fillUpToPage (W : WikiStore) (request : CompileRequest)
    (answer : Except PyException RAGQueryResult) :
    OutTx (fillUpToPage unicode request answer) W
      (fun _ W' ↦ W'.revisions.rows.length = W.revisions.rows.length + 1)
      fun _ W' ↦ W = W' := by
  refine (outTx_searchEvidence unicode W request answer).bind ?_
  rintro evidence _ rfl
  exact (outTx_writePage unicode W _ _ evidence _).mono (fun _ _ h ↦ h.length_revisions)
    fun _ _ h ↦ h

theorem onlyJobDiffers_of_no_page {s s₁ s₂ : Session WikiStore PyException} {S₁ : WikiStore}
    {job : WikiCompileJob} {e : PyException} (hstart : startJob request s = (.ok job, s₁))
    (hidle₁ : s₁.Idle S₁) (hadded : JobAdded store S₁ job.id)
    (hpage : fillUpToPage unicode request answer s₁ = (.error e, s₂)) :
    OnlyJobDiffers store (compile unicode request answer s).2.committed := by
  obtain ⟨S₂, hidle₂, rfl⟩ := (outTx_fillUpToPage S₁ request answer).error hidle₁ hpage
  rw [compile_of_started hstart, except_error (fillPage_of_no_page hpage)]
  exact OutTx.committed ((outTx_recordFailure_added hadded s₁.rollbacks e).mono
    (fun _ _ h ↦ h.elim) fun _ _ h ↦ h) hidle₂

/-- A compile that raises when its page is written has added a revision. -/
theorem not_onlyJobDiffers_of_page {s s₁ s₂ s₃ : Session WikiStore PyException} {S₁ : WikiStore}
    {job : WikiCompileJob} {written : PageWritten} {e : PyException}
    (hstart : startJob request s = (.ok job, s₁)) (hidle₁ : s₁.Idle S₁)
    (hadded : JobAdded store S₁ job.id)
    (hpage : fillUpToPage unicode request answer s₁ = (.ok written, s₂))
    (hfinish : finishPage unicode request job written s₂ = (.error e, s₃)) :
    (compile unicode request answer s).1.isOk = false ∧
      ¬OnlyJobDiffers store (compile unicode request answer s).2.committed := by
  obtain ⟨S₂, hidle₂, hlength⟩ := (outTx_fillUpToPage S₁ request answer).ok hidle₁ hpage
  obtain ⟨S₃, hidle₃, hrevisions⟩ := (outTx_finishPage S₂ request job written).error hidle₂ hfinish
  rw [compile_of_started hstart, except_error ((fillPage_of_page hpage).trans hfinish)]
  rcases hrecord : (recordFailure s₁.rollbacks job e : WikiProgram WikiCompileResult) s₃
    with ⟨e' | result, s₄⟩
  · obtain ⟨S₄, hidle₄, hsame⟩ := (outTx_recordFailure S₃ s₁.rollbacks job e).error hidle₃ hrecord
    refine ⟨rfl, fun honly ↦ ?_⟩
    -- the committed page is still there
    have hkept : S₄.revisions = store.revisions := by
      rcases honly with hsame | ⟨jobId, hsame, -⟩
      · rw [← hidle₄.committed, hsame]
      · rw [← hidle₄.committed, hsame.revisions]
    have hcount : store.revisions.rows.length = store.revisions.rows.length + 1 := by
      calc store.revisions.rows.length = S₄.revisions.rows.length := by rw [hkept]
        _ = S₃.revisions.rows.length := by rw [hsame.revisions]
        _ = S₂.revisions.rows.length := by rw [hrevisions]
        _ = S₁.revisions.rows.length + 1 := hlength
        _ = store.revisions.rows.length + 1 := by rw [hadded.1.revisions]
    exact absurd hcount (Nat.succ_ne_self _).symm
  · obtain ⟨-, -, h⟩ := (outTx_recordFailure S₃ s₁.rollbacks job e).ok hidle₃ hrecord
    exact h.elim

theorem allOrNothing_of_input {input : CompileInput} (hmade : input.MadeFrom unicode answer)
    {nextId : ℕ} {outcomes : List (Option PyException)} (hstore : store.Numbered nextId)
    (hdriver : DriverErrors outcomes) :
    AllOrNothing store
        (compile unicode input.request answer (Session.start store nextId outcomes)) ↔
      (interruption (input.pageEnd unicode store) outcomes = none →
        interruption (input.length unicode store) outcomes = none) := by
  have hidle := Session.idle_start (ε := PyException) store nextId outcomes
  have hstarts := takes_startJob_opened input (input.found store)
  have hstart : Session.Between (fun n S ↦ S.Numbered n ∧ input.found S = input.found store)
    (Session.start store nextId outcomes) := ⟨store, hidle, hstore, rfl⟩
  rw [CompileInput.length, interruption_add (input.pageEnd unicode store), CompileInput.pageEnd,
    CompileInput.pageStart, Nat.add_assoc, interruption_add 4]
  cases hfour : interruption 4 outcomes with
  | some e =>
    obtain ⟨s₁, hrun, -⟩ := hstarts.run_error hstart hfour
    refine ⟨fun _ h ↦ absurd h (by simp), fun _ _ ↦ ?_⟩
    rw [compile_of_not_started hrun]
    exact (outTx_startJob_added store input.request).committed_error hidle hrun
  | none =>
    obtain ⟨job, s₁, hrun, hpassed, hopened⟩ := hstarts.run_ok hstart hfour
    obtain ⟨S₁, hidle₁, hadded⟩ := (outTx_startJob_added store input.request).ok hidle hrun
    have houtcomes₁ : s₁.outcomes = outcomes.drop 4 := hpassed.outcomes
    have hpages := takes_fillUpToPage job.id hmade store
    have hpage : Session.Between (input.Opened (input.found store) job.id) s₁ ∧
        DriverErrors s₁.outcomes :=
      ⟨hopened, fun e he ↦ hdriver e (List.mem_of_mem_drop (houtcomes₁ ▸ he))⟩
    rw [Option.none_or, ← houtcomes₁]
    cases hwrite : interruption (CompileInput.titleLength (input.found store)
      + input.pageLength unicode store) s₁.outcomes with
    | some e =>
      obtain ⟨s₂, hrun₂, -⟩ := hpages.run_error hpage hwrite
      exact ⟨fun _ h ↦ absurd h (by simp),
        fun _ _ ↦ onlyJobDiffers_of_no_page hrun hidle₁ hadded hrun₂⟩
    | none =>
      obtain ⟨written, s₂, hrun₂, hpassed₂, S₂, hidle₂, ⟨hslug, hclaims, hsources⟩, hshown⟩ :=
        hpages.run_ok hpage hwrite
      have hfinishes := takes_finishPage written job hslug hclaims hsources hmade.named
      have houtcomes₂ : s₂.outcomes = outcomes.drop (4 +
          (CompileInput.titleLength (input.found store) + input.pageLength unicode store)) := by
        calc s₂.outcomes = s₁.outcomes.drop _ := hpassed₂.outcomes
          _ = (outcomes.drop 4).drop _ := by rw [houtcomes₁]
          _ = outcomes.drop (4 + _) := List.drop_drop
      rw [Option.none_or, ← houtcomes₂]
      cases hlast : interruption (input.finishLength unicode) s₂.outcomes with
      | some e =>
        obtain ⟨s₃, hrun₃, -⟩ := hfinishes.run_error ⟨S₂, hidle₂, hshown⟩ hlast
        obtain ⟨hraised, hdiffers⟩ :=
          not_onlyJobDiffers_of_page hrun hidle₁ hadded hrun₂ hrun₃
        exact ⟨fun hall ↦ absurd (hall hraised) hdiffers, fun h ↦ absurd (h rfl) (by simp)⟩
      | none =>
        obtain ⟨result, s₃, hrun₃, -⟩ := hfinishes.run_ok ⟨S₂, hidle₂, hshown⟩ hlast
        refine ⟨fun _ _ ↦ rfl, fun _ hraised ↦ ?_⟩
        rw [compile_of_started hrun, except_ok ((fillPage_of_page hrun₂).trans hrun₃)] at hraised
        exact nomatch hraised

/-- **Main result.** A compile that raises leaves the wiki as it was, its own job apart, if and
only if no statement raises after the commit of its page. -/
theorem allOrNothing_iff (unicode : UnicodeData) (call : CompileCall)
    (answer : Except PyException RAGQueryResult) (store : WikiStore) (nextId : ℕ)
    (outcomes : List (Option PyException)) (hstore : store.Numbered nextId)
    (hdriver : DriverErrors outcomes) :
    AllOrNothing store (call.program unicode answer (Session.start store nextId outcomes)) ↔
      NothingRaisesAfterPage unicode call answer store outcomes := by
  have hidle := Session.idle_start (ε := PyException) store nextId outcomes
  rw [CompileCall.program_eq]
  unfold NothingRaisesAfterPage CompileCall.input
  cases hrequest : call.request unicode with
  | error e => exact ⟨fun _ ↦ trivial, fun _ _ ↦ .inl rfl⟩
  | ok request =>
    change AllOrNothing store (compile unicode request answer _) ↔
      (match request.input unicode answer with | .error _ => True | .ok input => _)
    cases hinput : request.input unicode answer with
    | error e =>
      refine ⟨fun _ ↦ trivial, fun _ _ ↦ ?_⟩
      rcases hstart : startJob request (Session.start store nextId outcomes) with ⟨e' | job, s₁⟩
      · rw [compile_of_not_started hstart]
        exact (outTx_startJob_added store request).committed_error hidle hstart
      · obtain ⟨S₁, hidle₁, hadded⟩ := (outTx_startJob_added store request).ok hidle hstart
        exact onlyJobDiffers_of_no_page hstart hidle₁ hadded (fillUpToPage_error hinput s₁)
    | ok input =>
      obtain ⟨rfl, hmade⟩ := CompileRequest.madeFrom_of_input hinput
      exact allOrNothing_of_input hmade hstore hdriver

end Law

/-! ## Two calls -/

/-- An answer with two claims and no metadata. -/
def twoClaims : RAGQueryResult := ⟨"Alpha is a claim.\nBeta is a claim.", .dict []⟩

/-- The connection is lost at a statement. -/
def lostAt (n : ℕ) : List (Option PyException) :=
  List.replicate n none ++ [some ⟨"OperationalError", "connection was lost"⟩]

/-- The connection is lost when the page is to be committed: nothing is there but the job. -/
theorem lost_page_leaves_nothing :
    AllOrNothing .empty ((CompileCall.sourceToPages "acme" "d" none).program asciiData
      (.ok twoClaims) (Session.start .empty 0 (lostAt 12))) := by
  refine (allOrNothing_iff asciiData _ _ .empty 0 _ ?_ ?_).mpr (by decide +kernel)
  · exact ⟨.empty 0, .empty 0, .empty 0, .empty 0, .empty 0, .empty 0⟩
  · intro e he
    obtain rfl : e = ⟨"OperationalError", "connection was lost"⟩ := by simpa [lostAt] using he
    decide

/-- The connection is lost at the `INSERT` of the second claim: the call raises, and leaves a page
with the first of its claims. -/
theorem failed_compile_leaves_page :
    ¬AllOrNothing .empty ((CompileCall.sourceToPages "acme" "d" none).program asciiData
      (.ok twoClaims) (Session.start .empty 0 (lostAt 20))) := by
  intro h
  have hrows : ∀ W' : WikiStore, OnlyJobDiffers .empty W' → W'.revisions.rows = [] := by
    rintro W' (rfl | ⟨jobId, hsame, -⟩)
    · rfl
    · rw [hsame.revisions]
      rfl
  exact absurd (hrows _ (h (by decide +kernel))) (by decide +kernel)

end KnowledgeAlakazam
