import KnowledgeAlakazam.Ingest.Acceptance

/-!
# The API and the worker agree on a document

`prepare_document` computes the paths and the raw key of a document from a request. The worker
knows only the row: `prepared_document_for_job` checks the tenant and the source once more and
takes the file name out of the raw key. Both write the same normalisation in their own way.

They agree since each part of the raw key is a path segment (`PreparedFrom.isSegment_filename`),
so that the key can be taken apart again (`safeFilenameFromKey_rawKey`). Rows store the parts as
they are, whoever else writes to the table: `agreeOn_of_written`.
-/

namespace KnowledgeAlakazam

variable {n : ℕ} {site : Site}

/-- The columns of a job that name its document, for this one. -/
def PreparedDocument.document (prepared : PreparedDocument) : String × String × String × String :=
  (prepared.tenantId, prepared.sourceId, prepared.rawBucket, prepared.rawKey)

/-- From the ticket the worker prepares the document that the API prepared from the request. -/
def AgreeOn (site : Site) (request : UploadRequest) (ticket : ClaimedIngestJob) : Prop :=
  ∃ prepared, prepareDocument site request = .ok prepared ∧
    preparedDocumentForJob site ticket = .ok prepared

/-- The call wrote the row, and no later call wrote it again. -/
def WrittenBy (s : Deployment n) (c i : ℕ) : Prop := (s.log.history i).opener = some (.call c)

instance (s : Deployment n) (c i : ℕ) : Decidable (WrittenBy s c i) :=
  inferInstanceAs (Decidable (_ = _))

/-- The result with which `create_pending_job` returns in the transition. -/
def acceptedIn (c : ℕ) (t : Transition (Deployment n) (DeployLabel n)) : Option IngestResult :=
  match t.label with
  | .call d (.accept _ _) =>
    if d = c then ((t.post.calls c).bind ApiCall.accepted).map Prod.fst else none
  | _ => none

/-! ## From the request to the row and back -/

/-- **The worker undoes what the API did**: a ticket with the columns of a prepared document gives
the document. -/
theorem preparedDocumentForJob_eq {request : UploadRequest} {prepared : PreparedDocument}
    {ticket : ClaimedIngestJob} (h : prepareDocument site request = .ok prepared)
    (hticket : (ticket.tenantId, ticket.sourceId, ticket.rawBucket, ticket.rawKey)
      = prepared.document) :
    preparedDocumentForJob site ticket = .ok prepared := by
  obtain ⟨filename, hfrom⟩ := preparedFrom_of_prepareDocument h
  have ht := isSegment_of_ok hfrom.tenant
  have hs := isSegment_of_ok hfrom.source
  simp only [PreparedDocument.document, Prod.mk.injEq] at hticket
  obtain ⟨htenant, hsource, hbucket, hkey⟩ := hticket
  have hname : safeFilenameFromKey ticket.rawKey = .ok filename := by
    rw [hkey, hfrom.rawKey_eq, safeFilenameFromKey_rawKey ht hs hfrom.isSegment_filename]
  rw [preparedDocumentForJob, htenant, hsource, ht.safePathSegment_eq, hs.safePathSegment_eq,
    hname, hbucket, hkey]
  dsimp only [bind, Except.bind, pure, Except.pure]
  rw [← hfrom.stagedPath, ← hfrom.outputDir]

/-! ## What a step does to documents -/

def CallsKept (s s' : Deployment n) : Prop :=
  ∀ c call, s.calls c = some call → ∃ call', s'.calls c = some call' ∧
    call'.prepared = call.prepared

theorem CallsKept.of_eq {s s' : Deployment n} (h : s'.calls = s.calls) : CallsKept s s' :=
  fun _ call hcall ↦ ⟨call, h ▸ hcall, rfl⟩

theorem CallsKept.setCall {s t : Deployment n} {c : ℕ} {call call' : ApiCall}
    (hcalls : t.calls = s.calls) (hcall : s.calls c = some call)
    (hp : call'.prepared = call.prepared) : CallsKept s (t.setCall c call') := by
  intro d other hother
  rw [Deployment.calls_setCall, hcalls]
  split
  · rename_i hd
    obtain rfl := Option.some.inj (hcall.symm.trans (hd ▸ hother))
    exact ⟨call', rfl, hp⟩
  · exact ⟨other, hother, rfl⟩

theorem Moves.callsKept {fleet : Fleet n} {s s' : Deployment n} {label : DeployLabel n}
    (h : Moves site fleet s label s') : CallsKept s s' := by
  cases h with
  | tick hop => exact .of_eq rfl
  | @started c kind request uuid prepared log job hfree hprep hup =>
    intro d other hother
    have hd : d ≠ c := fun hd ↦ by rw [hd, hfree] at hother; exact nomatch hother
    rw [Deployment.calls_setCall, if_neg hd]
    exact ⟨other, hother, rfl⟩
  | gaveUp hcall hpc => exact .setCall rfl hcall rfl
  | raised hcall hpc => exact .setCall rfl hcall rfl
  | markedProcessing hcall hpc hop => exact .setCall rfl hcall rfl
  | uploadedRaw hcall hpc hkey => exact .setCall rfl hcall rfl
  | accepted hcall hpc hraw hup => exact .setCall rfl hcall rfl
  | parsed hcall hpc => exact .setCall rfl hcall rfl
  | uploadedOutput hcall hpc => exact .setCall rfl hcall rfl
  | markedSucceeded hcall hpc hop => exact .setCall rfl hcall rfl
  | markedFailed hcall hpc hop => exact .setCall rfl hcall rfl
  | polled hidle => exact .of_eq rfl
  | ran hrun hnext => exact .of_eq rfl
  | runUploadedOutput hrun hpc hkey => exact .of_eq rfl
  | heartbeat hrun hop => exact .of_eq rfl
  | skipped hrun => exact .of_eq rfl
  | runSucceeded hrun hop => exact .of_eq rfl
  | runFailed hrun hop => exact .of_eq rfl

/-- In the step a call writes the row of its document. -/
def Writes (s s' : Deployment n) : Prop :=
  ∃ c call repo uuid job, s'.calls c = some call ∧
    s.log.upsertPending c repo uuid call.prepared.tenantId call.prepared.sourceId
      call.prepared.rawBucket call.prepared.rawKey = some (s'.log, job)

/-- **What a step does to documents.** Rows change theirs only if a call writes its own. -/
theorem Moves.unopened_or_writes {fleet : Fleet n} {s s' : Deployment n} {label : DeployLabel n}
    (hs : Uploads s) (h : Moves site fleet s label s') :
    JobLog.Unopened s.log s'.log ∨ Writes s s' := by
  have hkept := h.callsKept
  cases h with
  | tick hop => exact Or.inl (JobLog.unopened_tick hop)
  | @started c kind request uuid prepared log job hfree hprep hup =>
    refine Or.inr ⟨c, ⟨kind, prepared, none, kind.firstPc⟩, _, _, job, ?_, hup⟩
    rw [Deployment.calls_setCall, if_pos rfl]
  | gaveUp hcall hpc => exact Or.inl fun _ ↦ ⟨rfl, rfl⟩
  | raised hcall hpc => exact Or.inl fun _ ↦ ⟨rfl, rfl⟩
  | markedProcessing hcall hpc hop => exact Or.inl (JobLog.unopened_markProcessing hop)
  | uploadedRaw hcall hpc hkey => exact Or.inl fun _ ↦ ⟨rfl, rfl⟩
  | @accepted c uuid call rawUpload log job hcall hpc hraw hup =>
    -- what the upload returned is what the document already says
    obtain ⟨rfl, -⟩ := hs.uploaded c call rawUpload hcall hraw
    obtain ⟨call', hcall', hp⟩ := hkept c call hcall
    exact Or.inr ⟨c, call', _, _, job, hcall', by rw [hp]; exact hup⟩
  | parsed hcall hpc => exact Or.inl fun _ ↦ ⟨rfl, rfl⟩
  | uploadedOutput hcall hpc => exact Or.inl fun _ ↦ ⟨rfl, rfl⟩
  | markedSucceeded hcall hpc hop => exact Or.inl (JobLog.unopened_markSucceeded hop)
  | markedFailed hcall hpc hop => exact Or.inl (JobLog.unopened_markFailed hop)
  | @polled w locked hidle =>
    exact Or.inl (JobLog.unopened_claimNextPending s.log (fleet.queue w) locked)
  | ran hrun hnext => exact Or.inl fun _ ↦ ⟨rfl, rfl⟩
  | runUploadedOutput hrun hpc hkey => exact Or.inl fun _ ↦ ⟨rfl, rfl⟩
  | heartbeat hrun hop => exact Or.inl (JobLog.unopened_heartbeat hop)
  | skipped hrun => exact Or.inl fun _ ↦ ⟨rfl, rfl⟩
  | runSucceeded hrun hop => exact Or.inl (JobLog.unopened_workerSucceeded hop)
  | runFailed hrun hop => exact Or.inl (JobLog.unopened_workerFailed hop)

/-! ## Rows and the calls that wrote them -/

/-- Every row names the document of the call that wrote it. -/
def Documented (s : Deployment n) : Prop :=
  ∀ i job, s.log.jobs.find i = some job → ∃ c call, WrittenBy s c i ∧ s.calls c = some call ∧
    JobLog.document job = call.prepared.document

theorem Documented.initial (clock : ℚ) : Documented (Deployment.initial n clock) :=
  fun _ _ h ↦ nomatch h

/-- **One step keeps the invariant.** -/
theorem Documented.move {fleet : Fleet n} {s s' : Deployment n} {label : DeployLabel n}
    (hd : Documented s) (hs : Uploads s) (h : Moves site fleet s label s') : Documented s' := by
  have hkept := h.callsKept
  obtain hu | ⟨c, call, repo, uuid, written, hcall, hup⟩ := h.unopened_or_writes hs
  · intro i job hf
    obtain ⟨old, hold, hdoc⟩ := hu.find hf
    obtain ⟨c, call, hwrote, hcall, hcdoc⟩ := hd i old hold
    obtain ⟨call', hcall', hp⟩ := hkept c call hcall
    exact ⟨c, call', (hu i).1.trans hwrote, hcall', by rw [hp, ← hcdoc, hdoc]⟩
  · intro i job hf
    rw [JobLog.find_upsertPending hup] at hf
    split at hf
    · rename_i hi
      obtain rfl := Option.some.inj hf
      have hrow := JobLog.submitted_upsertPending hup
      refine ⟨c, call, ?_, hcall, ?_⟩
      · rw [WrittenBy, JobLog.history_upsertPending hup, if_pos hi]
        rfl
      · rw [JobLog.document, hrow.tenantId, hrow.sourceId, hrow.rawBucket, hrow.rawKey]
        rfl
    · rename_i hi
      obtain ⟨d, other, hwrote, hother, hdoc⟩ := hd i job hf
      obtain ⟨other', hother', hp⟩ := hkept d other hother
      refine ⟨d, other', ?_, hother', by rw [hp, hdoc]⟩
      rw [WrittenBy, JobLog.history_upsertPending hup, if_neg hi]
      exact hwrote

/-- What holds in a run from the start of a call on. -/
structure Submission (site : Site) (fleet : Fleet n) (c : ℕ) (request : UploadRequest)
    (s : Deployment n) : Prop where
  sound : Sound site fleet s
  uploads : Uploads s
  documented : Documented s
  call : ∃ call, s.calls c = some call ∧ prepareDocument site request = .ok call.prepared

namespace Submission

variable {fleet : Fleet n} {c : ℕ} {request : UploadRequest} {s : Deployment n}

theorem start {kind : CallKind} {uuid : ℕ} {started : Deployment n}
    (hsound : Sound site fleet s) (huploads : Uploads s) (hdocumented : Documented s)
    (h : Moves site fleet s (.start c kind request uuid) started) :
    Submission site fleet c request started where
  sound := hsound.move h
  uploads := huploads.move hsound h
  documented := hdocumented.move huploads h
  call := by
    cases h with
    | started hfree hprep hup =>
      exact ⟨_, by rw [Deployment.calls_setCall, if_pos rfl], hprep⟩

theorem move (hs : Submission site fleet c request s) {label : DeployLabel n} {s' : Deployment n}
    (h : Moves site fleet s label s') : Submission site fleet c request s' where
  sound := hs.sound.move h
  uploads := hs.uploads.move hs.sound h
  documented := hs.documented.move hs.uploads h
  call := by
    obtain ⟨call, hcall, hprep⟩ := hs.call
    obtain ⟨call', hcall', hp⟩ := h.callsKept c call hcall
    exact ⟨call', hcall', hp ▸ hprep⟩

theorem agreeOn (hs : Submission site fleet c request s) {i : ℕ} {job : IngestJob}
    (hf : s.log.jobs.find i = some job) (hwrote : WrittenBy s c i) {ticket : ClaimedIngestJob}
    (hticket : JobLog.document job
      = (ticket.tenantId, ticket.sourceId, ticket.rawBucket, ticket.rawKey)) :
    AgreeOn site request ticket := by
  obtain ⟨d, call, hwrote', hcall, hdoc⟩ := hs.documented i job hf
  obtain rfl : c = d := by simpa using hwrote.symm.trans hwrote'
  obtain ⟨call', hcall', hprep⟩ := hs.call
  obtain rfl := Option.some.inj (hcall.symm.trans hcall')
  exact ⟨call.prepared, hprep, preparedDocumentForJob_eq hprep (hticket.symm.trans hdoc)⟩

theorem agreeOn_issued {t : Transition (Deployment n) (DeployLabel n)}
    (hs : Submission site fleet c request t.pre) {ticket : ClaimedIngestJob}
    (hticket : ticket ∈ issued fleet t) (hwrote : WrittenBy t.pre c ticket.id) :
    AgreeOn site request ticket := by
  rw [issued] at hticket
  split at hticket
  · obtain ⟨job, hf, hdoc⟩ := JobLog.document_of_claimNextPending hticket
    exact hs.agreeOn hf hwrote hdoc
  · cases hticket

end Submission

/-- The row of the job that `create_pending_job` returns. -/
theorem Moves.writtenBy_of_accepted {fleet : Fleet n} {s s' : Deployment n} {c uuid : ℕ}
    {failure : Option PyException} (h : Moves site fleet s (.call c (.accept uuid failure)) s')
    {call : ApiCall} (hcall : s'.calls c = some call) {acc : IngestResult × ℕ}
    (hacc : call.accepted = some acc) :
    ∃ job, s'.log.jobs.find acc.1.jobId = some job ∧ WrittenBy s' c acc.1.jobId := by
  cases h with
  | gaveUp hold hpc =>
    rw [Deployment.failCall, Deployment.calls_setCall, if_pos rfl] at hcall
    obtain rfl := Option.some.inj hcall
    exact nomatch hacc
  | raised hold hpc =>
    rw [Deployment.calls_setCall, if_pos rfl] at hcall
    obtain rfl := Option.some.inj hcall
    exact nomatch hacc
  | @accepted _ _ call rawUpload log job hold hpc hraw hup =>
    rw [Deployment.calls_setCall, if_pos rfl] at hcall
    obtain rfl := Option.some.inj hcall
    obtain rfl := Option.some.inj hacc
    refine ⟨job, ?_, ?_⟩
    · exact (JobLog.find_upsertPending hup _).trans (if_pos rfl)
    · have hhistory := JobLog.history_upsertPending hup job.id
      rw [if_pos rfl] at hhistory
      exact congrArg LeaseHistory.opener hhistory

/-- **Main result.** In any run in which a call starts with a request: when `create_pending_job`
returns, the worker prepares from its row the document that the API prepared, and so it does from
every ticket it gets as long as no other call has written the row. -/
theorem agreeOn_of_written (site : Site) (fleet : Fleet n) (clock : ℚ)
    (before after : List (DeployLabel n)) (c : ℕ) (kind : CallKind) (request : UploadRequest)
    (uuid : ℕ) :
    ∀ started ∈ (run (Deployment.step site fleet) (.initial n clock) before).startCall site c kind
        request uuid,
      ∀ t ∈ trace (Deployment.step site fleet) started after,
        (∀ result ∈ acceptedIn c t, ∃ job, t.post.log.jobs.find result.jobId = some job ∧
          WrittenBy t.post c result.jobId ∧ AgreeOn site request (.fromModel job)) ∧
        ∀ ticket ∈ issued fleet t, WrittenBy t.pre c ticket.id →
          AgreeOn site request ticket := by
  intro started hstarted
  have hstart : Submission site fleet c request started := by
    obtain ⟨hsound, huploads, hdocumented⟩ := run_induction
      (I := fun s : Deployment n ↦ Sound site fleet s ∧ Uploads s ∧ Documented s)
      (fun _ _ _ hs h ↦ ⟨hs.1.move (Deployment.moves_of_step h),
        hs.2.1.move hs.1 (Deployment.moves_of_step h),
        hs.2.2.move hs.2.1 (Deployment.moves_of_step h)⟩)
      ⟨Sound.initial site fleet clock, Uploads.initial clock, Documented.initial clock⟩ before
    have hstep : (run (Deployment.step site fleet) (.initial n clock) before).step site fleet
        (.start c kind request uuid) = some started := hstarted
    exact .start hsound huploads hdocumented (Deployment.moves_of_step hstep)
  intro t ht
  obtain ⟨hpre, hstep, hpost⟩ := trace_invariant
    (fun _ _ _ hs h ↦ hs.move (Deployment.moves_of_step h)) hstart after t ht
  refine ⟨fun result hresult ↦ ?_, fun ticket hticket hwrote ↦ hpre.agreeOn_issued hticket hwrote⟩
  rw [acceptedIn] at hresult
  split at hresult
  · rename_i d uuid' failure hlabel
    split at hresult
    · rename_i hd
      obtain ⟨acc, hacc, rfl⟩ := Option.map_eq_some_iff.mp hresult
      obtain ⟨call, hcall, hacc⟩ := Option.bind_eq_some_iff.mp hacc
      have hmoves := Deployment.moves_of_step hstep
      rw [hlabel, hd] at hmoves
      obtain ⟨job, hf, hwrote⟩ := hmoves.writtenBy_of_accepted hcall hacc
      exact ⟨job, hf, hwrote, hpost.agreeOn hf hwrote rfl⟩
    · cases hresult
  · cases hresult

/-- A request with white space around its names and no source. -/
def spacedRequest : UploadRequest :=
  ⟨["tmp", " Annual report.pdf "], true, "content", " acme ", none⟩

def acceptThenPoll : List (DeployLabel 1) :=
  [.call 0 (.uploadRaw none), .call 0 (.accept 8 none), .poll (Fin.last 0) []]

/-- The API accepts the request, and a worker gets a ticket for it. -/
theorem spacedRequest_agreed :
    ∃ started ∈ (run (Deployment.step defaultSite oneWorker) (.initial 1 0) []).startCall
        defaultSite 0 .submit spacedRequest 7,
      (∃ t ∈ trace (Deployment.step defaultSite oneWorker) started acceptThenPoll,
        ∃ result ∈ acceptedIn 0 t, ∃ job, t.post.log.jobs.find result.jobId = some job ∧
          AgreeOn defaultSite spacedRequest (.fromModel job)) ∧
      ∃ t ∈ trace (Deployment.step defaultSite oneWorker) started acceptThenPoll,
        ∃ ticket ∈ issued oneWorker t, AgreeOn defaultSite spacedRequest ticket := by
  obtain ⟨started, hstarted, ⟨t, ht, result, hresult, -⟩, u, hu, ticket, hticket, hwrote⟩ :
      ∃ started ∈ (run (Deployment.step defaultSite oneWorker) (.initial 1 0) []).startCall
          defaultSite 0 .submit spacedRequest 7,
        (∃ t ∈ trace (Deployment.step defaultSite oneWorker) started acceptThenPoll,
          ∃ result ∈ acceptedIn 0 t, result.status = .pending) ∧
        ∃ t ∈ trace (Deployment.step defaultSite oneWorker) started acceptThenPoll,
          ∃ ticket ∈ issued oneWorker t, WrittenBy t.pre 0 ticket.id := by
    decide +kernel
  have hagree := agreeOn_of_written defaultSite oneWorker 0 [] acceptThenPoll 0 .submit
    spacedRequest 7 started hstarted
  obtain ⟨job, hf, -, hjob⟩ := (hagree t ht).1 result hresult
  exact ⟨started, hstarted, ⟨t, ht, result, hresult, job, hf, hjob⟩, u, hu, ticket, hticket,
    (hagree u hu).2 ticket hticket hwrote⟩

end KnowledgeAlakazam
