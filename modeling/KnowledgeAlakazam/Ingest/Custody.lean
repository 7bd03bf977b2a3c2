import KnowledgeAlakazam.Ingest.Deployment

/-!
# What holds in every deployment

Whatever the calls and the workers do, and whatever fails outside the code, the log stays
coherent, rows and calls are about documents whose tenant and source are path segments, rows are
never lost, and every worker stands in the tenure its ticket was issued for.

These facts say nothing yet about who may write: the claims about lost updates and stale results
are decided in the modules that follow, and they all start from `Sound`.
-/

namespace KnowledgeAlakazam

/-- Rows stay, under their tenant and source. -/
def JobLog.KeysKept (s s' : JobLog) : Prop :=
  ∀ i job, s.jobs.find i = some job →
    ∃ job', s'.jobs.find i = some job' ∧
      (job'.tenantId, job'.sourceId) = (job.tenantId, job.sourceId)

theorem JobLog.Unopened.keysKept {s s' : JobLog} (h : JobLog.Unopened s s') :
    JobLog.KeysKept s s' := by
  intro i job hf
  obtain ⟨job', hf', hdoc⟩ := h.find' hf
  simp only [JobLog.document, Prod.mk.injEq] at hdoc
  exact ⟨job', hf', by rw [hdoc.1, hdoc.2.1]⟩

theorem JobLog.keysKept_upsertPending {s s' : JobLog} {c : ℕ} {repo : IngestJobRepository}
    {uuid : ℕ} {tenantId sourceId rawBucket rawKey : String} {job : IngestJob}
    (h : s.upsertPending c repo uuid tenantId sourceId rawBucket rawKey = some (s', job)) :
    JobLog.KeysKept s s' := by
  intro i old hf
  rw [JobLog.find_upsertPending h]
  split
  · rename_i hi
    refine ⟨job, rfl, ?_⟩
    rcases JobLog.upsertPending_cases h with ⟨-, -, jobs', hins, -⟩ | ⟨found, hl, rfl, -⟩
    · exact absurd (Table.find_none_of_insert hins) (by rw [IngestJob.primary_eq, ← hi, hf]; simp)
    · have hid : Row.primary found = i := hi.symm
      obtain rfl : found = old := by
        have := Table.find_of_lookup hl
        rw [hid, hf] at this
        exact (Option.some.inj this).symm
      rfl
  · exact ⟨old, hf, rfl⟩

/-- The requests that `prepare_document` accepts, and what it makes of them. -/
structure PreparedFrom (site : Site) (request : UploadRequest) (prepared : PreparedDocument)
    (filename : String) : Prop where
  tenant : safePathSegment request.tenantId "tenant_id" = .ok prepared.tenantId
  source : safePathSegment (resolveSourceId site request) "source_id" = .ok prepared.sourceId
  filename_eq : safeFilename request.localPath.name = .ok filename
  stagedPath : prepared.stagedPath
    = site.settings.ragInputDir ++ [prepared.tenantId, prepared.sourceId, filename]
  outputDir : prepared.outputDir
    = site.settings.ragOutputDir ++ [prepared.tenantId, prepared.sourceId]
  rawBucket : prepared.rawBucket = site.settings.s3BucketRaw
  rawKey : rawDocumentKey prepared.stagedPath prepared.tenantId prepared.sourceId
    = .ok prepared.rawKey

theorem preparedFrom_of_prepareDocument {site : Site} {request : UploadRequest}
    {prepared : PreparedDocument} (h : prepareDocument site request = .ok prepared) :
    ∃ filename, PreparedFrom site request prepared filename := by
  rw [prepareDocument] at h
  split at h
  · exact nomatch h
  · obtain ⟨tenant, htenant, h⟩ := exists_of_bind_eq_ok h
    obtain ⟨source, hsource, h⟩ := exists_of_bind_eq_ok h
    obtain ⟨filename, hfile, h⟩ := exists_of_bind_eq_ok h
    obtain ⟨rawKey, hkey, h⟩ := exists_of_bind_eq_ok h
    obtain rfl := Except.ok.inj h
    exact ⟨filename, htenant, hsource, hfile, rfl, rfl, rfl, hkey⟩

namespace PreparedFrom

variable {site : Site} {request : UploadRequest} {prepared : PreparedDocument} {filename : String}

theorem name_stagedPath (h : PreparedFrom site request prepared filename) :
    prepared.stagedPath.name = filename := by
  rw [h.stagedPath, name_staged]

theorem isSegment_filename (h : PreparedFrom site request prepared filename) :
    IsSegment filename := by
  obtain ⟨-, -, segment, -, -, hkey, -⟩ := rawDocumentKey_segments h.rawKey
  rw [h.name_stagedPath] at hkey
  exact isSegment_of_safeFilename h.filename_eq hkey

theorem rawKey_eq (h : PreparedFrom site request prepared filename) :
    prepared.rawKey = prepared.tenantId ++ "/" ++ prepared.sourceId ++ "/" ++ filename := by
  rw [rawDocumentKey_ok h.rawKey, (isSegment_of_ok h.tenant).strip_eq,
    (isSegment_of_ok h.source).strip_eq, h.name_stagedPath, h.isSegment_filename.strip_eq]

end PreparedFrom

/-- The document of a call was prepared by `prepare_document`. -/
structure Prepared (site : Site) (prepared : PreparedDocument) : Prop where
  tenant : IsSegment prepared.tenantId
  source : IsSegment prepared.sourceId
  rawBucket : prepared.rawBucket = site.settings.s3BucketRaw
  rawKey : rawDocumentKey prepared.stagedPath prepared.tenantId prepared.sourceId
    = .ok prepared.rawKey

theorem prepared_of_prepareDocument {site : Site} {request : UploadRequest}
    {prepared : PreparedDocument} (h : prepareDocument site request = .ok prepared) :
    Prepared site prepared := by
  obtain ⟨filename, hfrom⟩ := preparedFrom_of_prepareDocument h
  exact ⟨isSegment_of_ok hfrom.tenant, isSegment_of_ok hfrom.source, hfrom.rawBucket,
    hfrom.rawKey⟩

/-- The tickets that `prepared_document_for_job` accepts, and what it makes of them. -/
structure PreparedForJob (site : Site) (ticket : ClaimedIngestJob) (prepared : PreparedDocument)
    (filename : String) : Prop where
  tenant : safePathSegment ticket.tenantId "tenant_id" = .ok prepared.tenantId
  source : safePathSegment ticket.sourceId "source_id" = .ok prepared.sourceId
  filename_eq : safeFilenameFromKey ticket.rawKey = .ok filename
  stagedPath : prepared.stagedPath
    = site.settings.ragInputDir ++ [prepared.tenantId, prepared.sourceId, filename]
  outputDir : prepared.outputDir
    = site.settings.ragOutputDir ++ [prepared.tenantId, prepared.sourceId]

theorem preparedForJob_of_preparedDocumentForJob {site : Site} {ticket : ClaimedIngestJob}
    {prepared : PreparedDocument} (h : preparedDocumentForJob site ticket = .ok prepared) :
    ∃ filename, PreparedForJob site ticket prepared filename := by
  rw [preparedDocumentForJob] at h
  obtain ⟨tenant, htenant, h⟩ := exists_of_bind_eq_ok h
  obtain ⟨source, hsource, h⟩ := exists_of_bind_eq_ok h
  obtain ⟨filename, hfile, h⟩ := exists_of_bind_eq_ok h
  obtain rfl := Except.ok.inj h
  exact ⟨filename, htenant, hsource, hfile, rfl, rfl⟩

theorem preparedDocumentForJob_ok {site : Site} {ticket : ClaimedIngestJob}
    {prepared : PreparedDocument} (h : preparedDocumentForJob site ticket = .ok prepared) :
    safePathSegment ticket.tenantId "tenant_id" = .ok prepared.tenantId ∧
      safePathSegment ticket.sourceId "source_id" = .ok prepared.sourceId ∧
      prepared.outputDir
        = site.settings.ragOutputDir ++ [prepared.tenantId, prepared.sourceId] := by
  obtain ⟨filename, hjob⟩ := preparedForJob_of_preparedDocumentForJob h
  exact ⟨hjob.tenant, hjob.source, hjob.outputDir⟩

theorem tenant_of_preparedDocumentForJob {site : Site} {ticket : ClaimedIngestJob}
    {prepared : PreparedDocument} (ht : IsSegment ticket.tenantId)
    (hs : IsSegment ticket.sourceId) (h : preparedDocumentForJob site ticket = .ok prepared) :
    prepared.tenantId = ticket.tenantId ∧ prepared.sourceId = ticket.sourceId := by
  obtain ⟨htenant, hsource, -⟩ := preparedDocumentForJob_ok h
  exact ⟨eq_of_safePathSegment ht htenant, eq_of_safePathSegment hs hsource⟩

variable {n : ℕ}

/-- A worker's run: the ticket is in the worker's name and about a row that exists, and the worker
stands in the ticket's tenure. -/
structure Custody (site : Site) (fleet : Fleet n) (log : JobLog) (w : Fin n)
    (run : WorkerRun) : Prop where
  lockedBy : run.ticket.lockedBy = some (fleet.workerId w)
  stands : (log.history run.ticket.id).Stands (.worker (fleet.workerId w)) run.tenure
  row : ∃ job, log.jobs.find run.ticket.id = some job ∧
    (job.tenantId, job.sourceId) = (run.ticket.tenantId, run.ticket.sourceId)
  fits : run.Fits site

/-- The invariant of every deployment. -/
structure Sound (site : Site) (fleet : Fleet n) (s : Deployment n) : Prop where
  coherent : Coherent s.log
  segments : ∀ i job, s.log.jobs.find i = some job →
    IsSegment job.tenantId ∧ IsSegment job.sourceId
  prepared : ∀ c call, s.calls c = some call → Prepared site call.prepared
  submitted : ∀ c call, s.calls c = some call → ∃ i job, s.log.jobs.find i = some job ∧
    (job.tenantId, job.sourceId) = (call.prepared.tenantId, call.prepared.sourceId)
  custody : ∀ w run, s.workers w = some run → Custody site fleet s.log w run

namespace Sound

variable {site : Site} {fleet : Fleet n} {s : Deployment n}

theorem initial (site : Site) (fleet : Fleet n) (clock : ℚ) :
    Sound site fleet (Deployment.initial n clock) where
  coherent := Coherent.start clock
  segments _ _ h := nomatch h
  prepared _ _ h := nomatch h
  submitted _ _ h := nomatch h
  custody _ _ h := nomatch h

/-- The frame rule for transactions of the log. -/
theorem setLog (hs : Sound site fleet s) {log : JobLog} (hc : Coherent log)
    (hk : JobLog.KeysKept s.log log)
    (hseg : ∀ i job, log.jobs.find i = some job → IsSegment job.tenantId ∧ IsSegment job.sourceId)
    (hst : ∀ w run, s.workers w = some run →
      (log.history run.ticket.id).Stands (.worker (fleet.workerId w)) run.tenure) :
    Sound site fleet { s with log := log } where
  coherent := hc
  segments := hseg
  prepared := hs.prepared
  submitted c call h := by
    obtain ⟨i, job, hf, hkey⟩ := hs.submitted c call h
    obtain ⟨job', hf', hkey'⟩ := hk i job hf
    exact ⟨i, job', hf', hkey'.trans hkey⟩
  custody w run h := by
    have hw := hs.custody w run h
    obtain ⟨job, hf, hkey⟩ := hw.row
    obtain ⟨job', hf', hkey'⟩ := hk _ job hf
    exact ⟨hw.lockedBy, hst w run h, ⟨job', hf', hkey'.trans hkey⟩, hw.fits⟩

theorem setLog_of_unopened (hs : Sound site fleet s) {log : JobLog} (hc : Coherent log)
    (hu : JobLog.Unopened s.log log)
    (hst : ∀ w run, s.workers w = some run →
      (log.history run.ticket.id).Stands (.worker (fleet.workerId w)) run.tenure) :
    Sound site fleet { s with log := log } := by
  refine hs.setLog hc hu.keysKept (fun i job hf ↦ ?_) hst
  obtain ⟨old, hold, hdoc⟩ := hu.find hf
  simp only [JobLog.document, Prod.mk.injEq] at hdoc
  rw [← hdoc.1, ← hdoc.2.1]
  exact hs.segments i old hold

theorem setLog_of_untaken (hs : Sound site fleet s) {log : JobLog} (hc : Coherent log)
    (hu : JobLog.Unopened s.log log) (ht : ∀ i, JobLog.Untaken s.log log i) :
    Sound site fleet { s with log := log } :=
  hs.setLog_of_unopened hc hu fun w run h ↦ (ht _).stands (hs.custody w run h).stands

theorem setCall (hs : Sound site fleet s) {c : ℕ} {call : ApiCall}
    (hp : Prepared site call.prepared)
    (hrow : ∃ i job, s.log.jobs.find i = some job ∧
      (job.tenantId, job.sourceId) = (call.prepared.tenantId, call.prepared.sourceId)) :
    Sound site fleet (s.setCall c call) where
  coherent := hs.coherent
  segments := hs.segments
  prepared d call' h := by
    rw [Deployment.calls_setCall] at h
    split at h
    · exact Option.some.inj h ▸ hp
    · exact hs.prepared d call' h
  submitted d call' h := by
    rw [Deployment.calls_setCall] at h
    split at h
    · exact Option.some.inj h ▸ hrow
    · exact hs.submitted d call' h
  custody := hs.custody

theorem moveCall (hs : Sound site fleet s) {c : ℕ} {call call' : ApiCall}
    (h : s.calls c = some call) (hp : call'.prepared = call.prepared) :
    Sound site fleet (s.setCall c call') :=
  hs.setCall (hp ▸ hs.prepared c call h) (hp ▸ hs.submitted c call h)

theorem setRun (hs : Sound site fleet s) {w : Fin n} {next : Option WorkerRun}
    (h : ∀ run ∈ next, Custody site fleet s.log w run) : Sound site fleet (s.setRun w next) where
  coherent := hs.coherent
  segments := hs.segments
  prepared := hs.prepared
  submitted := hs.submitted
  custody v run hrun := by
    rw [Deployment.workers_setRun] at hrun
    split at hrun
    · rename_i hv
      exact hv ▸ h run hrun
    · exact hs.custody v run hrun

/-- A submission keeps the invariant, and its row is there afterwards. -/
theorem upsertPending (hs : Sound site fleet s) {c uuid : ℕ} {rawBucket rawKey : String}
    {prepared : PreparedDocument} (hp : Prepared site prepared) {log : JobLog} {job : IngestJob}
    (h : s.log.upsertPending c site.repository uuid prepared.tenantId prepared.sourceId rawBucket
      rawKey = some (log, job)) :
    Sound site fleet { s with log := log } ∧ ∃ i job, log.jobs.find i = some job ∧
      (job.tenantId, job.sourceId) = (prepared.tenantId, prepared.sourceId) := by
  have hrow := JobLog.submitted_upsertPending h
  constructor
  · refine hs.setLog (hs.coherent.upsertPending h) (JobLog.keysKept_upsertPending h)
      (fun i job' hf ↦ ?_)
      fun w run hrun ↦ (JobLog.untaken_upsertPending h _).stands (hs.custody w run hrun).stands
    rw [JobLog.find_upsertPending h] at hf
    split at hf
    · rw [← Option.some.inj hf, hrow.tenantId, hrow.sourceId]
      exact ⟨hp.tenant, hp.source⟩
    · exact hs.segments i job' hf
  · refine ⟨job.id, job, ?_, by rw [hrow.tenantId, hrow.sourceId]⟩
    rw [JobLog.find_upsertPending h, if_pos rfl]

/-- A poll keeps the invariant, and the worker has custody of what it claims. -/
theorem poll (hs : Sound site fleet s) {w : Fin n} (hidle : s.workers w = none)
    (locked : List ℕ) : Sound site fleet (s.poll (fleet.queue w) w locked) := by
  have hlog : Sound site fleet
      { s with log := (s.log.claimNextPending (fleet.queue w) locked).1 } := by
    refine hs.setLog_of_unopened (hs.coherent.claimNextPending _ _)
      (JobLog.unopened_claimNextPending _ _ _) fun v run hrun ↦ ?_
    refine JobLog.stands_claimNextPending (hs.custody v run hrun).stands fun hid ↦ ?_
    obtain rfl : v = w := fleet.distinct (Actor.worker.inj hid)
    exact nomatch hidle.symm.trans hrun
  refine hlog.setRun fun run hrun ↦ ?_
  obtain ⟨ticket, hticket, rfl⟩ := Option.map_eq_some_iff.mp hrun
  obtain ⟨job, hf, htjob, -, hlock⟩ := JobLog.find_of_claimNextPending hticket
  exact ⟨by rw [htjob]; exact hlock, LeaseHistory.stands_tenure _ _,
    ⟨job, hf, by rw [htjob]; rfl⟩, trivial⟩

/-- **One step keeps the invariant.** -/
theorem move (hs : Sound site fleet s) {label : DeployLabel n} {s' : Deployment n}
    (h : Moves site fleet s label s') : Sound site fleet s' := by
  cases h with
  | tick hop =>
    exact hs.setLog_of_untaken (hs.coherent.tick hop) (JobLog.unopened_tick hop)
      (JobLog.untaken_tick hop)
  | started hfree hprep hup =>
    have hp := prepared_of_prepareDocument hprep
    obtain ⟨hlog, hrow⟩ := hs.upsertPending hp hup
    refine Sound.setCall ?_ hp hrow
    exact ⟨hlog.coherent, hlog.segments, hlog.prepared, hlog.submitted, hlog.custody⟩
  | gaveUp hcall hpc => exact hs.moveCall hcall rfl
  | raised hcall hpc => exact hs.moveCall hcall rfl
  | markedProcessing hcall hpc hop =>
    refine Sound.moveCall ?_ hcall rfl
    exact hs.setLog_of_unopened (hs.coherent.markProcessing hop)
      (JobLog.unopened_markProcessing hop)
      fun w run hrun ↦ JobLog.stands_markProcessing hop (hs.custody w run hrun).stands
  | uploadedRaw hcall hpc hkey =>
    refine Sound.moveCall ?_ hcall rfl
    exact ⟨hs.coherent, hs.segments, hs.prepared, hs.submitted, hs.custody⟩
  | accepted hcall hpc hraw hup =>
    refine Sound.moveCall ?_ hcall rfl
    exact (hs.upsertPending (hs.prepared _ _ hcall) hup).1
  | parsed hcall hpc => exact hs.moveCall hcall rfl
  | uploadedOutput hcall hpc =>
    refine Sound.moveCall ?_ hcall rfl
    exact ⟨hs.coherent, hs.segments, hs.prepared, hs.submitted, hs.custody⟩
  | markedSucceeded hcall hpc hop =>
    refine Sound.moveCall ?_ hcall rfl
    exact hs.setLog_of_untaken (hs.coherent.markSucceeded hop) (JobLog.unopened_markSucceeded hop)
      (JobLog.untaken_markSucceeded hop)
  | markedFailed hcall hpc hop =>
    refine Sound.moveCall ?_ hcall rfl
    exact hs.setLog_of_untaken (hs.coherent.markFailed hop) (JobLog.unopened_markFailed hop)
      (JobLog.untaken_markFailed hop)
  | polled hidle => exact hs.poll hidle _
  -- A run keeps its ticket and its tenure from one step to the next, so its row stays its own.
  | ran hrun hnext =>
    refine hs.setRun fun r hr ↦ ?_
    obtain ⟨hticket, htenure, hfits⟩ := hnext r hr
    have hw := hs.custody _ _ hrun
    exact ⟨hticket ▸ hw.lockedBy, by rw [hticket, htenure]; exact hw.stands,
      by rw [hticket]; exact hw.row, hfits hw.fits⟩
  | runUploadedOutput hrun hpc hkey =>
    have hw := hs.custody _ _ hrun
    have hput : ∀ key content uploader,
        Sound site fleet (s.putAsset site key content uploader) := fun _ _ _ ↦
      ⟨hs.coherent, hs.segments, hs.prepared, hs.submitted, hs.custody⟩
    refine (hput _ _ _).setRun fun r hr ↦ ?_
    obtain rfl := Option.some.inj hr
    refine ⟨hw.lockedBy, hw.stands, hw.row, ?_⟩
    have hfits := hw.fits
    rw [WorkerRun.Fits, hpc] at hfits
    exact hfits
  | heartbeat hrun hop =>
    exact hs.setLog_of_untaken (hs.coherent.heartbeat hop) (JobLog.unopened_heartbeat hop)
      (JobLog.untaken_heartbeat hop)
  | skipped hrun => exact hs
  | runSucceeded hrun hop =>
    have hlog := hs.setLog_of_untaken (hs.coherent.workerSucceeded hop)
      (JobLog.unopened_workerSucceeded hop) (JobLog.untaken_workerSucceeded hop)
    refine Sound.setRun ?_ fun _ hr ↦ by cases hr
    exact ⟨hlog.coherent, hlog.segments, hlog.prepared, hlog.submitted, hlog.custody⟩
  | runFailed hrun hop =>
    refine Sound.setRun ?_ fun _ hr ↦ by cases hr
    exact hs.setLog_of_untaken (hs.coherent.workerFailed hop) (JobLog.unopened_workerFailed hop)
      (JobLog.untaken_workerFailed hop)

end Sound

/-- **The rule for what a step does to the log.** A property of the log after a step holds if it
holds of the log before, of a later one, of one after a submission or a poll, and of one with an
updated row, which is processing only if its heartbeat is of this moment. -/
theorem Moves.log_rule {site : Site} {fleet : Fleet n} {s s' : Deployment n}
    {label : DeployLabel n} {P : JobLog → Prop} (h : Moves site fleet s label s') (hsame : P s.log)
    (htick : ∀ seconds log, label = .tick seconds → s.log.tick seconds = some log → P log)
    (hsubmit : ∀ c uuid tenantId sourceId rawBucket rawKey log job, s.log.upsertPending c
      site.repository uuid tenantId sourceId rawBucket rawKey = some (log, job) → P log)
    (hpoll : ∀ queue locked, P (s.log.claimNextPending queue locked).1)
    (hupdate : ∀ (i : ℕ) (p : Patch IngestJob) (e : LeaseEvent Actor ℚ),
      (∀ job, (p.app job).status = .processing → (p.app job).heartbeatAt = some s.log.clock) →
      P (s.log.update i p e)) : P s'.log := by
  cases h with
  | tick hop => exact htick _ _ rfl hop
  | started hfree hprep hup => exact hsubmit _ _ _ _ _ _ _ _ hup
  | accepted hcall hpc hraw hup => exact hsubmit _ _ _ _ _ _ _ _ hup
  | polled hidle => exact hpoll _ _
  | markedProcessing hcall hpc hop =>
    obtain ⟨old, -, -, rfl⟩ := JobLog.markProcessing_ok hop
    exact hupdate _ _ _ fun _ _ ↦ rfl
  | markedSucceeded hcall hpc hop =>
    obtain ⟨old, -, -, rfl⟩ := JobLog.markSucceeded_ok hop
    exact hupdate _ _ _ fun _ hst ↦ nomatch hst
  | markedFailed hcall hpc hop =>
    obtain ⟨old, -, -, rfl⟩ := JobLog.markFailed_ok hop
    exact hupdate _ _ _ fun _ hst ↦ nomatch hst
  | heartbeat hrun hop =>
    obtain ⟨old, -, -, -, rfl⟩ := JobLog.heartbeat_ok hop
    exact hupdate _ _ _ fun _ _ ↦ rfl
  | runSucceeded hrun hop =>
    obtain ⟨old, -, -, -, rfl⟩ := JobLog.workerSucceeded_ok hop
    exact hupdate _ _ _ fun _ hst ↦ nomatch hst
  | runFailed hrun hop =>
    obtain ⟨old, -, -, -, rfl⟩ := JobLog.workerFailed_ok hop
    exact hupdate _ _ _ fun _ hst ↦ nomatch hst
  -- nothing else is a transaction
  | _ => exact hsame

theorem Moves.grows {site : Site} {fleet : Fleet n} {s s' : Deployment n} {label : DeployLabel n}
    (h : Moves site fleet s label s') : JobLog.Grows s.log s'.log :=
  h.log_rule (JobLog.Grows.refl _)
    (fun _ _ _ hop ↦ JobLog.grows_tick hop)
    (fun _ _ _ _ _ _ _ _ hup ↦ JobLog.grows_upsertPending hup)
    (fun _ _ ↦ JobLog.grows_claimNextPending _ _ _)
    fun _ _ _ _ ↦ JobLog.grows_update _ _ _ _

/-! ## Asynchronous deployments

In a deployment without `ingest_document` only workers take jobs, so the row's own ownership check
is enough to identify a run: a worker that passes it is in the tenure its ticket was issued for. -/

/-- The label starts no `ingest_document`. -/
def DeployLabel.Async : DeployLabel n → Prop
  | .start _ kind _ _ => kind = .submit
  | _ => True

instance : DecidablePred (DeployLabel.Async (n := n)) := fun label ↦ by
  cases label <;> unfold DeployLabel.Async <;> infer_instance

/-- The call is a submission, at a point of a submission. -/
def ApiCall.Submitting (call : ApiCall) : Prop :=
  call.kind = .submit ∧ call.pc ≠ .toMarkProcessing ∧ call.pc ≠ .toParse ∧
    ∀ remaining uploaded, call.pc ≠ .toUploadOutput remaining uploaded

/-- There are only submissions, and only workers take jobs. -/
structure Asynchronous (s : Deployment n) : Prop where
  submitting : ∀ c call, s.calls c = some call → call.Submitting
  taker : ∀ i c, (s.log.history i).taker ≠ some (.call c)

namespace Asynchronous

variable {site : Site} {fleet : Fleet n} {s : Deployment n}

theorem initial (clock : ℚ) : Asynchronous (Deployment.initial n clock) where
  submitting _ _ h := nomatch h
  taker _ _ h := nomatch h

theorem setLog (hs : Asynchronous s) {log : JobLog} (hu : ∀ i, JobLog.Untaken s.log log i) :
    Asynchronous { s with log := log } where
  submitting := hs.submitting
  taker i c := by rw [(hu i).2]; exact hs.taker i c

theorem setCall (hs : Asynchronous s) {c : ℕ} {call : ApiCall} (h : call.Submitting) :
    Asynchronous (s.setCall c call) where
  submitting d other hother := by
    rw [Deployment.calls_setCall] at hother
    split at hother
    · exact Option.some.inj hother ▸ h
    · exact hs.submitting d other hother
  taker := hs.taker

/-- **One step keeps the invariant**, if it starts no `ingest_document`. -/
theorem move (hs : Asynchronous s) {label : DeployLabel n} (hasync : label.Async)
    {s' : Deployment n} (h : Moves site fleet s label s') : Asynchronous s' := by
  cases h with
  | tick hop => exact hs.setLog (JobLog.untaken_tick hop)
  | started hfree hprep hup =>
    obtain rfl : _ = CallKind.submit := hasync
    refine Asynchronous.setCall ?_ ⟨rfl, by simp [CallKind.firstPc], by simp [CallKind.firstPc],
      by simp [CallKind.firstPc]⟩
    have hlog := hs.setLog (JobLog.untaken_upsertPending hup)
    exact ⟨hlog.submitting, hlog.taker⟩
  | gaveUp hcall hpc =>
    exact hs.setCall ⟨(hs.submitting _ _ hcall).1, by simp, by simp, by simp⟩
  | raised hcall hpc =>
    exact hs.setCall ⟨(hs.submitting _ _ hcall).1, by simp, by simp, by simp⟩
  -- only a call that processes its document itself gets here
  | markedProcessing hcall hpc hop => exact absurd hpc (hs.submitting _ _ hcall).2.1
  | uploadedRaw hcall hpc hkey =>
    have hkind := (hs.submitting _ _ hcall).1
    refine Asynchronous.setCall ?_ ⟨hkind, ?_, ?_, ?_⟩
    · exact ⟨hs.submitting, hs.taker⟩
    · simp [hkind, CallKind.pcAfterUpload]
    · simp [hkind, CallKind.pcAfterUpload]
    · simp [hkind, CallKind.pcAfterUpload]
  | accepted hcall hpc hraw hup =>
    refine Asynchronous.setCall (hs.setLog (JobLog.untaken_upsertPending hup)) ?_
    exact ⟨(hs.submitting _ _ hcall).1, by simp, by simp, by simp⟩
  | parsed hcall hpc => exact absurd hpc (hs.submitting _ _ hcall).2.2.1
  | uploadedOutput hcall hpc => exact absurd hpc ((hs.submitting _ _ hcall).2.2.2 _ _)
  | markedSucceeded hcall hpc hop => exact absurd hpc ((hs.submitting _ _ hcall).2.2.2 _ _)
  | markedFailed hcall hpc hop =>
    refine Asynchronous.setCall (hs.setLog (JobLog.untaken_markFailed hop)) ?_
    exact ⟨(hs.submitting _ _ hcall).1, by simp, by simp, by simp⟩
  -- Only a poll takes a job, and it takes it for a worker.
  | @polled w locked hidle =>
    refine ⟨hs.submitting, fun i c ↦ ?_⟩
    have htaken := JobLog.taken_of_claimNextPending s.log (fleet.queue w) locked i
    split at htaken
    · exact fun h ↦ nomatch htaken.2.symm.trans h
    · exact fun h ↦ hs.taker i c (htaken.2.symm.trans h)
  | ran hrun hnext => exact ⟨hs.submitting, hs.taker⟩
  | runUploadedOutput hrun hpc hkey => exact ⟨hs.submitting, hs.taker⟩
  | heartbeat hrun hop => exact hs.setLog (JobLog.untaken_heartbeat hop)
  | skipped hrun => exact hs
  | runSucceeded hrun hop =>
    have hlog := hs.setLog (JobLog.untaken_workerSucceeded hop)
    exact ⟨hlog.submitting, hlog.taker⟩
  | runFailed hrun hop =>
    have hlog := hs.setLog (JobLog.untaken_workerFailed hop)
    exact ⟨hlog.submitting, hlog.taker⟩

end Asynchronous

/-- **A worker that passes the ownership check is in the current tenure of its job**, in an
asynchronous deployment. -/
theorem Sound.current {site : Site} {fleet : Fleet n} {s : Deployment n}
    (hs : Sound site fleet s) (ha : Asynchronous s) {w : Fin n} {run : WorkerRun}
    (hrun : s.workers w = some run) {job : IngestJob}
    (hf : s.log.jobs.find run.ticket.id = some job) (hst : job.status = .processing)
    (hlock : job.lockedBy = run.ticket.lockedBy) :
    run.tenure = (s.log.history run.ticket.id).tenure ∧
      1 ≤ (s.log.history run.ticket.id).attempts := by
  have hw := hs.custody w run hrun
  obtain ⟨who, beat, hheld, -, hwho⟩ := (hs.coherent.agrees _ _ hf).held_of_processing hst
  refine ⟨?_, (hs.coherent.lawful _).attempts_of_held hheld⟩
  have htaker := LeaseHistory.taker_of_held hheld
  cases who with
  | call c => exact absurd htaker (ha.taker _ c)
  | worker workerId =>
    have hid : some workerId = some (fleet.workerId w) := by
      calc some workerId = _ := hwho.symm
        _ = run.ticket.lockedBy := hlock
        _ = some (fleet.workerId w) := hw.lockedBy
    obtain rfl := Option.some.inj hid
    exact hw.stands.eq_of_taker htaker

end KnowledgeAlakazam
