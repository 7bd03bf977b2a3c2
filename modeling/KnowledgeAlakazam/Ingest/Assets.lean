import KnowledgeAlakazam.Ingest.Fencing
import KnowledgeAlakazam.Ingest.Uploads

/-!
# Whose assets does a succeeded job have?

A worker checks its lease when it writes to the job table, and nowhere else. A run that lost its
lease goes on parsing and uploading, and its files land under the same keys as those of the run
that replaced it.

`assetsFromSuccess_of_guarded` isolates the defect: if no run uploads an output file after its job
was claimed again, then the assets of a succeeded job come from the run that succeeded. Without
the condition they need not (`stale_run_overwrites_assets`): the old run uploads when the new one
has already succeeded, and nobody will ever put the new file back.

## The invariant

Every put into the asset bucket is by a run, under the prefix of the row it runs, in the tenure of
the row it was made for; and a row is succeeded by the run of its current tenure. Both halves
need the asynchronous deployment, in which a worker that passes the ownership check is in the
current tenure of its job.
-/

namespace KnowledgeAlakazam

variable {n : ℕ}

/-- The asset stored under a key: the one that was put last. -/
def Deployment.asset (s : Deployment n) (bucket key : String) : Option AssetObject :=
  s.assets.find? fun object ↦ object.bucket = bucket ∧ object.key = key

/-- What is stored under the prefix of a succeeded job, and was put there since the job was last
claimed, was put there by the run that marked the job succeeded. -/
def AssetsFromSuccess (site : Site) (s : Deployment n) : Prop :=
  ∀ job ∈ s.log.jobs.rows, job.status = .succeeded → ∃ m ∈ s.succeededBy job.id,
    ∀ key ∈ s.assets.map AssetObject.key, UnderPrefix key job.tenantId job.sourceId →
      ∀ object ∈ s.asset site.settings.s3BucketAssets key,
        object.tenures job.id = (s.log.history job.id).tenure → object.uploader = .run job.id m

/-- The run that uploads an output file with the transition. -/
def uploadingRun (t : Transition (Deployment n) (DeployLabel n)) : Option WorkerRun :=
  match t.label with
  | .run w (.uploadOutput none) => t.pre.workers w
  | _ => none

/-- The transition does not upload an output file of a job that was claimed again since the ticket
of the run was issued. -/
def UploadsUnderLease (t : Transition (Deployment n) (DeployLabel n)) : Prop :=
  ∀ run ∈ uploadingRun t, run.tenure = (t.pre.log.history run.ticket.id).tenure

instance (site : Site) (s : Deployment n) : Decidable (AssetsFromSuccess site s) :=
  inferInstanceAs (Decidable (∀ job ∈ s.log.jobs.rows, job.status = .succeeded → ∃ _ ∈ _,
    ∀ _ ∈ _, _ → ∀ _ ∈ _, _ → _))

instance : DecidablePred (UploadsUnderLease (n := n)) := fun _ ↦
  inferInstanceAs (Decidable (∀ _ ∈ _, _ = _))

/-! ## No transaction but a result makes a row succeeded -/

/-- Rows that are succeeded afterwards were so before, in the same tenure. -/
def JobLog.SuccessKept (s s' : JobLog) : Prop :=
  ∀ i job', s'.jobs.find i = some job' → job'.status = .succeeded →
    (∃ job, s.jobs.find i = some job ∧ job.status = .succeeded) ∧
      (s'.history i).tenure = (s.history i).tenure

namespace JobLog

variable {s s' : JobLog}

theorem SuccessKept.refl (s : JobLog) : SuccessKept s s := fun _ job hf hst ↦ ⟨⟨job, hf, hst⟩, rfl⟩

theorem SuccessKept.trans {s'' : JobLog} (h : SuccessKept s s') (h' : SuccessKept s' s'') :
    SuccessKept s s'' := by
  intro i job'' hf'' hst''
  obtain ⟨⟨job', hf', hst'⟩, htenure'⟩ := h' i job'' hf'' hst''
  obtain ⟨hjob, htenure⟩ := h i job' hf' hst'
  exact ⟨hjob, htenure'.trans htenure⟩

theorem successKept_update (s : JobLog) {i : ℕ} {old : IngestJob} (hf : s.jobs.find i = some old)
    {p : Patch IngestJob} (e : LeaseEvent Actor ℚ) (hp : (p.app old).status ≠ .succeeded) :
    SuccessKept s (s.update i p e) := by
  intro j job' hj hst
  by_cases hji : j = i
  · subst hji
    rw [jobs_update, Table.find_modify_self hf] at hj
    exact absurd hst (Option.some.inj hj ▸ hp)
  · rw [jobs_update, Table.find_modify_of_ne hji] at hj
    rw [history_update_of_ne s hji]
    exact ⟨⟨job', hj, hst⟩, rfl⟩

theorem successKept_tick {seconds : ℚ} (h : s.tick seconds = some s') : SuccessKept s s' := by
  obtain ⟨-, hjobs, hhistory⟩ := tick_eq_some h
  intro i job' hf hst
  rw [hhistory]
  exact ⟨⟨job', hjobs ▸ hf, hst⟩, rfl⟩

theorem successKept_upsertPending {c uuid : ℕ} {repo : IngestJobRepository}
    {tenantId sourceId rawBucket rawKey : String} {job : IngestJob}
    (h : s.upsertPending c repo uuid tenantId sourceId rawBucket rawKey = some (s', job)) :
    SuccessKept s s' := by
  intro i job' hf hst
  rw [find_upsertPending h] at hf
  split at hf
  · obtain rfl := Option.some.inj hf
    cases hst.symm.trans (submitted_upsertPending h).status
  · rename_i hi
    rw [history_upsertPending h, if_neg hi]
    exact ⟨⟨job', hf, hst⟩, rfl⟩

theorem successKept_markFailed {c : ℕ} {tenantId sourceId error : String} {job : IngestJob}
    (h : s.markFailed c tenantId sourceId error = .ok (s', job)) : SuccessKept s s' := by
  obtain ⟨old, hl, -, rfl⟩ := markFailed_ok h
  exact successKept_update s (Table.find_of_lookup hl) _ fun h ↦ nomatch h

theorem successKept_heartbeat {claimed : ClaimedIngestJob} (h : s.heartbeat claimed = .ok s') :
    SuccessKept s s' := by
  obtain ⟨old, hf, hst, -, rfl⟩ := heartbeat_ok h
  exact successKept_update s hf _ fun h ↦ nomatch hst.symm.trans h

theorem successKept_workerFailed {claimed : ClaimedIngestJob} {error : String}
    (h : s.workerFailed claimed error = .ok s') : SuccessKept s s' := by
  obtain ⟨old, hf, -, -, rfl⟩ := workerFailed_ok h
  exact successKept_update s hf _ fun h ↦ nomatch h

theorem successKept_claimNextPending (s : JobLog) (queue : DatabaseIngestJobQueue)
    (locked : List ℕ) : SuccessKept s (s.claimNextPending queue locked).1 := by
  refine claimNextPending_rule queue locked (P := fun s s' _ ↦ SuccessKept s s')
    SuccessKept.refl (fun s job hsel _ ↦ ?_) (fun s job s' _ hsel _ ih ↦ ?_) s
  · have hf := Table.find_primary (mem_of_pendingJobClaimStatement hsel).1
    exact successKept_update s hf _ fun h ↦ nomatch h
  · have hf := Table.find_primary (mem_of_pendingJobClaimStatement hsel).1
    refine SuccessKept.trans ?_ ih
    exact successKept_update s hf _ fun h ↦ nomatch h

end JobLog

/-! ## Where assets come from -/

/-- Every asset was put by a run in the current tenure of its row, under the row's prefix, and
every succeeded row was marked by the run of its current tenure. -/
structure Provenance (s : Deployment n) : Prop where
  puts : ∀ object ∈ s.assets, ∃ i job rest, s.log.jobs.find i = some job ∧
    object.uploader = .run i (object.tenures i) ∧
    object.key = assetPrefix job.tenantId job.sourceId ++ rest
  succeeded : ∀ i job, s.log.jobs.find i = some job → job.status = .succeeded →
    s.succeededBy i = some (s.log.history i).tenure

namespace Provenance

variable {site : Site} {fleet : Fleet n} {s : Deployment n}

theorem initial (clock : ℚ) : Provenance (Deployment.initial n clock) where
  puts _ h := nomatch h
  succeeded _ _ h := nomatch h

/-- The frame rule for transactions that are not a worker's success. -/
theorem setLog (hs : Provenance s) {log : JobLog} (hk : JobLog.KeysKept s.log log)
    (hsucc : JobLog.SuccessKept s.log log) : Provenance { s with log := log } where
  puts object hobject := by
    obtain ⟨i, job, rest, hf, huploader, hkey⟩ := hs.puts object hobject
    obtain ⟨job', hf', hdoc⟩ := hk i job hf
    obtain ⟨htenant, hsource⟩ := Prod.mk.inj hdoc
    exact ⟨i, job', rest, hf', huploader, by rw [htenant, hsource]; exact hkey⟩
  succeeded i job hf hst := by
    obtain ⟨⟨old, hold, hstold⟩, htenure⟩ := hsucc i job hf hst
    rw [htenure]
    exact hs.succeeded i old hold hstold

theorem runSucceeded (hs : Provenance s) (hsound : Sound site fleet s) (ha : Asynchronous s)
    {w : Fin n} {run : WorkerRun} (hrun : s.workers w = some run) {log : JobLog}
    (h : s.log.workerSucceeded run.ticket = .ok log) :
    Provenance { s with
      log := log
      succeededBy := Function.update s.succeededBy run.ticket.id (some run.tenure) } where
  puts object hobject := by
    obtain ⟨i, job, rest, hf, huploader, hkey⟩ := hs.puts object hobject
    obtain ⟨job', hf', hdoc⟩ := (JobLog.unopened_workerSucceeded h).keysKept i job hf
    obtain ⟨htenant, hsource⟩ := Prod.mk.inj hdoc
    exact ⟨i, job', rest, hf', huploader, by rw [htenant, hsource]; exact hkey⟩
  succeeded i job hf hst := by
    have htenure := (JobLog.untaken_workerSucceeded h i).1
    obtain ⟨old, hfold, hstold, hlock, rfl⟩ := JobLog.workerSucceeded_ok h
    dsimp only at hf ⊢
    rw [htenure]
    by_cases hi : i = run.ticket.id
    · subst hi
      rw [Function.update_self, (hsound.current ha hrun hfold hstold hlock).1]
    · rw [Function.update_of_ne hi]
      rw [JobLog.jobs_update, Table.find_modify_of_ne hi] at hf
      exact hs.succeeded i job hf hst

theorem putAsset (hs : Provenance s) (content : String) (hsound : Sound site fleet s) {w : Fin n}
    {run : WorkerRun} (hrun : s.workers w = some run) {prepared : PreparedDocument}
    (hfits : preparedDocumentForJob site run.ticket = .ok prepared) {root path : Path}
    {key : String} (hkey : outputAssetKey root path prepared.tenantId prepared.sourceId = .ok key)
    (htenure : run.tenure = (s.log.history run.ticket.id).tenure) :
    Provenance (s.putAsset site key content (.run run.ticket.id run.tenure)) where
  puts object hobject := by
    rcases List.mem_cons.mp hobject with rfl | hobject
    · obtain ⟨job, hf, hdoc⟩ := (hsound.custody w run hrun).row
      obtain ⟨htenant, hsource⟩ := Prod.mk.inj hdoc
      obtain ⟨ht, hsrc⟩ := hsound.segments _ job hf
      obtain ⟨hpt, hps⟩ := tenant_of_preparedDocumentForJob (htenant ▸ ht) (hsource ▸ hsrc) hfits
      obtain ⟨rest, hrest⟩ := outputAssetKey_ok hkey
      refine ⟨run.ticket.id, job, rest, hf, ?_, ?_⟩
      · change Uploader.run run.ticket.id run.tenure = _
        rw [htenure]
      · change key = _
        rw [hrest, hpt, hps, ← htenant, ← hsource, ht.strip_eq, hsrc.strip_eq]
    · exact hs.puts object hobject
  succeeded := hs.succeeded

/-- **One step keeps the invariant**, if it uploads nothing for a lost lease. -/
theorem move (hs : Provenance s) (hsound : Sound site fleet s) (ha : Asynchronous s)
    {label : DeployLabel n} {s' : Deployment n} (hG : UploadsUnderLease ⟨s, label, s'⟩)
    (h : Moves site fleet s label s') : Provenance s' := by
  cases h with
  | tick hop => exact hs.setLog (JobLog.unopened_tick hop).keysKept (JobLog.successKept_tick hop)
  | started hfree hprep hup =>
    have hlog := hs.setLog (JobLog.keysKept_upsertPending hup)
      (JobLog.successKept_upsertPending hup)
    exact ⟨hlog.puts, hlog.succeeded⟩
  | gaveUp hcall hpc => exact ⟨hs.puts, hs.succeeded⟩
  | raised hcall hpc => exact ⟨hs.puts, hs.succeeded⟩
  | markedProcessing hcall hpc hop => exact absurd hpc (ha.submitting _ _ hcall).2.1
  | uploadedRaw hcall hpc hkey => exact ⟨hs.puts, hs.succeeded⟩
  | accepted hcall hpc hraw hup =>
    have hlog := hs.setLog (JobLog.keysKept_upsertPending hup)
      (JobLog.successKept_upsertPending hup)
    exact ⟨hlog.puts, hlog.succeeded⟩
  | parsed hcall hpc => exact ⟨hs.puts, hs.succeeded⟩
  | uploadedOutput hcall hpc => exact absurd hpc ((ha.submitting _ _ hcall).2.2.2 _ _)
  | markedSucceeded hcall hpc hop => exact absurd hpc ((ha.submitting _ _ hcall).2.2.2 _ _)
  | markedFailed hcall hpc hop =>
    have hlog := hs.setLog (JobLog.unopened_markFailed hop).keysKept
      (JobLog.successKept_markFailed hop)
    exact ⟨hlog.puts, hlog.succeeded⟩
  | @polled w locked hidle =>
    have hlog := hs.setLog
      (JobLog.unopened_claimNextPending s.log (fleet.queue w) locked).keysKept
      (JobLog.successKept_claimNextPending s.log (fleet.queue w) locked)
    exact ⟨hlog.puts, hlog.succeeded⟩
  | ran hrun hnext => exact ⟨hs.puts, hs.succeeded⟩
  -- The one move that puts an asset of a document: the lease makes it the worker's to put.
  | @runUploadedOutput w run prepared file remaining key hrun hpc hkey =>
    have hfits := (hsound.custody w run hrun).fits
    rw [WorkerRun.Fits, hpc] at hfits
    have hput := hs.putAsset file.2 hsound hrun hfits hkey (hG run hrun)
    exact ⟨hput.puts, hput.succeeded⟩
  | heartbeat hrun hop =>
    exact hs.setLog (JobLog.unopened_heartbeat hop).keysKept (JobLog.successKept_heartbeat hop)
  | skipped hrun => exact hs
  | runSucceeded hrun hop =>
    have hlog := hs.runSucceeded hsound ha hrun hop
    exact ⟨hlog.puts, hlog.succeeded⟩
  | runFailed hrun hop =>
    have hlog := hs.setLog (JobLog.unopened_workerFailed hop).keysKept
      (JobLog.successKept_workerFailed hop)
    exact ⟨hlog.puts, hlog.succeeded⟩

theorem assetsFromSuccess (hs : Provenance s) (hsound : Sound site fleet s) :
    AssetsFromSuccess site s := by
  intro job hjob hst
  have hf : s.log.jobs.find job.id = some job := Table.find_primary hjob
  refine ⟨_, hs.succeeded job.id job hf hst, fun key _ hunder object hobject htenure ↦ ?_⟩
  have hfound : s.asset site.settings.s3BucketAssets key = some object := hobject
  rw [Deployment.asset] at hfound
  have hkey : object.bucket = site.settings.s3BucketAssets ∧ object.key = key := by
    simpa using List.find?_some hfound
  obtain ⟨i, owner, rest, hfi, huploader, hrest⟩ :=
    hs.puts object (List.mem_of_find?_eq_some hfound)
  rw [← hkey.2, hrest] at hunder
  -- the key of the asset determines the row it was put for
  obtain ⟨ht, hsrc⟩ := hsound.segments job.id job hf
  obtain ⟨ht', hsrc'⟩ := hsound.segments i owner hfi
  obtain ⟨htenant, hsource⟩ := underPrefix_outputAssetKey ht hsrc ht' hsrc' hunder
  have howner : job = owner := Table.eq_of_unique hjob (Table.mem_of_find hfi)
    (Prod.ext htenant hsource)
  obtain rfl : i = job.id := by
    rw [howner]
    exact (Table.primary_of_find hfi).symm
  rw [huploader, htenure]

end Provenance

/-! ## The condition -/

/-- **The assets of a succeeded job come from the run that succeeded** in every run of an
asynchronous deployment in which no worker uploads an output file after its job was claimed
again. -/
theorem assetsFromSuccess_of_guarded (site : Site) (fleet : Fleet n) (clock : ℚ)
    (labels : List (DeployLabel n)) (hasync : ∀ label ∈ labels, label.Async)
    (hG : ∀ t ∈ trace (Deployment.step site fleet) (.initial n clock) labels,
      UploadsUnderLease t) :
    AssetsFromSuccess site (run (Deployment.step site fleet) (.initial n clock) labels) := by
  obtain ⟨hsound, -, hprov⟩ := guarded_run_induction
    (I := fun s : Deployment n ↦ Sound site fleet s ∧ Asynchronous s ∧ Provenance s)
    (G := fun t ↦ t.label.Async ∧ UploadsUnderLease t)
    (fun _ _ _ ⟨hsound, ha, hprov⟩ ⟨hlabel, hupload⟩ h ↦
      have hmoves := Deployment.moves_of_step h
      ⟨hsound.move hmoves, ha.move hlabel hmoves, hprov.move hsound ha hupload hmoves⟩)
    ⟨Sound.initial site fleet clock, Asynchronous.initial clock, Provenance.initial clock⟩
    fun t ht ↦ ⟨hasync _ (label_mem_of_mem_trace ht), hG t ht⟩
  exact hprov.assetsFromSuccess hsound

/-! ### A slow run and a fast one -/

/-- A worker parses its document and loses its lease; another one takes the job over and
succeeds. -/
def overtakenRun : List (DeployLabel 2) :=
  [.start 0 .submit sampleRequest 7, .call 0 (.uploadRaw none), .call 0 (.accept 9 none),
   .poll firstWorker [], .run firstWorker (.download none),
   .run firstWorker (.parse (.ok [(["a.md"], "old")])), .tick 400,
   .poll secondWorker [], .run secondWorker (.download none),
   .run secondWorker (.parse (.ok [(["a.md"], "new")])),
   .run secondWorker (.uploadOutput none), .run secondWorker .finish]

/-- The assets are those of the second worker as long as the first one uploads nothing. -/
theorem assetsFromSuccess_overtakenRun :
    AssetsFromSuccess defaultSite
      (run (Deployment.step defaultSite twoWorkers) (.initial 2 0) overtakenRun) :=
  assetsFromSuccess_of_guarded defaultSite twoWorkers 0 overtakenRun (by decide)
    (by decide +kernel)

/-- **A run that lost its lease overwrites the assets of a succeeded job.** -/
theorem stale_run_overwrites_assets :
    ¬ AssetsFromSuccess defaultSite (run (Deployment.step defaultSite twoWorkers) (.initial 2 0)
      (overtakenRun ++ [.run firstWorker (.uploadOutput none)])) := by
  decide +kernel

end KnowledgeAlakazam
