import KnowledgeAlakazam.Core.PyValue
import KnowledgeAlakazam.Ingest.JobLog
import KnowledgeAlakazam.Ingest.Paths
import Mathlib.Data.Fintype.Basic
import Mathlib.Data.List.Lex
import Mathlib.Data.String.Basic

/-!
# A deployment: API calls, workers, object storage

Any number of API calls and a fleet of workers share the job table and the object store. An API
call is either `create_pending_job` or `ingest_document`; a worker runs `process_job` for one
ticket at a time. Every actor has a program counter, and a step takes one actor past one awaited
operation: a whole transaction of the job table, the upload of one object, a download, a parse.
The label of the step names the actor and says whether the operation raises, so the labels of a
run fix both the interleaving and the failures of everything outside the code.

The object store remembers every object ever put into it, newest first. Ghosts record which call
or which run put an object, and when: a run is a job together with the tenure in which its ticket
was issued.
-/

namespace KnowledgeAlakazam

/-! ## Documents -/

/-- The settings the ingest code reads. -/
structure Settings where
  ragInputDir : Path
  ragOutputDir : Path
  s3BucketRaw : String
  s3BucketAssets : String

/-- An installation: its settings, the SHA-256 hex digest of a file's content, and the API's
repository. -/
structure Site where
  settings : Settings
  hexdigest : String → String
  repository : IngestJobRepository

/-- `_error_message`. -/
def errorMessage (e : PyException) : String :=
  if strip e.text = "" then e.className else strip e.text

/-- A `PathError` as the exception it is. -/
def PathError.toException (e : PathError) : PyException := ⟨"ValueError", e.message⟩

/-- A document that arrives at the API. -/
structure UploadRequest where
  localPath : Path
  isFile : Bool
  content : String
  tenantId : String
  sourceId : Option String

/-- `PreparedDocument`. -/
structure PreparedDocument where
  tenantId : String
  sourceId : String
  stagedPath : Path
  outputDir : Path
  rawBucket : String
  rawKey : String

/-- `_source_id_from_file`: the first 32 characters of the digest. -/
def sourceIdFromFile (site : Site) (content : String) : String :=
  String.ofList ((site.hexdigest content).toList.take 32)

/-- `source_id or _source_id_from_file(source_path)`. -/
def resolveSourceId (site : Site) (request : UploadRequest) : String :=
  match request.sourceId with
  | some sourceId => if sourceId = "" then sourceIdFromFile site request.content else sourceId
  | none => sourceIdFromFile site request.content

/-- `prepare_document`, apart from the copy into the staging directory. -/
def prepareDocument (site : Site) (request : UploadRequest) :
    Except PathError PreparedDocument := do
  if request.isFile = false then
    throw (.inputFileNotFound ("/".intercalate request.localPath))
  let tenant ← safePathSegment request.tenantId "tenant_id"
  let source ← safePathSegment (resolveSourceId site request) "source_id"
  let filename ← safeFilename request.localPath.name
  let stagedPath := site.settings.ragInputDir ++ [tenant, source, filename]
  let rawKey ← rawDocumentKey stagedPath tenant source
  return {
    tenantId := tenant
    sourceId := source
    stagedPath := stagedPath
    outputDir := site.settings.ragOutputDir ++ [tenant, source]
    rawBucket := site.settings.s3BucketRaw
    rawKey := rawKey }

/-- `prepared_document_for_job`. -/
def preparedDocumentForJob (site : Site) (job : ClaimedIngestJob) :
    Except PathError PreparedDocument := do
  let tenant ← safePathSegment job.tenantId "tenant_id"
  let source ← safePathSegment job.sourceId "source_id"
  let filename ← safeFilenameFromKey job.rawKey
  return {
    tenantId := tenant
    sourceId := source
    stagedPath := site.settings.ragInputDir ++ [tenant, source, filename]
    outputDir := site.settings.ragOutputDir ++ [tenant, source]
    rawBucket := job.rawBucket
    rawKey := job.rawKey }

/-! ## The actors -/

/-- The two ways to ingest a document. -/
inductive CallKind where
  /-- `create_pending_job`. -/
  | submit
  /-- `ingest_document`. -/
  | ingest
deriving DecidableEq

/-- `RawUploadResult`, the fields that are used. -/
structure RawUploadResult where
  bucket : String
  key : String
deriving DecidableEq

/-- `IngestResult`, without the URLs of the assets. -/
structure IngestResult where
  tenantId : String
  sourceId : String
  rawUri : String
  outputDir : Path
  assetCount : ℕ
  status : JobStatus
  jobId : ℕ
deriving DecidableEq

/-- `_result`. -/
def ingestResult (prepared : PreparedDocument) (rawUpload : RawUploadResult) (assetCount : ℕ)
    (status : JobStatus) (jobId : ℕ) : IngestResult where
  tenantId := prepared.tenantId
  sourceId := prepared.sourceId
  rawUri := "s3://" ++ rawUpload.bucket ++ "/" ++ rawUpload.key
  outputDir := prepared.outputDir
  assetCount := assetCount
  status := status
  jobId := jobId

/-- A local file: its path and its content. -/
abbrev LocalFile := Path × String

inductive CallPc where
  /-- `mark_processing` (`ingest_document` only). -/
  | toMarkProcessing
  /-- `upload_raw_document`. -/
  | toUpload
  /-- The second `upsert_job` (`create_pending_job` only). -/
  | toAccept
  /-- `process_document_complete` (`ingest_document` only). -/
  | toParse
  /-- `upload_output_tree`, with these files to go; then `mark_succeeded`. -/
  | toUploadOutput (remaining : List LocalFile) (uploaded : ℕ)
  /-- `_mark_failed`. -/
  | toMarkFailed (error : String)
  /-- The call returned. Ghost: the tenure of its job at that time. -/
  | returned (result : IngestResult) (tenure : ℕ)
  /-- The call raised. -/
  | raised
deriving DecidableEq

/-- The call works on its document: it is past its claim and has no result yet. -/
def CallPc.Working : CallPc → Prop
  | toUpload => True
  | toParse => True
  | toUploadOutput _ _ => True
  | _ => False

instance : DecidablePred CallPc.Working := fun pc ↦ by
  cases pc <;> unfold CallPc.Working <;> infer_instance

/-- What a call awaits after its first `upsert_job`. -/
def CallKind.firstPc : CallKind → CallPc
  | submit => .toUpload
  | ingest => .toMarkProcessing

/-- What a call awaits after the upload of the raw document. -/
def CallKind.pcAfterUpload : CallKind → CallPc
  | submit => .toAccept
  | ingest => .toParse

/-- An API call past its first `upsert_job`. -/
structure ApiCall where
  kind : CallKind
  prepared : PreparedDocument
  rawUpload : Option RawUploadResult
  pc : CallPc

/-- What a run of `process_job` awaits next. -/
inductive RunPc where
  /-- `download_raw_document`. -/
  | toDownload
  /-- `process_document_complete`. -/
  | toParse (prepared : PreparedDocument)
  /-- `upload_output_tree`, with these files to go; then `mark_succeeded`. -/
  | toUploadOutput (prepared : PreparedDocument) (remaining : List LocalFile)
  /-- `mark_failed`. -/
  | toMarkFailed (error : String)

/-- A run of `process_job`. Ghost: the tenure its ticket was issued for. -/
structure WorkerRun where
  ticket : ClaimedIngestJob
  tenure : ℕ
  pc : RunPc

/-! ## The state -/

/-- An object of the raw bucket. Ghost: the call that put it there. -/
structure RawObject where
  bucket : String
  key : String
  content : String
  call : ℕ

inductive Uploader where
  | run (job tenure : ℕ)
  | call (c : ℕ)
deriving DecidableEq

/-- An object of the asset bucket. Ghosts: who put it there, and the tenures of all jobs then. -/
structure AssetObject where
  bucket : String
  key : String
  content : String
  uploader : Uploader
  tenures : ℕ → ℕ

/-- The state of a deployment with `n` workers. -/
structure Deployment (n : ℕ) where
  log : JobLog
  calls : ℕ → Option ApiCall
  workers : Fin n → Option WorkerRun
  /-- The staging directory of the API. -/
  staging : Path → Option String
  /-- What was put into the raw bucket, newest first. -/
  raw : List RawObject
  /-- What was put into the asset bucket, newest first. -/
  assets : List AssetObject
  /-- Ghost: the tenure of the run that last marked a job succeeded. -/
  succeededBy : ℕ → Option ℕ

/-- What a call does next, and how the operation it awaits ends. -/
inductive CallStep where
  | markProcessing (failure : Option PyException)
  | uploadRaw (failure : Option PyException)
  | accept (uuid : ℕ) (failure : Option PyException)
  | parse (outcome : Except PyException (List LocalFile))
  | uploadOutput (failure : Option PyException)
  | markSucceeded (failure : Option PyException)
  | markFailed (failure : Option PyException)

/-- What a run does next, and how the operation it awaits ends. -/
inductive RunStep where
  | download (failure : Option PyException)
  | parse (outcome : Except PyException (List LocalFile))
  | uploadOutput (failure : Option PyException)
  /-- A heartbeat of the run's background task. -/
  | heartbeat
  /-- `mark_succeeded` or `mark_failed`, whichever the run has come to. -/
  | finish
  /-- The run ends without a result. -/
  | stop

inductive DeployLabel (n : ℕ) where
  | tick (seconds : ℚ)
  /-- A call validates its document, stages it and commits its first `upsert_job`. -/
  | start (c : ℕ) (kind : CallKind) (request : UploadRequest) (uuid : ℕ)
  | call (c : ℕ) (step : CallStep)
  /-- `claim_next_pending`. -/
  | poll (w : Fin n) (locked : List ℕ)
  | run (w : Fin n) (step : RunStep)

namespace Deployment

variable {n : ℕ}

def initial (n : ℕ) (clock : ℚ) : Deployment n where
  log := .start clock
  calls _ := none
  workers _ := none
  staging _ := none
  raw := []
  assets := []
  succeededBy _ := none

/-- The content of a raw object: the one that was put last. -/
def rawContent (s : Deployment n) (bucket key : String) : Option String :=
  (s.raw.find? fun object ↦ object.bucket = bucket ∧ object.key = key).map RawObject.content

def setCall (s : Deployment n) (c : ℕ) (call : ApiCall) : Deployment n :=
  { s with calls := Function.update s.calls c (some call) }

def setRun (s : Deployment n) (w : Fin n) (run : Option WorkerRun) : Deployment n :=
  { s with workers := Function.update s.workers w run }

theorem calls_setCall (s : Deployment n) (c d : ℕ) (call : ApiCall) :
    (s.setCall c call).calls d = if d = c then some call else s.calls d :=
  Function.update_apply ..

theorem workers_setRun (s : Deployment n) (w v : Fin n) (run : Option WorkerRun) :
    (s.setRun w run).workers v = if v = w then run else s.workers v :=
  Function.update_apply ..

/-- The files of an output tree in the order in which they are uploaded. -/
def outputTree (prepared : PreparedDocument) (files : List LocalFile) : List LocalFile :=
  (files.map fun file ↦ (prepared.outputDir ++ file.1, file.2)).insertionSort
    fun a b ↦ a.1 ≤ b.1

/-- An object is put into the asset bucket. -/
def putAsset (site : Site) (s : Deployment n) (key content : String) (uploader : Uploader) :
    Deployment n :=
  { s with assets :=
    ⟨site.settings.s3BucketAssets, key, content, uploader, fun i ↦ (s.log.history i).tenure⟩
      :: s.assets }

/-! ### The steps of a call -/

/-- The call goes to its failure path. -/
def failCall (s : Deployment n) (c : ℕ) (call : ApiCall) (e : PyException) : Deployment n :=
  s.setCall c { call with pc := .toMarkFailed (errorMessage e) }

/-- The beginning of a call, up to and including its first `upsert_job`. -/
def startCall (site : Site) (s : Deployment n) (c : ℕ) (kind : CallKind)
    (request : UploadRequest) (uuid : ℕ) : Option (Deployment n) :=
  match s.calls c, prepareDocument site request with
  | none, .ok prepared =>
    (s.log.upsertPending c site.repository uuid prepared.tenantId prepared.sourceId
      prepared.rawBucket prepared.rawKey).map fun (log, _) ↦
        { s with
          log := log
          staging := Function.update s.staging prepared.stagedPath
            (some request.content) }.setCall c
        { kind := kind, prepared := prepared, rawUpload := none, pc := kind.firstPc }
  | _, _ => none

/-- `mark_processing`. -/
def callMarkProcessing (s : Deployment n) (c : ℕ) (call : ApiCall)
    (failure : Option PyException) : Deployment n :=
  match failure with
  | some e => s.failCall c call e
  | none =>
    match s.log.markProcessing c call.prepared.tenantId call.prepared.sourceId with
    | .error e => s.failCall c call ⟨"IngestJobNotFoundError", e.message id⟩
    | .ok (log, _) => { s with log := log }.setCall c { call with pc := .toUpload }

/-- `upload_raw_document`. -/
def callUploadRaw (site : Site) (s : Deployment n) (c : ℕ) (call : ApiCall)
    (failure : Option PyException) : Deployment n :=
  match failure, s.staging call.prepared.stagedPath,
    rawDocumentKey call.prepared.stagedPath call.prepared.tenantId call.prepared.sourceId with
  | some e, _, _ => s.failCall c call e
  | none, none, _ => s.failCall c call ⟨"S3AssetFileNotFoundError", "File not found"⟩
  | none, some _, .error e => s.failCall c call e.toException
  | none, some content, .ok key =>
    { s with raw := ⟨site.settings.s3BucketRaw, key, content, c⟩ :: s.raw }.setCall c
      { call with
        rawUpload := some ⟨site.settings.s3BucketRaw, key⟩
        pc := call.kind.pcAfterUpload }

/-- The second `upsert_job` and the return of `create_pending_job`. -/
def callAccept (site : Site) (s : Deployment n) (c : ℕ) (call : ApiCall)
    (rawUpload : RawUploadResult) (uuid : ℕ) (failure : Option PyException) : Deployment n :=
  match failure, s.log.upsertPending c site.repository uuid call.prepared.tenantId
    call.prepared.sourceId rawUpload.bucket rawUpload.key with
  | none, some (log, job) =>
    { s with log := log }.setCall c { call with
      pc := .returned (ingestResult call.prepared rawUpload 0 .pending job.id)
        (log.history job.id).tenure }
  | _, _ => s.setCall c { call with pc := .raised }

/-- `process_document_complete`, run by the API. -/
def callParse (s : Deployment n) (c : ℕ) (call : ApiCall)
    (outcome : Except PyException (List LocalFile)) : Deployment n :=
  match outcome with
  | .error e => s.failCall c call e
  | .ok files =>
    s.setCall c { call with pc := .toUploadOutput (outputTree call.prepared files) 0 }

/-- One file of `upload_output_tree`, run by the API. -/
def callUploadOutput (site : Site) (s : Deployment n) (c : ℕ) (call : ApiCall)
    (file : LocalFile) (remaining : List LocalFile) (uploaded : ℕ)
    (failure : Option PyException) : Deployment n :=
  match failure, outputAssetKey site.settings.ragOutputDir file.1 call.prepared.tenantId
    call.prepared.sourceId with
  | none, .ok key => (s.putAsset site key file.2 (.call c)).setCall c
    { call with pc := .toUploadOutput remaining (uploaded + 1) }
  | none, .error e => s.failCall c call e.toException
  | some e, _ => s.failCall c call e

/-- `mark_succeeded` and the return of `ingest_document`. -/
def callMarkSucceeded (s : Deployment n) (c : ℕ) (call : ApiCall) (rawUpload : RawUploadResult)
    (uploaded : ℕ) (failure : Option PyException) : Deployment n :=
  match failure with
  | some e => s.failCall c call e
  | none =>
    match s.log.markSucceeded c call.prepared.tenantId call.prepared.sourceId with
    | .error e => s.failCall c call ⟨"IngestJobNotFoundError", e.message id⟩
    | .ok (log, job) =>
      { s with log := log }.setCall c { call with
        pc := .returned (ingestResult call.prepared rawUpload uploaded .succeeded job.id)
          (log.history job.id).tenure }

/-- `_mark_failed`, which suppresses its own failure, and the raise. -/
def callMarkFailed (s : Deployment n) (c : ℕ) (call : ApiCall) (error : String)
    (failure : Option PyException) : Deployment n :=
  match failure, s.log.markFailed c call.prepared.tenantId call.prepared.sourceId error with
  | none, .ok (log, _) => { s with log := log }.setCall c { call with pc := .raised }
  | _, _ => s.setCall c { call with pc := .raised }

/-! ### The steps of a worker -/

def failRun (s : Deployment n) (w : Fin n) (run : WorkerRun) (e : PyException) : Deployment n :=
  s.setRun w (some { run with pc := .toMarkFailed (errorMessage e) })

/-- `claim_next_pending`. -/
def poll (s : Deployment n) (queue : DatabaseIngestJobQueue) (w : Fin n) (locked : List ℕ) :
    Deployment n :=
  let claim := s.log.claimNextPending queue locked
  { s with log := claim.1 }.setRun w (claim.2.map fun ticket ↦
    { ticket := ticket
      tenure := (claim.1.history ticket.id).tenure
      pc := .toDownload })

/-- `prepared_document_for_job` and `download_raw_document`. -/
def runDownload (site : Site) (s : Deployment n) (w : Fin n) (run : WorkerRun)
    (failure : Option PyException) : Deployment n :=
  match preparedDocumentForJob site run.ticket, failure,
    s.rawContent run.ticket.rawBucket run.ticket.rawKey with
  | .error e, _, _ => s.failRun w run e.toException
  | .ok _, some e, _ => s.failRun w run e
  | .ok _, none, none => s.failRun w run ⟨"S3DownloadError", "Failed to download s3://"
    ++ run.ticket.rawBucket ++ "/" ++ run.ticket.rawKey⟩
  | .ok prepared, none, some _ => s.setRun w (some { run with pc := .toParse prepared })

/-- `process_document_complete`, run by a worker. -/
def runParse (s : Deployment n) (w : Fin n) (run : WorkerRun) (prepared : PreparedDocument)
    (outcome : Except PyException (List LocalFile)) : Deployment n :=
  match outcome with
  | .error e => s.failRun w run e
  | .ok files =>
    s.setRun w (some { run with pc := .toUploadOutput prepared (outputTree prepared files) })

/-- One file of `upload_output_tree`, run by a worker. -/
def runUploadOutput (site : Site) (s : Deployment n) (w : Fin n) (run : WorkerRun)
    (prepared : PreparedDocument) (file : LocalFile) (remaining : List LocalFile)
    (failure : Option PyException) : Deployment n :=
  match failure, outputAssetKey site.settings.ragOutputDir file.1 prepared.tenantId
    prepared.sourceId with
  | none, .ok key => (s.putAsset site key file.2 (.run run.ticket.id run.tenure)).setRun w
    (some { run with pc := .toUploadOutput prepared remaining })
  | none, .error e => s.failRun w run e.toException
  | some e, _ => s.failRun w run e

/-- A heartbeat; one that raises is logged. -/
def runHeartbeat (s : Deployment n) (run : WorkerRun) : Deployment n :=
  match s.log.heartbeat run.ticket with
  | .error _ => s
  | .ok log => { s with log := log }

/-- `mark_succeeded`; if it raises the run ends with the error. -/
def runSucceeded (s : Deployment n) (w : Fin n) (run : WorkerRun) : Deployment n :=
  match s.log.workerSucceeded run.ticket with
  | .error _ => s.setRun w none
  | .ok log =>
    { s with
      log := log
      succeededBy := Function.update s.succeededBy run.ticket.id (some run.tenure) }.setRun w none

/-- `mark_failed`; if it raises the run ends with the error. -/
def runFailed (s : Deployment n) (w : Fin n) (run : WorkerRun) (error : String) : Deployment n :=
  match s.log.workerFailed run.ticket error with
  | .error _ => s.setRun w none
  | .ok log => { s with log := log }.setRun w none

/-! ### The step relation -/

/-- The step of a call that is past its first `upsert_job`. -/
def stepCall (site : Site) (s : Deployment n) (c : ℕ) (call : ApiCall) (step : CallStep) :
    Option (Deployment n) :=
  match step, call.pc with
  | .markProcessing failure, .toMarkProcessing => some (s.callMarkProcessing c call failure)
  | .uploadRaw failure, .toUpload => some (s.callUploadRaw site c call failure)
  | .accept uuid failure, .toAccept => call.rawUpload.map fun rawUpload ↦
    s.callAccept site c call rawUpload uuid failure
  | .parse outcome, .toParse => some (s.callParse c call outcome)
  | .uploadOutput failure, .toUploadOutput (file :: remaining) uploaded =>
    some (s.callUploadOutput site c call file remaining uploaded failure)
  | .markSucceeded failure, .toUploadOutput [] uploaded => call.rawUpload.map fun rawUpload ↦
    s.callMarkSucceeded c call rawUpload uploaded failure
  | .markFailed failure, .toMarkFailed error => some (s.callMarkFailed c call error failure)
  | _, _ => none

/-- The step of a worker that runs a job. -/
def stepRun (site : Site) (s : Deployment n) (w : Fin n) (run : WorkerRun) (step : RunStep) :
    Option (Deployment n) :=
  match step, run.pc with
  | .download failure, .toDownload => some (s.runDownload site w run failure)
  | .parse outcome, .toParse prepared => some (s.runParse w run prepared outcome)
  | .uploadOutput failure, .toUploadOutput prepared (file :: remaining) =>
    some (s.runUploadOutput site w run prepared file remaining failure)
  | .heartbeat, .toMarkFailed _ => none
  | .heartbeat, _ => some (s.runHeartbeat run)
  | .finish, .toUploadOutput _ [] => some (s.runSucceeded w run)
  | .finish, .toMarkFailed error => some (s.runFailed w run error)
  | .stop, _ => some (s.setRun w none)
  | _, _ => none

def step (site : Site) (fleet : Fleet n) (s : Deployment n) :
    DeployLabel n → Option (Deployment n)
  | .tick seconds => (s.log.tick seconds).map fun log ↦ { s with log := log }
  | .start c kind request uuid => s.startCall site c kind request uuid
  | .call c step => (s.calls c).bind fun call ↦ s.stepCall site c call step
  | .poll w locked => match s.workers w with
    | none => some (s.poll (fleet.queue w) w locked)
    | some _ => none
  | .run w step => (s.workers w).bind fun run ↦ s.stepRun site w run step

end Deployment

/-! ## What a step can do

`Moves` lists the effects a step can have, one constructor each, with what is known when it has
it. Every invariant of a deployment is proved by cases on it. -/

/-- The document a run works on is the one its ticket names. -/
def WorkerRun.Fits (site : Site) (run : WorkerRun) : Prop :=
  match run.pc with
  | .toParse prepared => preparedDocumentForJob site run.ticket = .ok prepared
  | .toUploadOutput prepared _ => preparedDocumentForJob site run.ticket = .ok prepared
  | _ => True

open Deployment in
/-- The effects a step can have. -/
inductive Moves {n : ℕ} (site : Site) (fleet : Fleet n) (s : Deployment n) :
    DeployLabel n → Deployment n → Prop
  | tick {seconds : ℚ} {log : JobLog} (h : s.log.tick seconds = some log) :
    Moves site fleet s (.tick seconds) { s with log := log }
  | started {c : ℕ} {kind : CallKind} {request : UploadRequest} {uuid : ℕ}
    {prepared : PreparedDocument} {log : JobLog} {job : IngestJob} (hfree : s.calls c = none)
    (hprep : prepareDocument site request = .ok prepared)
    (hup : s.log.upsertPending c site.repository uuid prepared.tenantId prepared.sourceId
      prepared.rawBucket prepared.rawKey = some (log, job)) :
    Moves site fleet s (.start c kind request uuid)
      ({ s with
        log := log
        staging := Function.update s.staging prepared.stagedPath (some request.content) }.setCall c
          ⟨kind, prepared, none, kind.firstPc⟩)
  /-- The call goes to its failure path. -/
  | gaveUp {c : ℕ} {step : CallStep} {call : ApiCall} {e : PyException}
    (hcall : s.calls c = some call)
    (hpc : call.pc.Working ∨ call.pc = .toMarkProcessing ∧
      ((∃ e, step = .markProcessing (some e)) ∨
        s.log.jobs.lookup (call.prepared.tenantId, call.prepared.sourceId) = none)) :
    Moves site fleet s (.call c step) (s.failCall c call e)
  /-- The call raises and leaves no trace. -/
  | raised {c : ℕ} {step : CallStep} {call : ApiCall} (hcall : s.calls c = some call)
    (hpc : call.pc = .toAccept ∨ ∃ error, call.pc = .toMarkFailed error) :
    Moves site fleet s (.call c step) (s.setCall c { call with pc := .raised })
  | markedProcessing {c : ℕ} {call : ApiCall} {log : JobLog} {job : IngestJob}
    (hcall : s.calls c = some call) (hpc : call.pc = .toMarkProcessing)
    (h : s.log.markProcessing c call.prepared.tenantId call.prepared.sourceId = .ok (log, job)) :
    Moves site fleet s (.call c (.markProcessing none))
      ({ s with log := log }.setCall c { call with pc := .toUpload })
  | uploadedRaw {c : ℕ} {call : ApiCall} {key content : String} (hcall : s.calls c = some call)
    (hpc : call.pc = .toUpload)
    (hkey : rawDocumentKey call.prepared.stagedPath call.prepared.tenantId
      call.prepared.sourceId = .ok key) :
    Moves site fleet s (.call c (.uploadRaw none))
      ({ s with raw := ⟨site.settings.s3BucketRaw, key, content, c⟩ :: s.raw }.setCall c
        { call with
          rawUpload := some ⟨site.settings.s3BucketRaw, key⟩
          pc := call.kind.pcAfterUpload })
  | accepted {c uuid : ℕ} {call : ApiCall} {rawUpload : RawUploadResult} {log : JobLog}
    {job : IngestJob} (hcall : s.calls c = some call) (hpc : call.pc = .toAccept)
    (hraw : call.rawUpload = some rawUpload)
    (hup : s.log.upsertPending c site.repository uuid call.prepared.tenantId
      call.prepared.sourceId rawUpload.bucket rawUpload.key = some (log, job)) :
    Moves site fleet s (.call c (.accept uuid none))
      ({ s with log := log }.setCall c { call with
        pc := .returned (ingestResult call.prepared rawUpload 0 .pending job.id)
          (log.history job.id).tenure })
  | parsed {c : ℕ} {call : ApiCall} {files : List LocalFile} (hcall : s.calls c = some call)
    (hpc : call.pc = .toParse) :
    Moves site fleet s (.call c (.parse (.ok files)))
      (s.setCall c { call with pc := .toUploadOutput (outputTree call.prepared files) 0 })
  | uploadedOutput {c : ℕ} {call : ApiCall} {file : LocalFile} {remaining : List LocalFile}
    {uploaded : ℕ} {key : String} (hcall : s.calls c = some call)
    (hpc : call.pc = .toUploadOutput (file :: remaining) uploaded) :
    Moves site fleet s (.call c (.uploadOutput none))
      ((s.putAsset site key file.2 (.call c)).setCall c
        { call with pc := .toUploadOutput remaining (uploaded + 1) })
  | markedSucceeded {c : ℕ} {call : ApiCall} {rawUpload : RawUploadResult} {uploaded : ℕ}
    {log : JobLog} {job : IngestJob} (hcall : s.calls c = some call)
    (hpc : call.pc = .toUploadOutput [] uploaded)
    (h : s.log.markSucceeded c call.prepared.tenantId call.prepared.sourceId = .ok (log, job)) :
    Moves site fleet s (.call c (.markSucceeded none))
      ({ s with log := log }.setCall c { call with
        pc := .returned (ingestResult call.prepared rawUpload uploaded .succeeded job.id)
          (log.history job.id).tenure })
  | markedFailed {c : ℕ} {call : ApiCall} {error : String} {log : JobLog} {job : IngestJob}
    (hcall : s.calls c = some call) (hpc : call.pc = .toMarkFailed error)
    (h : s.log.markFailed c call.prepared.tenantId call.prepared.sourceId error
      = .ok (log, job)) :
    Moves site fleet s (.call c (.markFailed none))
      ({ s with log := log }.setCall c { call with pc := .raised })
  | polled {w : Fin n} {locked : List ℕ} (hidle : s.workers w = none) :
    Moves site fleet s (.poll w locked) (s.poll (fleet.queue w) w locked)
  /-- The run goes on with its ticket, or ends without a result. -/
  | ran {w : Fin n} {step : RunStep} {run : WorkerRun} {next : Option WorkerRun}
    (hrun : s.workers w = some run)
    (hnext : ∀ r ∈ next, r.ticket = run.ticket ∧ r.tenure = run.tenure ∧
      (run.Fits site → r.Fits site)) :
    Moves site fleet s (.run w step) (s.setRun w next)
  | runUploadedOutput {w : Fin n} {run : WorkerRun} {prepared : PreparedDocument}
    {file : LocalFile} {remaining : List LocalFile} {key : String}
    (hrun : s.workers w = some run) (hpc : run.pc = .toUploadOutput prepared (file :: remaining))
    (hkey : outputAssetKey site.settings.ragOutputDir file.1 prepared.tenantId prepared.sourceId
      = .ok key) :
    Moves site fleet s (.run w (.uploadOutput none))
      ((s.putAsset site key file.2 (.run run.ticket.id run.tenure)).setRun w
        (some { run with pc := .toUploadOutput prepared remaining }))
  | heartbeat {w : Fin n} {run : WorkerRun} {log : JobLog} (hrun : s.workers w = some run)
    (h : s.log.heartbeat run.ticket = .ok log) :
    Moves site fleet s (.run w .heartbeat) { s with log := log }
  /-- A heartbeat that raises. -/
  | skipped {w : Fin n} {run : WorkerRun} (hrun : s.workers w = some run) :
    Moves site fleet s (.run w .heartbeat) s
  | runSucceeded {w : Fin n} {run : WorkerRun} {log : JobLog} (hrun : s.workers w = some run)
    (h : s.log.workerSucceeded run.ticket = .ok log) :
    Moves site fleet s (.run w .finish)
      ({ s with
        log := log
        succeededBy := Function.update s.succeededBy run.ticket.id (some run.tenure) }.setRun w
          none)
  | runFailed {w : Fin n} {run : WorkerRun} {error : String} {log : JobLog}
    (hrun : s.workers w = some run) (h : s.log.workerFailed run.ticket error = .ok log) :
    Moves site fleet s (.run w .finish) ({ s with log := log }.setRun w none)

namespace Deployment

variable {n : ℕ} {site : Site} {fleet : Fleet n} {s s' : Deployment n}

private theorem moves_startCall {c : ℕ} {kind : CallKind} {request : UploadRequest} {uuid : ℕ}
    (h : s.startCall site c kind request uuid = some s') :
    Moves site fleet s (.start c kind request uuid) s' := by
  rw [startCall] at h
  split at h
  · rename_i prepared hfree hprep
    obtain ⟨⟨log, job⟩, hup, rfl⟩ := Option.map_eq_some_iff.mp h
    exact .started hfree hprep hup
  · exact nomatch h

private theorem moves_callMarkProcessing {c : ℕ} {call : ApiCall} (hcall : s.calls c = some call)
    (hpc : call.pc = .toMarkProcessing) (failure : Option PyException) :
    Moves site fleet s (.call c (.markProcessing failure))
      (s.callMarkProcessing c call failure) := by
  unfold callMarkProcessing
  cases failure with
  | some e => exact .gaveUp hcall (Or.inr ⟨hpc, Or.inl ⟨e, rfl⟩⟩)
  | none =>
    dsimp only
    split
    · rename_i e hmark
      exact .gaveUp hcall (Or.inr ⟨hpc, Or.inr (JobLog.markProcessing_error hmark)⟩)
    · rename_i log job hmark
      exact .markedProcessing hcall hpc hmark

private theorem moves_callUploadRaw {c : ℕ} {call : ApiCall} (hcall : s.calls c = some call)
    (hpc : call.pc = .toUpload) (failure : Option PyException) :
    Moves site fleet s (.call c (.uploadRaw failure)) (s.callUploadRaw site c call failure) := by
  have hwork : call.pc.Working := hpc ▸ trivial
  unfold callUploadRaw
  split
  · exact .gaveUp hcall (Or.inl hwork)
  · exact .gaveUp hcall (Or.inl hwork)
  · exact .gaveUp hcall (Or.inl hwork)
  · rename_i hkey
    exact .uploadedRaw hcall hpc hkey

private theorem moves_callAccept {c uuid : ℕ} {call : ApiCall} {rawUpload : RawUploadResult}
    (hcall : s.calls c = some call) (hpc : call.pc = .toAccept)
    (hraw : call.rawUpload = some rawUpload) (failure : Option PyException) :
    Moves site fleet s (.call c (.accept uuid failure))
      (s.callAccept site c call rawUpload uuid failure) := by
  unfold callAccept
  split
  · rename_i log job hup
    exact .accepted hcall hpc hraw hup
  · exact .raised hcall (Or.inl hpc)

private theorem moves_callParse {c : ℕ} {call : ApiCall} (hcall : s.calls c = some call)
    (hpc : call.pc = .toParse) (outcome : Except PyException (List LocalFile)) :
    Moves site fleet s (.call c (.parse outcome)) (s.callParse c call outcome) := by
  cases outcome with
  | error e => exact .gaveUp hcall (Or.inl (hpc ▸ trivial))
  | ok files => exact .parsed hcall hpc

private theorem moves_callUploadOutput {c : ℕ} {call : ApiCall} {file : LocalFile}
    {remaining : List LocalFile} {uploaded : ℕ} (hcall : s.calls c = some call)
    (hpc : call.pc = .toUploadOutput (file :: remaining) uploaded)
    (failure : Option PyException) :
    Moves site fleet s (.call c (.uploadOutput failure))
      (s.callUploadOutput site c call file remaining uploaded failure) := by
  have hwork : call.pc.Working := hpc ▸ trivial
  unfold callUploadOutput
  split
  · exact .uploadedOutput hcall hpc
  · exact .gaveUp hcall (Or.inl hwork)
  · exact .gaveUp hcall (Or.inl hwork)

private theorem moves_callMarkSucceeded {c : ℕ} {call : ApiCall} {rawUpload : RawUploadResult}
    {uploaded : ℕ} (hcall : s.calls c = some call) (hpc : call.pc = .toUploadOutput [] uploaded)
    (failure : Option PyException) :
    Moves site fleet s (.call c (.markSucceeded failure))
      (s.callMarkSucceeded c call rawUpload uploaded failure) := by
  have hwork : call.pc.Working := hpc ▸ trivial
  unfold callMarkSucceeded
  cases failure with
  | some e => exact .gaveUp hcall (Or.inl hwork)
  | none =>
    dsimp only
    split
    · exact .gaveUp hcall (Or.inl hwork)
    · rename_i log job hmark
      exact .markedSucceeded hcall hpc hmark

private theorem moves_callMarkFailed {c : ℕ} {call : ApiCall} {error : String}
    (hcall : s.calls c = some call) (hpc : call.pc = .toMarkFailed error)
    (failure : Option PyException) :
    Moves site fleet s (.call c (.markFailed failure))
      (s.callMarkFailed c call error failure) := by
  unfold callMarkFailed
  split
  · rename_i log job hmark
    exact .markedFailed hcall hpc hmark
  · exact .raised hcall (Or.inr ⟨error, hpc⟩)

private theorem moves_stepCall {c : ℕ} {call : ApiCall} {step : CallStep}
    (hcall : s.calls c = some call) (h : s.stepCall site c call step = some s') :
    Moves site fleet s (.call c step) s' := by
  unfold stepCall at h
  split at h
  · rename_i failure hpc
    exact Option.some.inj h ▸ moves_callMarkProcessing hcall hpc failure
  · rename_i failure hpc
    exact Option.some.inj h ▸ moves_callUploadRaw hcall hpc failure
  · rename_i uuid failure hpc
    obtain ⟨rawUpload, hraw, rfl⟩ := Option.map_eq_some_iff.mp h
    exact moves_callAccept hcall hpc hraw failure
  · rename_i outcome hpc
    exact Option.some.inj h ▸ moves_callParse hcall hpc outcome
  · rename_i failure file remaining uploaded hpc
    exact Option.some.inj h ▸ moves_callUploadOutput hcall hpc failure
  · rename_i failure uploaded hpc
    obtain ⟨rawUpload, -, rfl⟩ := Option.map_eq_some_iff.mp h
    exact moves_callMarkSucceeded hcall hpc failure
  · rename_i failure error hpc
    exact Option.some.inj h ▸ moves_callMarkFailed hcall hpc failure
  · exact nomatch h

private theorem moves_failRun {w : Fin n} {run : WorkerRun} (hrun : s.workers w = some run)
    (step : RunStep) (e : PyException) :
    Moves site fleet s (.run w step) (s.failRun w run e) := by
  refine .ran hrun fun r hr ↦ ?_
  obtain rfl := Option.some.inj hr
  exact ⟨rfl, rfl, fun _ ↦ trivial⟩

private theorem moves_runDownload {w : Fin n} {run : WorkerRun} (hrun : s.workers w = some run)
    (failure : Option PyException) :
    Moves site fleet s (.run w (.download failure)) (s.runDownload site w run failure) := by
  unfold runDownload
  split
  · exact moves_failRun hrun _ _
  · exact moves_failRun hrun _ _
  · exact moves_failRun hrun _ _
  · rename_i prepared content hprep hcontent
    refine .ran hrun fun r hr ↦ ?_
    obtain rfl := Option.some.inj hr
    exact ⟨rfl, rfl, fun _ ↦ hprep⟩

private theorem moves_runParse {w : Fin n} {run : WorkerRun} {prepared : PreparedDocument}
    (hrun : s.workers w = some run) (hpc : run.pc = .toParse prepared)
    (outcome : Except PyException (List LocalFile)) :
    Moves site fleet s (.run w (.parse outcome)) (s.runParse w run prepared outcome) := by
  cases outcome with
  | error e => exact moves_failRun hrun _ _
  | ok files =>
    refine .ran hrun fun r hr ↦ ?_
    obtain rfl := Option.some.inj hr
    refine ⟨rfl, rfl, fun hfits ↦ ?_⟩
    rw [WorkerRun.Fits, hpc] at hfits
    exact hfits

private theorem moves_runUploadOutput {w : Fin n} {run : WorkerRun} {prepared : PreparedDocument}
    {file : LocalFile} {remaining : List LocalFile} (hrun : s.workers w = some run)
    (hpc : run.pc = .toUploadOutput prepared (file :: remaining))
    (failure : Option PyException) :
    Moves site fleet s (.run w (.uploadOutput failure))
      (s.runUploadOutput site w run prepared file remaining failure) := by
  unfold runUploadOutput
  split
  · rename_i hkey
    exact .runUploadedOutput hrun hpc hkey
  · exact moves_failRun hrun _ _
  · exact moves_failRun hrun _ _

private theorem moves_end {w : Fin n} {run : WorkerRun} (hrun : s.workers w = some run)
    (step : RunStep) : Moves site fleet s (.run w step) (s.setRun w none) :=
  .ran hrun fun _ hr ↦ nomatch hr

private theorem moves_stepRun {w : Fin n} {run : WorkerRun} {step : RunStep}
    (hrun : s.workers w = some run) (h : s.stepRun site w run step = some s') :
    Moves site fleet s (.run w step) s' := by
  unfold stepRun at h
  split at h
  · rename_i failure hpc
    exact Option.some.inj h ▸ moves_runDownload hrun failure
  · rename_i outcome prepared hpc
    exact Option.some.inj h ▸ moves_runParse hrun hpc outcome
  · rename_i failure prepared file remaining hpc
    exact Option.some.inj h ▸ moves_runUploadOutput hrun hpc failure
  · exact nomatch h
  · rw [← Option.some.inj h, runHeartbeat]
    split
    · exact .skipped hrun
    · rename_i log hbeat
      exact .heartbeat hrun hbeat
  · rw [← Option.some.inj h, runSucceeded]
    split
    · exact moves_end hrun _
    · rename_i log hmark
      exact .runSucceeded hrun hmark
  · rename_i error hpc
    rw [← Option.some.inj h, runFailed]
    split
    · exact moves_end hrun _
    · rename_i log hmark
      exact .runFailed hrun hmark
  · exact Option.some.inj h ▸ moves_end hrun _
  · exact nomatch h

/-- **Every step has one of the listed effects.** -/
theorem moves_of_step {label : DeployLabel n} (h : s.step site fleet label = some s') :
    Moves site fleet s label s' := by
  cases label with
  | tick seconds =>
    obtain ⟨log, hlog, rfl⟩ := Option.map_eq_some_iff.mp h
    exact .tick hlog
  | start c kind request uuid => exact moves_startCall h
  | call c step =>
    obtain ⟨call, hcall, hstep⟩ := Option.bind_eq_some_iff.mp h
    exact moves_stepCall hcall hstep
  | poll w locked =>
    rw [Deployment.step] at h
    split at h
    · rename_i hidle
      exact Option.some.inj h ▸ .polled hidle
    · exact nomatch h
  | run w step =>
    obtain ⟨run, hrun, hstep⟩ := Option.bind_eq_some_iff.mp h
    exact moves_stepRun hrun hstep

end Deployment

end KnowledgeAlakazam
