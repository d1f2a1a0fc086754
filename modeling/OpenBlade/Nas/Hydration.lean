import OpenBlade.Effects.Proc
import OpenBlade.Domain.Errors
import OpenBlade.Domain.Posix
import OpenBlade.Nas.Datasets
import OpenBlade.World

/-!
# The hydration executor

`nas/hydration.py`: a restore job reads the files of a plan back from their tapes into the cache, tape by tape. Between two files it
looks at the row of the job, and leaves off when the job was paused or cancelled; its counters go to that row after every file.
Every call of the service commits by itself.
-/

namespace OpenBlade

open Effects Proc

/-! ### What the executor calls -/

/-- The NAS tables, the bytes on the tapes, and the restore directory. -/
structure NasWorld where
  catalog : NasCatalog := {}
  tapes : Dict Barcode (Dict String Bytes) := []
  restoreDir : Dict String Bytes := []
  deriving Repr, DecidableEq

inductive NasOp where
  | getRestoreJob (id : JobId)
  | upsertRestoreJob (job : NasRestoreJob)
  | updateRestoreJobStatus (id : JobId) (status : RestoreJobStatus) (progress : Option RestoreProgress)
      (errorMessage : Option String)
  | listPoolFileRecords (poolId : String)
  | upsertFileRecord (record : NasFileRecord)
  | getDataset (id : String)
  | readBytes (barcode : Barcode) (path : String)
  /-- Write `restore_dir/{id}`. -/
  | writeRestored (id : String) (content : Bytes)
  deriving Repr, DecidableEq

def NasOp.Ans : NasOp → Type
  | getRestoreJob _ => Option NasRestoreJob
  | upsertRestoreJob _ => NasRestoreJob
  | updateRestoreJobStatus _ _ _ _ => Bool
  | listPoolFileRecords _ => List NasFileRecord
  | upsertFileRecord _ => NasFileRecord
  | getDataset _ => Option NasDataset
  | readBytes _ _ => Bytes
  | writeRestored _ _ => Unit

/-- What the environment decides about one call. The default is that all is well. -/
structure NasChoice where
  /-- The call raises. -/
  raises : Option Fault := none
  /-- A call that raises took effect all the same. -/
  takesEffect : Bool := false
  /-- What a read finds on the tape, if not what is there. -/
  seen : Option Bytes := none
  deriving Repr, DecidableEq

namespace NasWorld

/-- A call that is not made to raise. -/
def attempt (w : NasWorld) (c : NasChoice) : (o : NasOp) → Except Exn o.Ans × NasWorld
  | .getRestoreJob id => (.ok (w.catalog.getNasRestoreJob id), w)
  | .upsertRestoreJob job => (.ok job, { w with catalog := w.catalog.upsertNasRestoreJob job })
  | .updateRestoreJobStatus id status progress errorMessage =>
    let (found, catalog) := w.catalog.updateNasRestoreJobStatus id status progress errorMessage
    (.ok found, { w with catalog := catalog })
  | .listPoolFileRecords poolId => (.ok (w.catalog.listPoolFileRecords poolId), w)
  | .upsertFileRecord record => (.ok record, { w with catalog := w.catalog.upsertNasFileRecord record })
  | .getDataset id => (.ok (w.catalog.getNasDataset id), w)
  | .readBytes barcode path =>
    match (w.tapes.get? barcode).bind fun files => Dict.get? files path with
    | none => (.error { cls := .fileNotFound, message := path }, w)
    | some bytes => (.ok (c.seen.getD bytes), w)
  | .writeRestored id content => (.ok (), { w with restoreDir := w.restoreDir.set id content })

/-- One call. -/
def exec (w : NasWorld) (o : NasOp) (c : NasChoice) : Except Exn o.Ans × NasWorld :=
  match c.raises with
  | none => w.attempt c o
  | some fault => (.error fault.exn, if c.takesEffect then (w.attempt c o).2 else w)

end NasWorld

/-- The machine the executor runs on. -/
def nasMachine : Machine NasWorld NasOp (fun o => Except Exn o.Ans) NasChoice where
  exec := NasWorld.exec

/-- A procedure of the NAS service, with local variables `L`. -/
abbrev NasM (L α : Type) : Type := Proc NasOp NasOp.Ans Exn L α

abbrev nasCall {L : Type} (o : NasOp) : NasM L o.Ans := Proc.perform o

/-! ### The plan of a job -/

/-- `_normalize_path`. -/
def normalizeRestorePath (path : String) : String :=
  let normalized := lstripSlash (posix ("/" ++ lstripSlash path))
  if normalized = "." then "" else normalized

structure RestorePlan where
  batchesByTape : Dict Barcode (List String)
  tapeLoadOrder : List Barcode
  parallelRestoreGroups : List (List Barcode)
  deriving Repr, DecidableEq

namespace NasRestoreJob

/-- `_records_for_job`, of the records of the pool. -/
def selected (job : NasRestoreJob) (records : List NasFileRecord) : List NasFileRecord :=
  let requestedPaths := job.paths.map normalizeRestorePath
  if requestedPaths = [] then records
  else records.filter fun record => normalizeRestorePath record.relativePath ∈ requestedPaths

/-- `batches_by_tape.setdefault(barcode, []).append(path)`, for a record that is on a tape. -/
def addToBatch (batches : Dict Barcode (List String)) (record : NasFileRecord) : Dict Barcode (List String) :=
  match record.tapeBarcode with
  | none => batches
  | some barcode => batches.set barcode ((batches.get? barcode).getD [] ++ [normalizeRestorePath record.relativePath])

/-- The groups of a job, by their keys. -/
def orderedGroups (job : NasRestoreJob) : List (List Barcode) :=
  ((Dict.keys job.parallelRestoreGroups).insertionSort fun a b => a ≤ b).map fun key =>
    (job.parallelRestoreGroups.get? key).getD []

/-- `_plan_from_job`, with the records of the job. -/
def planFromJob (job : NasRestoreJob) (records : List NasFileRecord) : RestorePlan :=
  { batchesByTape := records.foldl addToBatch (job.requiredTapes.foldl (fun batches barcode => batches.set barcode []) [])
    tapeLoadOrder := job.tapeLoadOrder
    parallelRestoreGroups := job.orderedGroups }

end NasRestoreJob

/-- `plan.parallel_restore_groups or [[barcode] for barcode in plan.tape_load_order]`. -/
def RestorePlan.groups (plan : RestorePlan) : List (List Barcode) :=
  if plan.parallelRestoreGroups = [] then plan.tapeLoadOrder.map fun barcode => [barcode] else plan.parallelRestoreGroups

/-! ### The executor -/

/-- `HydrationJob`, and the records of the run by their normalized paths. -/
structure HydrationJob where
  restoreJob : NasRestoreJob := { id := "" }
  status : RestoreJobStatus := .running
  filesRestored : Nat := 0
  filesFailed : Nat := 0
  bytesRestored : Int := 0
  errors : List String := []
  partialSuccess : Bool := false
  isCancelled : Bool := false
  recordsByPath : Dict String NasFileRecord := []
  deriving Repr, DecidableEq

namespace HydrationJob

def progress (hydration : HydrationJob) (partialSuccess : Bool) : RestoreProgress :=
  { bytesRestored := hydration.bytesRestored, filesRestored := hydration.filesRestored
    filesFailed := hydration.filesFailed, partialSuccess := partialSuccess }

end HydrationJob

/-- `_HydrationControlSignal`, which no caller sees. -/
def controlSignal (message : String) : Exn := { cls := .hydrationControlSignal, message := message }

def Exn.isControlSignal (exc : Exn) : Bool := exc.cls = .hydrationControlSignal

/-- `checksum_sha256` is set and matches `\A[0-9a-f]{64}\Z`. -/
def isSha256 (text : String) : Bool :=
  text.toList.length = 64 ∧ text.toList.all fun c => ('0' ≤ c ∧ c ≤ '9') ∨ ('a' ≤ c ∧ c ≤ 'f')

/-- `_verify_restored_integrity`. -/
def verifyRestoredIntegrity (sha256 : Bytes → String) (record : NasFileRecord) (content : Bytes) : Except Exn Unit :=
  match record.checksumSha256 with
  | none => .ok ()
  | some expected =>
    if isSha256 expected ∧ sha256 content ≠ expected then
      .error { cls := .checksumMismatch
               message := "restored bytes for " ++ record.relativePath ++
                 " do not match the recorded checksum (tape read failed or data corrupt); refusing to serve" }
    else .ok ()

variable {L : Type}

/-- `_require_job`. -/
def requireJob (jobId : JobId) : NasM L NasRestoreJob := do
  match ← nasCall (.getRestoreJob jobId) with
  | none => raise { cls := .keyError, message := "Restore job " ++ jobId ++ " not found" }
  | some job => pure job

/-- `_require_status`. -/
def requireStatus (job : NasRestoreJob) (allowed : List RestoreJobStatus) (action : String) : Except Exn Unit :=
  if job.status ∈ allowed then .ok ()
  else
    .error { cls := .valueError
             message := "Cannot " ++ action ++ " restore job from " ++ job.status.value ++ "; allowed: " ++
               ", ".intercalate ((allowed.map RestoreJobStatus.value).insertionSort fun a b => a ≤ b) }

/-- `_read_archived_bytes`: a read that fails finds nothing. -/
def readArchivedBytes (record : NasFileRecord) : NasM L (Option Bytes) :=
  match record.tapeBarcode with
  | none => pure none
  | some barcode =>
    if barcode = "" then pure none
    else do
      match ← nasCall (.getDataset record.datasetId) with
      | none => pure none
      | some dataset =>
        handle
          (do
            let bytes ← nasCall (.readBytes barcode (datasetTapePath dataset.name record.relativePath))
            pure (some bytes))
          fun _ => pure none

/-- `_simulate_content`. -/
def simulateContent (record : NasFileRecord) : NasM L Bytes := do
  match ← readArchivedBytes record with
  | some content => pure content
  | none =>
    let barcode := match record.tapeBarcode with
      | none => "<unknown>"
      | some barcode => if barcode = "" then "<unknown>" else barcode
    pure ("HYDRATED:" ++ record.relativePath ++ ":" ++ barcode).toUTF8.toList

/-- `_materialize_content`. -/
def materializeContent (sha256 : Bytes → String) (record : NasFileRecord) : NasM L Bytes := do
  let content ← simulateContent record
  ofExcept (verifyRestoredIntegrity sha256 record content)
  nasCall (.writeRestored record.id content)
  pure content

/-- `_set_file_status`: the record of the run takes the status that was saved. -/
def setFileStatus (path : String) (record : NasFileRecord) (status : NasFileState) : NasM HydrationJob NasFileRecord := do
  let saved ← nasCall (.upsertFileRecord { record with status := status })
  let record := { record with status := saved.status }
  assign fun l => { l with recordsByPath := l.recordsByPath.set path record }
  pure record

/-- `_check_control_state`; between groups no record is in work. -/
def checkControlState (jobId : JobId) (inWork : Bool) : NasM HydrationJob Unit := do
  let current ← requireJob jobId
  assign fun l => { l with restoreJob := current, status := current.status }
  if current.status = .cancelled then do
    assign fun l => { l with isCancelled := true }
    raise (controlSignal "cancelled")
  else if current.status = .paused then raise (controlSignal "paused")
  else if inWork ∧ current.status ≠ .running then raise (controlSignal "stopped")
  else pure ()

/-- What is done about a record whose content is at hand: it is saved and counted, and the counters go to the job. -/
def countRestored (jobId : JobId) (path : String) (record : NasFileRecord) (content : Bytes) : NasM HydrationJob Unit := do
  let l ← locals
  let destination := ((PurePosixPath.ofString l.restoreJob.destination).join (.ofString record.relativePath)).toString
  let restored ← nasCall (.upsertFileRecord { record with status := .onlineCached, cachePath := some destination })
  assign fun l => { l with filesRestored := l.filesRestored + 1, bytesRestored := l.bytesRestored + content.length }
  let l ← locals
  let _ ← nasCall (.updateRestoreJobStatus jobId .running (some (l.progress false)) none)
  let job ← requireJob jobId
  assign fun l => { l with
    restoreJob := job, status := .running
    recordsByPath := l.recordsByPath.set path { record with status := restored.status, cachePath := restored.cachePath } }

/-- The `try` of one record. -/
def restoreRecord (sha256 : Bytes → String) (jobId : JobId) (path : String) (record : NasFileRecord) :
    NasM HydrationJob Unit := do
  checkControlState jobId true
  let content ← materializeContent sha256 record
  checkControlState jobId true
  countRestored jobId path record content

/-- Its `except Exception` clause. -/
def countFailed (jobId : JobId) (record : NasFileRecord) (exc : Exn) : NasM HydrationJob Unit := do
  let _ ← nasCall (.upsertFileRecord { record with status := .failed })
  assign fun l => { l with
    filesFailed := l.filesFailed + 1, errors := l.errors ++ [record.relativePath ++ ": " ++ safeJobError exc] }
  let l ← locals
  let _ ← nasCall (.updateRestoreJobStatus jobId .running (some (l.progress false)) (some ("; ".intercalate l.errors)))
  let job ← requireJob jobId
  assign fun l => { l with restoreJob := job }

/-- `_hydrate_record`. A signal puts the record back as it was. -/
def hydrateRecord (sha256 : Bytes → String) (jobId : JobId) (path : String) (record : NasFileRecord) :
    NasM HydrationJob Unit := do
  let inWork ← setFileStatus path record .hydrating
  handle (restoreRecord sha256 jobId path inWork) fun exc =>
    if exc.isControlSignal then do
      let _ ← setFileStatus path inWork record.status
      raise exc
    else countFailed jobId inWork exc

/-- One path of a batch. -/
def hydratePath (sha256 : Bytes → String) (jobId : JobId) (logicalPath : String) : NasM HydrationJob Unit := do
  let path := normalizeRestorePath logicalPath
  let l ← locals
  match l.recordsByPath.get? path with
  | none => pure ()
  | some record => if record.status = .onlineCached then pure () else hydrateRecord sha256 jobId path record

/-- One group of tapes. -/
def hydrateGroup (sha256 : Bytes → String) (jobId : JobId) (plan : RestorePlan) (group : List Barcode) :
    NasM HydrationJob Unit := do
  checkControlState jobId false
  forEach (fun barcode => forEach (hydratePath sha256 jobId) ((plan.batchesByTape.get? barcode).getD [])) group

/-- What a run that was not interrupted says of the job, and `_finalize_job`. -/
def finalizeJob (jobId : JobId) : NasM HydrationJob Unit := do
  assign fun l => { l with partialSuccess := l.partialSuccess || (0 < l.filesFailed && 0 < l.filesRestored) }
  let l ← locals
  let errorMessage :=
    if l.errors ≠ [] then some ("; ".intercalate l.errors)
    else if l.filesRestored = 0 then some "No files restored"
    else none
  let _ ← nasCall (.updateRestoreJobStatus jobId (if l.filesRestored = 0 then .failed else .completed)
    (some (l.progress l.partialSuccess)) errorMessage)
  pure ()

/-- `_records_for_job`. -/
def recordsForJob (job : NasRestoreJob) : NasM L (List NasFileRecord) :=
  match job.poolId with
  | none => pure []
  | some poolId => do
    let records ← nasCall (.listPoolFileRecords poolId)
    pure (job.selected records)

/-- `_execute`. The plan and the run read the records once each. -/
def executeRestore (sha256 : Bytes → String) (jobId : JobId) : NasM HydrationJob NasRestoreJob := do
  let job ← requireJob jobId
  let planned ← recordsForJob job
  let plan := job.planFromJob planned
  let records ← recordsForJob job
  assign fun _ =>
    { restoreJob := job, filesRestored := job.filesRestored, filesFailed := job.filesFailed
      bytesRestored := job.bytesRestored, partialSuccess := job.partialSuccess
      recordsByPath := Dict.ofPairs (records.map fun record => (normalizeRestorePath record.relativePath, record)) }
  let finished ← handle
    (do
      forEach (hydrateGroup sha256 jobId plan) plan.groups
      pure true)
    fun exc => if exc.isControlSignal then pure false else raise exc
  if finished then finalizeJob jobId else pure ()
  requireJob jobId

/-! ### The requests of the API -/

/-- Start or start again: the job is running, and its counters and its error are those given. -/
def startRestore (sha256 : Bytes → String) (jobId : JobId) (allowed : List RestoreJobStatus) (action : String)
    (start : NasRestoreJob → NasRestoreJob) : NasM HydrationJob NasRestoreJob := do
  let job ← requireJob jobId
  ofExcept (requireStatus job allowed action)
  let _ ← nasCall (.upsertRestoreJob { start job with status := .running })
  executeRestore sha256 jobId

/-- A job from the beginning: nothing restored, nothing failed. -/
def NasRestoreJob.cleared (job : NasRestoreJob) : NasRestoreJob :=
  { job with bytesRestored := 0, filesRestored := 0, filesFailed := 0, partialSuccess := false, errorMessage := none }

/-- `run`. -/
def runRestore (sha256 : Bytes → String) (jobId : JobId) : NasM HydrationJob NasRestoreJob :=
  startRestore sha256 jobId [.queued] "run" NasRestoreJob.cleared

/-- `resume`. -/
def resumeRestore (sha256 : Bytes → String) (jobId : JobId) : NasM HydrationJob NasRestoreJob :=
  startRestore sha256 jobId [.paused] "resume" fun job => { job with errorMessage := none }

/-- `retry`. -/
def retryRestore (sha256 : Bytes → String) (jobId : JobId) : NasM HydrationJob NasRestoreJob :=
  startRestore sha256 jobId [.failed] "retry" NasRestoreJob.cleared

/-- The counters of a job as they were read. -/
def NasRestoreJob.progress (job : NasRestoreJob) : RestoreProgress :=
  { bytesRestored := job.bytesRestored, filesRestored := job.filesRestored, filesFailed := job.filesFailed
    partialSuccess := job.partialSuccess }

/-- `pause`. -/
def pauseRestore (jobId : JobId) : NasM L NasRestoreJob := do
  let job ← requireJob jobId
  ofExcept (requireStatus job [.running] "pause")
  let _ ← nasCall (.updateRestoreJobStatus jobId .paused (some job.progress) job.errorMessage)
  requireJob jobId

/-- `cancel`: the row is written twice. -/
def cancelRestore (jobId : JobId) : NasM L NasRestoreJob := do
  let job ← requireJob jobId
  ofExcept (requireStatus job [.queued, .running, .paused] "cancel")
  let _ ← nasCall (.updateRestoreJobStatus jobId .cancelled (some job.progress) job.errorMessage)
  let cancelled ← requireJob jobId
  nasCall (.upsertRestoreJob { cancelled with partialSuccess := job.partialSuccess })

/-- `DELETE /restore-jobs/{job_id}`. -/
def deleteRestoreJob (jobId : JobId) : NasM L Unit := do
  match ← nasCall (.updateRestoreJobStatus jobId .cancelled none none) with
  | true => pure ()
  | false => raise { cls := .other "HTTPException", message := "Restore job " ++ jobId ++ " not found" }

end OpenBlade
