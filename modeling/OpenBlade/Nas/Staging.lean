import Mathlib
import OpenBlade.Effects.Holdings
import OpenBlade.Nas.Ingest

/-!
# Staging space

The reservations of cache drives in `nas/ingest.py`, and the run of an ingest as far as it looks at them: the preflight of a
cache-drive ingest looks at what others reserved and, in a second step, records its own reservation; the clean-up releases it,
however the run ends. What else a run does is a call that the environment answers.
-/

namespace OpenBlade

open Effects Proc

/-! ### The reservations -/

/-- `_CACHE_DRIVE_RESERVATIONS`: by drive, what each job has reserved. -/
abbrev StagingReservations := Dict String (Dict JobId Int)

namespace StagingReservations

/-- What is reserved on a drive. -/
def onDrive (s : StagingReservations) (driveId : String) : Dict JobId Int := (Dict.get? s driveId).getD []

/-- `_reserve_cache_drive_bytes`. -/
def reserve (s : StagingReservations) (driveId : String) (jobId : JobId) (bytesRequired : Int) : StagingReservations :=
  Dict.set s driveId (Dict.set (s.onDrive driveId) jobId bytesRequired)

/-- `_release_cache_drive_bytes`. -/
def release (s : StagingReservations) (driveId : String) (jobId : JobId) : StagingReservations :=
  match Dict.get? s driveId with
  | none => s
  | some reservations =>
    let left := Dict.erase reservations jobId
    if left = [] then Dict.erase s driveId else Dict.set s driveId left

/-- `_reserved_cache_drive_bytes(driveId, exclude_job_id=jobId)`. -/
def reserved (s : StagingReservations) (driveId : String) (excludeJobId : JobId) : Int :=
  held (fun e => e.1 ≠ excludeJobId) Prod.snd (s.onDrive driveId)

/-- All that is reserved on a drive. -/
def total (s : StagingReservations) (driveId : String) : Int := held (fun _ => true) Prod.snd (s.onDrive driveId)

end StagingReservations

/-! ### What a run calls -/

/-- A cache drive, as far as its space goes. -/
structure CacheDriveConfig where
  rootPath : String
  maxBytes : Int
  minFreeBytes : Int
  positive : 0 < maxBytes
  nonneg : 0 ≤ minFreeBytes

/-- What the preflight finds where a source file should be. -/
inductive SourceFileState where
  | missing
  | outsideRoot
  | insideRoot
  deriving Repr, DecidableEq

inductive StagingOp where
  | reservedCacheDriveBytes (driveId : String) (excludeJobId : JobId)
  | reserveCacheDriveBytes (driveId : String) (jobId : JobId) (bytesRequired : Int)
  | releaseCacheDriveBytes (driveId : String) (jobId : JobId)
  | prepareFiles
  | cacheRootAvailable (rootPath : String)
  | sourceFile (path : String)
  | sourceStreamPreflight
  | cancelRequested
  | writeAssignment (assignment : TapeAssignment)
  | completeDatasetArchive
  | finalizeJob
  | markDatasetCancelled (error : String)
  | markDatasetFailed (error : String)
  deriving DecidableEq

/-- What a call answers. -/
abbrev StagingOp.Ans : StagingOp → Type
  | .reservedCacheDriveBytes _ _ => Int
  | .prepareFiles => List PreparedFile
  | .cacheRootAvailable _ | .cancelRequested => Bool
  | .sourceFile _ => SourceFileState
  | .sourceStreamPreflight => List String
  | _ => Unit

/-- The calls on the reservations are steps of their own under the lock and do not raise; the environment answers the others. -/
def stagingMachine : Machine StagingReservations StagingOp (fun o => Except Exn o.Ans) (∀ o : StagingOp, Except Exn o.Ans) where
  exec s o c :=
    match o with
    | .reservedCacheDriveBytes driveId jobId => (.ok (s.reserved driveId jobId), s)
    | .reserveCacheDriveBytes driveId jobId bytesRequired => (.ok (), s.reserve driveId jobId bytesRequired)
    | .releaseCacheDriveBytes driveId jobId => (.ok (), s.release driveId jobId)
    | o => (c o, s)

/-! ### The run of an ingest -/

/-- What a run keeps of its job. -/
structure StagingLocals where
  errors : List String := []
  reservedCacheBytes : Int := 0

abbrev StagingM := Proc StagingOp StagingOp.Ans Exn StagingLocals

def stagingCall (o : StagingOp) : StagingM o.Ans := perform o

/-- An ingest; a cache-drive ingest names its drive, a source-stream ingest has none. -/
structure StagingIngest where
  jobId : JobId
  cacheDriveId : Option String
  tapeAssignments : List TapeAssignment := []

/-- The sizes of the prepared files, each source once; every source has to lie under the root of the drive. -/
def sourceBytes (rootPath : String) : List PreparedFile → List String → Int → StagingM Int
  | [], _, totalBytes => pure totalBytes
  | prepared :: rest, seenPaths, totalBytes =>
    if prepared.sourcePath ∈ seenPaths then sourceBytes rootPath rest seenPaths totalBytes
    else do
      match ← stagingCall (.sourceFile prepared.sourcePath) with
      | .missing => raise (ingestRefused ("Cache-drive source file " ++ prepared.sourcePath ++ " is not available"))
      | .outsideRoot =>
        raise (ingestRefused ("Cache-drive source file " ++ prepared.sourcePath ++ " is outside cache root " ++ rootPath))
      | .insideRoot => sourceBytes rootPath rest (prepared.sourcePath :: seenPaths) (totalBytes + prepared.sizeBytes)

/-- `available_bytes` of the preflight. -/
def CacheDriveConfig.availableBytes (drive : CacheDriveConfig) : Int := max (drive.maxBytes - drive.minFreeBytes) 0

/-- `CacheDriveIngest._preflight`. -/
def cacheDrivePreflight (drive : CacheDriveConfig) (driveId : String) (jobId : JobId) (prepared : List PreparedFile) : StagingM Unit := do
  let available ← stagingCall (.cacheRootAvailable drive.rootPath)
  if available = false then raise (ingestRefused ("Cache drive root_path " ++ drive.rootPath ++ " is not available"))
  else do
    let totalBytes ← sourceBytes drive.rootPath prepared [] 0
    let reservedBytes ← stagingCall (.reservedCacheDriveBytes driveId jobId)
    if totalBytes + reservedBytes > drive.availableBytes then
      raise (ingestRefused ("Cache drive " ++ driveId ++ " cannot reserve " ++ toString totalBytes ++ " bytes; " ++
        toString (drive.availableBytes - reservedBytes) ++ " bytes remain within configured budget"))
    else do
      stagingCall (.reserveCacheDriveBytes driveId jobId totalBytes)
      assign fun l => { l with reservedCacheBytes := totalBytes }

/-- The exceptions that `except Exception` lets through. -/
def Exn.passesExcept (exc : Exn) : Bool := exc.cls = .other "KeyboardInterrupt" ∨ exc.cls = .other "SystemExit"

/-- The `except` clauses of `_BaseIngest.run`. -/
def markUnfinished (exc : Exn) : StagingM Unit :=
  if exc.cls = .other "IngestCancelledError" then stagingCall (.markDatasetCancelled exc.message)
  else if exc.passesExcept then raise exc
  else stagingCall (.markDatasetFailed (safeJobError exc))

namespace StagingIngest

variable (drives : String → CacheDriveConfig) (ingest : StagingIngest)

/-- `_preflight`. -/
def preflight (prepared : List PreparedFile) : StagingM Unit :=
  match ingest.cacheDriveId with
  | some driveId => cacheDrivePreflight (drives driveId) driveId ingest.jobId prepared
  | none => do
    let warnings ← stagingCall .sourceStreamPreflight
    assign fun l => { l with errors := l.errors ++ warnings }

/-- One pass of the loop over the assignments. -/
def assignmentStep (assignment : TapeAssignment) : StagingM Unit := do
  let cancelled ← stagingCall .cancelRequested
  if cancelled then
    raise { cls := .other "IngestCancelledError", message := "Cancelled by user: ingest job " ++ ingest.jobId }
  else stagingCall (.writeAssignment assignment)

/-- The `try` of `_BaseIngest.run`. -/
def body : StagingM Unit := do
  let prepared ← stagingCall .prepareFiles
  ingest.preflight drives prepared
  forEach ingest.assignmentStep ingest.tapeAssignments
  stagingCall .completeDatasetArchive
  stagingCall .finalizeJob

/-- `_cleanup`. -/
def cleanup : StagingM Unit :=
  match ingest.cacheDriveId with
  | some driveId => stagingCall (.releaseCacheDriveBytes driveId ingest.jobId)
  | none => pure ()

/-- `_BaseIngest.run`. -/
def run : StagingM Unit := ensure (handle (ingest.body drives) markUnfinished) fun _ => ingest.cleanup

end StagingIngest

end OpenBlade
