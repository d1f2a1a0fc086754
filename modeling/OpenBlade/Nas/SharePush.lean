import OpenBlade.Nas.Capacity
import OpenBlade.Nas.IngestRun
import OpenBlade.Nas.Staging

/-!
# Pushing staged files to a share

`push_staged_files_to_share` and `_run_share_push_ingest_job` of `api/routes_upload.py`: the selected files are copied into a
workspace, each under a name of its own or one with its id in front; the workspace is planned, booked and ingested; and where the job
ends as archived, the records of all the files are deleted. What a push finds, and what the ingest meets, is data of the push.
-/

namespace OpenBlade

open Effects

/-! ### Names and ids -/

/-- The form of `_UUID4_RE`: `x` is a hexadecimal digit and `y` one of 8, 9, a and b. -/
def uuid4Form : List Char := "xxxxxxxx-xxxx-4xxx-yxxx-xxxxxxxxxxxx".toList

def isHexDigit (c : Char) : Bool := c ∈ "0123456789abcdefABCDEF".toList

/-- A letter of the form. -/
def matchesLetter (form c : Char) : Bool :=
  if form = 'x' then isHexDigit c else if form = 'y' then c ∈ "89abAB".toList else form = c

/-- `_UUID4_RE.match`: before the end of the text, `$` takes a last line feed. -/
def matchesForm : List Char → List Char → Bool
  | [], text => text = [] ∨ text = ['\n']
  | _ :: _, [] => false
  | form :: forms, c :: text => matchesLetter form c && matchesForm forms text

/-- `_validate_file_id`. -/
def validateFileId (fileId : String) : Except RequestFailure String :=
  if matchesForm uuid4Form fileId.toList then .ok fileId else .error (.http 400 "Invalid file_id format")

/-- `_sanitize_filename`. -/
def sanitizeFilename (filename : String) : String :=
  let name := (PurePosixPath.ofString (if filename = "" then "unknown" else filename)).name
  if name = "" then "unknown" else name

/-- `text.strip("/")`. -/
def stripSlashes (text : String) : String := String.ofList ((text.toList.dropWhile (· = '/')).rdropWhile (· = '/'))

/-- `_normalize_target_prefix`. -/
def normalizeTargetPrefix (targetPrefix : String) : Except RequestFailure String :=
  let value := stripSlashes (strip targetPrefix)
  if value = "" then .ok ""
  else
    let parts := (PurePosixPath.ofString value).parts
    if ∃ part ∈ parts, part = ".." ∨ part = "" then .error (.http 400 "target_prefix contains invalid path components")
    else .ok ("/".intercalate parts)

/-- A name under the target prefix. -/
def underPrefix (targetPrefix name : String) : String := if targetPrefix = "" then name else targetPrefix ++ "/" ++ name

/-- Where a file is copied to; where its name is used, its id is put in front, and that name is not looked up. -/
def candidatePath (targetPrefix : String) (usedPaths : List String) (fileId baseName : String) : String :=
  if underPrefix targetPrefix baseName ∈ usedPaths then underPrefix targetPrefix (fileId ++ "-" ++ baseName)
  else underPrefix targetPrefix baseName

/-! ### The request -/

/-- `StoragePolicy`, as far as a push reads it. -/
structure StoragePolicy where
  id : String
  policyType : PolicyType := .balanced
  copiesRequired : Int := 1
  verifyBeforeArchive : Bool := true
  verifyAfterArchive : Bool := true
  shardSizeBytes : Option Int := none
  maxParallelism : Nat := 1
  shardStrategy : Option ShardStrategy := none
  deriving Repr, DecidableEq

/-- What a push asks for and what it finds: the records of the staging dataset, the staged files by id, and the tapes and bookings. -/
structure SharePush where
  poolId : String
  policy : StoragePolicy
  fileIds : List String := []
  targetPrefix : String := ""
  records : List NasFileRecord
  stagedContent : String → Option Bytes
  /-- Copying the file raises. -/
  copying : String → Option Exn := fun _ => none
  /-- The size that is found where a file named ".." was copied to. -/
  straySize : String → Except Exn Int := fun _ => .ok 0
  workspace : String
  absolute : workspace.toList.head? = some '/'
  cartridges : List Cartridge := []
  slots : Option (List (Nat × Option Barcode)) := none
  reservations : ReservationTable := {}
  planId : String := ""
  now : DateTime
  /-- `start_ingest_job` raises. -/
  starting : Option Exn := none

/-- The variables of the copying loop. -/
structure PushStage where
  usedPaths : List String := []
  /-- The files of the workspace, by their path in it. -/
  workspace : Dict String Bytes := []
  relativeFiles : List String := []
  fileSizes : Dict String Int := []
  stagedFileIds : List String := []
  deriving Repr, DecidableEq

namespace SharePush

variable (push : SharePush)

/-- `selected_ids`. -/
def selectedIds : List String :=
  if push.fileIds ≠ [] then push.fileIds
  else (push.records.filter fun record => record.status = .onlineCached).map NasFileRecord.id

/-- `records_by_id`. -/
def recordsById : Dict String NasFileRecord := Dict.ofPairs (push.records.map fun record => (record.id, record))

/-- The checks of one file: its record and its content. -/
def checkStaged (fileId : String) : Except RequestFailure (NasFileRecord × Bytes) := do
  let _ ← validateFileId fileId
  match push.recordsById.get? fileId with
  | none => .error (.http 404 ("File " ++ fileId ++ " not found in pool " ++ push.poolId))
  | some record =>
    if record.poolId.getD "" ≠ push.poolId then .error (.http 400 ("File " ++ fileId ++ " does not belong to pool " ++ push.poolId))
    else if record.status ≠ .onlineCached then .error (.http 400 ("File " ++ fileId ++ " is not pending archive"))
    else
      match push.stagedContent fileId with
      | none => .error (.http 404 ("Staged content for " ++ fileId ++ " was not found"))
      | some content => .ok (record, content)

/-- The copy of a file, and its size. A path that ends in ".." leaves the directory it is in: it is refused where that is the
workspace, and elsewhere no file of the workspace is under it. -/
def copyStaged (targetPrefix path fileId : String) (content : Bytes) (workspace : Dict String Bytes) :
    Except RequestFailure (Int × Dict String Bytes) :=
  match push.copying fileId with
  | some e => .error (.uncaught e)
  | none =>
    if path ≠ underPrefix targetPrefix ".." then .ok (content.length, workspace.set path content)
    else if targetPrefix = "" then .error (.http 400 "Invalid destination path")
    else
      match push.straySize fileId with
      | .error e => .error (.uncaught e)
      | .ok size => .ok (size, workspace)

/-- One pass of the copying loop. -/
def stageFile (targetPrefix : String) (stage : PushStage) (fileId : String) : Except RequestFailure PushStage := do
  let (record, content) ← push.checkStaged fileId
  let path := candidatePath targetPrefix stage.usedPaths fileId (sanitizeFilename record.relativePath)
  let (size, workspace) ← push.copyStaged targetPrefix path fileId content stage.workspace
  .ok
    { usedPaths := path :: stage.usedPaths
      workspace := workspace
      relativeFiles := stage.relativeFiles ++ [path]
      fileSizes := stage.fileSizes.set path (max size 0)
      stagedFileIds := stage.stagedFileIds ++ [fileId] }

/-- The copying loop. -/
def stageFiles (targetPrefix : String) : List String → PushStage → Except RequestFailure PushStage
  | [], stage => .ok stage
  | fileId :: fileIds, stage => do stageFiles targetPrefix fileIds (← push.stageFile targetPrefix stage fileId)

/-- `server_budget_request` over the request of the push, with what is reserved of the pool. -/
def planRequest (upper : String → String) (stage : PushStage) : ArchivePlanRequest :=
  let tapes := serverDataTapes upper push.cartridges push.slots
  { policyId := some push.policy.id
    policyType := some push.policy.policyType
    ingestMode := .sourceStream
    sourcePath := some push.workspace
    pool := some push.poolId
    files := stage.relativeFiles
    fileSizes := stage.fileSizes
    availableTapes := tapes.keys
    tapeCapacities := tapes
    copies := max push.policy.copiesRequired 1
    verifyBeforeArchive := push.policy.verifyBeforeArchive
    verifyAfterArchive := push.policy.verifyAfterArchive
    shardSizeBytes := push.policy.shardSizeBytes
    shardStrategy := push.policy.shardStrategy
    maxParallelism := max push.policy.maxParallelism 1
    poolReservedBytes := push.reservations.reservedBytes push.poolId push.now }

/-- `_plan_share_push`. -/
def planSharePush (text : PlannerText) (stage : PushStage) : Except RequestFailure ArchivePlan :=
  match archivePlan text (push.planRequest text.upper stage) with
  | .error e => .error (.uncaught e)
  | .ok plan =>
    if plan.isSafeToEnqueue = false then
      .error (.http 400 ("Archive plan is not safe to enqueue: " ++ ", ".intercalate plan.enqueueBlockers))
    else .ok plan

/-- The booking of the plan, and the start of its job. -/
def startJob (text : PlannerText) (plan : ArchivePlan) : Except RequestFailure Unit :=
  match (bookPlanCapacity text.upper push.cartridges push.slots push.reservations push.planId plan push.now).1 with
  | .error e => .error (if e.cls = .other "ReservationError" then .http 409 e.message else .uncaught e)
  | .ok () =>
    match push.starting with
    | some e => .error (.uncaught e)
    | none => .ok ()

/-- `push_staged_files_to_share`, from the selection of the files on: the plan of the job that it starts, and its files. -/
def pushStagedFilesToShare (text : PlannerText) : Except RequestFailure (ArchivePlan × PushStage) := do
  if push.selectedIds = [] then .error (.http 400 "No staged files available to push")
  else
    let targetPrefix ← normalizeTargetPrefix push.targetPrefix
    let stage ← push.stageFiles targetPrefix push.selectedIds {}
    let plan ← push.planSharePush text stage
    push.startJob text plan
    .ok (plan, stage)

end SharePush

/-! ### The ingest -/

/-- What a file meets in `_write_assignment`. -/
structure CopyEvents where
  /-- The job is cancelled before it, or what `except Exception` lets through is raised. -/
  stops : Option Exn := none
  fault : WriteFault := .none
  /-- What the write leaves on the tape, if not what was written. -/
  stored : Option Bytes := none
  lifecycleFails : Bool := false
  /-- The record of its failure raises. -/
  recording : Option Exn := none

/-- What an ingest meets, by the number of the assignment and of the file in it. -/
structure IngestEvents where
  /-- A file cannot be prepared, or the source is not available. -/
  preparing : Option Exn := none
  cancelled : Nat → Bool := fun _ => false
  /-- The tape cannot be loaded, formatted or mounted. -/
  opening : Nat → Option Exn := fun _ => none
  file : Nat → Nat → CopyEvents := fun _ _ => {}
  /-- The tape cannot be unmounted or unloaded. -/
  closing : Nat → Option Exn := fun _ => none
  /-- `complete_dataset_archive` raises. -/
  completing : Option Exn := none
  datasetMarkedArchived : Bool := true
  /-- The dataset cannot be read or updated at the end. -/
  finalizing : Option Exn := none
  /-- The dataset cannot be marked as failed or cancelled. -/
  marking : Option Exn := none

/-- A file that was written to a tape: what is there, and whether its lifecycle went through. -/
structure TapeCopy where
  barcode : Barcode
  relativePath : String
  content : Bytes
  archived : Bool
  deriving Repr, DecidableEq

structure PushProgress where
  filesProcessed : Nat := 0
  filesFailed : Nat := 0
  copies : List TapeCopy := []
  deriving Repr, DecidableEq

/-- A loop that ends where a pass raises. -/
def untilRaised {α σ : Type} (f : α → σ → Except Exn Unit × σ) : List α → σ → Except Exn Unit × σ
  | [], s => (.ok (), s)
  | x :: xs, s =>
    match f x s with
    | (.error e, s) => (.error e, s)
    | (.ok (), s) => untilRaised f xs s

/-- The ingest of a push. -/
structure PushIngest where
  assignments : List TapeAssignment
  workspace : Dict String Bytes
  verifyAfterArchive : Bool
  allowPartialDatasetSuccess : Bool
  events : IngestEvents

namespace PushIngest

variable (sha256 : Bytes → String) (ingest : PushIngest)

/-- `_read_source_bytes`; the name of a file that is not there stands for it. -/
def readSourceBytes (relativePath : String) : Bytes :=
  (ingest.workspace.get? relativePath).getD ("simulated:" ++ relativePath).toUTF8.toList

/-- The `try` of a file: whether it is archived, and its copy, if there is one. -/
def writeCopy (events : CopyEvents) (barcode : Barcode) (relativePath : String) : Bool × List TapeCopy :=
  let checksum := sha256 (ingest.readSourceBytes relativePath)
  let content := events.stored.getD (ingest.readSourceBytes relativePath)
  let copy (archived : Bool) : Bool × List TapeCopy := (archived, [{ barcode, relativePath, content, archived }])
  match events.fault with
  | .beforeWrite => (false, [])
  | .afterWrite => copy false
  | .none =>
    -- `_verify_tape_copy`, then the lifecycle, whose first step reads the tape again
    if ingest.verifyAfterArchive ∧ sha256 content ≠ checksum then copy false
    else if sha256 content ≠ checksum then copy false
    else copy !events.lifecycleFails

/-- One pass of the loop over the files. -/
def ingestFile (assignment : Nat) (barcode : Barcode) (file : String × Nat) (progress : PushProgress) :
    Except Exn Unit × PushProgress :=
  let events := ingest.events.file assignment file.2
  match events.stops with
  | some e => (.error e, progress)
  | none =>
    let (archived, copies) := ingest.writeCopy sha256 events barcode file.1
    let progress := { progress with copies := progress.copies ++ copies }
    if archived then (.ok (), { progress with filesProcessed := progress.filesProcessed + 1 })
    else
      let progress := { progress with filesFailed := progress.filesFailed + 1 }
      match events.recording with
      | some e => (.error e, progress)
      | none =>
        if ingest.allowPartialDatasetSuccess then (.ok (), progress)
        else (.error (ingestRefused ("verification failed for " ++ file.1)), progress)

/-- `_write_assignment`, after the check for a cancellation. -/
def writeAssignment (assignment : TapeAssignment × Nat) (progress : PushProgress) : Except Exn Unit × PushProgress :=
  if ingest.events.cancelled assignment.2 then
    (.error { cls := .other "IngestCancelledError", message := "Cancelled by user" }, progress)
  else
    match ingest.events.opening assignment.2 with
    | some e => (.error e, progress)
    | none =>
      let (outcome, progress) :=
        untilRaised (ingest.ingestFile sha256 assignment.2 assignment.1.barcode) assignment.1.files.zipIdx progress
      match ingest.events.closing assignment.2 with
      | some e => (.error e, progress)
      | none => (outcome, progress)

/-- `_prepare_files` and `_preflight`: a file that is not in the workspace is not available. -/
def prepare : Except Exn Unit :=
  match ingest.events.preparing with
  | some e => .error e
  | none =>
    match (ingest.assignments.flatMap TapeAssignment.files).find? fun path => ingest.workspace.get? path = none with
    | some path => .error (ingestRefused ("Source file " ++ path ++ " is not available"))
    | none => .ok ()

/-- `_finalize_job`. -/
def finalizeJob (progress : PushProgress) : Except Exn DatasetStatus :=
  if progress.filesFailed ≠ 0 ∧ progress.filesProcessed = 0 then .ok .failed
  else if progress.filesFailed = 0 ∧ ingest.events.datasetMarkedArchived = false then .ok .failed
  else
    match ingest.events.finalizing with
    | some e => .error e
    | none => .ok .archived

/-- The `try` of `run`. -/
def body : Except Exn DatasetStatus × PushProgress :=
  match ingest.prepare with
  | .error e => (.error e, {})
  | .ok () =>
    match untilRaised (ingest.writeAssignment sha256) ingest.assignments.zipIdx {} with
    | (.error e, progress) => (.error e, progress)
    | (.ok (), progress) =>
      match ingest.events.completing with
      | some e => (.error e, progress)
      | none => (ingest.finalizeJob progress, progress)

/-- `run`: the status of the job at its end. -/
def run : Except Exn DatasetStatus × PushProgress :=
  match ingest.body sha256 with
  | (.ok status, progress) => (.ok status, progress)
  | (.error e, progress) =>
    if e.cls ≠ .other "IngestCancelledError" ∧ e.passesExcept then (.error e, progress)
    else
      match ingest.events.marking with
      | some e => (.error e, progress)
      | none => (.ok (if e.cls = .other "IngestCancelledError" then .cancelled else .failed), progress)

end PushIngest

/-! ### The job of a push -/

/-- A push whose job has ended: its files, what was written to tape, and the records that the staging dataset has left. -/
structure PushEnd where
  stage : PushStage
  copies : List TapeCopy
  records : List NasFileRecord

/-- What the job of a push meets: its ingest, and how many of the records are deleted before the catalog raises. -/
structure PushJob where
  allowPartialDatasetSuccess : Bool := false
  events : IngestEvents := {}
  deletions : Option Nat := none

namespace PushJob

/-- The records that the job deletes where its ingest is archived. -/
def deletedIds (job : PushJob) (stagedFileIds : List String) : List String :=
  match job.deletions with
  | some n => stagedFileIds.take n
  | none => stagedFileIds

/-- The ingest of the job. -/
def ingest (job : PushJob) (plan : ArchivePlan) (stage : PushStage) : PushIngest :=
  { assignments := plan.tapeAssignments
    workspace := stage.workspace
    verifyAfterArchive := plan.verifyAfterArchive
    allowPartialDatasetSuccess := job.allowPartialDatasetSuccess
    events := job.events }

/-- `_run_share_push_ingest_job`. -/
def runSharePushIngestJob (sha256 : Bytes → String) (job : PushJob) (records : List NasFileRecord) (plan : ArchivePlan)
    (stage : PushStage) : PushEnd :=
  let (status, progress) := (job.ingest plan stage).run sha256
  { stage := stage
    copies := progress.copies
    records :=
      match status with
      | .ok .archived => records.filter fun record => record.id ∉ job.deletedIds stage.stagedFileIds
      | _ => records }

end PushJob

/-- A push and its job. -/
def SharePush.run (sha256 : Bytes → String) (text : PlannerText) (push : SharePush) (job : PushJob) : Except RequestFailure PushEnd :=
  (push.pushStagedFilesToShare text).map fun (plan, stage) => job.runSharePushIngestJob sha256 push.records plan stage

end OpenBlade
