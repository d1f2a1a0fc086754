import OpenBlade.Jobs.Format
import OpenBlade.Nas.Datasets

/-!
# Ingest of a tape assignment

`_write_assignment` of `nas/ingest.py`: the tape is loaded if need be, formatted on the simulator if it is not, and mounted; its files
are written one by one, and a file that fails is counted and passed over unless the ingest aborts on it.
-/

namespace OpenBlade

open Effects Proc

/-- `_PreparedFile`. -/
structure PreparedFile where
  relativePath : String
  sourcePath : String
  sizeBytes : Nat
  checksumSha256 : String
  mtime : String
  cachePath : Option String := none
  deriving Repr, DecidableEq

/-- What an ingest keeps from file to file. -/
structure IngestLocals where
  currentTape : Option Barcode := none
  /-- By `_prepared_file_key`. -/
  preparedFiles : Dict String PreparedFile := []
  tapePaths : Dict String String := []
  filesProcessed : Nat := 0
  bytesWritten : Nat := 0
  filesFailed : Nat := 0
  errors : List String := []
  deriving Repr, DecidableEq

/-- What `complete_file_archive` answers. -/
structure ArchiveLifecycleResult where
  success : Bool
  errors : List String := []
  deriving Repr, DecidableEq

/-- What an ingest does about a file besides writing it to tape. The kinds of ingest differ in it; none of it moves, mounts or formats
a tape. -/
structure IngestSteps where
  cancelRequested : JobM IngestLocals Bool
  prepareSingleFile : String → TapeAssignment → JobM IngestLocals PreparedFile
  beforeWriteFile : PreparedFile → JobM IngestLocals Unit
  readSourceBytes : PreparedFile → JobM IngestLocals Bytes
  /-- The id of the record. -/
  upsertFileRecord : PreparedFile → Barcode → NasFileState → JobM IngestLocals String
  runLifecycleForFile : String → Barcode → String → JobM IngestLocals ArchiveLifecycleResult
  abortOnFileError : PreparedFile → Exn → Bool
  spares_cancelRequested : Calls (fun o => World.sparesTapes o = true) cancelRequested
  spares_prepareSingleFile : ∀ path assignment, Calls (fun o => World.sparesTapes o = true) (prepareSingleFile path assignment)
  spares_beforeWriteFile : ∀ prepared, Calls (fun o => World.sparesTapes o = true) (beforeWriteFile prepared)
  spares_readSourceBytes : ∀ prepared, Calls (fun o => World.sparesTapes o = true) (readSourceBytes prepared)
  spares_upsertFileRecord : ∀ prepared barcode state,
    Calls (fun o => World.sparesTapes o = true) (upsertFileRecord prepared barcode state)
  spares_runLifecycleForFile : ∀ id barcode path, Calls (fun o => World.sparesTapes o = true) (runLifecycleForFile id barcode path)

/-- An ingest job, as far as it writes an assignment. -/
structure Ingest where
  jobId : JobId
  datasetName : String
  volumeGroupId : Option Nat
  verifyAfterArchive : Bool
  realBackend : Bool
  steps : IngestSteps

def ingestRefused (message : String) : Exn := { cls := .typed "IngestRefusedError", message := message }

/-- `_prepared_file_key`. -/
def preparedFileKey (relativePath : String) (barcode : Barcode) : String := barcode ++ ":" ++ relativePath

variable {L : Type}

/-- The first drive that the inventory shows empty. -/
def LibraryInventory.firstEmptyDrive (inv : LibraryInventory) : Option Int :=
  (inv.drives.find? fun drive => drive.2 = none).map Prod.fst

/-- `_load_if_needed`: the drive the tape is in, and the slot it was taken from. -/
def ingestLoadIfNeeded (barcode : Barcode) : JobM L (Int × Option Nat) := do
  match ← findDriveByBarcode barcode with
  | some driveId => pure (driveId, none)
  | none =>
    match ← findSlotByBarcode barcode with
    | none => raise (valueError ("Tape " ++ barcode ++ " is not present in simulator inventory"))
    | some slotId =>
      let inv ← inventory
      match inv.firstEmptyDrive with
      | none => raise (valueError "No free simulator tape drive is available")
      | some driveId => do
        let _ ← libraryLoad slotId driveId
        pure (driveId, some slotId)

/-- `update_cartridge` of the service, with what a tape shows. -/
def updateCartridge (barcode : Barcode) (volumeGroupId : Option Nat) (tape : TapeContents) : JobM L Unit := do
  let cartridge ← addCartridge barcode volumeGroupId
  saveCartridge { cartridge with
    usedBytes := tape.usedBytes, capacityBytes := tape.capacityBytes, formatted := tape.formatted }

namespace Ingest

variable (ingest : Ingest)

/-- `_check_cancelled`. -/
def checkCancelled : JobM IngestLocals Unit := do
  if ← ingest.steps.cancelRequested then
    raise { cls := .other "IngestCancelledError", message := "Cancelled by user: ingest job " ++ ingest.jobId }
  else pure ()

/-- `_ensure_formatted`: never on real hardware. -/
def ensureFormatted (barcode : Barcode) : JobM L Unit := do
  let tape ← ensureTape barcode
  if tape.formatted then pure ()
  else if ingest.realBackend then
    raise (formatRequiresConfirmation ("Tape " ++ barcode ++
      " is not LTFS-formatted; ingest will not format on real hardware - format it via the two-phase /ltfs/format flow"))
  else do
    let token ← SafetyToken.generate "format" barcode
    let _ ← ltfsFormat barcode { expectedBarcode := barcode, safetyToken := token }
    updateCartridge barcode ingest.volumeGroupId { tape with usedBytes := 0, formatted := true }

/-- `_simulate_tape_write`: the path on the tape. -/
def simulateTapeWrite (mountHandle : MountHandle) (barcode : Barcode) (prepared : PreparedFile) : JobM IngestLocals String := do
  let tapePath := datasetTapePath ingest.datasetName prepared.relativePath
  let content ← ingest.steps.readSourceBytes prepared
  writeFile mountHandle content tapePath
  let tape ← ensureTape barcode
  updateCartridge barcode ingest.volumeGroupId tape
  pure tapePath

/-- `_verify_tape_copy`. -/
def verifyTapeCopy (mountHandle : MountHandle) (tapePath : String) (prepared : PreparedFile) : JobM L Unit :=
  if ingest.verifyAfterArchive = false then pure ()
  else do
    let st ← stat mountHandle tapePath
    if st.checksumSha256 ≠ prepared.checksumSha256 ∨ st.sizeBytes ≠ prepared.sizeBytes then
      raise (ingestRefused ("verification failed for " ++ prepared.relativePath))
    else pure ()

/-- What a lifecycle that failed says. -/
def lifecycleError (result : ArchiveLifecycleResult) (prepared : PreparedFile) : String :=
  let text := "; ".intercalate result.errors
  if text = "" then "archive lifecycle failed for " ++ prepared.relativePath else text

/-- The prepared file, prepared now if it is not. -/
def preparedFile (assignment : TapeAssignment) (relativePath : String) : JobM IngestLocals PreparedFile := do
  let l ← locals
  let key := preparedFileKey relativePath assignment.barcode
  match l.preparedFiles.get? key with
  | some prepared => pure prepared
  | none => do
    let prepared ← ingest.steps.prepareSingleFile relativePath assignment
    assign fun l => { l with preparedFiles := l.preparedFiles.set key prepared }
    pure prepared

/-- The `try` of one file. -/
def writeIngestFile (mountHandle : MountHandle) (barcode : Barcode) (prepared : PreparedFile) : JobM IngestLocals Unit := do
  ingest.steps.beforeWriteFile prepared
  let tapePath ← ingest.simulateTapeWrite mountHandle barcode prepared
  ingest.verifyTapeCopy mountHandle tapePath prepared
  let recordId ← ingest.steps.upsertFileRecord prepared barcode .onlineCached
  let result ← ingest.steps.runLifecycleForFile recordId barcode tapePath
  if result.success = false then raise (ingestRefused (lifecycleError result prepared))
  else
    assign fun l => { l with
      tapePaths := l.tapePaths.set recordId tapePath, filesProcessed := l.filesProcessed + 1
      bytesWritten := l.bytesWritten + prepared.sizeBytes }

/-- Its `except` clause. -/
def failIngestFile (barcode : Barcode) (prepared : PreparedFile) (exc : Exn) : JobM IngestLocals Unit := do
  assign fun l => { l with
    filesFailed := l.filesFailed + 1, errors := l.errors ++ [prepared.relativePath ++ ": " ++ safeJobError exc] }
  let _ ← ingest.steps.upsertFileRecord prepared barcode .failed
  if ingest.steps.abortOnFileError prepared exc then raise exc else pure ()

/-- One pass of the loop over the files. -/
def ingestFile (assignment : TapeAssignment) (mountHandle : MountHandle) (relativePath : String) : JobM IngestLocals Unit := do
  ingest.checkCancelled
  let prepared ← ingest.preparedFile assignment relativePath
  handle (ingest.writeIngestFile mountHandle assignment.barcode prepared) (ingest.failIngestFile assignment.barcode prepared)

/-- `_write_assignment`. -/
def writeAssignment (assignment : TapeAssignment) : JobM IngestLocals Unit := do
  assign fun l => { l with currentTape := some assignment.barcode }
  let (driveId, slotId) ← ingestLoadIfNeeded assignment.barcode
  ingest.ensureFormatted assignment.barcode
  let mountHandle ← mount assignment.barcode .readWrite
  ensure (forEach (ingest.ingestFile assignment mountHandle) assignment.files) fun _ => do
    let _ ← unmount mountHandle
    unloadIfLoaded driveId slotId

end Ingest

end OpenBlade
