import OpenBlade.Jobs.ShardedArchive

/-!
# The archive job

`jobs/archive.py`: files go to one tape at a time, with a further tape whenever the current one has no room. A tape is taken out of
its slot and mounted for its first file, and unmounted and put back when the next tape is due or the files are at an end.
-/

namespace OpenBlade

open Effects Proc

/-- A request, with the files that are found under its source path when the job starts. -/
structure ArchiveRequest where
  sourcePath : String
  /-- `source_path.is_file()`. -/
  sourceIsFile : Bool := false
  files : List SourceFile
  volumeGroupName : String
  dryRun : Bool := false
  deriving Repr, DecidableEq

structure ArchiveResult where
  jobId : JobId
  filesArchived : Nat
  bytesArchived : Nat
  tapesUsed : List Barcode
  errors : List String
  deriving Repr, DecidableEq

/-- The local variables of `run_archive_job`. -/
structure ArchiveLocals where
  currentLease : Option DriveHandle := none
  currentBarcode : Option Barcode := none
  currentHandle : Option MountHandle := none
  /-- The slot the current tape was loaded from; none if it was found in a drive. -/
  currentSlotId : Option Nat := none
  currentDriveId : Option Int := none
  pendingInstanceIds : List Nat := []
  bytesArchived : Nat := 0
  filesArchived : Nat := 0
  tapesUsed : List Barcode := []
  deriving Repr, DecidableEq

def noScratchMedia (message : String) : Exn := { cls := .noScratchMedia, message := message }

/-! ### Choosing a tape -/

/-- `_inventory_barcodes`. -/
def LibraryInventory.sortedBarcodes (inv : LibraryInventory) : List Barcode := inv.barcodes.insertionSort fun a b => a ≤ b

/-- `_is_cleaning_barcode`. -/
def isCleaningBarcode (barcode : Barcode) : Bool := (barcode.toList.take 3).map Char.toUpper = ['C', 'L', 'N']

variable {L : Type}

/-- `_has_room_for`. -/
def tapeHasRoom (barcode : Barcode) (sizeBytes : Nat) : JobM L Bool := do
  let tape ← ensureTape barcode
  pure (hasRoomFor tape.capacityBytes tape.usedBytes sizeBytes)

/-- The tapes of the volume group, one after the other: the first that has room. -/
def chooseAssigned (sizeBytes : Nat) : List Cartridge → JobM L (Option Barcode)
  | [] => pure none
  | cartridge :: cartridges =>
    if isCleaningBarcode cartridge.barcode then chooseAssigned sizeBytes cartridges
    else do
      let room ← tapeHasRoom cartridge.barcode sizeBytes
      if room then pure (some cartridge.barcode) else chooseAssigned sizeBytes cartridges

/-- The tapes of the inventory, one after the other: the first that is free for the volume group and has room joins it. -/
def chooseScratch (vgId sizeBytes : Nat) : List Barcode → JobM L (Option Barcode)
  | [] => pure none
  | barcode :: barcodes =>
    if isCleaningBarcode barcode then chooseScratch vgId sizeBytes barcodes
    else do
      let cartridge ← addCartridge barcode none
      if cartridge.volumeGroupId ∉ [none, some vgId] ∨ cartridge.state = "exported" then chooseScratch vgId sizeBytes barcodes
      else do
        let room ← tapeHasRoom barcode sizeBytes
        if room then do
          saveCartridge { cartridge with volumeGroupId := some vgId }
          pure (some barcode)
        else chooseScratch vgId sizeBytes barcodes

/-- `_choose_tape`. -/
def chooseTape (vgId sizeBytes : Nat) : JobM L Barcode := do
  let cartridges ← listCartridges
  let assigned := cartridges.filter fun cartridge => cartridge.volumeGroupId = some vgId ∧ cartridge.state ≠ "exported"
  match ← chooseAssigned sizeBytes assigned with
  | some barcode => pure barcode
  | none => do
    let inv ← inventory
    match ← chooseScratch vgId sizeBytes inv.sortedBarcodes with
    | some barcode => pure barcode
    | none => raise (noScratchMedia "No scratch media with sufficient capacity is available")

/-! ### The current tape -/

/-- `_load_if_needed`: the drive the cartridge is in, and the slot it was taken from. Nothing asks whether a drive it is found in
awaits reconciliation. -/
def archiveLoadIfNeeded (jobId : JobId) (lane : DriveHandle) : JobM ArchiveLocals (Int × Option Nat) := do
  match ← findDriveByBarcode lane.barcode with
  | some driveId => do
    if driveId ≠ lane.driveId then
      assign fun l => { l with currentLease := l.currentLease.map fun lease => { lease with physicalDriveId := some driveId } }
    else pure ()
    pure (driveId, none)
  | none => do
    match ← findSlotByBarcode lane.barcode with
    | none => raise (noScratchMedia ("Barcode " ++ lane.barcode ++ " not found in inventory"))
    | some slotId => do
      handle
        (do
          let _ ← executeTapeRequest (loadRequest "archive-job" jobId lane.barcode lane.driveId slotId) true
          pure ())
        (fun exc =>
          if exc.cls = .tapeOperationFailed then
            raise (noScratchMedia ("Leased drive " ++ toString lane.driveId ++ " could not load " ++ lane.barcode))
          else raise exc)
      pure (lane.driveId, some slotId)

/-- `release_current_lease`. -/
def releaseCurrentLease (jobId : JobId) (original : Option Exn) : JobM ArchiveLocals Unit := do
  let l ← locals
  match l.currentLease with
  | none => pure ()
  | some lease => do
    assign fun l => { l with currentLease := none }
    releaseDrives [lease] original
    journal jobId "lease_released" [("drive_id", .int lease.driveId), ("barcode", .str lease.barcode)]

/-- `assert current_lease is not None`. -/
def requireLease : Option DriveHandle → JobM L DriveHandle
  | some lease => pure lease
  | none => raise { cls := .assertion, message := "" }

/-- Put the current tape back into its slot, if the job took it out. -/
def putBack (jobId : JobId) (barcode : Barcode) (driveId : Int) : Option Nat → JobM L Unit
  | none => pure ()
  | some slotId => do
    let _ ← executeTapeRequest (unloadRequest "archive-job" jobId barcode driveId slotId) false
    pure ()

/-- `finalize_current_mount`: unmount the current tape, mark its files archived, and put it back. -/
def finalizeCurrentMount (jobId : JobId) (vgId : Nat) : JobM ArchiveLocals Unit := do
  let l ← locals
  match l.currentHandle, l.currentBarcode, l.currentDriveId with
  | some mountHandle, some barcode, some driveId => do
    let lease ← requireLease l.currentLease
    verifyHandle lease
    let _ ← unmount mountHandle
    forEach (fun id => markInstanceArchived id true) l.pendingInstanceIds
    assign fun l => { l with pendingInstanceIds := [] }
    verifyHandle lease
    putBack jobId barcode driveId l.currentSlotId
    amlState
    let cartridge ← addCartridge barcode (some vgId)
    let tape ← ensureTape barcode
    saveCartridge { cartridge with
      usedBytes := tape.usedBytes, capacityBytes := tape.capacityBytes, formatted := tape.formatted
      state := if l.currentSlotId.isSome then "in_slot" else "in_drive" }
    assign fun l => { l with currentBarcode := none, currentHandle := none, currentSlotId := none, currentDriveId := none }
    releaseCurrentLease jobId none
  | _, _, _ => pure ()

/-- Take the next tape: lease a drive, load the tape and mount it. -/
def takeTape (scheduler : DriveScheduler) (jobId : JobId) (barcode : Barcode) : JobM ArchiveLocals Unit := do
  let handles ← acquireDrives scheduler [barcode]
  let lane ← firstHandle handles
  assign fun l => { l with currentLease := some lane }
  journal jobId "lease_acquired" [("drive_id", .int lane.driveId), ("barcode", .str lane.barcode)]
  let (driveId, slotId) ← archiveLoadIfNeeded jobId lane
  assign fun l => { l with currentDriveId := some driveId, currentSlotId := slotId }
  let l ← locals
  let lease ← requireLease l.currentLease
  recordPhysicalDrives [lease]
  amlState
  verifyHandle lease
  let mountHandle ← mount barcode .readWrite
  assign fun l => { l with
    currentHandle := some mountHandle, currentBarcode := some barcode, tapesUsed := l.tapesUsed ++ [barcode] }

/-! ### The job -/

/-- `str(PurePosixPath("/") / volume_group_name / relative)`. -/
def catalogPathOf (request : ArchiveRequest) (file : SourceFile) : Except Exn String :=
  let root := (PurePosixPath.ofString "/").join (.ofString request.volumeGroupName)
  if request.sourceIsFile then .ok (root.join (.ofString file.name)).toString
  else
    match (PurePosixPath.ofString file.path).relativeTo (.ofString request.sourcePath) with
    | some relative => .ok (root.join relative).toString
    | none => .error (valueError (file.path ++ " is not in the subpath of " ++ request.sourcePath))

/-- `assert current_handle is not None`. -/
def requireMount : Option MountHandle → JobM L MountHandle
  | some mountHandle => pure mountHandle
  | none => raise { cls := .assertion, message := "" }

/-- Write one file to the current tape and read it back. -/
def writeArchived (sha256 : Bytes → String) (vgId : Nat) (file : SourceFile) (catalogPath barcode checksum : String)
    (sizeBytes : Nat) : JobM ArchiveLocals Unit := do
  let l ← locals
  let mountHandle ← requireMount l.currentHandle
  let content ← readSource file
  writeFile mountHandle content (posix catalogPath)
  let record ← createFileRecord
    { path := catalogPath, sizeBytes := sizeBytes, checksum := checksum, vgId := vgId, shardCount := some 1, shardIndex := none
      blockSize := none, shardProfile := some "standard", parentId := none }
  let row ← createFileInstance record.id barcode (posix catalogPath)
  let st ← stat mountHandle (posix catalogPath)
  if st.checksumSha256 ≠ checksum ∨ st.sizeBytes ≠ sizeBytes then
    raise { cls := .checksumMismatch, message := "Verification failed for " ++ file.path }
  else
    assign fun l => { l with
      pendingInstanceIds := l.pendingInstanceIds ++ [row.id], bytesArchived := l.bytesArchived + sizeBytes
      filesArchived := l.filesArchived + 1 }

/-- One pass of the loop over the files. -/
def archiveFile (sha256 : Bytes → String) (request : ArchiveRequest) (scheduler : DriveScheduler) (vgId : Nat) (jobId : JobId)
    (file : SourceFile) : JobM ArchiveLocals Unit := do
  let catalogPath ← ofExcept (catalogPathOf request file)
  let checksum ← computeChecksum sha256 file
  let sizeBytes ← sourceSize file
  let barcode ← chooseTape vgId sizeBytes
  let l ← locals
  if some barcode ≠ l.currentBarcode then do
    finalizeCurrentMount jobId vgId
    takeTape scheduler jobId barcode
  else pure ()
  writeArchived sha256 vgId file catalogPath barcode checksum sizeBytes

/-- The body of the `try`. -/
def archiveBody (sha256 : Bytes → String) (request : ArchiveRequest) (scheduler : DriveScheduler) (vgId : Nat) (jobId : JobId) :
    JobM ArchiveLocals Unit := do
  forEach (archiveFile sha256 request scheduler vgId jobId) request.files
  finalizeCurrentMount jobId vgId

/-- The cleanup of `except Exception`: failures of it are logged. -/
def archiveCleanup (jobId : JobId) : JobM ArchiveLocals Unit := do
  let l ← locals
  match l.currentHandle with
  | none => pure ()
  | some mountHandle =>
    handle
      (do
        let _ ← unmount mountHandle
        pure ())
      (fun _ => pure ())
  match l.currentBarcode, l.currentDriveId with
  | some barcode, some driveId => do
    handle (putBack jobId barcode driveId l.currentSlotId) fun _ => pure ()
    handle amlState fun _ => pure ()
  | _, _ => pure ()

/-- The `except` clauses: a job that is fenced out leaves the hardware alone. -/
def archiveExcept (jobId : JobId) (exc : Exn) : JobM ArchiveLocals Unit := do
  if exc.cls = .staleLease then pure () else archiveCleanup jobId
  updateJobState jobId "failed" (some (safeJobError exc))
  raise exc

/-- `run_archive_job`. -/
def runArchiveJob (sha256 : Bytes → String) (request : ArchiveRequest) (scheduler : DriveScheduler) (jobId : JobId) :
    JobM ArchiveLocals ArchiveResult := do
  updateJobState jobId "running" none
  let group ← ensureVolumeGroup request.volumeGroupName
  if request.dryRun ∨ request.files = [] then do
    let sizes ← mapEach sourceSize request.files
    updateJobState jobId "completed" none
    pure { jobId := jobId, filesArchived := request.files.length, bytesArchived := sizes.sum, tapesUsed := [], errors := [] }
  else do
    ensure (handle (archiveBody sha256 request scheduler group.id jobId) (archiveExcept jobId)) (releaseCurrentLease jobId)
    let l ← locals
    updateJobState jobId "completed" none
    pure
      { jobId := jobId, filesArchived := l.filesArchived, bytesArchived := l.bytesArchived, tapesUsed := l.tapesUsed
        errors := [] }

end OpenBlade
