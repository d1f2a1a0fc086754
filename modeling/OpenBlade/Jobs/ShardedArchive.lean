import OpenBlade.Effects.Lanes
import OpenBlade.Jobs.Scheduler
import OpenBlade.Jobs.Shard
import OpenBlade.Nas.TapeOrchestrator

/-!
# The sharded archive job

`jobs/sharded_archive.py`: files go to several tapes at once, whole (`STRIPE`) or split (`BLOCK_STRIPE`). A batch stages its
instances, writes and reads back in parallel, unmounts and unloads, reconciles the inventory and commits once.
-/

namespace OpenBlade

open Effects Proc

/-- A request, with the files that are found under its source path when the job starts. -/
structure ShardedArchiveRequest where
  sourcePath : String
  files : List SourceFile
  volumeGroupName : String
  laneBarcodes : List Barcode
  mode : ShardMode := .stripe
  blockSize : Nat := 134217728
  dryRun : Bool := false
  deriving Repr, DecidableEq

structure ShardedArchiveResult where
  jobId : JobId
  filesArchived : Nat
  bytesArchived : Nat
  tapesUsed : List Barcode
  shardGroupIds : List String
  errors : List String
  deriving Repr, DecidableEq

/-- `_shard_record_path`. -/
def shardRecordPath (sourceFile : String) (shardIndex : Nat) : String := sourceFile ++ "#shard" ++ pad4 shardIndex

/-- `_stripe_tape_path`: the path of the file relative to the source root, under `/stripe`. -/
def stripeTapePath (sourceFile sourceRoot : String) : String :=
  let filePath := PurePosixPath.ofString (normpath sourceFile)
  let root := PurePosixPath.ofString (normpath sourceRoot)
  let byName : PurePosixPath := { root := "", parts := (PurePosixPath.ofString filePath.name).parts }
  let relative := if filePath = root then byName else (filePath.relativeTo root).getD byName
  let parts := relative.parts.filter fun part => part ≠ "" ∧ part ≠ "." ∧ part ≠ ".." ∧ part ≠ "/"
  let parts := if parts = [] then [filePath.name] else parts
  (parts.foldl (fun path part => path.join (.ofString part)) (PurePosixPath.ofString "/stripe")).toString

/-- `_require_lane_room`. -/
def requireLaneRoom {L : Type} (barcode : Barcode) (sizeBytes : Nat) : JobM L Unit := do
  let tape ← ensureTape barcode
  if hasRoomFor tape.capacityBytes tape.usedBytes sizeBytes then pure ()
  else
    raise { cls := .tapeFull
            message := "Tape " ++ barcode ++ " has no room for " ++ toString sizeBytes ++
              " more bytes (including the LTFS index reserve)" }

theorem looks_requireLaneRoom {L : Type} (barcode : Barcode) (sizeBytes : Nat) :
    Looks (requireLaneRoom barcode sizeBytes : JobM L Unit) := by
  refine only_bind (only_perform rfl) fun tape => ?_
  split
  · exact only_pure ()
  · exact only_raise _

def jobErrorMaxChars : Nat := 2000

/-- `_summarize_errors`. -/
def summarizeErrors (errors : List String) : Option String :=
  if errors = [] then none
  else
    let distinct := Dict.fromKeys errors
    let summary := toString errors.length ++ " shard batch failure(s); " ++ toString distinct.length ++ " distinct: " ++
      " | ".intercalate distinct
    if jobErrorMaxChars < summary.length then
      some (String.ofList (summary.toList.take (jobErrorMaxChars - 3)) ++ "...")
    else some summary

def physicalStateUnknownText : String := "physical state unknown — reconcile before reuse"

/-- `_job_error`. -/
def jobError (exc : Exn) : String :=
  if exc.cls = .tapePhysicalState then physicalStateUnknownText else safeJobError exc

/-! ### Cleaning up -/

/-- The UNLOAD request of a lane. -/
def unloadRequest (requestedBy : String) (jobId : JobId) (barcode : Barcode) (driveId : Int) (slotId : Nat) : TapeOpRequest :=
  { opType := .unload, barcode := barcode, driveId := some driveId, slotId := some slotId, requestedBy := requestedBy
    jobId := some jobId }

/-- The LOAD request of a lane. -/
def loadRequest (requestedBy : String) (jobId : JobId) (barcode : Barcode) (driveId : Int) (slotId : Nat) : TapeOpRequest :=
  { opType := .load, barcode := barcode, driveId := some driveId, slotId := some slotId, requestedBy := requestedBy
    jobId := some jobId }

/-- The slot to put a lane's cartridge back into; none if the job did not load it. -/
def LaneLocals.slotOf (l : LaneLocals) (handle : DriveHandle) : Option Nat :=
  (l.loadedSlots.get? handle.physical).join

/-- One unmount of `_clean_unmount_and_unload`: the barcode that stays mounted and the failure, if any. -/
def cleanUnmount (entry : Barcode × MountHandle) : JobM LaneLocals (Option (Barcode × String)) :=
  handle
    (do
      let _ ← unmount entry.2
      assign fun l => { l with mounts := l.mounts.erase entry.1 }
      pure none)
    (fun exc => pure (some (entry.1, "unmount " ++ entry.1 ++ ": " ++ exc.cls.name)))

/-- One unload of `_clean_unmount_and_unload`: the failure, if any. -/
def cleanUnload (jobId : JobId) (stillMounted : List Barcode) (lane : DriveHandle) : JobM LaneLocals (Option String) := do
  let l ← locals
  match l.slotOf lane with
  | none => pure none
  | some slotId =>
    if lane.barcode ∈ stillMounted then pure (some ("unload " ++ lane.barcode ++ ": skipped, unmount failed"))
    else
      handle
        (do
          let _ ← executeTapeRequest (unloadRequest "sharded-archive" jobId lane.barcode lane.physical slotId) true
          assign fun l => { l with loadedSlots := l.loadedSlots.erase lane.physical }
          pure none)
        (fun exc => pure (some ("unload " ++ lane.barcode ++ ": " ++ exc.cls.name)))

/-- `_clean_unmount_and_unload`. -/
def cleanUnmountAndUnload (jobId : JobId) : JobM LaneLocals Unit := do
  let l ← locals
  let unmounts ← mapEach cleanUnmount l.mounts
  let failed := unmounts.filterMap id
  let unloads ← mapEach (cleanUnload jobId (failed.map Prod.fst)) l.handles
  let failures := failed.map Prod.snd ++ unloads.filterMap id
  if failures ≠ [] then
    raise { cls := .tapePhysicalState
            message := "shards written but physical state is unknown (reconcile required): " ++ "; ".intercalate failures }
  else pure ()

/-- `_journal_failure`; a transaction that failed has nothing left to roll back. -/
def journalFailure (jobId : JobId) (event : String) (detail : JsonObject) : JobM LaneLocals Unit :=
  handle (journal jobId event detail) fun _ => pure ()

/-- The handles a failed operation on a barcode or a drive concerns. -/
def matchedHandles (handles : List DriveHandle) (barcode : Barcode) (drive : Option Int) : List DriveHandle :=
  handles.filter fun handle => handle.barcode = barcode ∨ drive = some handle.driveId ∨ drive = some handle.physical

def jsonOfInt? : Option Int → JsonValue
  | none => .null
  | some i => .int i

/-- The detail of a `physical_state_unknown` entry. -/
def physicalStateDetail (op : String) (barcode : Barcode) (drive : Option Int) : JsonObject :=
  [("op", .str op), ("barcode", .str barcode), ("drive", jsonOfInt? drive)]

/-- `record_physical_state_unknown`: journal it, or hold the leases it concerns. -/
def recordPhysicalStateUnknown (jobId : JobId) (op : String) (barcode : Barcode) (drive : Option Int) :
    JobM LaneLocals Unit :=
  handle (journalDurable jobId physicalStateUnknown (physicalStateDetail op barcode drive)) fun _ => do
    let l ← locals
    let matched := matchedHandles l.handles barcode drive
    if matched = [] then
      raise { cls := .journalWrite, message := "physical_state_unknown for " ++ barcode ++ " could not be journaled" }
    else
      assign fun l => { l with handles := l.handles.map fun handle =>
        if handle ∈ matched then { handle with holdUnjournaled := true } else handle }

/-- The drive a barcode is in, by the handles. -/
def driveByBarcode (handles : List DriveHandle) (barcode : Barcode) : Option Int :=
  (handles.reverse.find? fun handle => handle.barcode = barcode).map DriveHandle.physical

/-- One unmount of `_best_effort_unmount_and_unload`: the barcode, if it failed. -/
def bestEffortUnmount (jobId : JobId) (entry : Barcode × MountHandle) : JobM LaneLocals (Option Barcode) :=
  handle
    (do
      let _ ← unmount entry.2
      pure none)
    (fun _ => do
      let l ← locals
      recordPhysicalStateUnknown jobId "unmount" entry.1 (driveByBarcode l.handles entry.1)
      pure (some entry.1))

/-- One unload of `_best_effort_unmount_and_unload`: whether it failed. -/
def bestEffortUnload (jobId : JobId) (stillMounted : List Barcode) (lane : DriveHandle) : JobM LaneLocals Bool := do
  let l ← locals
  match l.slotOf lane with
  | none => pure false
  | some slotId =>
    if lane.barcode ∈ stillMounted then pure false
    else
      handle
        (do
          let _ ← executeTapeRequest (unloadRequest "sharded-archive" jobId lane.barcode lane.physical slotId) false
          pure false)
        (fun _ => do
          recordPhysicalStateUnknown jobId "unload" lane.barcode (some lane.physical)
          pure true)

/-- `_best_effort_unmount_and_unload`; `collect` tells whether a failure may become the job error. -/
def bestEffortUnmountAndUnload (jobId : JobId) (collect : Bool) : JobM LaneLocals Unit := do
  let l ← locals
  let unmounts ← mapEach (bestEffortUnmount jobId) l.mounts
  let stillMounted := unmounts.filterMap id
  let unloads ← mapEach (bestEffortUnload jobId stillMounted) l.handles
  let failed := stillMounted ≠ [] ∨ true ∈ unloads
  if failed ∧ collect then
    assign fun l => if l.errors = [] then { l with errors := [physicalStateUnknownText] } else l
  else pure ()

/-! ### Loading, staging, committing -/

/-- `_load_barcode`: the drive the cartridge is in, and the slot it was taken from. -/
def loadBarcode (jobId : JobId) (lane : DriveHandle) : JobM LaneLocals (Int × Option Nat) := do
  match ← findDriveByBarcode lane.barcode with
  | some loadedDriveId => do
    ensureDriveReconciled loadedDriveId lane.barcode
    if loadedDriveId ≠ lane.driveId then
      assign fun l => l.updateHandle lane.leaseId fun handle => { handle with physicalDriveId := some loadedDriveId }
    else pure ()
    pure (loadedDriveId, none)
  | none => do
    let inv ← inventory
    match inv.slots.find? fun slot => slot.2 = some lane.barcode with
    | none => raise (valueError ("Barcode " ++ lane.barcode ++ " not found in any slot"))
    | some slot => do
      ensureDriveReconciled lane.driveId lane.barcode
      let _ ← executeTapeRequest (loadRequest "sharded-archive" jobId lane.barcode lane.driveId slot.1) true
      pure (lane.driveId, some slot.1)

/-- Load the cartridges of all handles, record the drives they are in, and mount them. -/
def loadAndMount (jobId : JobId) (mode : MountMode) : JobM LaneLocals Unit := do
  let l ← locals
  forEach (fun lane => do
    let (driveId, slotId) ← loadBarcode jobId lane
    assign fun l => { l with loadedSlots := l.loadedSlots.set driveId slotId }) l.handles
  let l ← locals
  recordPhysicalDrives l.handles
  forEach (fun lane => do
    verifyHandle lane
    let mountHandle ← mount lane.barcode mode
    assign fun l => { l with mounts := l.mounts.set lane.barcode mountHandle }) l.handles

/-- `scheduler.verify` for every handle. -/
def verifyHandles : JobM LaneLocals Unit := do
  let l ← locals
  forEach verifyHandle l.handles

/-- `_mark_verifying`. -/
def markVerifying (jobId : JobId) (stagedIds : List Nat) : JobM LaneLocals Unit := do
  journal jobId "verify_started" [("instances", .int stagedIds.length)]
  markInstancesVerifying stagedIds
  journal jobId "verify_finished" [("instances", .int stagedIds.length)]

/-- The barcodes an inventory shows. -/
def LibraryInventory.barcodes (inv : LibraryInventory) : List Barcode :=
  inv.slots.filterMap Prod.snd ++ inv.drives.filterMap Prod.snd

/-- `_commit_staged`: the inventory must show every tape, then one commit. -/
def commitStaged (jobId : JobId) (stagedIds : List Nat) : JobM LaneLocals Unit := do
  let l ← locals
  let inv ← inventory
  let missing := ((l.handles.map DriveHandle.barcode).filter fun barcode => barcode ∉ inv.barcodes).insertionSort (· ≤ ·)
  if missing ≠ [] then
    raise { cls := .tapePhysicalState, message := "inventory does not show " ++ ", ".intercalate missing }
  else do
    markInstancesArchived stagedIds true
    journal jobId "committed" [("instances", .int stagedIds.length)]

/-- One whole write: where a file or a shard goes, and the checksum its read-back must have. -/
structure PlannedWrite where
  barcode : Barcode
  tapePath : String
  content : Bytes
  checksum : String
  mismatch : String
  /-- The source file, for a whole file. -/
  source : Option SourceFile := none
  deriving Repr, DecidableEq

/-- The steps of a lane: capacity, write, read-back. -/
inductive LanePhase where
  | room
  | write
  | check
  deriving Repr, DecidableEq

/-- The bytes a lane needs: those of the source file, or of the shard. -/
def PlannedWrite.size (w : PlannedWrite) : JobM LaneLocals Nat :=
  match w.source with
  | some file => sourceSize file
  | none => pure w.content.length

/-- `_write_one`, and `_write_shard`, step by step. -/
def laneStep : LanePhase → PlannedWrite → JobM LaneLocals Unit
  | .room, w => do
    let size ← w.size
    requireLaneRoom w.barcode size
  | .write, w => do
    let l ← locals
    match l.mounts.get? w.barcode with
    | none => raise { cls := .keyError, message := w.barcode }
    | some mountHandle => writeFile mountHandle w.content (posix w.tapePath)
  | .check, w => do
    let l ← locals
    match l.mounts.get? w.barcode with
    | none => raise { cls := .keyError, message := w.barcode }
    | some mountHandle => do
      let st ← stat mountHandle (posix w.tapePath)
      if st.checksumSha256 ≠ w.checksum then raise (valueError w.mismatch) else pure ()

theorem looks_laneRoom (w : PlannedWrite) : Looks (laneStep .room w) := by
  refine only_bind ?_ fun size => looks_requireLaneRoom w.barcode size
  unfold PlannedWrite.size
  cases w.source with
  | some file => exact looks_sourceSize file
  | none => exact only_pure _

/-- Write and read back in parallel. -/
def writeLanes (writes : List PlannedWrite) : JobM LaneLocals Unit :=
  inLanes pick [.room, .write, .check] laneStep writes

/-- What follows when every lane has written and read back: verify, unmount, unload, commit. -/
def finishBatch (scheduler : DriveScheduler) (jobId : JobId) (stagedIds : List Nat) : JobM LaneLocals Unit := do
  markVerifying jobId stagedIds
  let l ← locals
  heartbeat scheduler l.handles
  verifyHandles
  cleanUnmountAndUnload jobId
  commitStaged jobId stagedIds

/-! ### STRIPE -/

/-- The batches of `_archive_stripe`: files go round the lanes, and a batch is one turn. -/
def stripeBatches (laneBarcodes : List Barcode) :
    Nat → List (SourceFile × Barcode) → List SourceFile → List (List (SourceFile × Barcode))
  | _, current, [] => if current = [] then [] else [current]
  | index, current, file :: files =>
    let current := current ++ [(file, laneBarcodes.getD (index % laneBarcodes.length) "")]
    if current.length = laneBarcodes.length then current :: stripeBatches laneBarcodes (index + 1) [] files
    else stripeBatches laneBarcodes (index + 1) current files

/-- Stage one file of a batch: its record and instance, and those of its only shard. -/
def stageStripe (sha256 : Bytes → String) (request : ShardedArchiveRequest) (vgId : Nat) (jobId : JobId)
    (item : SourceFile × Barcode) : JobM LaneLocals (PlannedWrite × List Nat) := do
  let (file, barcode) := item
  let tapePath := stripeTapePath file.path request.sourcePath
  let checksum ← computeChecksum sha256 file
  let sizeBytes ← sourceSize file
  let fileRecord ← createFileRecord
    { path := file.path, sizeBytes := sizeBytes, checksum := checksum, vgId := vgId, shardCount := some 1
      shardIndex := none, blockSize := none, shardProfile := some request.mode.value, parentId := none }
  let fileInstance ← createStagedInstance jobId fileRecord.id barcode tapePath
  let shardRecord ← createFileRecord
    { path := shardRecordPath file.path 0, sizeBytes := sizeBytes, checksum := checksum, vgId := vgId
      shardCount := some 1, shardIndex := some 0, blockSize := none, shardProfile := some request.mode.value
      parentId := some fileRecord.id }
  let shardInstance ← createStagedInstance jobId shardRecord.id barcode tapePath
  let groupId ← uuid4
  assign fun l => { l with shardGroupIds := l.shardGroupIds ++ [groupId] }
  pure ({ barcode := barcode, tapePath := tapePath, content := file.content, checksum := checksum
          mismatch := "Checksum mismatch: " ++ file.name, source := some file }, [fileInstance.id, shardInstance.id])

/-- The body of the `try` of a batch. -/
def stripeBody (sha256 : Bytes → String) (request : ShardedArchiveRequest) (scheduler : DriveScheduler) (vgId : Nat)
    (jobId : JobId) (batch : List (SourceFile × Barcode)) : JobM LaneLocals Unit := do
  loadAndMount jobId .readWrite
  let staged ← mapEach (stageStripe sha256 request vgId jobId) batch
  verifyHandles
  writeLanes (staged.map Prod.fst)
  finishBatch scheduler jobId (staged.flatMap Prod.snd)
  assign fun l => { l with
    filesArchived := l.filesArchived + batch.length
    bytesArchived := l.bytesArchived + (batch.map fun item => item.1.sizeBytes).sum }

/-- The `except` clauses of a batch: fenced out, or failed. -/
def stripeExcept (jobId : JobId) (barcodes : List Barcode) (exc : Exn) : JobM LaneLocals Unit :=
  if exc.cls = .staleLease then do
    assign fun l => { l with fencedOut := true }
    journalFailure jobId "fenced_out" [("barcodes", .strs barcodes)]
    raise exc
  else do
    journalFailure jobId "failed" [("error", .str exc.cls.name)]
    assign fun l => { l with errors := l.errors ++ [jobError exc] }

/-- The `finally` clause of a batch. -/
def stripeFinally (jobId : JobId) (original : Option Exn) : JobM LaneLocals Unit := do
  let l ← locals
  if l.fencedOut then pure () else bestEffortUnmountAndUnload jobId true
  let l ← locals
  handle (releaseDrives l.handles original) fun releaseExc =>
    if releaseExc.cls = .journalWrite ∧ l.errors ≠ [] then
      raise { cls := .journalWrite
              message := releaseExc.message ++ "; original failure: " ++ (summarizeErrors l.errors).getD "None" }
    else raise releaseExc

/-- A batch starts with the handles it acquired and nothing mounted or loaded. -/
def LaneLocals.startBatch (l : LaneLocals) (handles : List DriveHandle) : LaneLocals :=
  { l with handles := handles, mounts := [], loadedSlots := [], fencedOut := false }

/-- One batch of `_archive_stripe`. -/
def stripeBatch (sha256 : Bytes → String) (request : ShardedArchiveRequest) (scheduler : DriveScheduler) (vgId : Nat)
    (jobId : JobId) (batch : List (SourceFile × Barcode)) : JobM LaneLocals Unit := do
  let barcodes := Dict.fromKeys (batch.map Prod.snd)
  let handles ← acquireDrives scheduler barcodes
  journal jobId "lease_acquired" [("barcodes", .strs barcodes)]
  assign fun l => l.startBatch handles
  ensure
    (handle (stripeBody sha256 request scheduler vgId jobId batch) (stripeExcept jobId barcodes))
    (stripeFinally jobId)

/-- `_archive_stripe`. -/
def archiveStripe (sha256 : Bytes → String) (request : ShardedArchiveRequest) (scheduler : DriveScheduler) (vgId : Nat)
    (jobId : JobId) : JobM LaneLocals Unit :=
  if request.laneBarcodes = [] then raise { cls := .zeroDivision, message := "integer modulo by zero" }
  else forEach (stripeBatch sha256 request scheduler vgId jobId) (stripeBatches request.laneBarcodes 0 [] request.files)

/-! ### BLOCK_STRIPE -/

/-- Stage one shard of a file: an instance of the file, and the record and instance of the shard. -/
def stageShard (sha256 : Bytes → String) (request : ShardedArchiveRequest) (vgId : Nat) (jobId : JobId) (plan : ShardPlan)
    (fileRecordId : Nat) (shard : ShardSpec × Bytes) : JobM LaneLocals (PlannedWrite × List Nat) := do
  let (spec, content) := shard
  let fileInstance ← createStagedInstance jobId fileRecordId spec.barcode spec.tapePath
  let shardRecord ← createFileRecord
    { path := shardRecordPath plan.source.path spec.shardIndex, sizeBytes := content.length, checksum := sha256 content
      vgId := vgId, shardCount := some plan.shards.length, shardIndex := some spec.shardIndex
      blockSize := some request.blockSize, shardProfile := some request.mode.value, parentId := some fileRecordId }
  let shardInstance ← createStagedInstance jobId shardRecord.id spec.barcode spec.tapePath
  pure ({ barcode := spec.barcode, tapePath := spec.tapePath, content := content, checksum := sha256 content
          mismatch := "Shard " ++ toString spec.shardIndex ++ " checksum mismatch" }, [fileInstance.id, shardInstance.id])

/-- The only step of a thread that extracts a shard. -/
def extractShard (request : ShardedArchiveRequest) (plan : ShardPlan) (_ : Unit) (spec : ShardSpec) : JobM LaneLocals Unit := do
  let _ ← writeShardToTempfile plan.source spec.shardIndex plan.shards.length request.blockSize
  pure ()

/-- The content of the temporary file of a shard. -/
def ShardPlan.shardContent (plan : ShardPlan) (blockSize : Nat) (spec : ShardSpec) : Bytes :=
  OpenBlade.shardContent plan.source.content spec.shardIndex plan.shards.length blockSize

/-- The body of the `try` of a block-striped file. -/
def blockStripeBody (sha256 : Bytes → String) (request : ShardedArchiveRequest) (scheduler : DriveScheduler) (vgId : Nat)
    (jobId : JobId) (plan : ShardPlan) : JobM LaneLocals Unit := do
  loadAndMount jobId .readWrite
  inLanes pick [()] (extractShard request plan) plan.shards
  scratch
  let fileRecord ← createFileRecord
    { path := plan.source.path, sizeBytes := plan.fileSize, checksum := plan.checksumSha256, vgId := vgId
      shardCount := some plan.shards.length, shardIndex := none, blockSize := some request.blockSize
      shardProfile := some request.mode.value, parentId := none }
  let staged ← mapEach (stageShard sha256 request vgId jobId plan fileRecord.id)
    (plan.shards.map fun spec => (spec, plan.shardContent request.blockSize spec))
  verifyHandles
  writeLanes (staged.map Prod.fst)
  finishBatch scheduler jobId (staged.flatMap Prod.snd)

/-- The `except` clauses of a block-striped file. -/
def blockStripeExcept (jobId : JobId) (barcodes : List Barcode) (exc : Exn) : JobM LaneLocals Unit :=
  if exc.cls = .staleLease then do
    assign fun l => { l with fencedOut := true }
    journalFailure jobId "fenced_out" [("barcodes", .strs barcodes)]
    raise exc
  else do
    journalFailure jobId "failed" [("error", .str exc.cls.name)]
    raise exc

/-- The `finally` clause of a block-striped file. -/
def blockStripeFinally (jobId : JobId) (original : Option Exn) : JobM LaneLocals Unit := do
  let l ← locals
  if l.fencedOut then pure () else bestEffortUnmountAndUnload jobId false
  let l ← locals
  releaseDrives l.handles original

/-- `_archive_block_stripe`. -/
def archiveBlockStripe (sha256 : Bytes → String) (request : ShardedArchiveRequest) (scheduler : DriveScheduler) (vgId : Nat)
    (jobId : JobId) (file : SourceFile) : JobM LaneLocals Unit := do
  let plan ← planBlockStripe sha256 file request.laneBarcodes "/block_stripe" request.blockSize
  assign fun l => { l with shardGroupIds := l.shardGroupIds ++ [plan.shardGroupId] }
  let handles ← acquireDrives scheduler request.laneBarcodes
  journal jobId "lease_acquired" [("barcodes", .strs request.laneBarcodes)]
  assign fun l => l.startBatch handles
  scratch
  ensure
    (handle (blockStripeBody sha256 request scheduler vgId jobId plan) (blockStripeExcept jobId request.laneBarcodes))
    (blockStripeFinally jobId)

/-! ### The job -/

/-- Every file of a `BLOCK_STRIPE` request, each with its failure collected. -/
def archiveBlockStriped (sha256 : Bytes → String) (request : ShardedArchiveRequest) (scheduler : DriveScheduler)
    (vgId : Nat) (jobId : JobId) (file : SourceFile) : JobM LaneLocals Unit :=
  handle
    (do
      archiveBlockStripe sha256 request scheduler vgId jobId file
      let size ← sourceSize file
      assign fun l => { l with bytesArchived := l.bytesArchived + size, filesArchived := l.filesArchived + 1 })
    (fun exc => assign fun l => { l with errors := l.errors ++ [jobError exc] })

/-- The volume group of a request, made if it is new. -/
def ensureVolumeGroup {L : Type} (name : String) : JobM L VolumeGroup := do
  match ← getVolumeGroup name with
  | some group => pure group
  | none => createVolumeGroup name

/-- Lanes without a cartridge row get one. -/
def ensureCartridge {L : Type} (vgId : Nat) (barcode : Barcode) : JobM L Unit := do
  match ← getCartridge barcode with
  | some _ => pure ()
  | none => do
    let _ ← addCartridge barcode (some vgId)
    pure ()

def ShardedArchiveRequest.usesBlockStripe (request : ShardedArchiveRequest) : Bool :=
  request.mode = .blockStripe && 2 ≤ request.laneBarcodes.length

/-- `run_sharded_archive`. -/
def runShardedArchive (sha256 : Bytes → String) (request : ShardedArchiveRequest) (scheduler : DriveScheduler)
    (jobId : JobId) : JobM LaneLocals ShardedArchiveResult := do
  updateJobState jobId "running" none
  if request.dryRun ∨ request.files = [] then do
    let sizes ← mapEach sourceSize request.files
    updateJobState jobId "completed" none
    pure
      { jobId := jobId, filesArchived := request.files.length, bytesArchived := sizes.sum, tapesUsed := request.laneBarcodes
        shardGroupIds := [], errors := [] }
  else do
    let group ← ensureVolumeGroup request.volumeGroupName
    forEach (ensureCartridge group.id) request.laneBarcodes
    scratch
    if request.usesBlockStripe then
      forEach (archiveBlockStriped sha256 request scheduler group.id jobId) request.files
    else archiveStripe sha256 request scheduler group.id jobId
    let l ← locals
    updateJobState jobId (if l.errors = [] then "completed" else "failed_recoverable") (summarizeErrors l.errors)
    pure
      { jobId := jobId, filesArchived := l.filesArchived, bytesArchived := l.bytesArchived
        tapesUsed := request.laneBarcodes, shardGroupIds := l.shardGroupIds, errors := l.errors }

end OpenBlade
