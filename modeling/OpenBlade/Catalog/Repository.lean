import Mathlib
import OpenBlade.Jobs.LeaseStore
import OpenBlade.Nas.Types

/-!
# The catalog

The rows and methods of `catalog/repository.py` that the tape jobs use. A table is a list in insertion order; the `uuid4` keys of
rows are numbered in the order they are drawn; a method that commits is one atomic step, at the clock reading it is given.
-/

namespace OpenBlade

/-- A row of `file_records`. -/
structure FileRecord where
  id : Nat
  path : String
  sizeBytes : Nat
  checksumSha256 : String
  volumeGroupId : Nat
  shardCount : Option Nat
  shardIndex : Option Nat
  blockSize : Option Nat
  shardProfile : Option String
  parentId : Option Nat
  createdAt : Int
  deriving Repr, DecidableEq

/-- A row of `file_instances`. -/
structure FileInstance where
  id : Nat
  fileRecordId : Nat
  barcode : Barcode
  tapePath : String
  state : FileInstanceState
  archivedAt : Option Int := none
  checksumVerified : Bool := false
  createdAt : Int
  deriving Repr, DecidableEq

/-- A row of `cartridges`. -/
structure Cartridge where
  barcode : Barcode
  volumeGroupId : Option Nat
  capacityBytes : Int := 12000000000
  usedBytes : Int := 0
  state : String := "in_slot"
  formatted : Bool := false
  deriving Repr, DecidableEq

/-- A row of `volume_groups`. -/
structure VolumeGroup where
  id : Nat
  name : String
  deriving Repr, DecidableEq

/-- A row of `jobs`. -/
structure Job where
  id : JobId
  state : String := "pending"
  error : Option String := none
  createdAt : Int := 0
  updatedAt : Int := 0
  deriving Repr, DecidableEq

/-- A row of `job_journal`. -/
structure JobJournalEntry where
  id : Nat
  jobId : JobId
  at_ : Int
  event : String
  detail : JsonObject
  deriving Repr, DecidableEq

/-- The tables, and the number of the next key. -/
structure Catalog where
  nextId : Nat := 0
  volumeGroups : List VolumeGroup := []
  cartridges : List Cartridge := []
  records : List FileRecord := []
  instances : List FileInstance := []
  jobs : List Job := []
  journal : List JobJournalEntry := []
  tapeOps : List TapeOpRecord := []
  leases : CatalogLeaseStore := {}
  safetyTokens : List SafetyToken := []
  /-- Token rows the shared session has seen, deleted or not. -/
  seenTokens : List SafetyToken := []
  deriving Repr, DecidableEq

namespace Catalog

/-! ### Volume groups and cartridges -/

def getVolumeGroup (cat : Catalog) (name : String) : Option VolumeGroup :=
  cat.volumeGroups.find? fun group => group.name = name

def createVolumeGroup (cat : Catalog) (name : String) : VolumeGroup × Catalog :=
  match cat.getVolumeGroup name with
  | some existing => (existing, cat)
  | none =>
    let group := { id := cat.nextId, name := name }
    (group, { cat with nextId := cat.nextId + 1, volumeGroups := cat.volumeGroups ++ [group] })

def getCartridge (cat : Catalog) (barcode : Barcode) : Option Cartridge :=
  cat.cartridges.find? fun cartridge => cartridge.barcode = barcode

def updateCartridge (cat : Catalog) (barcode : Barcode) (f : Cartridge → Cartridge) : Catalog :=
  { cat with cartridges := cat.cartridges.map fun cartridge => if cartridge.barcode = barcode then f cartridge else cartridge }

/-- `add_cartridge`: a known cartridge is moved to the volume group, if one is given. -/
def addCartridge (cat : Catalog) (barcode : Barcode) (volumeGroupId : Option Nat) : Cartridge × Catalog :=
  match cat.getCartridge barcode with
  | none =>
    let cartridge : Cartridge := { barcode := barcode, volumeGroupId := volumeGroupId }
    (cartridge, { cat with cartridges := cat.cartridges ++ [cartridge] })
  | some cartridge =>
    match volumeGroupId with
    | none => (cartridge, cat)
    | some group =>
      ({ cartridge with volumeGroupId := some group },
        cat.updateCartridge barcode fun c => { c with volumeGroupId := some group })

/-- `set_cartridge_state`: a cartridge that is not known stays unknown. -/
def setCartridgeState (cat : Catalog) (barcode : Barcode) (state : String) : Option Cartridge × Catalog :=
  match cat.getCartridge barcode with
  | none => (none, cat)
  | some cartridge =>
    (some { cartridge with state := state }, cat.updateCartridge barcode fun c => { c with state := state })

/-- `ORDER BY name`. -/
def listVolumeGroups (cat : Catalog) : List VolumeGroup :=
  cat.volumeGroups.insertionSort fun a b => a.name ≤ b.name

/-- `ORDER BY barcode`. -/
def listCartridges (cat : Catalog) : List Cartridge :=
  cat.cartridges.insertionSort fun a b => a.barcode ≤ b.barcode

/-! ### File records -/

/-- What `create_file_record` is told of a file. -/
structure FileRecordFields where
  path : String
  sizeBytes : Nat
  checksum : String
  vgId : Nat
  shardCount : Option Nat
  shardIndex : Option Nat
  blockSize : Option Nat
  shardProfile : Option String
  parentId : Option Nat
  deriving Repr, DecidableEq

def getFileRecord (cat : Catalog) (path : String) : Option FileRecord :=
  cat.records.find? fun record => record.path = posix path

def getFileRecordById (cat : Catalog) (id : Nat) : Option FileRecord :=
  cat.records.find? fun record => record.id = id

/-- The row a record becomes when it is written again. -/
def FileRecordFields.overwrite (fields : FileRecordFields) (record : FileRecord) : FileRecord :=
  { record with
    sizeBytes := fields.sizeBytes, checksumSha256 := fields.checksum, volumeGroupId := fields.vgId
    shardCount := fields.shardCount, shardIndex := fields.shardIndex, blockSize := fields.blockSize
    shardProfile := fields.shardProfile, parentId := fields.parentId }

/-- `create_file_record`: the record of a path is made once and overwritten from then on. -/
def createFileRecord (cat : Catalog) (now : Int) (fields : FileRecordFields) : FileRecord × Catalog :=
  match cat.getFileRecord fields.path with
  | none =>
    let record := fields.overwrite
      { id := cat.nextId, path := posix fields.path, sizeBytes := 0, checksumSha256 := "", volumeGroupId := 0
        shardCount := none, shardIndex := none, blockSize := none, shardProfile := none, parentId := none, createdAt := now }
    (record, { cat with nextId := cat.nextId + 1, records := cat.records ++ [record] })
  | some record =>
    (fields.overwrite record,
      { cat with records := cat.records.map fun r => if r.id = record.id then fields.overwrite r else r })

/-- Shards without an index come first, as `NULL` does. -/
def shardKey (record : FileRecord) : Nat := match record.shardIndex with
  | none => 0
  | some index => index + 1

/-- `ORDER BY shard_index, created_at`. -/
def listShardRecords (cat : Catalog) (parentId : Nat) : List FileRecord :=
  (cat.records.filter fun record => record.parentId = some parentId).insertionSort fun a b =>
    shardKey a < shardKey b ∨ (shardKey a = shardKey b ∧ a.createdAt ≤ b.createdAt)

/-! ### File instances -/

/-- `record.instances`, ordered by `created_at`. -/
def instancesOf (cat : Catalog) (fileRecordId : Nat) : List FileInstance :=
  (cat.instances.filter fun row => row.fileRecordId = fileRecordId).insertionSort fun a b => a.createdAt ≤ b.createdAt

def getInstance (cat : Catalog) (id : Nat) : Option FileInstance :=
  cat.instances.find? fun row => row.id = id

def insertInstance (cat : Catalog) (now : Int) (fileRecordId : Nat) (barcode : Barcode) (tapePath : String)
    (state : FileInstanceState) : FileInstance × Catalog :=
  let row : FileInstance :=
    { id := cat.nextId, fileRecordId := fileRecordId, barcode := barcode, tapePath := posix tapePath, state := state
      createdAt := now }
  (row, { cat with nextId := cat.nextId + 1, instances := cat.instances ++ [row] })

def createFileInstance (cat : Catalog) (now : Int) (fileRecordId : Nat) (barcode : Barcode) (tapePath : String) :
    FileInstance × Catalog :=
  cat.insertInstance now fileRecordId barcode tapePath .pending

/-- Update the instances whose ids are named. -/
def updateInstances (cat : Catalog) (ids : List Nat) (f : FileInstance → FileInstance) : Catalog :=
  { cat with instances := cat.instances.map fun row => if row.id ∈ ids then f row else row }

def fileNotFound (message : String) : Exn := { cls := .fileNotFound, message := message }

def markInstanceArchived (cat : Catalog) (now : Int) (instanceId : Nat) (checksumVerified : Bool) :
    Except Exn Unit × Catalog :=
  match cat.getInstance instanceId with
  | none => (.error (fileNotFound ("File instance " ++ toString instanceId ++ " not found")), cat)
  | some _ =>
    (.ok (), cat.updateInstances [instanceId] fun row =>
      { row with state := .archived, archivedAt := some now, checksumVerified := checksumVerified })

/-- `_load_instances_in`: every id must name an instance in an allowed state. -/
def loadInstancesIn (cat : Catalog) (allowed : FileInstanceState → Bool) (expected : List String) :
    List Nat → Except Exn Unit
  | [] => .ok ()
  | id :: ids =>
    match cat.getInstance id with
    | none => .error (fileNotFound ("File instance " ++ toString id ++ " not found"))
    | some row =>
      if allowed row.state then cat.loadInstancesIn allowed expected ids
      else
        .error { cls := .valueError
                 message := "File instance " ++ toString id ++ " is " ++ row.state.value ++ ", expected one of ['" ++
                   "', '".intercalate expected ++ "']" }

def markInstancesVerifying (cat : Catalog) (ids : List Nat) : Except Exn Unit × Catalog :=
  match cat.loadInstancesIn FileInstanceState.isStaged ["staging", "verifying"] ids with
  | .error e => (.error e, cat)
  | .ok () => (.ok (), cat.updateInstances ids fun row => { row with state := .verifying })

/-- The job's single commit: every `VERIFYING` instance becomes `ARCHIVED` together, or nothing changes. -/
def markInstancesArchived (cat : Catalog) (now : Int) (ids : List Nat) (checksumVerified : Bool) :
    Except Exn Unit × Catalog :=
  match cat.loadInstancesIn (fun state => state == .verifying) ["verifying"] ids with
  | .error e => (.error e, cat)
  | .ok () =>
    (.ok (), cat.updateInstances ids fun row =>
      { row with state := .archived, archivedAt := some now, checksumVerified := checksumVerified })

/-- The record of a path and the youngest of its archived instances. -/
def getLatestInstanceForPath (cat : Catalog) (path : String) : Except Exn (FileRecord × FileInstance) :=
  match cat.getFileRecord path with
  | none => .error (fileNotFound ("Catalog path " ++ path ++ " not found"))
  | some record =>
    match ((cat.instancesOf record.id).filter fun row => row.state.isArchived).getLast? with
    | none => .error (fileNotFound ("No archived instance for " ++ path))
    | some row => .ok (record, row)

/-- `ORDER BY created_at`. -/
def listInstancesForBarcode (cat : Catalog) (barcode : Barcode) : List FileInstance :=
  (cat.instances.filter fun row => row.barcode = barcode).insertionSort fun a b => a.createdAt ≤ b.createdAt

/-! ### Jobs and journal -/

def updateJobState (cat : Catalog) (now : Int) (jobId : JobId) (state : String) (error : Option String) :
    Except Exn Unit × Catalog :=
  if cat.jobs.any fun job => job.id = jobId then
    (.ok (), { cat with jobs := cat.jobs.map fun job =>
      if job.id = jobId then { job with state := state, error := error, updatedAt := now } else job })
  else (.error (fileNotFound ("Job " ++ jobId ++ " not found")), cat)

def getJob (cat : Catalog) (jobId : JobId) : Option Job :=
  cat.jobs.find? fun job => job.id = jobId

/-- `list_jobs(state)`: `ORDER BY created_at DESC`. -/
def listJobs (cat : Catalog) (state : String) : List Job :=
  (cat.jobs.filter fun job => job.state = state).insertionSort fun a b => b.createdAt ≤ a.createdAt

/-- `job_journal`: the entries of one job, `ORDER BY at, id`. -/
def jobJournal (cat : Catalog) (jobId : JobId) : List JobJournalEntry :=
  (cat.journal.filter fun entry => entry.jobId = jobId).insertionSort fun a b => a.at_ < b.at_ ∨ (a.at_ = b.at_ ∧ a.id ≤ b.id)

/-- `journal`, and `journal_durable`: append one event. -/
def appendJournal (cat : Catalog) (now : Int) (jobId : JobId) (event : String) (detail : JsonObject) : Catalog :=
  { cat with journal := cat.journal ++
      [{ id := cat.journal.length, jobId := jobId, at_ := now, event := event, detail := detail }] }

def jsonOfNat? : Option Nat → JsonValue
  | none => .null
  | some n => .int n

/-- `create_staged_instance`: the instance and its `shard_staged` journal row, in one transaction. -/
def createStagedInstance (cat : Catalog) (now : Int) (jobId : JobId) (fileRecordId : Nat) (barcode : Barcode)
    (tapePath : String) : Except Exn FileInstance × Catalog :=
  match cat.getFileRecordById fileRecordId with
  | none => (.error (fileNotFound ("File record " ++ toString fileRecordId ++ " not found")), cat)
  | some record =>
    let (row, cat) := cat.insertInstance now fileRecordId barcode tapePath .staging
    (.ok row, cat.appendJournal now jobId "shard_staged"
      [("instance_id", .int row.id), ("barcode", .str barcode), ("tape_path", .str row.tapePath),
       ("shard_index", jsonOfNat? record.shardIndex)])

/-- A sharded-archive instance not yet committed. -/
structure StagedInstance where
  instanceId : Nat
  fileRecordId : Nat
  barcode : Barcode
  tapePath : String
  shardIndex : Option Nat
  state : FileInstanceState
  deriving Repr, DecidableEq

/-- Instances without a shard index last, then by index and barcode. -/
def StagedInstance.before (a b : StagedInstance) : Bool :=
  match a.shardIndex, b.shardIndex with
  | none, none => a.barcode ≤ b.barcode
  | none, some _ => false
  | some _, none => true
  | some i, some j => i < j ∨ (i = j ∧ a.barcode ≤ b.barcode)

/-- `list_staged_instances`: what a job staged and is still `STAGING` or `VERIFYING`. -/
def listStagedInstances (cat : Catalog) (jobId : JobId) : List StagedInstance :=
  let ids := (cat.jobJournal jobId).filterMap fun entry =>
    if entry.event = "shard_staged" then some ((Effects.Dict.get? entry.detail "instance_id").getD .null) else none
  let rows := cat.instances.filter fun row => JsonValue.int row.id ∈ ids ∧ row.state.isStaged = true
  (rows.filterMap fun row => (cat.getFileRecordById row.fileRecordId).map fun record =>
    { instanceId := row.id, fileRecordId := row.fileRecordId, barcode := row.barcode, tapePath := row.tapePath
      shardIndex := record.shardIndex, state := row.state }).insertionSort fun a b => a.before b = true

/-- `journal_events`: the entries of one event, oldest first. -/
def journalEvents (cat : Catalog) (event : String) : List JobJournalEntry :=
  cat.journal.filter fun entry => entry.event = event

/-! ### Safety tokens -/

/-- `save_safety_token`: the row of a token is made, or overwritten. -/
def saveSafetyToken (cat : Catalog) (token : SafetyToken) : Catalog :=
  { cat with
    safetyTokens := (cat.safetyTokens.filter fun row => row.token ≠ token.token) ++ [token]
    seenTokens := cat.seenTokens ++ [token] }

/-- `get_safety_token`; a stale session still shows a row that another session deleted. -/
def getSafetyToken (cat : Catalog) (stale : Bool) (tokenValue : String) : Option SafetyToken :=
  (if stale then cat.seenTokens else cat.safetyTokens).find? fun row => row.token = tokenValue

/-- `delete_safety_token`: true for the one caller that deleted the row. -/
def deleteSafetyToken (cat : Catalog) (tokenValue : String) : Bool × Catalog :=
  (cat.safetyTokens.any fun row => row.token = tokenValue,
    { cat with safetyTokens := cat.safetyTokens.filter fun row => row.token ≠ tokenValue })

/-! ### Tape operations -/

def createTapeOp (cat : Catalog) (now : Int) (request : TapeOpRequest) : TapeOpRecord × Catalog :=
  let row : TapeOpRecord := { opId := cat.nextId, request := request, status := .queued, createdAt := now }
  (row, { cat with nextId := cat.nextId + 1, tapeOps := cat.tapeOps ++ [row] })

/-- The updates `execute` makes to its row. -/
inductive TapeOpUpdate where
  | running
  | completed (result : JsonObject)
  | failed (error : String)
  deriving Repr, DecidableEq

def TapeOpUpdate.apply (now : Int) (row : TapeOpRecord) : TapeOpUpdate → TapeOpRecord
  | .running => { row with status := .running, startedAt := some now }
  | .completed result => { row with status := .completed, result := result, error := none, completedAt := some now }
  | .failed error => { row with status := .failed, error := some error, completedAt := some now }

def updateTapeOp (cat : Catalog) (now : Int) (opId : Nat) (update : TapeOpUpdate) : Option TapeOpRecord × Catalog :=
  match cat.tapeOps.find? fun row => row.opId = opId with
  | none => (none, cat)
  | some row =>
    (some (update.apply now row),
      { cat with tapeOps := cat.tapeOps.map fun r => if r.opId = opId then update.apply now r else r })

end Catalog

end OpenBlade
