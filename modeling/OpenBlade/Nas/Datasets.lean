import Mathlib
import OpenBlade.Domain.Posix
import OpenBlade.Effects.Dict
import OpenBlade.Nas.Planner

/-!
# Datasets, file records and restore jobs

The NAS tables of the catalog and the methods of `catalog/repository.py` and `nas/service.py` that read and write them.
-/

namespace OpenBlade

open Effects

inductive DatasetStatus where
  | pending
  | archiving
  | archived
  | failed
  | verified
  | exported
  | cancelled
  deriving Repr, DecidableEq

inductive NasFileState where
  | onlineCached
  | offlineOnTape
  | hydrating
  | missingTape
  | failed
  | corrupt
  | exported
  deriving Repr, DecidableEq

inductive RestoreJobStatus where
  | queued
  | planning
  | running
  | paused
  | completed
  | failed
  | cancelled
  deriving Repr, DecidableEq

def RestoreJobStatus.value : RestoreJobStatus → String
  | queued => "queued"
  | planning => "planning"
  | running => "running"
  | paused => "paused"
  | completed => "completed"
  | failed => "failed"
  | cancelled => "cancelled"

/-- A row of `nas_datasets`. -/
structure NasDataset where
  id : String
  poolId : Option String := none
  name : String
  sourcePath : Option String := none
  sourceHost : Option String := none
  policyId : Option String := none
  ingestMode : Option IngestMode := none
  volumeGroupId : Option String := none
  tapeSet : List Barcode := []
  shardMap : Dict Barcode (List String) := []
  fileCount : Nat := 0
  totalBytes : Int := 0
  status : DatasetStatus := .pending
  copiesCompleted : Int := 0
  manifestPath : Option String := none
  deriving Repr, DecidableEq

/-- A row of `nas_file_records`. -/
structure NasFileRecord where
  id : String
  datasetId : String
  poolId : Option String := none
  relativePath : String
  sourcePath : Option String := none
  sizeBytes : Int := 0
  mtime : Option String := none
  checksumSha256 : Option String := none
  tapeBarcode : Option Barcode := none
  tapeOffset : Option Int := none
  status : NasFileState := .offlineOnTape
  cachePath : Option String := none
  deriving Repr, DecidableEq

/-- A row of `nas_restore_jobs`. -/
structure NasRestoreJob where
  id : JobId
  status : RestoreJobStatus := .queued
  paths : List String := []
  poolId : Option String := none
  destination : String := "/openblade/restore"
  requiredTapes : List Barcode := []
  tapeLoadOrder : List Barcode := []
  parallelRestoreGroups : Dict String (List Barcode) := []
  bytesRestored : Int := 0
  filesRestored : Nat := 0
  filesFailed : Nat := 0
  partialSuccess : Bool := false
  errorMessage : Option String := none
  deriving Repr, DecidableEq

/-- The counters a status update may set. -/
structure RestoreProgress where
  bytesRestored : Int
  filesRestored : Nat
  filesFailed : Nat
  partialSuccess : Bool
  deriving Repr, DecidableEq

/-- An empty table has its rows under their keys. -/
theorem keyed_nil {α : Type} {key : α → String} : ∀ row ∈ ([] : Dict String α), key row.2 = row.1 := by simp

/-- The NAS tables, each by its primary key. -/
structure NasCatalog where
  datasets : Dict String NasDataset := []
  files : Dict String NasFileRecord := []
  restoreJobs : Dict JobId NasRestoreJob := []
  nodupDatasets : (Dict.keys datasets).Nodup := by first | exact List.nodup_nil | decide
  keyedDatasets : ∀ row ∈ datasets, row.2.id = row.1 := by first | exact keyed_nil | decide
  nodupFiles : (Dict.keys files).Nodup := by first | exact List.nodup_nil | decide
  keyedFiles : ∀ row ∈ files, row.2.id = row.1 := by first | exact keyed_nil | decide
  nodupJobs : (Dict.keys restoreJobs).Nodup := by first | exact List.nodup_nil | decide
  keyedJobs : ∀ row ∈ restoreJobs, row.2.id = row.1 := by first | exact keyed_nil | decide
  deriving Repr, DecidableEq

/-- A row that is set under its key keeps the rows under their keys. -/
theorem keyed_set {α : Type} {rows : Dict String α} {key : α → String} (h : ∀ row ∈ rows, key row.2 = row.1) (a : α) :
    ∀ row ∈ rows.set (key a) a, key row.2 = row.1 := by
  intro row hrow
  rcases Dict.mem_set hrow with hold | rfl
  · exact h row hold
  · rfl

/-- The row after a status update: what is not given stays. -/
def NasRestoreJob.updated (job : NasRestoreJob) (status : RestoreJobStatus) (progress : Option RestoreProgress)
    (errorMessage : Option String) : NasRestoreJob :=
  let job := { job with status := status, errorMessage := errorMessage.or job.errorMessage }
  match progress with
  | none => job
  | some progress => { job with
      bytesRestored := progress.bytesRestored, filesRestored := progress.filesRestored, filesFailed := progress.filesFailed
      partialSuccess := progress.partialSuccess }

@[simp] theorem NasRestoreJob.updated_id (job : NasRestoreJob) (status : RestoreJobStatus) (progress : Option RestoreProgress)
    (errorMessage : Option String) : (job.updated status progress errorMessage).id = job.id := by
  cases progress <;> rfl

@[simp] theorem NasRestoreJob.updated_status (job : NasRestoreJob) (status : RestoreJobStatus)
    (progress : Option RestoreProgress) (errorMessage : Option String) :
    (job.updated status progress errorMessage).status = status := by
  cases progress <;> rfl

/-- `dataset_tape_path`. -/
def datasetTapePath (datasetName relativePath : String) : String :=
  (((PurePosixPath.ofString "/").join (.ofString datasetName)).join (.ofString relativePath)).toString

namespace NasCatalog

variable (cat : NasCatalog)

/-! ### Datasets -/

def getNasDataset (id : String) : Option NasDataset := cat.datasets.get? id

/-- `list_nas_datasets`: in the order they were created. -/
def listNasDatasets (poolId : Option String) : List NasDataset :=
  (cat.datasets.map Prod.snd).filter fun dataset => poolId = none ∨ dataset.poolId = poolId

def upsertNasDataset (dataset : NasDataset) : NasCatalog :=
  { cat with
    datasets := cat.datasets.set dataset.id dataset
    nodupDatasets := Dict.nodup_keys_set cat.nodupDatasets
    keyedDatasets := keyed_set cat.keyedDatasets dataset }

/-! ### File records -/

/-- `list_nas_file_records`: `ORDER BY relative_path`. -/
def listNasFileRecords (datasetId : String) : List NasFileRecord :=
  ((cat.files.map Prod.snd).filter fun record => record.datasetId = datasetId).insertionSort
    fun a b => a.relativePath ≤ b.relativePath

def getNasFileRecord (id : String) : Option NasFileRecord := cat.files.get? id

def upsertNasFileRecord (record : NasFileRecord) : NasCatalog :=
  { cat with
    files := cat.files.set record.id record
    nodupFiles := Dict.nodup_keys_set cat.nodupFiles
    keyedFiles := keyed_set cat.keyedFiles record }

/-- `update_nas_file_status`: whether the row is there. -/
def updateNasFileStatus (id : String) (status : NasFileState) : Bool × NasCatalog :=
  match cat.getNasFileRecord id with
  | none => (false, cat)
  | some record => (true, cat.upsertNasFileRecord { record with status := status })

/-- `list_pool_file_records`: of all datasets of the pool, by path and id. -/
def listPoolFileRecords (poolId : String) : List NasFileRecord :=
  ((cat.listNasDatasets (some poolId)).flatMap fun dataset => cat.listNasFileRecords dataset.id).insertionSort
    fun a b => toLex (a.relativePath, a.id) ≤ toLex (b.relativePath, b.id)

/-! ### Restore jobs -/

def getNasRestoreJob (id : JobId) : Option NasRestoreJob := cat.restoreJobs.get? id

def upsertNasRestoreJob (job : NasRestoreJob) : NasCatalog :=
  { cat with
    restoreJobs := cat.restoreJobs.set job.id job
    nodupJobs := Dict.nodup_keys_set cat.nodupJobs
    keyedJobs := keyed_set cat.keyedJobs job }

/-- `update_nas_restore_job_status`: whether the row is there. -/
def updateNasRestoreJobStatus (id : JobId) (status : RestoreJobStatus) (progress : Option RestoreProgress)
    (errorMessage : Option String) : Bool × NasCatalog :=
  match cat.getNasRestoreJob id with
  | none => (false, cat)
  | some job => (true, cat.upsertNasRestoreJob (job.updated status progress errorMessage))

/-- A restore job is found under its id. -/
theorem id_of_getNasRestoreJob {cat : NasCatalog} {id : JobId} {job : NasRestoreJob} (h : cat.getNasRestoreJob id = some job) :
    job.id = id :=
  cat.keyedJobs _ (Dict.mem_of_get? h)

theorem id_of_getNasFileRecord {cat : NasCatalog} {id : String} {record : NasFileRecord}
    (h : cat.getNasFileRecord id = some record) : record.id = id :=
  cat.keyedFiles _ (Dict.mem_of_get? h)

end NasCatalog

end OpenBlade
