import OpenBlade.Nas.ArchiveLifecycle
import OpenBlade.Nas.Ingest

/-!
# An ingest, and what it records of a dataset

`start_ingest_job` and `_BaseIngest.run` of `nas/ingest.py` over the catalog and the tapes: the files of the plan one after the other,
each written, recorded and archived or recorded as failed, then the dataset. What the world around does to a run, where it raises and
what it reads of a source, is data of the run.
-/

namespace OpenBlade

open Effects

/-- Where the write of a file raises, if it does: before the data is on the tape or after it. -/
inductive WriteFault where
  | none
  | beforeWrite
  | afterWrite
  deriving Repr, DecidableEq

/-- What happens to one file of an assignment. -/
structure FileTurn where
  content : Bytes
  fault : WriteFault := .none
  choice : LifecycleChoice := {}

/-- Where a run is given up: while files are prepared, before a file is written, or while the dataset is completed. -/
inductive Interruption where
  | preparing (files : Nat)
  | writing (files : Nat)
  | completing (files : Nat)
  deriving Repr, DecidableEq

/-- An ingest: its plan, and what it meets. -/
structure DatasetIngest where
  datasetId : String
  poolId : Option String
  sourcePath : Option String := none
  policyName : Option String := none
  mode : IngestMode
  volumeGroup : Option String := none
  totalFiles : Nat := 0
  totalBytes : Int := 0
  assignments : List TapeAssignment
  prepared : String → Barcode → PreparedFile
  newId : String → String
  turn : Nat → FileTurn
  interruption : Option Interruption := none
  cancelled : Bool := false
  choices : String → LifecycleChoice := fun _ => {}

/-- What a run counts. -/
structure IngestProgress where
  filesProcessed : Nat := 0
  filesFailed : Nat := 0
  tapePaths : Dict String String := []
  deriving Repr, DecidableEq

namespace NasCatalog

/-- A dataset with another status, if it is there. -/
def setDatasetStatus (nas : NasCatalog) (id : String) (status : DatasetStatus) : NasCatalog :=
  match nas.getNasDataset id with
  | none => nas
  | some dataset => nas.upsertNasDataset { dataset with status := status }

end NasCatalog

namespace DatasetIngest

variable (sha256 : Bytes → String) (names : String → DatasetName) (ingest : DatasetIngest)

/-- The row that `start_ingest_job` creates. -/
def newDataset : NasDataset :=
  { id := ingest.datasetId
    poolId := ingest.poolId
    name := (names ingest.datasetId).text
    sourcePath := ingest.sourcePath
    policyId := ingest.policyName
    ingestMode := some ingest.mode
    volumeGroupId := ingest.volumeGroup
    fileCount := ingest.totalFiles
    totalBytes := ingest.totalBytes
    status := .archiving }

/-- The files of the plan, with their tapes, in the order in which they are written. -/
def files : List (Barcode × String) := ingest.assignments.flatMap fun assignment => assignment.files.map (assignment.barcode, ·)

/-- `_file_record_ids`, as a run finds them. -/
def fileRecordIds (w : LifecycleWorld) : Dict String String :=
  Dict.ofPairs ((w.cat.nas.listNasFileRecords ingest.datasetId).map fun record => (record.relativePath, record.id))

/-- The record that `_upsert_file_record` writes; a path that has no id yet is given one. -/
def fileRecord (ids : Dict String String) (barcode : Barcode) (relativePath : String) (tapeBarcode : Option Barcode) (status : NasFileState) :
    NasFileRecord :=
  let prepared := ingest.prepared relativePath barcode
  { id := (ids.get? relativePath).getD (ingest.newId relativePath)
    datasetId := ingest.datasetId
    poolId := ingest.poolId
    relativePath := relativePath
    sourcePath := some prepared.sourcePath
    sizeBytes := prepared.sizeBytes
    mtime := some prepared.mtime
    checksumSha256 := some prepared.checksumSha256
    tapeBarcode := tapeBarcode
    status := status
    cachePath := prepared.cachePath }

/-- `_upsert_file_record`. -/
def upsertFileRecord (record : NasFileRecord) (w : LifecycleWorld) : LifecycleWorld :=
  { w with cat := { w.cat with nas := w.cat.nas.upsertNasFileRecord record } }

/-- The records that `_prepare_files` of a cache-drive ingest writes: one of every file, before any is on tape. -/
def initializeRecords (ids : Dict String String) (initializedPaths : List String) (w : LifecycleWorld) :
    List (Barcode × String) → LifecycleWorld
  | [] => w
  | (barcode, relativePath) :: files =>
    if relativePath ∈ initializedPaths then initializeRecords ids initializedPaths w files
    else
      initializeRecords ids (relativePath :: initializedPaths)
        (upsertFileRecord (ingest.fileRecord ids barcode relativePath none .onlineCached) w) files

/-- `_prepare_files`. -/
def prepareFiles (ids : Dict String String) (files : List (Barcode × String)) (w : LifecycleWorld) : LifecycleWorld :=
  match ingest.mode with
  | .cacheDrive => ingest.initializeRecords ids [] w files
  | .sourceStream => w

/-- `_simulate_tape_write`: where the data goes. -/
def writeData (barcode : Barcode) (relativePath : String) (content : Bytes) (w : LifecycleWorld) : LifecycleWorld :=
  w.setTape barcode { w.tapes barcode with
    contents := (w.tapes barcode).contents.set (datasetTapePath (names ingest.datasetId).text relativePath)
      { datasetId := ingest.datasetId, relativePath := relativePath, content := content } }

/-- The `except` clause of a file. -/
def fileFailed (ids : Dict String String) (barcode : Barcode) (relativePath : String) (progress : IngestProgress) (w : LifecycleWorld) :
    IngestProgress × LifecycleWorld :=
  ({ progress with filesFailed := progress.filesFailed + 1 },
    upsertFileRecord (ingest.fileRecord ids barcode relativePath (some barcode) .failed) w)

/-- One file of `_write_assignment`. -/
def ingestTurn (ids : Dict String String) (turn : FileTurn) (file : Barcode × String) (state : IngestProgress × LifecycleWorld) :
    IngestProgress × LifecycleWorld :=
  let (barcode, relativePath) := file
  let (progress, w) := state
  match turn.fault with
  | .beforeWrite => ingest.fileFailed ids barcode relativePath progress w
  | .afterWrite => ingest.fileFailed ids barcode relativePath progress (ingest.writeData names barcode relativePath turn.content w)
  | .none =>
    let record := ingest.fileRecord ids barcode relativePath (some barcode) .onlineCached
    let tapePath := datasetTapePath (names ingest.datasetId).text relativePath
    let (result, w) := completeFileArchive sha256 record barcode tapePath (ingest.policyName.getD "") turn.choice
      (upsertFileRecord record (ingest.writeData names barcode relativePath turn.content w))
    if result.success then
      ({ progress with filesProcessed := progress.filesProcessed + 1, tapePaths := progress.tapePaths.set record.id tapePath }, w)
    else ingest.fileFailed ids barcode relativePath progress w

/-- The files that are reached, each with its turn. -/
def writeFiles (ids : Dict String String) (reached : List (Barcode × String)) (w : LifecycleWorld) : IngestProgress × LifecycleWorld :=
  reached.zipIdx.foldl (fun state file => ingest.ingestTurn sha256 names ids (ingest.turn file.2) file.1 state) ({}, w)

/-- `_mark_dataset_archived`. -/
def markDatasetArchived (nas : NasCatalog) : NasCatalog :=
  match nas.getNasDataset ingest.datasetId with
  | none => nas
  | some dataset =>
    nas.upsertNasDataset { dataset with
      status := .archived
      copiesCompleted := dataset.copiesCompleted + 1
      tapeSet := gather [] (ingest.assignments.map TapeAssignment.barcode)
      shardMap := Dict.ofPairs (ingest.assignments.map fun assignment => (assignment.barcode, assignment.files)) }

/-- `_finalize_job`. -/
def finalizeJob (progress : IngestProgress) (datasetMarkedArchived : Bool) (nas : NasCatalog) : NasCatalog :=
  if progress.filesFailed ≠ 0 ∧ progress.filesProcessed = 0 then nas.setDatasetStatus ingest.datasetId .failed
  else if progress.filesFailed ≠ 0 then ingest.markDatasetArchived nas
  else if datasetMarkedArchived = false then nas.setDatasetStatus ingest.datasetId .failed
  else nas

/-- `_mark_dataset_failed` and `_mark_dataset_cancelled`. -/
def giveUp (w : LifecycleWorld) : LifecycleWorld :=
  { w with cat := { w.cat with
      nas := w.cat.nas.setDatasetStatus ingest.datasetId (if ingest.cancelled then .cancelled else .failed) } }

/-- `start_ingest_job`. -/
def start (w : LifecycleWorld) : LifecycleWorld :=
  { w with cat := { w.cat with nas := w.cat.nas.upsertNasDataset (ingest.newDataset names) } }

/-- The files that are prepared, and those of them that are written. -/
def preparedFiles : List (Barcode × String) :=
  match ingest.interruption with
  | some (.preparing n) => ingest.files.take n
  | _ => ingest.files

def reachedFiles : List (Barcode × String) :=
  match ingest.interruption with
  | some (.preparing _) => []
  | some (.writing n) => ingest.files.take n
  | _ => ingest.files

/-- `run`, of an ingest that was started. -/
def run (w : LifecycleWorld) : LifecycleWorld :=
  let ids := ingest.fileRecordIds w
  let (progress, w) := ingest.writeFiles sha256 names ids ingest.reachedFiles (ingest.prepareFiles ids ingest.preparedFiles w)
  let records := w.cat.nas.listNasFileRecords ingest.datasetId
  match ingest.interruption with
  | some (.preparing _) | some (.writing _) => ingest.giveUp w
  | some (.completing n) =>
    ingest.giveUp (archiveDatasetFiles sha256 "" progress.tapePaths (ingest.policyName.getD "") ingest.choices (records.take n)
      ({ datasetId := ingest.datasetId }, w)).2
  | none =>
    let (result, w) := completeDatasetArchive sha256 ingest.datasetId records "" progress.tapePaths (ingest.policyName.getD "")
      ingest.choices w
    { w with cat := { w.cat with nas := ingest.finalizeJob progress result.datasetMarkedArchived w.cat.nas } }

end DatasetIngest

/-! ### What is shown of a dataset -/

end OpenBlade
