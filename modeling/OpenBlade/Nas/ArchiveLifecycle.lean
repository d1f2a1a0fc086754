import OpenBlade.Nas.CatalogRebuild
import OpenBlade.Nas.TapeManifest

/-!
# Completing an archive

`ArchiveLifecycleManager` (`nas/archive_lifecycle.py`): six steps after the data of a file is on tape, in order, up to the first that
fails, and the same for all files of a dataset. A step may raise before it does anything or after all it does; what a step's last
check finds is read from what it has just written.
-/

namespace OpenBlade

open Effects

/-- The data at a path of a tape, and the file it was written for. -/
structure TapeData where
  datasetId : String
  relativePath : String
  content : Bytes
  deriving Repr, DecidableEq

/-- A tape: its data by path, and its documents. -/
structure TapeVolume where
  contents : Dict String TapeData := []
  manifest : Option ManifestJson := none
  shard : Option CatalogShard := none
  tapeJson : Option TapeJson := none

/-- `read_manifest`: a manifest of a schema that is not known reads as none. -/
def TapeVolume.readManifest (volume : TapeVolume) : Option ManifestJson :=
  volume.manifest.filter fun manifest => manifest.schema ∈ supportedManifestSchemas

structure LifecycleWorld where
  cat : RebuildCatalog := {}
  tapes : Barcode → TapeVolume := fun _ => {}

namespace LifecycleWorld

def setTape (w : LifecycleWorld) (barcode : Barcode) (volume : TapeVolume) : LifecycleWorld :=
  { w with tapes := Function.update w.tapes barcode volume }

@[simp] theorem setTape_cat (w : LifecycleWorld) (barcode : Barcode) (volume : TapeVolume) : (w.setTape barcode volume).cat = w.cat := rfl

@[simp] theorem setTape_tapes_self (w : LifecycleWorld) (barcode : Barcode) (volume : TapeVolume) :
    (w.setTape barcode volume).tapes barcode = volume := by
  simp [setTape]

theorem setTape_tapes_of_ne (w : LifecycleWorld) {barcode barcode' : Barcode} (volume : TapeVolume) (h : barcode' ≠ barcode) :
    (w.setTape barcode volume).tapes barcode' = w.tapes barcode' :=
  Function.update_of_ne h _ _

end LifecycleWorld

/-! ### The steps -/

section steps

variable (sha256 : Bytes → String) (record : NasFileRecord) (barcode : Barcode) (tapePath policyName : String)

/-- What a step comes to: it raises, or it says whether it went well. -/
abbrev StepOutcome : Type := Option (Bool × LifecycleWorld)

/-- `_step_verify_checksum`. -/
def stepVerifyChecksum (w : LifecycleWorld) : StepOutcome :=
  match (w.tapes barcode).contents.get? tapePath with
  | none => some (false, w)
  | some data =>
    match record.checksumSha256.filter (· ≠ "") with
    | none => some (true, w)
    | some expected => some (decide (sha256 data.content = expected), w)

/-- The manifest that `_step_write_manifest` builds over the one that is there. -/
def manifestAfter (dataset : NasDataset) (existing : Option ManifestJson) : ManifestJson :=
  let others := ((existing.map ManifestJson.files).getD []).filter fun entry => entry.fileRecordId ≠ record.id
  let entry : ManifestFileEntry :=
    { logicalPath := record.relativePath
      tapePath := tapePath
      datasetId := record.datasetId
      fileRecordId := record.id
      size := record.sizeBytes
      mtime := record.mtime.getD ""
      checksum := record.checksumSha256.getD ""
      policy := policyName
      verified := true }
  { barcode := barcode
    openbladeTapeId := (existing.map ManifestJson.openbladeTapeId).getD barcode
    volumeGroup := (existing.map ManifestJson.volumeGroup).getD (dataset.volumeGroupId.getD "")
    pools := orderedUnique (((existing.map ManifestJson.pools).getD []).map some ++ [record.poolId])
    datasets := orderedUnique (((existing.map ManifestJson.datasets).getD []).map some ++ [some record.datasetId])
    tapeSets := (existing.map ManifestJson.tapeSets).getD []
    shardSets := (existing.map ManifestJson.shardSets).getD []
    files := (others ++ [entry]).insertionSort fun a b =>
      toLex (a.logicalPath, a.fileRecordId) ≤ toLex (b.logicalPath, b.fileRecordId) }

/-- `_step_write_manifest`. -/
def stepWriteManifest (w : LifecycleWorld) : StepOutcome :=
  (w.cat.nas.getNasDataset record.datasetId).map fun dataset =>
    let volume := w.tapes barcode
    (true, w.setTape barcode { volume with
      manifest := some (manifestAfter record barcode tapePath policyName dataset volume.readManifest) })

/-- `_resolve_tape_path`. -/
def TapeVolume.resolveTapePath (volume : TapeVolume) (fileRecordId : String) : String :=
  ((volume.readManifest.bind fun manifest => manifest.files.find? fun entry => entry.fileRecordId = fileRecordId).map
    ManifestFileEntry.tapePath).getD ""

/-- The entry of a record in the catalog shard of a tape. -/
def shardEntry (volume : TapeVolume) (dataset : NasDataset) : CatalogShardFileEntry :=
  { logicalPath := record.relativePath
    tapePath := volume.resolveTapePath record.id
    datasetId := record.datasetId
    fileRecordId := record.id
    poolId := record.poolId.getD ""
    size := record.sizeBytes
    mtime := record.mtime.getD ""
    checksum := record.checksumSha256.getD ""
    fileState := "offline_on_tape"
    policy := dataset.policyId.getD ""
    verified := true }

/-- The value of an ingest mode. -/
def IngestMode.value : IngestMode → String
  | .cacheDrive => "cache_drive"
  | .sourceStream => "source_stream"

/-- The entry of a dataset over the files of a shard. -/
def shardDatasetEntry (dataset : NasDataset) (files : List CatalogShardFileEntry) : CatalogShardDatasetEntry :=
  let datasetFiles := files.filter fun entry => entry.datasetId = record.datasetId
  { datasetId := record.datasetId
    poolId := record.poolId.getD ""
    volumeGroup := dataset.volumeGroupId.getD ""
    policy := dataset.policyId.getD ""
    ingestMode := (dataset.ingestMode.map IngestMode.value).getD ""
    fileCount := datasetFiles.length
    totalBytes := (datasetFiles.map CatalogShardFileEntry.size).sum
    tapeSet := [barcode] }

/-- The catalog shard that `_step_write_catalog_shard` builds over the one that is there. -/
def shardAfter (generatedAt : String) (dataset : NasDataset) (volume : TapeVolume) : CatalogShard :=
  let existing := volume.shard
  let others := ((existing.map CatalogShard.files).getD []).filter fun entry => entry.fileRecordId ≠ record.id
  let files := (others ++ [shardEntry record volume dataset]).insertionSort fun a b =>
    toLex (a.logicalPath, a.fileRecordId) ≤ toLex (b.logicalPath, b.fileRecordId)
  let otherDatasets := ((existing.map CatalogShard.datasets).getD []).filter fun entry => entry.datasetId ≠ record.datasetId
  { barcode := barcode
    openbladeTapeId := (existing.map CatalogShard.openbladeTapeId).getD barcode
    volumeGroup := (existing.map CatalogShard.volumeGroup).getD (dataset.volumeGroupId.getD "")
    generatedAt := generatedAt
    datasets := (otherDatasets ++ [shardDatasetEntry record barcode dataset files]).insertionSort fun a b => a.datasetId ≤ b.datasetId
    files := files }

/-- `_step_write_catalog_shard`. -/
def stepWriteCatalogShard (generatedAt : String) (w : LifecycleWorld) : StepOutcome :=
  (w.cat.nas.getNasDataset record.datasetId).map fun dataset =>
    let volume := w.tapes barcode
    (true, w.setTape barcode { volume with shard := some (shardAfter record barcode generatedAt dataset volume) })

/-- `_step_update_path_mapping`. -/
def stepUpdatePathMapping (w : LifecycleWorld) : StepOutcome :=
  let mapping : PathMappingRecord :=
    { logicalPath := record.relativePath
      poolId := record.poolId.getD ""
      datasetId := record.datasetId
      primaryBarcode := barcode
      allBarcodes := [barcode]
      fileRecordId := record.id
      fileState := .offlineOnTape
      restoreStrategy := "single_tape"
      size := record.sizeBytes
      checksum := record.checksumSha256.getD "" }
  mapping.validate.map fun mapping =>
    let index := w.cat.index.upsertPathMapping mapping
    ((index.getPathMapping mapping.logicalPath mapping.poolId).isSome, { w with cat := { w.cat with index := index } })

/-- The `tape.json` that `_step_update_tape_json` builds over the one that is there; a first one takes the group of the cartridge. -/
def tapeJsonAfter (cartridgeGroup writtenAt : String) (existing : Option TapeJson) : TapeJson :=
  { openbladeTapeId := (existing.map TapeJson.openbladeTapeId).getD barcode
    barcode := barcode
    ltfsVolumeUuid := (existing.map TapeJson.ltfsVolumeUuid).getD ""
    libraryType := (existing.map TapeJson.libraryType).getD "Quantum Scalar i3"
    createdAt := (existing.map TapeJson.createdAt).getD writtenAt
    lastOpenbladeWriteAt := writtenAt
    openbladeVersion := (existing.map TapeJson.openbladeVersion).getD "0.1.0"
    volumeGroup := (existing.map TapeJson.volumeGroup).getD cartridgeGroup
    pools := (existing.map TapeJson.pools).getD []
    state := (existing.map TapeJson.state).getD "active"
    generation := (existing.map TapeJson.generation).getD "LTO-8"
    notes := (existing.map TapeJson.notes).getD "" }

/-- `_step_update_tape_json`. -/
def stepUpdateTapeJson (cartridgeGroup writtenAt : String) (w : LifecycleWorld) : StepOutcome :=
  let volume := w.tapes barcode
  some (true, w.setTape barcode { volume with tapeJson := some (tapeJsonAfter barcode cartridgeGroup writtenAt volume.tapeJson) })

/-- `_step_mark_file_archived`. -/
def stepMarkFileArchived (w : LifecycleWorld) : StepOutcome :=
  let (found, nas) := w.cat.nas.updateNasFileStatus record.id .offlineOnTape
  some (found, { w with cat := { w.cat with nas := nas } })

end steps

/-- Where a step raises, if it does. -/
inductive StepFault where
  | none
  | before
  | after
  deriving Repr, DecidableEq

/-- `ArchiveLifecycleResult`, all that a file's lifecycle reports. -/
structure FileLifecycleResult where
  fileRecordId : String
  logicalPath : String
  barcode : Barcode
  success : Bool
  stepsCompleted : List String := []
  stepsFailed : List String := []
  errors : List String := []
  finalFileState : NasFileState := .offlineOnTape
  deriving Repr, DecidableEq

/-- `_current_file_state`. -/
def NasCatalog.currentFileState (nas : NasCatalog) (id : String) (fallback : NasFileState) : NasFileState :=
  ((nas.getNasFileRecord id).map NasFileRecord.status).getD fallback

/-- The loop of `complete_file_archive`. -/
def runSteps (record : NasFileRecord) (faults : String → StepFault) (result : FileLifecycleResult) (w : LifecycleWorld) :
    List (String × (LifecycleWorld → StepOutcome)) → FileLifecycleResult × LifecycleWorld
  | [] => ({ result with success := true, finalFileState := w.cat.nas.currentFileState record.id .offlineOnTape }, w)
  | (name, step) :: steps =>
    let halt (error : String) (w : LifecycleWorld) : FileLifecycleResult × LifecycleWorld :=
      ({ result with
          stepsFailed := result.stepsFailed ++ [name]
          errors := result.errors ++ [error]
          finalFileState := w.cat.nas.currentFileState record.id record.status }, w)
    match faults name, step w with
    | .before, _ | _, none => halt (name ++ " encountered an unexpected error") w
    | .after, some (_, w') => halt (name ++ " encountered an unexpected error") w'
    | .none, some (false, w') => halt (name ++ " failed") w'
    | .none, some (true, w') =>
      runSteps record faults { result with stepsCompleted := result.stepsCompleted ++ [name] } w' steps

/-- What happens around an archive: where its steps raise, the times they stamp, and the group that the catalog has for the cartridge. -/
structure LifecycleChoice where
  faults : String → StepFault := fun _ => .none
  generatedAt : String := ""
  writtenAt : String := ""
  cartridgeGroup : String := ""

/-- The six steps of a file, in order. -/
def lifecycleSteps (sha256 : Bytes → String) (record : NasFileRecord) (barcode : Barcode) (tapePath policyName : String)
    (choice : LifecycleChoice) : List (String × (LifecycleWorld → StepOutcome)) :=
  [("verify_checksum", stepVerifyChecksum sha256 record barcode tapePath),
   ("write_manifest", stepWriteManifest record barcode tapePath policyName),
   ("write_catalog_shard", stepWriteCatalogShard record barcode choice.generatedAt),
   ("update_path_mapping", stepUpdatePathMapping record barcode),
   ("update_tape_json", stepUpdateTapeJson barcode choice.cartridgeGroup choice.writtenAt),
   ("mark_file_archived", stepMarkFileArchived record)]

/-- `complete_file_archive`. -/
def completeFileArchive (sha256 : Bytes → String) (record : NasFileRecord) (barcode : Barcode) (tapePath policyName : String)
    (choice : LifecycleChoice) (w : LifecycleWorld) : FileLifecycleResult × LifecycleWorld :=
  runSteps record choice.faults
    { fileRecordId := record.id, logicalPath := record.relativePath, barcode := barcode, success := false
      finalFileState := w.cat.nas.currentFileState record.id record.status } w
    (lifecycleSteps sha256 record barcode tapePath policyName choice)

/-! ### A dataset -/

/-- What the lifecycle of a dataset reports. -/
structure DatasetArchiveResult where
  datasetId : String
  success : Bool := false
  filesCompleted : Nat := 0
  filesFailed : Nat := 0
  fileResults : List FileLifecycleResult := []
  datasetMarkedArchived : Bool := false
  errors : List String := []
  deriving Repr, DecidableEq

/-- `barcode or fallback`. -/
def barcodeOr (barcode : Option Barcode) (fallback : Barcode) : Barcode := (barcode.filter (· ≠ "")).getD fallback

/-- One file of `complete_dataset_archive`. -/
def archiveDatasetFile (sha256 : Bytes → String) (barcode : Barcode) (tapePaths : Dict String String) (policyName : String)
    (fileRecord : NasFileRecord) (choice : LifecycleChoice) (w : LifecycleWorld) : FileLifecycleResult × LifecycleWorld :=
  let current := (w.cat.nas.getNasFileRecord fileRecord.id).getD fileRecord
  let resolved := barcodeOr current.tapeBarcode barcode
  let refused (barcode : Barcode) (error : String) : FileLifecycleResult × LifecycleWorld :=
    ({ fileRecordId := current.id, logicalPath := current.relativePath, barcode := barcode, success := false
       stepsFailed := ["resolve_tape_path"], errors := [error]
       finalFileState := w.cat.nas.currentFileState current.id current.status }, w)
  if resolved = "" then refused barcode "missing barcode for file archive completion"
  else if current.status = .offlineOnTape then
    ({ fileRecordId := current.id, logicalPath := current.relativePath, barcode := resolved, success := true
       finalFileState := .offlineOnTape }, w)
  else
    match (tapePaths.get? current.id).filter (· ≠ "") with
    | none => refused resolved ("missing tape path for file " ++ current.id)
    | some tapePath => completeFileArchive sha256 current resolved tapePath policyName choice w

/-- The files of `complete_dataset_archive`, one after the other. -/
def archiveDatasetFiles (sha256 : Bytes → String) (barcode : Barcode) (tapePaths : Dict String String) (policyName : String)
    (choices : String → LifecycleChoice) (fileRecords : List NasFileRecord) (state : DatasetArchiveResult × LifecycleWorld) :
    DatasetArchiveResult × LifecycleWorld :=
  fileRecords.foldl (fun (result, w) fileRecord =>
    let (fileResult, w) := archiveDatasetFile sha256 barcode tapePaths policyName fileRecord (choices fileRecord.id) w
    let result := { result with fileResults := result.fileResults ++ [fileResult] }
    if fileResult.success then ({ result with filesCompleted := result.filesCompleted + 1 }, w)
    else ({ result with filesFailed := result.filesFailed + 1, errors := result.errors ++ fileResult.errors }, w)) state

/-- The tapes that the file records of a dataset name. -/
def NasCatalog.recordedTapes (nas : NasCatalog) (datasetId : String) : List Barcode :=
  orderedUnique ((nas.listNasFileRecords datasetId).map NasFileRecord.tapeBarcode)

/-- The row that `complete_dataset_archive` writes when every file is archived. -/
def NasCatalog.archivedDataset (nas : NasCatalog) (dataset : NasDataset) (datasetId : String) : NasDataset :=
  let tapeSet := nas.recordedTapes datasetId
  { dataset with
    status := .archived
    tapeSet := tapeSet
    shardMap := tapeSet.map fun barcode =>
      (barcode, (((nas.listNasFileRecords datasetId).filter fun record => record.tapeBarcode = some barcode).map
        NasFileRecord.relativePath).insertionSort (· ≤ ·))
    copiesCompleted := tapeSet.length }

/-- `complete_dataset_archive`. -/
def completeDatasetArchive (sha256 : Bytes → String) (datasetId : String) (fileRecords : List NasFileRecord) (barcode : Barcode)
    (tapePaths : Dict String String) (policyName : String) (choices : String → LifecycleChoice) (w : LifecycleWorld) :
    DatasetArchiveResult × LifecycleWorld :=
  let (result, w) := archiveDatasetFiles sha256 barcode tapePaths policyName choices fileRecords ({ datasetId := datasetId }, w)
  let refreshed := fileRecords.map fun record => (w.cat.nas.getNasFileRecord record.id).getD record
  let allArchived := fileRecords ≠ [] ∧ ∀ record ∈ refreshed, record.status = .offlineOnTape
  let (result, w) :=
    if result.filesFailed = 0 ∧ allArchived then
      match w.cat.nas.getNasDataset datasetId with
      | none => ({ result with errors := result.errors ++ ["dataset " ++ datasetId ++ " not found"] }, w)
      | some dataset =>
        ({ result with datasetMarkedArchived := true },
          { w with cat := { w.cat with nas := w.cat.nas.upsertNasDataset (w.cat.nas.archivedDataset dataset datasetId) } })
    else (result, w)
  let success := result.filesFailed = 0 ∧ result.datasetMarkedArchived
  let errors := if !result.datasetMarkedArchived ∧ result.filesFailed = 0 then result.errors ++ ["dataset not marked archived"]
    else result.errors
  ({ result with success := success, errors := errors }, w)

end OpenBlade
