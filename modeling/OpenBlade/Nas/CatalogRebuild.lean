import OpenBlade.Effects.Overwrites
import OpenBlade.Nas.CatalogShard
import OpenBlade.Nas.TapeNames

/-!
# Catalog rebuild

`CatalogRebuildPlanner.execute_rebuild_run`: the rows that the catalog shards of tapes give back. Some columns are those of the last
entry, some those of the first, and the lists of barcodes are gathered. What a protection policy is stored as, once it is read and
written again, is the function `storedPolicy`; a malformed one is none.
-/

namespace OpenBlade

open Effects

/-- The tables a rebuild writes. -/
structure RebuildCatalog where
  nas : NasCatalog := {}
  protections : Dict String String := []
  index : PathIndex := {}
  cartridges : List Barcode := []

/-- `value or None` of a text. -/
def nonEmpty (text : String) : Option String := if text = "" then none else some text

/-- `_parse_ingest_mode`. -/
def parseIngestMode (value : String) : Option IngestMode :=
  if value = "cache_drive" then some .cacheDrive else if value = "source_stream" then some .sourceStream else none

/-- A row that is not there yet, as `existing or {}` reads it. -/
def blankDataset (id : String) : NasDataset := { id := id, name := "" }

def blankFileRecord (id : String) : NasFileRecord := { id := id, datasetId := "", relativePath := "" }

/-- `validate_name` of `existing.get("name") or dataset_id`. -/
def recoveredName (id : String) (existing : NasDataset) : Option String :=
  (stripRequiredString (if existing.name = "" then id else existing.name) "name" 128).toOption

/-- The row of a dataset entry over the row that is there. -/
def CatalogShardDatasetEntry.over (entry : CatalogShardDatasetEntry) (barcode : Barcode) (name : String) (existing : NasDataset) :
    NasDataset :=
  let merged := gather existing.tapeSet (if entry.tapeSet = [] then [barcode] else entry.tapeSet)
  { id := entry.datasetId
    poolId := (nonEmpty entry.poolId).or existing.poolId
    name := name
    sourcePath := existing.sourcePath
    sourceHost := existing.sourceHost
    policyId := (nonEmpty entry.policy).or existing.policyId
    ingestMode := (parseIngestMode entry.ingestMode).or existing.ingestMode
    volumeGroupId := (nonEmpty entry.volumeGroup).or existing.volumeGroupId
    tapeSet := merged
    shardMap := existing.shardMap
    fileCount := entry.fileCount
    totalBytes := entry.totalBytes
    status := .archived
    copiesCompleted := merged.length
    manifestPath := some "/.openblade/manifest.json" }

/-- The row of a file entry over the row that is there. -/
def CatalogShardFileEntry.over (entry : CatalogShardFileEntry) (barcode : Barcode) (existing : NasFileRecord) : NasFileRecord :=
  { id := entry.fileRecordId
    datasetId := entry.datasetId
    poolId := (nonEmpty entry.poolId).or existing.poolId
    relativePath := entry.logicalPath
    sourcePath := existing.sourcePath
    sizeBytes := entry.size
    mtime := (nonEmpty entry.mtime).or existing.mtime
    checksumSha256 := (nonEmpty entry.checksum).or existing.checksumSha256
    tapeBarcode := (existing.tapeBarcode.filter (· ≠ "")).or (some barcode)
    tapeOffset := existing.tapeOffset
    status := .offlineOnTape
    cachePath := none }

/-- Steps one after the other, up to the first that fails; how many made a new row. -/
def recoverEach {σ ε : Type} (step : σ → ε → Option (Bool × σ)) (s : σ) : List ε → Option Nat × σ
  | [] => (some 0, s)
  | e :: es =>
    match step s e with
    | none => (none, s)
    | some (isNew, s') =>
      let (count, final) := recoverEach step s' es
      (count.map (· + isNew.toNat), final)

variable (storedPolicy : Codec.Json → Option String)

/-- What `_recover_dataset_protection` writes, if it does. -/
def CatalogShardDatasetEntry.policyRow (entry : CatalogShardDatasetEntry) : Option String := entry.protection.bind storedPolicy

/-- One entry of `_recover_datasets`. -/
def recoverDataset (barcode : Barcode) (cat : RebuildCatalog) (entry : CatalogShardDatasetEntry) : Option (Bool × RebuildCatalog) :=
  let existing := cat.nas.getNasDataset entry.datasetId
  let row := existing.getD (blankDataset entry.datasetId)
  (recoveredName entry.datasetId row).map fun name =>
    (existing.isNone, { cat with
      nas := cat.nas.upsertNasDataset (entry.over barcode name row)
      protections := match entry.policyRow storedPolicy with
        | none => cat.protections
        | some policy => cat.protections.set entry.datasetId policy })

/-- One entry of `_recover_files`. -/
def recoverFile (barcode : Barcode) (cat : RebuildCatalog) (entry : CatalogShardFileEntry) : Option (Bool × RebuildCatalog) :=
  let existing := cat.nas.getNasFileRecord entry.fileRecordId
  if entry.logicalPath = "" then none
  else some (existing.isNone, { cat with
    nas := cat.nas.upsertNasFileRecord (entry.over barcode (existing.getD (blankFileRecord entry.fileRecordId))) })

/-- One record of `_recover_path_mappings`. -/
def recoverPathMapping (cat : RebuildCatalog) (record : PathMappingRecord) : Option (Bool × RebuildCatalog) :=
  match cat.index.getPathMapping record.logicalPath record.poolId with
  | none => some (true, { cat with index := cat.index.upsertPathMapping record })
  | some existing =>
    some (false, { cat with
      index := cat.index.upsertPathMapping { record with allBarcodes := gather existing.allBarcodes record.allBarcodes } })

/-- What a rebuild reads of a tape: its catalog shard, and whether the manifest versions can be read. -/
structure TapeReading where
  shard : Option CatalogShard
  versionsReadable : Bool := true

/-- How many rows of each kind are new. -/
structure Recovered where
  datasets : Nat := 0
  files : Nat := 0
  pathMappings : Nat := 0
  deriving Repr, DecidableEq

/-- The rows of one tape. What was written before a failure stays. -/
def recoverShard (barcode : Barcode) (versionsReadable : Bool) (cat : RebuildCatalog) (shard : CatalogShard) :
    Option Recovered × RebuildCatalog :=
  match recoverEach (recoverDataset storedPolicy barcode) cat shard.datasets with
  | (none, cat) => (none, cat)
  | (some datasets, cat) =>
    match recoverEach (recoverFile barcode) cat shard.files with
    | (none, cat) => (none, cat)
    | (some files, cat) =>
      match shard.toPathMappings with
      | none => (none, cat)
      | some records =>
        match recoverEach recoverPathMapping cat records with
        | (none, cat) => (none, cat)
        | (some pathMappings, cat) =>
          (if versionsReadable then some { datasets := datasets, files := files, pathMappings := pathMappings } else none, cat)

/-- The columns of a rebuild run that its execution writes. -/
structure RebuildRun where
  completed : List Barcode := []
  failed : List Barcode := []
  errorSummary : List String := []
  recovered : Recovered := {}
  deriving Repr, DecidableEq

/-- One barcode of `execute_rebuild_run`. -/
def rebuildTape (tapes : Barcode → TapeReading) (state : RebuildRun × RebuildCatalog) (barcode : Barcode) : RebuildRun × RebuildCatalog :=
  let (run, cat) := state
  match (tapes barcode).shard with
  | none =>
    ({ run with
        failed := run.failed ++ [barcode]
        errorSummary := run.errorSummary ++ ["catalog shard unavailable for " ++ barcode] }, cat)
  | some shard =>
    let cat := { cat with cartridges := if barcode ∈ cat.cartridges then cat.cartridges else cat.cartridges ++ [barcode] }
    match recoverShard storedPolicy barcode (tapes barcode).versionsReadable cat shard with
    | (none, cat) =>
      ({ run with
          failed := run.failed ++ [barcode]
          errorSummary := run.errorSummary ++ ["failed to recover catalog data for " ++ barcode] }, cat)
    | (some recovered, cat) =>
      ({ run with
          completed := run.completed ++ [barcode]
          recovered :=
            { datasets := run.recovered.datasets + recovered.datasets
              files := run.recovered.files + recovered.files
              pathMappings := run.recovered.pathMappings + recovered.pathMappings } }, cat)

/-- `execute_rebuild_run`, over the planned barcodes. -/
def executeRebuildRun (tapes : Barcode → TapeReading) (planned : List Barcode) (cat : RebuildCatalog) : RebuildRun × RebuildCatalog :=
  planned.foldl (rebuildTape storedPolicy tapes) ({}, cat)

end OpenBlade
