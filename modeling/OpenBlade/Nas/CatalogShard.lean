import OpenBlade.Codec.Json
import OpenBlade.Nas.Datasets

/-!
# Catalog shards and the path index

What `catalog-shard.json` says of a tape (`nas/catalog_shard.py`), and the index from logical paths to tapes (`nas/path_mapping.py`,
the table `path_mappings`). A row of the index is found by its path and its pool; the dataset is only one of its columns.
-/

namespace OpenBlade

open Effects

/-- A file entry of a catalog shard. -/
structure CatalogShardFileEntry where
  logicalPath : String
  tapePath : String
  datasetId : String
  fileRecordId : String
  poolId : String := ""
  size : Int := 0
  mtime : String := ""
  checksum : String := ""
  fileState : String := "offline_on_tape"
  policy : String := ""
  copyIndex : Int := 1
  verified : Bool := false
  deriving Repr, DecidableEq

/-- A dataset entry of a catalog shard. -/
structure CatalogShardDatasetEntry where
  datasetId : String
  poolId : String := ""
  volumeGroup : String := ""
  policy : String := ""
  ingestMode : String := ""
  fileCount : Nat := 0
  totalBytes : Int := 0
  tapeSet : List Barcode := []
  shardSet : List Barcode := []
  protection : Option Codec.Json := none

structure CatalogShard where
  barcode : Barcode
  openbladeTapeId : String
  volumeGroup : String := ""
  generatedAt : String := ""
  openbladeVersion : String := "0.1.0"
  datasets : List CatalogShardDatasetEntry := []
  files : List CatalogShardFileEntry := []

/-! ### Path mappings -/

/-- `validate_logical_path`: the path that is kept. -/
def validateLogicalPath (path : String) : Option String :=
  if strip path = "" ∨ ".." ∈ splitSlash (strip path) then none else some (strip path)

/-- A row of `path_mappings`. -/
structure PathMappingRecord where
  logicalPath : String
  poolId : String := ""
  datasetId : String := ""
  primaryBarcode : Barcode := ""
  allBarcodes : List Barcode := []
  fileRecordId : String := ""
  fileState : NasFileState := .offlineOnTape
  restoreStrategy : String := "single_tape"
  size : Int := 0
  checksum : String := ""
  deriving Repr, DecidableEq

/-- The columns that are unique together, `uq_path_pool`. -/
def PathMappingRecord.key (record : PathMappingRecord) : String × String := (record.logicalPath, record.poolId)

/-- A record as it is built: its path is checked. -/
def PathMappingRecord.validate (record : PathMappingRecord) : Option PathMappingRecord :=
  (validateLogicalPath record.logicalPath).map fun path => { record with logicalPath := path }

theorem nodup_noMappings : (Dict.keys ([] : Dict (String × String) PathMappingRecord)).Nodup := List.nodup_nil

theorem keyed_noMappings : ∀ row ∈ ([] : Dict (String × String) PathMappingRecord), row.2.key = row.1 := by simp

/-- The index: its rows under their keys. -/
structure PathIndex where
  rows : Dict (String × String) PathMappingRecord := []
  nodup : (Dict.keys rows).Nodup := by first | exact nodup_noMappings | decide
  keyed : ∀ row ∈ rows, row.2.key = row.1 := by first | exact keyed_noMappings | decide

namespace PathIndex

variable (index : PathIndex)

/-- `upsert_path_mapping`, and `record_file`. -/
def upsertPathMapping (record : PathMappingRecord) : PathIndex where
  rows := index.rows.set record.key record
  nodup := Dict.nodup_keys_set index.nodup
  keyed row hrow := (Dict.mem_set hrow).elim (index.keyed row) fun heq => heq ▸ rfl

/-- `get_path_mapping`, and what `lookup` finds. -/
def getPathMapping (logicalPath poolId : String) : Option PathMappingRecord := index.rows.get? (logicalPath, poolId)

theorem getPathMapping_upsert (record : PathMappingRecord) (logicalPath poolId : String) :
    (index.upsertPathMapping record).getPathMapping logicalPath poolId =
      if record.key = (logicalPath, poolId) then some record else index.getPathMapping logicalPath poolId :=
  Dict.get?_set index.rows _ _ _

end PathIndex

/-- `NasFileState(value)`. -/
def NasFileState.ofValue (value : String) : Option NasFileState :=
  match value with
  | "online_cached" => some .onlineCached
  | "offline_on_tape" => some .offlineOnTape
  | "hydrating" => some .hydrating
  | "missing_tape" => some .missingTape
  | "failed" => some .failed
  | "corrupt" => some .corrupt
  | "exported" => some .exported
  | _ => none

/-- The mapping of a file entry, as `shard_to_path_mappings` builds it. -/
def CatalogShard.mappingOf (shard : CatalogShard) (entry : CatalogShardFileEntry) : PathMappingRecord :=
  { logicalPath := entry.logicalPath
    poolId := entry.poolId
    datasetId := entry.datasetId
    primaryBarcode := shard.barcode
    allBarcodes := [shard.barcode]
    fileRecordId := entry.fileRecordId
    fileState := (NasFileState.ofValue entry.fileState).getD .offlineOnTape
    restoreStrategy := "single_tape"
    size := entry.size
    checksum := entry.checksum }

/-- `shard_to_path_mappings`: a path that is refused refuses them all. -/
def CatalogShard.toPathMappings (shard : CatalogShard) : Option (List PathMappingRecord) :=
  shard.files.mapM fun entry => (shard.mappingOf entry).validate

end OpenBlade
