import OpenBlade.Effects.Overwrites
import OpenBlade.Nas.CatalogShard

/-!
# The documents of a tape

`tape.json`, `manifest.json` and the commit markers under `/.openblade` (`nas/ltfs_manifest.py`). The totals of a manifest and of a
shard are those of their files.
-/

namespace OpenBlade

open Effects

def manifestSchemaV1 : String := "openblade.manifest.v1"

def manifestSchemaV2 : String := "openblade.manifest.v2"

/-- `SUPPORTED_MANIFEST_SCHEMAS`. -/
def supportedManifestSchemas : List String := [manifestSchemaV1, manifestSchemaV2]

structure TapeJson where
  schema : String := "openblade.tape.v1"
  openbladeTapeId : String
  barcode : Barcode
  ltfsVolumeUuid : String := ""
  libraryType : String := "Quantum Scalar i3"
  createdAt : String
  lastOpenbladeWriteAt : String
  openbladeVersion : String := "0.1.0"
  volumeGroup : String := ""
  pools : List String := []
  state : String := "active"
  generation : String := "LTO-8"
  notes : String := ""
  currentGeneration : Option String := none
  previousGeneration : Option String := none
  deriving Repr, DecidableEq

structure ManifestFileEntry where
  logicalPath : String
  tapePath : String
  datasetId : String
  fileRecordId : String
  size : Int
  mtime : String := ""
  checksum : String := ""
  copyIndex : Int := 1
  policy : String := ""
  verified : Bool := false
  deriving Repr, DecidableEq

structure ManifestJson where
  schema : String := manifestSchemaV2
  barcode : Barcode
  openbladeTapeId : String
  volumeGroup : String := ""
  pools : List String := []
  datasets : List String := []
  tapeSets : List String := []
  shardSets : List String := []
  files : List ManifestFileEntry := []
  generationId : String := ""
  siblingTapes : List Barcode := []
  placement : String := ""
  protection : Option Codec.Json := none

/-- `_ordered_unique`: texts that are given, each once. -/
def orderedUnique (values : List (Option String)) : List String := gather [] (values.filterMap fun value => value.filter (· ≠ ""))

/-- `sibling_tapes_from_shard`. -/
def siblingTapesFromShard (shard : CatalogShard) : List Barcode :=
  ((orderedUnique (shard.datasets.flatMap fun dataset => (dataset.tapeSet ++ dataset.shardSet).map some)).filter
    (· ≠ shard.barcode)).insertionSort (· ≤ ·)

/-- The manifest that `finalize_tape_generation` writes. -/
def ManifestJson.finalized (manifest : ManifestJson) (generationId : String) (shard : CatalogShard) : ManifestJson :=
  { manifest with generationId := generationId, siblingTapes := siblingTapesFromShard shard }

/-- The `tape.json` that `finalize_tape_generation` writes. -/
def TapeJson.finalized (tapeJson : TapeJson) (generationId writtenAt : String) : TapeJson :=
  { tapeJson with
    currentGeneration := some generationId
    previousGeneration := if tapeJson.currentGeneration = some generationId then none else tapeJson.currentGeneration
    lastOpenbladeWriteAt := writtenAt }

end OpenBlade
