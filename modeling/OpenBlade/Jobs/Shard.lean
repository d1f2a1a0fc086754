import OpenBlade.Calls

/-!
# The shard engine

Splitting a file over lanes and putting it together again (`jobs/shard.py`).
-/

namespace OpenBlade

open Effects Proc

variable {L : Type}

/-- Describes what one lane holds of a file. -/
structure ShardSpec where
  shardIndex : Nat
  shardTotal : Nat
  barcode : Barcode
  tapePath : String
  blockStart : Nat
  blockEnd : Nat
  shardGroupId : String
  deriving Repr, DecidableEq

structure ShardPlan where
  source : SourceFile
  fileSize : Nat
  checksumSha256 : String
  mode : ShardMode
  shards : List ShardSpec
  shardGroupId : String
  deriving Repr, DecidableEq

/-- Reading a file in blocks until a read gives nothing. -/
def readBlocks (blockSize : Nat) : Nat → Bytes → List Bytes
  | 0, _ => []
  | fuel + 1, rest =>
    let chunk := rest.take blockSize
    if chunk = [] then [] else chunk :: readBlocks blockSize fuel (rest.drop blockSize)

/-- The blocks of a file. -/
def blocks (blockSize : Nat) (content : Bytes) : List Bytes := readBlocks blockSize (content.length + 1) content

/-- Every `shardTotal`-th block, from the block `shardIndex` on. -/
def shardBlocks (shardIndex shardTotal : Nat) (bs : List Bytes) : List Bytes :=
  (bs.zipIdx.filter fun block => block.2 % shardTotal = shardIndex).map Prod.fst

/-- What `write_shard_to_tempfile` writes. -/
def shardContent (content : Bytes) (shardIndex shardTotal blockSize : Nat) : Bytes :=
  (shardBlocks shardIndex shardTotal (blocks blockSize content)).flatten

/-- One turn through the shard files: what is written, what is left of them, and whether a read gave nothing. -/
def reassembleRound (blockSize : Nat) : List Bytes → Bytes × List Bytes × Bool
  | [] => ([], [], false)
  | shard :: shards =>
    let chunk := shard.take blockSize
    if chunk = [] then ([], shard :: shards, true)
    else
      let (out, rest, done) := reassembleRound blockSize shards
      (chunk ++ out, shard.drop blockSize :: rest, done)

def reassembleRounds (blockSize : Nat) : Nat → List Bytes → Bytes
  | 0, _ => []
  | fuel + 1, shards =>
    let (out, rest, done) := reassembleRound blockSize shards
    if done then out else out ++ reassembleRounds blockSize fuel rest

/-- What `reassemble_block_stripe` writes. -/
def reassemble (blockSize : Nat) (shards : List Bytes) : Bytes :=
  reassembleRounds blockSize ((shards.map List.length).sum + 1) shards

/-- `compute_checksum`, and `sha256sum`. -/
def computeChecksum (sha256 : Bytes → String) (file : SourceFile) : JobM L String := do
  let content ← readSource file
  pure (sha256 content)

/-- `source_file.stat().st_size`. -/
def sourceSize (file : SourceFile) : JobM L Nat := do
  let content ← readSource file
  pure content.length

theorem looks_computeChecksum (sha256 : Bytes → String) (file : SourceFile) : Looks (computeChecksum sha256 file : JobM L _) :=
  only_bind (only_perform rfl) fun _ => only_pure _

theorem looks_sourceSize (file : SourceFile) : Looks (sourceSize file : JobM L _) :=
  only_bind (only_perform rfl) fun _ => only_pure _

/-- The bytes each lane gets. -/
def laneSizes (fileSize blockSize laneCount : Nat) : List Nat :=
  let numBlocks := max 1 ((fileSize + blockSize - 1) / blockSize)
  (List.range numBlocks).foldl
    (fun sizes blockIndex =>
      let blockStart := blockIndex * blockSize
      sizes.modify (blockIndex % laneCount) (· + (min (blockStart + blockSize) fileSize - blockStart)))
    (List.replicate laneCount 0)

/-- `f"{catalog_base_path}/{group_id}/{source_path.name}.shard{lane_index:04d}"`. -/
def shardTapePath (basePath groupId : String) (file : SourceFile) (laneIndex : Nat) : String :=
  basePath ++ "/" ++ groupId ++ "/" ++ file.name ++ ".shard" ++ pad4 laneIndex

/-- The shards of a plan. -/
def planShards (file : SourceFile) (laneBarcodes : List Barcode) (basePath groupId : String) (sizes : List Nat) :
    List ShardSpec :=
  laneBarcodes.zipIdx.map fun (barcode, laneIndex) =>
    { shardIndex := laneIndex, shardTotal := laneBarcodes.length, barcode := barcode
      tapePath := shardTapePath basePath groupId file laneIndex, blockStart := 0, blockEnd := sizes.getD laneIndex 0
      shardGroupId := groupId }

/-- `plan_block_stripe`. -/
def planBlockStripe (sha256 : Bytes → String) (file : SourceFile) (laneBarcodes : List Barcode) (basePath : String)
    (blockSize : Nat) : JobM L ShardPlan :=
  if laneBarcodes.length < 2 then
    raise { cls := .assertion, message := "BLOCK_STRIPE requires at least 2 lanes" }
  else do
    let fileSize ← sourceSize file
    let checksum ← computeChecksum sha256 file
    let groupId ← uuid4
    if blockSize = 0 then raise { cls := .zeroDivision, message := "integer division or modulo by zero" }
    else
      pure
        { source := file, fileSize := fileSize, checksumSha256 := checksum, mode := .blockStripe
          shards := planShards file laneBarcodes basePath groupId (laneSizes fileSize blockSize laneBarcodes.length)
          shardGroupId := groupId }

theorem looks_planBlockStripe (sha256 : Bytes → String) (file : SourceFile) (laneBarcodes : List Barcode) (basePath : String)
    (blockSize : Nat) : Looks (planBlockStripe sha256 file laneBarcodes basePath blockSize : JobM L _) := by
  refine only_ite (fun _ => only_raise _) fun _ => only_bind (looks_sourceSize file) fun size => ?_
  refine only_bind (looks_computeChecksum sha256 file) fun checksum => only_bind (only_perform rfl) fun groupId => ?_
  exact only_ite (fun _ => only_raise _) fun _ => only_pure _

/-- `write_shard_to_tempfile`: the temporary file, by its content. -/
def writeShardToTempfile (file : SourceFile) (shardIndex shardTotal blockSize : Nat) : JobM L Bytes := do
  let content ← readSource file
  scratch
  pure (shardContent content shardIndex shardTotal blockSize)

theorem looks_writeShardToTempfile (file : SourceFile) (shardIndex shardTotal blockSize : Nat) :
    Looks (writeShardToTempfile file shardIndex shardTotal blockSize : JobM L _) :=
  only_bind (only_perform rfl) fun _ => only_bind (only_perform rfl) fun _ => only_pure _

end OpenBlade
