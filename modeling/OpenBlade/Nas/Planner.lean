import Mathlib
import OpenBlade.Nas.Types

/-!
# The archive planner

`nas/planner.py`: a dry run that says which files go on which tapes. One planner fills tape after tape, directory by directory; one
spreads the files over the tapes by a strategy; and one chooses between the two.
-/

namespace OpenBlade

open Effects

inductive PolicyType where
  | criticalSequential
  | noncriticalSharded
  | balanced
  deriving Repr, DecidableEq

inductive IngestMode where
  | cacheDrive
  | sourceStream
  deriving Repr, DecidableEq

inductive ShardStrategy where
  | roundRobin
  | capacityWeighted
  | directoryBatch
  | hashPrefix
  | restoreParallelismOptimized
  deriving Repr, DecidableEq

/-! ### Media -/

inductive MediaGeneration where
  | unknown
  | lto5
  | lto6
  | lto7
  | lto8
  | lto9
  deriving Repr, DecidableEq

namespace MediaGeneration

def name : MediaGeneration → String
  | unknown => "UNKNOWN"
  | lto5 => "LTO5"
  | lto6 => "LTO6"
  | lto7 => "LTO7"
  | lto8 => "LTO8"
  | lto9 => "LTO9"

/-- `_WRITE`: a drive writes its own generation and the one before it. -/
def writes : MediaGeneration → List MediaGeneration
  | unknown => []
  | lto5 => [lto5]
  | lto6 => [lto5, lto6]
  | lto7 => [lto6, lto7]
  | lto8 => [lto7, lto8]
  | lto9 => [lto8, lto9]

end MediaGeneration

def canWrite (driveGen mediaGen : MediaGeneration) : Bool := driveGen.writes.contains mediaGen

/-- A cartridge as the planner is told of it. -/
structure MediaCartridge where
  barcode : Barcode
  generation : MediaGeneration := .unknown
  hasTapeJson : Bool := false
  adopted : Bool := false
  deriving Repr, DecidableEq

/-- Media OpenBlade did not format and that was not adopted. -/
def isForeign (cartridge : MediaCartridge) : Bool := !cartridge.hasTapeJson && !cartridge.adopted

def foreignMediaError (barcode : Barcode) : Exn :=
  { cls := .other "ForeignMediaError", message := "cartridge " ++ barcode ++ " is foreign media; adopt it before use" }

def incompatibleMediaError (driveGen mediaGen : MediaGeneration) (op : String) : Exn :=
  { cls := .other "IncompatibleMediaError"
    message := driveGen.name ++ " drive cannot " ++ op ++ " " ++ mediaGen.name ++ " media" }

/-- `require_writable`. -/
def requireWritable (cartridge : MediaCartridge) (driveGen : MediaGeneration) : Except Exn Unit :=
  if isForeign cartridge then .error (foreignMediaError cartridge.barcode)
  else if !canWrite driveGen cartridge.generation then .error (incompatibleMediaError driveGen cartridge.generation "write")
  else .ok ()

/-! ### Requests and plans -/

structure ArchivePlanWarning where
  level : String := "warning"
  message : String
  field : Option String := none
  deriving Repr, DecidableEq

structure ArchivePlanRequest where
  policyId : Option String := none
  policyType : Option PolicyType := none
  ingestMode : IngestMode := .cacheDrive
  sourcePath : Option String := none
  pool : Option String := none
  volumeGroup : Option String := none
  files : List String := []
  fileSizes : Dict String Int := []
  availableTapes : List Barcode := []
  tapeCapacities : Dict Barcode Int := []
  copies : Int := 1
  verifyBeforeArchive : Bool := true
  verifyAfterArchive : Bool := true
  shardSizeBytes : Option Int := none
  shardStrategy : Option ShardStrategy := none
  maxParallelism : Nat := 1
  cartridges : Dict Barcode MediaCartridge := []
  driveGeneration : Option MediaGeneration := none
  reservedBytes : Dict Barcode Int := []
  poolReservedBytes : Int := 0
  deriving Repr, DecidableEq

/-- A plan, without its id and its date. -/
structure ArchivePlan where
  policyName : Option String := none
  policyType : Option PolicyType := none
  ingestMode : IngestMode := .cacheDrive
  sourcePath : Option String := none
  pool : Option String := none
  volumeGroup : Option String := none
  files : List String := []
  totalFiles : Nat := 0
  totalBytes : Int := 0
  tapeAssignments : List TapeAssignment := []
  estimatedTapeSwaps : Nat := 0
  estimatedParallelism : Nat := 1
  copiesRequired : Int := 1
  verifyBeforeArchive : Bool := true
  verifyAfterArchive : Bool := true
  shardSizeBytes : Option Int := none
  capacityWarnings : List ArchivePlanWarning := []
  safetyWarnings : List ArchivePlanWarning := []
  isSafeToEnqueue : Bool := true
  enqueueBlockers : List String := []
  deriving Repr, DecidableEq

namespace ArchivePlan

def addCapacityWarning (plan : ArchivePlan) (message : String) (field : Option String := none) : ArchivePlan :=
  { plan with capacityWarnings := plan.capacityWarnings ++ [{ message := message, field := field }] }

def addSafetyWarning (plan : ArchivePlan) (message : String) (field : Option String := none) : ArchivePlan :=
  { plan with safetyWarnings := plan.safetyWarnings ++ [{ message := message, field := field }] }

/-- `_block_plan`. -/
def block (plan : ArchivePlan) (message : String) : ArchivePlan :=
  { plan with
    enqueueBlockers := if message ∈ plan.enqueueBlockers then plan.enqueueBlockers else plan.enqueueBlockers ++ [message]
    isSafeToEnqueue := false }

/-- The last line of both planners. -/
def settle (plan : ArchivePlan) : ArchivePlan := { plan with isSafeToEnqueue := plan.enqueueBlockers.length == 0 }

end ArchivePlan

/-- What the planner takes from Python's own library: the case mappings of `str`, and `int(value * (percent / 100))` in floating
point. -/
structure PlannerText where
  upper : String → String
  lower : String → String
  percentOf : Nat → Int → Int

/-! ### Reading a request -/

def defaultTapeCapacity : Int := 12000000000000

def restoreThroughputBytesPerSecond : Int := 300000000

def restoreTimeShardThresholdSeconds : Int := 8 * 60 * 60

def balancedShardFileThreshold : Nat := 50000

def poolBudgetBlocker : String := "Insufficient pool capacity after reservations"

/-- `_make_relative`. -/
def makeRelative (filepath : String) (sourcePath : Option String) : String :=
  match sourcePath with
  | none => lstripSlash filepath
  | some source =>
    if source ≠ "" ∧ source.toList.isPrefixOf filepath.toList then
      lstripSlash (String.ofList (filepath.toList.drop source.toList.length))
    else lstripSlash filepath

def relativeFiles (files : List String) (sourcePath : Option String) : List String :=
  files.map fun file => makeRelative file sourcePath

/-- One file of `_directory_groups`: the groups, the directory of the last one and the last one; no directory is no group yet. -/
def directoryStep : List (List String) × Option String × List String → String → List (List String) × Option String × List String
  | (groups, currentDirectory, currentGroup), file =>
    if currentDirectory = none ∨ currentDirectory = some (dirname file) then (groups, some (dirname file), currentGroup ++ [file])
    else (groups ++ [currentGroup], some (dirname file), [file])

/-- `_directory_groups`: the runs of files with one directory. -/
def directoryGroups (files : List String) : List (List String) :=
  let (groups, _, currentGroup) := files.foldl directoryStep ([], none, [])
  if currentGroup ≠ [] then groups ++ [currentGroup] else groups

namespace ArchivePlanRequest

def fileSize (request : ArchivePlanRequest) (path : String) : Int := (Dict.get? request.fileSizes path).getD 0

def totalSize (request : ArchivePlanRequest) (files : List String) : Int := (files.map request.fileSize).sum

/-- `_tape_capacity`: what a tape has left for a plan. -/
def tapeCapacity (request : ArchivePlanRequest) (barcode : Barcode) : Int :=
  max 0 ((Dict.get? request.tapeCapacities barcode).getD defaultTapeCapacity - (Dict.get? request.reservedBytes barcode).getD 0)

def singleTapeCapacity (request : ArchivePlanRequest) : Int :=
  (request.availableTapes.map request.tapeCapacity).max?.getD defaultTapeCapacity

def poolCapacityBytes (request : ArchivePlanRequest) : Int := (request.availableTapes.map request.tapeCapacity).sum

/-- `_check_media`. -/
def checkMedia (request : ArchivePlanRequest) : Except Exn Unit :=
  request.availableTapes.forM fun barcode =>
    match Dict.get? request.cartridges barcode with
    | none => .ok ()
    | some cartridge =>
      if isForeign cartridge then .error (foreignMediaError barcode)
      else
        match request.driveGeneration with
        | none => .ok ()
        | some driveGeneration => requireWritable cartridge driveGeneration

/-- `_first_split_index`. -/
def firstSplitIndex (request : ArchivePlanRequest) (capacity consumed : Int) : List String → Nat
  | [] => 0
  | file :: files =>
    if consumed + request.fileSize file > capacity then 0
    else request.firstSplitIndex capacity (consumed + request.fileSize file) files + 1

end ArchivePlanRequest

section planner

variable (text : PlannerText) (request : ArchivePlanRequest)

/-- `_is_scratch_tape`. -/
def isScratchTape (barcode : Barcode) : Bool :=
  "SCR".toList.isPrefixOf (text.upper barcode).toList || decide ("SCRATCH".toList <:+: (text.upper barcode).toList)

/-- `_ordered_tapes`: scratch tapes come last. -/
def orderedTapes : List Barcode :=
  request.availableTapes.filter (fun barcode => !isScratchTape text barcode) ++
    request.availableTapes.filter fun barcode => isScratchTape text barcode

/-- `_check_pool_budget`. -/
def checkPoolBudget (plan : ArchivePlan) : ArchivePlan :=
  if request.pool = none then plan
  else if plan.totalBytes * plan.copiesRequired > request.poolCapacityBytes - request.poolReservedBytes then
    plan.block poolBudgetBlocker
  else plan

/-- `_apply_common_checks`. -/
def applyCommonChecks (plan : ArchivePlan) : ArchivePlan :=
  let plan := if request.files = [] then plan.block "No files to archive" else plan
  let plan := if request.availableTapes = [] then plan.block "No tapes available" else plan
  let plan :=
    if plan.copiesRequired > request.availableTapes.length then
      plan.addCapacityWarning "Requested copies exceed number of available tapes" (some "copies")
    else plan
  checkPoolBudget request plan

/-! ### Tape after tape -/

/-- The variables of the loop over groups. -/
structure Sequential where
  plan : ArchivePlan
  assignments : List TapeAssignment := []
  tapeIndex : Nat := 0
  deriving Repr, DecidableEq

namespace Sequential

/-- A first assignment for the tape at `tapeIndex`. -/
def openTape (st : Sequential) (barcode : Barcode) : Sequential :=
  { st with
    assignments := st.assignments ++ [{ barcode := barcode, files := [] }]
    plan :=
      if isScratchTape text barcode then
        st.plan.addCapacityWarning ("Using scratch tape " ++ barcode ++ " because no preferred tape was available")
          (some "available_tapes")
      else st.plan }

/-- Files put into the assignment of the tape at `tapeIndex`. -/
def extend (st : Sequential) (files : List String) : Sequential :=
  { st with
    assignments := st.assignments.modify st.tapeIndex fun assignment =>
      { assignment with
        files := assignment.files ++ relativeFiles files request.sourcePath
        estimatedBytes := assignment.estimatedBytes + request.totalSize files } }

def nextTape (st : Sequential) : Sequential := { st with tapeIndex := st.tapeIndex + 1 }

/-- The plan handed back early. -/
def giveUp (st : Sequential) (message : String) : ArchivePlan :=
  { st.plan.block message with tapeAssignments := st.assignments }

end Sequential

/-- The `while` loop over one group, on the tapes from `tapeIndex` on; a plan handed back early is an error. -/
def placeGroup : List Barcode → Sequential → List String → Except ArchivePlan Sequential
  | [], st, _ => .error (st.giveUp "Insufficient tape capacity for all files")
  | barcode :: tapes, st, group =>
    let capacity := request.tapeCapacity barcode
    let groupBytes := request.totalSize group
    let found := st.assignments[st.tapeIndex]?
    let remainingBytes := capacity - (found.map TapeAssignment.estimatedBytes).getD 0
    if found ≠ none ∧ groupBytes > remainingBytes ∧ groupBytes ≤ capacity then placeGroup tapes st.nextTape group
    else
      let st := if found = none then st.openTape text barcode else st
      if groupBytes ≤ remainingBytes then .ok (st.extend request group)
      else
        let splitIndex := request.firstSplitIndex remainingBytes 0 group
        if splitIndex = 0 then
          if (found.map TapeAssignment.files).getD [] ≠ [] then placeGroup tapes st.nextTape group
          else .error (st.giveUp ("File " ++ group.headD "" ++ " exceeds available tape capacity"))
        else placeGroup tapes (st.extend request (group.take splitIndex)).nextTape (group.drop splitIndex)

/-- The loop over groups. -/
def placeGroups (tapes : List Barcode) (st : Sequential) : List (List String) → Except ArchivePlan Sequential
  | [] => .ok st
  | group :: groups => do placeGroups tapes (← placeGroup text request (tapes.drop st.tapeIndex) st group) groups

/-- Every tape but the first takes what spilled over. -/
def markSpillovers (assignments : List TapeAssignment) : List TapeAssignment :=
  assignments.mapIdx fun index assignment => { assignment with isSpillover := decide (index > 0) }

/-- The warnings of the sequential planner. -/
def warnSequential (plan : ArchivePlan) : ArchivePlan :=
  let plan :=
    if plan.totalBytes > text.percentOf 80 request.singleTapeCapacity then
      plan.addCapacityWarning "Dataset exceeds 80% of a single tape capacity" (some "total_bytes")
    else plan
  if request.ingestMode = .sourceStream then
    plan.addSafetyWarning ("Source-stream mode requires source files to remain stable and online. For critical datasets, " ++
      "cache-drive mode is safer unless the source supports snapshots.") (some "ingest_mode")
  else plan

/-- All files on one tape. -/
def placeOnOneTape (plan : ArchivePlan) (fittingTape : Barcode) : ArchivePlan :=
  let plan :=
    { plan with
      tapeAssignments :=
        [{ barcode := fittingTape, files := relativeFiles plan.files request.sourcePath, estimatedBytes := plan.totalBytes }] }
  let plan :=
    if isScratchTape text fittingTape then
      plan.addCapacityWarning ("Using scratch tape " ++ fittingTape ++ " because no preferred tape had enough capacity")
        (some "available_tapes")
    else plan
  { plan with estimatedTapeSwaps := 0 }.settle

/-- The first tape that takes all files, or else tape after tape. -/
def placeSequentially (plan : ArchivePlan) : ArchivePlan :=
  let tapes := orderedTapes text request
  match tapes.find? fun barcode => request.tapeCapacity barcode ≥ plan.totalBytes with
  | some fittingTape => placeOnOneTape text request plan fittingTape
  | none =>
    match placeGroups text request tapes { plan := plan } (directoryGroups plan.files) with
    | .error blocked => blocked
    | .ok st =>
      { st.plan with
        tapeAssignments := markSpillovers st.assignments
        estimatedTapeSwaps := st.assignments.length - 1 }.settle

/-- `_plan_critical_sequential`. -/
def planCriticalSequential (plan : ArchivePlan) : ArchivePlan :=
  placeSequentially text request (warnSequential text request plan)

/-! ### Spread over the tapes -/

/-- `tape_positions[barcode]`. -/
def tapePosition (tapes : List Barcode) (barcode : Barcode) : Nat := (Dict.get? (Dict.ofPairs tapes.zipIdx) barcode).getD 0

/-- The variables of the sharded planner. -/
structure Sharding where
  plan : ArchivePlan
  remaining : Dict Barcode Int
  assignments : Dict Barcode TapeAssignment := []
  shardFillBytes : Dict Barcode Int
  oversizedShardFiles : List String := []
  deriving Repr, DecidableEq

namespace Sharding

/-- `remaining[barcode]`. -/
def remainingOf (st : Sharding) (barcode : Barcode) : Int := (Dict.get? st.remaining barcode).getD 0

/-- `shard_fill_bytes[barcode]`. -/
def shardFillOf (st : Sharding) (barcode : Barcode) : Int := (Dict.get? st.shardFillBytes barcode).getD 0

/-- Whether a file of this size goes on a tape. -/
def accepts (st : Sharding) (size : Int) (barcode : Barcode) : Bool :=
  !decide (st.remainingOf barcode < size) &&
    match request.shardSizeBytes with
    | none => true
    | some shardSizeBytes => !decide (st.shardFillOf barcode > 0 ∧ st.shardFillOf barcode + size > shardSizeBytes)

/-- Put a file on a tape. -/
def place (st : Sharding) (tapes : List Barcode) (barcode : Barcode) (file : String) : Sharding :=
  let size := request.fileSize file
  let assignment := (Dict.get? st.assignments barcode).getD
    { barcode := barcode, files := [], shardIndex := some (tapePosition tapes barcode) }
  { st with
    assignments := Dict.set st.assignments barcode
      { assignment with
        files := assignment.files ++ [makeRelative file request.sourcePath]
        estimatedBytes := assignment.estimatedBytes + size }
    remaining := Dict.set st.remaining barcode (st.remainingOf barcode - size)
    shardFillBytes :=
      if request.shardSizeBytes = none then st.shardFillBytes
      else Dict.set st.shardFillBytes barcode (st.shardFillOf barcode + size) }

/-- A file larger than a shard may be is noted. -/
def noteOversized (st : Sharding) (file : String) : Sharding :=
  match request.shardSizeBytes with
  | none => st
  | some shardSizeBytes =>
    if request.fileSize file > shardSizeBytes then { st with oversizedShardFiles := st.oversizedShardFiles ++ [file] } else st

/-- Every shard is full: begin new ones. -/
def resetShards (st : Sharding) : Sharding := { st with shardFillBytes := Dict.mapValues (fun _ => 0) st.shardFillBytes }

end Sharding

/-- `assign_file`: the preferred tape first; when no shard takes the file, once more with new shards. -/
def assignFile (tapes : List Barcode) (preferredTape : Barcode) (file : String) (st : Sharding) : Bool × Sharding :=
  let size := request.fileSize file
  let st := st.noteOversized request file
  let orderedChoices := preferredTape :: tapes.filter (· ≠ preferredTape)
  match orderedChoices.find? (st.accepts request size) with
  | some barcode => (true, st.place request tapes barcode file)
  | none =>
    let st := if request.shardSizeBytes = none then st else st.resetShards
    match orderedChoices.find? (st.accepts request size) with
    | some barcode => (true, st.place request tapes barcode file)
    | none => (false, { st with plan := st.plan.block ("Insufficient tape capacity for file " ++ file) })

/-- A loop over files that stops at the first one no tape takes; `prefer` is told the index of the file. -/
def assignFiles (tapes : List Barcode) (prefer : Nat → String → Sharding → Except Exn Barcode) :
    Nat → List String → Sharding → Except Exn Sharding
  | _, [], st => .ok st
  | index, file :: files, st => do
    match assignFile request tapes (← prefer index file st) file st with
    | (true, st) => assignFiles tapes prefer (index + 1) files st
    | (false, st) => .ok st

/-- `tapes[index % len(tapes)]`. -/
def tapeAt (tapes : List Barcode) (index : Nat) : Except Exn Barcode :=
  if tapes = [] then .error { cls := .zeroDivision, message := "integer modulo by zero" }
  else .ok (tapes.getD (index % tapes.length) "")

/-- Numbers in keys are compared in their linear order. -/
instance keyOrder : PartialOrder Int := Int.instLinearOrder.toPartialOrder

/-- `max(tapes, key=...)`: the tape with the most room, the first of them. -/
def roomiestTape (tapes : List Barcode) (st : Sharding) : Except Exn Barcode :=
  match tapes.argmax fun barcode => toLex (st.remainingOf barcode, -(tapePosition tapes barcode : Int)) with
  | some barcode => .ok barcode
  | none => .error { cls := .valueError, message := "max() iterable argument is empty" }

/-- The tape `HASH_PREFIX` prefers: by the code point of the first letter of the file's name. -/
def hashedTape (tapes : List Barcode) (file : String) : Except Exn Barcode :=
  let filename := if basename file = "" then file else basename file
  match filename.toList with
  | [] => tapeAt tapes 0
  | letter :: _ =>
    match (text.lower (String.ofList [letter])).toList with
    | [c] => tapeAt tapes c.toNat
    | chars => .error { cls := .other "TypeError"
                        message := "ord() expected a character, but string of length " ++ toString chars.length ++ " found" }

/-- The loop of `DIRECTORY_BATCH`. A group that fits on one tape is sent there whole, but a file no tape takes does not end the loop
then. -/
def assignGroups (tapes : List Barcode) : List (List String) → Sharding → Except Exn Sharding
  | [], st => .ok st
  | group :: groups, st => do
    let preferredTape ← roomiestTape tapes st
    if st.remainingOf preferredTape ≥ request.totalSize group then
      assignGroups tapes groups (← assignFiles request tapes (fun _ _ _ => .ok preferredTape) 0 group st)
    else
      let st ← assignFiles request tapes (fun _ _ st => roomiestTape tapes st) 0 group st
      if st.plan.enqueueBlockers ≠ [] then .ok st else assignGroups tapes groups st

/-- The loop of `RESTORE_PARALLELISM_OPTIMIZED`: the tape with the least load first. -/
def assignByLoad (tapes : List Barcode) : List String → Dict Barcode Int → Sharding → Except Exn Sharding
  | [], _, st => .ok st
  | file :: files, tapeLoads, st => do
    let load (barcode : Barcode) : Int := (Dict.get? tapeLoads barcode).getD 0
    match tapes.argmin fun barcode => toLex (load barcode, toLex (-(st.remainingOf barcode), tapePosition tapes barcode)) with
    | none => .error { cls := .valueError, message := "min() iterable argument is empty" }
    | some preferredTape =>
      match assignFile request tapes preferredTape file st with
      | (false, st) => .ok st
      | (true, st) =>
        match st.assignments.find? fun entry => makeRelative file request.sourcePath ∈ entry.2.files with
        | none => .error { cls := .other "StopIteration", message := "" }
        | some (placedTape, _) =>
          assignByLoad tapes files (Dict.set tapeLoads placedTape (load placedTape + request.fileSize file)) st

/-- The files from the largest down. -/
def sizedFiles (files : List String) : List String :=
  files.insertionSort fun a b => toLex (request.fileSize b, b) ≤ toLex (request.fileSize a, a)

def oversizedWarning (shardSizeBytes : Int) (oversized : List String) : String :=
  let sample := ", ".intercalate (relativeFiles (oversized.take 3) request.sourcePath)
  toString oversized.length ++ " file(s) exceed configured shard_size_bytes (" ++ toString shardSizeBytes ++
    ") and were assigned as oversized shards: " ++ if oversized.length > 3 then sample ++ ", ..." else sample

/-- The sharded planner before any file is placed. -/
def Sharding.start (plan : ArchivePlan) (tapes : List Barcode) : Sharding :=
  { plan := plan, remaining := Dict.ofPairs (tapes.map fun barcode => (barcode, request.tapeCapacity barcode))
    shardFillBytes := Dict.ofPairs (tapes.map fun barcode => (barcode, 0)) }

/-- The loop of the strategy. -/
def runStrategy (tapes : List Barcode) (files : List String) (st : Sharding) : Except Exn Sharding :=
  match request.shardStrategy.getD .roundRobin with
  | .roundRobin => assignFiles request tapes (fun index _ _ => tapeAt tapes index) 0 files st
  | .capacityWeighted => assignFiles request tapes (fun _ _ st => roomiestTape tapes st) 0 files st
  | .directoryBatch => assignGroups request tapes (directoryGroups files) st
  | .hashPrefix => assignFiles request tapes (fun _ file _ => hashedTape text tapes file) 0 files st
  | .restoreParallelismOptimized => assignByLoad request tapes (sizedFiles request files) [] st

/-- The plan when the loop is over. -/
def Sharding.finish (st : Sharding) (tapes : List Barcode) : ArchivePlan :=
  let orderedAssignments := tapes.filterMap (Dict.get? st.assignments)
  let plan := { st.plan with tapeAssignments := orderedAssignments
                             estimatedParallelism := min orderedAssignments.length request.maxParallelism
                             estimatedTapeSwaps := 0 }
  let plan := match request.shardSizeBytes with
    | some shardSizeBytes =>
      if st.oversizedShardFiles ≠ [] then
        plan.addCapacityWarning (oversizedWarning request shardSizeBytes st.oversizedShardFiles) (some "shard_size_bytes")
      else plan
    | none => plan
  plan.settle

/-- `_plan_noncritical_sharded`. -/
def planNoncriticalSharded (plan : ArchivePlan) : Except Exn ArchivePlan := do
  let tapes := orderedTapes text request
  let st ← runStrategy text request tapes plan.files (Sharding.start request plan tapes)
  .ok (st.finish request tapes)

/-! ### Either of the two -/

/-- `request.model_copy`, with another policy and strategy. -/
def ArchivePlanRequest.withPolicy (policyType : PolicyType) (shardStrategy : Option ShardStrategy) : ArchivePlanRequest :=
  { request with policyType := some policyType, shardStrategy := shardStrategy }

/-- Why a plan is not left on one tape. -/
def shardingReasons (plan : ArchivePlan) : List String :=
  ["dataset size exceeds 85% of single tape capacity"] ++
    (if plan.totalFiles > balancedShardFileThreshold then ["file count exceeds " ++ toString balancedShardFileThreshold] else []) ++
    (if plan.totalBytes > restoreTimeShardThresholdSeconds * restoreThroughputBytesPerSecond then
      ["estimated single-tape restore time exceeds threshold"] else []) ++
    if plan.totalBytes > request.singleTapeCapacity then ["dataset does not fit on one tape"] else []

def warnSharding (plan : ArchivePlan) (reasons : List String) : ArchivePlan :=
  reasons.foldl (fun plan reason => plan.addCapacityWarning ("Balanced planning switched to sharded mode: " ++ reason)) plan

/-- `_plan_balanced`. -/
def planBalanced (plan : ArchivePlan) : Except Exn ArchivePlan :=
  if plan.totalBytes > text.percentOf 85 request.singleTapeCapacity then
    planNoncriticalSharded text (request.withPolicy .noncriticalSharded (some (request.shardStrategy.getD .directoryBatch)))
      (warnSharding plan (shardingReasons request plan))
  else .ok (planCriticalSequential text (request.withPolicy .criticalSequential request.shardStrategy) plan)

/-- The plan before anything is placed. -/
def draftPlan : ArchivePlan :=
  let files := request.files.insertionSort (· ≤ ·)
  { policyName := request.policyId, policyType := request.policyType, ingestMode := request.ingestMode
    sourcePath := request.sourcePath, pool := request.pool, volumeGroup := request.volumeGroup, files := files
    totalFiles := files.length, totalBytes := request.totalSize files, copiesRequired := request.copies
    verifyBeforeArchive := request.verifyBeforeArchive, verifyAfterArchive := request.verifyAfterArchive
    shardSizeBytes := request.shardSizeBytes }

/-- `ArchivePlanner.plan`. -/
def archivePlan : Except Exn ArchivePlan := do
  request.checkMedia
  let plan := applyCommonChecks request (draftPlan request)
  if !plan.isSafeToEnqueue then .ok plan
  else
    match request.policyType.getD .balanced with
    | .criticalSequential => .ok (planCriticalSequential text request plan)
    | .noncriticalSharded => planNoncriticalSharded text request plan
    | .balanced => planBalanced text request plan

end planner

end OpenBlade
