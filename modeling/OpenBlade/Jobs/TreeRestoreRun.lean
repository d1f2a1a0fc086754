import OpenBlade.Jobs.RestoreVisibility
import OpenBlade.Jobs.TreeRestore

/-!
# The run of a tree restore

`run_tree_restore` of `jobs/tree_restore.py`: the files that are planned, one after the other, each as a job of its own. Whole files go
through `run_restore_job`, call by call; `run_sharded_restore` is one step, whose outcome is the environment's. A file that fails is
counted, and the next one is tried. The rows of the jobs are always written, and nobody's `progress` raises.
-/

namespace OpenBlade

open Effects Proc

/-- What `run_sharded_restore` can do with a request: it raises, with its destination left alone, or without the file, or with some
bytes in it; it answers that there are no instances; or it copies what it has verified, which a directory takes under the name of the
file on tape. -/
inductive ShardedOutcome where
  | raises (e : Exn) (left : Option (Option Bytes))
  | refuses
  | restores (data : Bytes) (name : String)
  deriving Repr, DecidableEq

/-- What is read of the answer of `run_sharded_restore`. -/
structure ShardedAnswer where
  checksumVerified : Bool
  error : Option String
  deriving Repr, DecidableEq

/-- What a tree restore does, one step at a time. -/
inductive TreeOp where
  | setState (jobId : Nat) (state : String) (error : Option String)
  | plan (request : TreeRestoreRequest)
  | createChild (entry : JobEntry)
  /-- `path.parent.mkdir(parents=True, exist_ok=True)`. -/
  | makeParents (path : PurePosixPath)
  | sharded (catalogPath : String) (destPath : PurePosixPath)
  | job (o : RestoreOp)
  deriving Repr, DecidableEq

abbrev TreeOp.Ans : TreeOp → Type
  | plan _ => List PlannedFile × List String
  | createChild _ => Nat
  | sharded _ _ => ShardedAnswer
  | job o => o.Ans
  | _ => Unit

/-- What the environment decides about a step. -/
structure TreeChoice where
  job : CutChoice := {}
  mkdir : Option Exn := none
  sharded : ShardedOutcome := .refuses
  deriving Repr, DecidableEq

/-- The directories above a path. -/
def PurePosixPath.above (path : PurePosixPath) : List Location :=
  ({ path with parts := path.parts.dropLast } : PurePosixPath).location.inits

namespace RestoreWorld

variable (sha256 : Bytes → String) (quote : String → String) (w : RestoreWorld)

/-- `path.parent.mkdir(parents=True, exist_ok=True)`, which a file in the way refuses. -/
def makeParents (path : PurePosixPath) : Except Exn Unit × RestoreWorld :=
  if path.above.any fun loc => (w.files.get? loc).isSome then (.error (osFailure "File exists"), w)
  else (.ok (), { w with dirs := w.dirs ++ path.above.filter fun loc => loc ∉ w.dirs })

/-- `run_sharded_restore`. -/
def runSharded (catalogPath : String) (destPath : PurePosixPath) : ShardedOutcome → Except Exn ShardedAnswer × RestoreWorld
  | .raises e none => (.error e, w)
  | .raises e (some none) => (.error e, { w with files := w.files.erase destPath.location })
  | .raises e (some (some data)) => (.error e, { w with files := w.files.set destPath.location data })
  | .refuses => (.ok { checksumVerified := false, error := some "No archived instances found" }, w)
  | .restores data name =>
    match w.catalog.getFileRecord catalogPath with
    | none => (.ok { checksumVerified := false, error := some "File not found in catalog" }, w)
    | some record =>
      if sha256 data ≠ record.checksumSha256 then
        (.error { cls := .checksumMismatch, message := "Checksum mismatch: expected " ++ record.checksumSha256 ++ ", got " ++ sha256 data }, w)
      else
        let target := if destPath.location ∈ w.dirs then destPath.join (.ofString name) else destPath
        (.ok { checksumVerified := true, error := none }, { w with files := w.files.set target.location data })

end RestoreWorld

/-- The steps as a machine. -/
def treeMachine (sha256 : Bytes → String) (quote : String → String) :
    Machine RestoreWorld TreeOp (fun o => Except Exn o.Ans) TreeChoice where
  exec w o c :=
    match o with
    | .setState jobId state error => w.perform sha256 {} (.updateJobState jobId state error)
    | .plan request => (planTreeRestore quote request w.catalog, w)
    | .createChild entry => w.perform sha256 {} (.createJob { entry := some entry })
    | .makeParents path =>
      match c.mkdir with
      | some e => (.error e, w)
      | none => w.makeParents path
    | .sharded catalogPath destPath => w.runSharded sha256 catalogPath destPath c.sharded
    | .job o => w.execCut sha256 o c.job

structure TreeRestoreFailure where
  catalogPath : String
  error : String
  deriving Repr, DecidableEq

/-- `TreeRestoreResult`; it is filled in as the files are done. -/
structure TreeRestoreResult where
  jobId : Nat := 0
  catalogPrefix : String := ""
  destDir : String := ""
  filesRestored : Nat := 0
  filesFailed : Nat := 0
  bytesRestored : Nat := 0
  filesVerified : Nat := 0
  failures : List TreeRestoreFailure := []
  skipped : List String := []
  dryRun : Bool := false
  deriving Repr, DecidableEq

/-- `TreeRestoreResult.ok`. -/
def TreeRestoreResult.isOk (result : TreeRestoreResult) : Bool := result.failures.isEmpty

abbrev TreeM (α : Type) : Type := Proc TreeOp TreeOp.Ans Exn TreeRestoreResult α

abbrev treeStep (o : TreeOp) : TreeM o.Ans := perform o

/-- `run_restore_job` for a file of the tree. -/
def plainRestore (request : RestoreJobRequest) (child : Nat) : TreeM Unit :=
  scope ({} : TapeLocals) (Proc.embed TreeOp.Ans TreeOp.job (runRestoreJob request child))

/-- `ShardedRestoreFailed`. -/
def shardedRestoreFailed (error : String) : Exn := { cls := .typed "ShardedRestoreFailed", message := error }

/-- The body of the `try`: whether the restore says it has verified the file. -/
def restoreFile (item : PlannedFile) (child : Nat) : TreeM Bool := do
  treeStep (.makeParents item.destPath)
  if item.sharded then do
    let answer ← treeStep (.sharded item.catalogPath item.destPath)
    if answer.error.getD "" ≠ "" then raise (shardedRestoreFailed (answer.error.getD ""))
    else pure answer.checksumVerified
  else do
    plainRestore { catalogPath := item.catalogPath, destPath := item.destPath } child
    pure true

/-- One file of the plan. -/
def restoreItem (item : PlannedFile) : TreeM Unit := do
  let child ← treeStep (.createChild { catalogPath := item.catalogPath, destPath := some item.destPath.toString })
  let verified ← handle
    (do
      let verified ← restoreFile item child
      pure (some verified))
    fun e => do
      let message := safeJobError e
      treeStep (.setState child "failed" (some message))
      assign fun result =>
        { result with
          filesFailed := result.filesFailed + 1
          failures := result.failures ++ [{ catalogPath := item.catalogPath, error := message }] }
      pure none
  match verified with
  | none => pure ()
  | some verified =>
    assign fun result =>
      { result with
        filesRestored := result.filesRestored + 1
        bytesRestored := result.bytesRestored + item.sizeBytes
        filesVerified := result.filesVerified + if verified then 1 else 0 }

/-- What a dry run counts. -/
def countPlanned (planned : List PlannedFile) (result : TreeRestoreResult) : TreeRestoreResult :=
  { result with
    filesRestored := result.filesRestored + planned.length
    bytesRestored := result.bytesRestored + (planned.map PlannedFile.sizeBytes).sum }

/-- `run_tree_restore`. -/
def runTreeRestore (request : TreeRestoreRequest) (jobId : Nat) : TreeM TreeRestoreResult := do
  treeStep (.setState jobId "running" none)
  let (planned, skipped) ← treeStep (.plan request)
  assign fun _ =>
    { jobId := jobId, catalogPrefix := normalizePrefix request.catalogPrefix, destDir := request.destDir.toString, skipped := skipped
      dryRun := request.dryRun }
  if request.dryRun then do
    assign (countPlanned planned)
    treeStep (.setState jobId "completed" none)
    locals
  else do
    forEach restoreItem planned
    let result ← locals
    if result.isOk then treeStep (.setState jobId "completed" none)
    else
      treeStep (.setState jobId "failed"
        (some (toString result.filesFailed ++ " of " ++ toString planned.length ++ " file(s) failed to restore")))
    pure result

/-! ### What is promised -/

namespace RestoreWorld

variable (sha256 : Bytes → String) (w : RestoreWorld)

/-- The state of a job. -/
def stateOf (jobId : Nat) : Option String := (w.jobs.find? fun job => job.id = jobId).map JobRow.state

/-- The destination of a planned file has the verified content of the file. -/
def HasFile (item : PlannedFile) : Prop :=
  ∃ record data, w.catalog.getFileRecord item.catalogPath = some record ∧ w.files.get? item.destPath.location = some data ∧
    sha256 data = record.checksumSha256

/-- No destination is a directory, or becomes one, and no file is written or put aside where an earlier one has gone. -/
structure LeavesRoom (planned : List PlannedFile) : Prop where
  files : ∀ item ∈ planned, item.destPath.location ∉ w.dirs
  apart : planned.Pairwise fun earlier later => ¬later.destPath.location <+: earlier.destPath.location ∧
    ∀ path ∈ later.destPath.withName (later.destPath.name ++ ".quarantine"), path.location ≠ earlier.destPath.location

/-- The result counts every planned file once, and the job has ended as the counts say. -/
structure Accounts (planned : List PlannedFile) (jobId : Nat) (result : TreeRestoreResult) : Prop where
  counted : result.filesRestored + result.filesFailed = planned.length
  listed : result.failures.length = result.filesFailed
  state : w.stateOf jobId = some (if result.filesFailed = 0 then "completed" else "failed")

/-- Every planned file that is not listed as failed is at its destination. -/
def Delivers (planned : List PlannedFile) (result : TreeRestoreResult) : Prop :=
  ∀ item ∈ planned, item.catalogPath ∉ result.failures.map TreeRestoreFailure.catalogPath → w.HasFile sha256 item

end RestoreWorld

/-- Every selected record with something to restore it from has a name under the destination directory. -/
def Plannable (quote : String → String) (request : TreeRestoreRequest) (cat : Catalog) : Prop :=
  ∀ record ∈ selectRecords cat (normalizePrefix request.catalogPrefix), restoreBarcodes cat record ≠ [] →
    (relativeParts quote record.path (normalizePrefix request.catalogPrefix)).isOk = true

end OpenBlade
