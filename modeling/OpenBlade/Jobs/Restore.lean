import OpenBlade.Catalog.Repository
import OpenBlade.Effects.Embed

/-!
# Restore jobs

`jobs/restore.py`: one file to a destination, or many with one load of each source tape. A job row says what goes where; the row is
all that others see of the job. What the catalog's database, the drives, the tapes and the file system refuse is the environment's
choice, and so are the bytes a tape gives.
-/

namespace OpenBlade

open Effects Proc

/-! ### Job rows -/

/-- What the metadata of a restore job says of one file; `destPath` is what is there, if it is a text. -/
structure JobEntry where
  catalogPath : String
  destPath : Option String
  deriving Repr, DecidableEq

/-- `metadata_json`: a single job has its entry at top level, a batch has a list of them. -/
structure JobMetadata where
  entry : Option JobEntry := none
  batch : List JobEntry := []
  deriving Repr, DecidableEq

/-- A row of `jobs`, with what the restore of files reads of it. -/
structure JobRow where
  id : Nat
  jobType : String := "restore"
  state : String := "pending"
  error : Option String := none
  metadata : JobMetadata
  deriving Repr, DecidableEq

/-! ### Files -/

/-- Where a path leads, there being no symbolic links. -/
abbrev Location : Type := List String

def PurePosixPath.location (path : PurePosixPath) : Location := path.parts.foldl (normpathStep true) []

/-! ### Steps -/

/-- What the jobs do, one step at a time. -/
inductive RestoreOp where
  | createJob (metadata : JobMetadata)
  | updateJobState (jobId : Nat) (state : String) (error : Option String)
  | jobState (jobId : Nat)
  | fileRecord (path : String)
  | latestInstance (path : String)
  | cartridge (barcode : Barcode)
  /-- `InventoryService(library).snapshot()`, for the scheduler. -/
  | snapshot
  | acquireDrive (barcode : Barcode)
  /-- `_load_if_needed`: whether the cartridge was taken from a slot. -/
  | load (barcode : Barcode)
  | verifyLease (barcode : Barcode)
  | mount (barcode : Barcode)
  | unmount (barcode : Barcode)
  | unload (barcode : Barcode)
  | releaseDrive (barcode : Barcode)
  | readFile (row : FileInstance) (dest : PurePosixPath)
  | isDir (path : PurePosixPath)
  | sha256sum (path : PurePosixPath)
  | rename (path target : PurePosixPath)
  | unlink (path : PurePosixPath)
  | makeDir (path : PurePosixPath)
  deriving Repr, DecidableEq

abbrev RestoreOp.Ans : RestoreOp → Type
  | createJob _ => Nat
  | jobState _ => Option String
  | fileRecord _ => Option FileRecord
  | latestInstance _ => FileRecord × FileInstance
  | cartridge _ => Option Cartridge
  | load _ | isDir _ => Bool
  | sha256sum _ => String
  | _ => Unit

structure RestoreWorld where
  catalog : Catalog := {}
  /-- The youngest job first, as `list_jobs` has them. -/
  jobs : List JobRow := []
  nextJob : Nat := 0
  files : Dict Location Bytes := []
  dirs : List Location := []
  deriving Repr, DecidableEq

instance RestoreWorld.decidableDir (w : RestoreWorld) (loc : Location) : Decidable (loc ∈ w.dirs) := decidableLocation loc w.dirs

/-- An exception of what is outside, the bytes a tape gives, and whether a cartridge is taken from a slot. -/
structure RestoreChoice where
  fails : Option Exn := none
  bytes : Bytes := []
  fromSlot : Bool := true
  deriving Repr, DecidableEq

def osFailure (message : String) : Exn := { cls := .other "OSError", message := message }

namespace RestoreWorld

variable (sha256 : Bytes → String) (w : RestoreWorld)

def file? (path : PurePosixPath) : Option Bytes := w.files.get? path.location

/-- A step that nothing outside refuses. -/
def perform (choice : RestoreChoice) : (o : RestoreOp) → Except Exn o.Ans × RestoreWorld
  | .createJob metadata => (.ok w.nextJob, { w with jobs := { id := w.nextJob, metadata := metadata } :: w.jobs, nextJob := w.nextJob + 1 })
  | .updateJobState jobId state error =>
    if w.jobs.any fun job => job.id = jobId then
      (.ok (), { w with jobs := w.jobs.map fun job => if job.id = jobId then { job with state := state, error := error } else job })
    else (.error (Catalog.fileNotFound ("Job " ++ toString jobId ++ " not found")), w)
  | .jobState jobId => (.ok ((w.jobs.find? fun job => job.id = jobId).map JobRow.state), w)
  | .fileRecord path => (.ok (w.catalog.getFileRecord path), w)
  | .latestInstance path => (w.catalog.getLatestInstanceForPath path, w)
  | .cartridge barcode => (.ok (w.catalog.getCartridge barcode), w)
  | .load _ => (.ok choice.fromSlot, w)
  | .readFile _ dest => (.ok (), { w with files := w.files.set dest.location choice.bytes })
  | .isDir path => (.ok (path.location ∈ w.dirs), w)
  | .sha256sum path =>
    match w.file? path with
    | none => (.error (osFailure "No such file or directory"), w)
    | some data => (.ok (sha256 data), w)
  | .rename path target =>
    match w.file? path with
    | none => (.error (osFailure "No such file or directory"), w)
    | some data => (.ok (), { w with files := (w.files.erase path.location).set target.location data })
  | .unlink path => (.ok (), { w with files := w.files.erase path.location })
  | .snapshot | .acquireDrive _ | .verifyLease _ | .mount _ | .unmount _ | .unload _ | .releaseDrive _ | .makeDir _ => (.ok (), w)

/-- One step; any may raise. -/
def exec (choice : RestoreChoice) (o : RestoreOp) : Except Exn o.Ans × RestoreWorld :=
  match choice.fails with
  | some e => (.error e, w)
  | none => w.perform sha256 choice o

end RestoreWorld

/-- `RestoreRequest` of the module. -/
structure RestoreJobRequest where
  catalogPath : String
  destPath : PurePosixPath
  dryRun : Bool := false
  deriving Repr, DecidableEq

structure RestoreItemResult where
  catalogPath : String
  ok : Bool
  error : Option String := none
  deriving Repr, DecidableEq

structure RestoreBatchResult where
  jobId : Nat
  items : List RestoreItemResult
  tapeErrors : List String
  deriving Repr, DecidableEq

/-- `RestoreBatchResult.ok`. -/
def RestoreBatchResult.allOk (result : RestoreBatchResult) : Bool := result.tapeErrors.isEmpty && result.items.all RestoreItemResult.ok

/-- The local variables of one tape: `loaded` tells once the drive is known, and whether the cartridge came from a slot. -/
structure TapeLocals where
  results : List RestoreItemResult := []
  tapeError : Option String := none
  loaded : Option Bool := none
  fencedOut : Bool := false
  unmountFailed : Bool := false
  deriving Repr, DecidableEq

abbrev RestoreM (α : Type) : Type := Proc RestoreOp RestoreOp.Ans Exn TapeLocals α

abbrev step (o : RestoreOp) : RestoreM o.Ans := perform o

def setJobState (jobId : Nat) (state : String) (error : Option String) : RestoreM Unit := step (.updateJobState jobId state error)

/-- `with_name`, which a path without a name refuses. -/
def withName (path : PurePosixPath) (name : String) : RestoreM PurePosixPath :=
  match path.withName name with
  | some path => pure path
  | none => raise { cls := .valueError, message := "PosixPath('" ++ path.toString ++ "') has an empty name" }

/-- `_batch_dest`, and the destination of a single job: a directory takes the file under its name. -/
def batchDest (request : RestoreJobRequest) : RestoreM PurePosixPath := do
  if ← step (.isDir request.destPath) then
    pure (request.destPath.join (.ofString (PurePosixPath.ofString request.catalogPath).name))
  else pure request.destPath

def isStaleLease (e : Exn) : Bool := e.cls = .staleLease

/-- `except StaleLeaseError: fenced_out = True; raise`. -/
def noteFenced {α : Type} (e : Exn) : RestoreM α :=
  if isStaleLease e then do
    assign fun l => { l with fencedOut := true }
    raise e
  else raise e

/-- The end of both jobs' use of a drive: unload what was loaded, unless the lease is lost or the tape may be mounted still. -/
def unloadTape (barcode : Barcode) : RestoreM Unit := do
  let l ← locals
  if l.fencedOut ∨ l.unmountFailed ∨ l.loaded = none then pure ()
  else do
    handle (step (.verifyLease barcode)) noteFenced
    if l.loaded = some true then step (.unload barcode) else pure ()

/-! ### One file -/

/-- The tape part of `run_restore_job`. -/
def readSingle (row : FileInstance) (finalDest : PurePosixPath) : RestoreM Unit :=
  ensure
    (handle
      (do
        let fromSlot ← step (.load row.barcode)
        assign fun l => { l with loaded := some fromSlot }
        step (.verifyLease row.barcode)
        step (.mount row.barcode)
        ensure (step (.readFile row finalDest)) fun _ => do
          step (.verifyLease row.barcode)
          step (.unmount row.barcode))
      noteFenced)
    fun _ => unloadTape row.barcode

/-- `run_restore_job`. -/
def runRestoreJob (request : RestoreJobRequest) (jobId : Nat) : RestoreM Unit := scope {} do
  setJobState jobId "running" none
  let (record, row) ← step (.latestInstance request.catalogPath)
  let cartridge ← step (.cartridge row.barcode)
  if cartridge.map Cartridge.state = some "exported" then do
    let error := "Cartridge " ++ row.barcode ++ " is offline"
    setJobState jobId "failed" (some error)
    raise { cls := .cartridgeOffline, message := error }
  else if request.dryRun then setJobState jobId "completed" none
  else do
    step (.acquireDrive row.barcode)
    let finalDest ← batchDest request
    ensure
      (handle (readSingle row finalDest) fun e =>
        if isStaleLease e then do
          setJobState jobId "failed" (some (safeJobError e))
          raise e
        else raise e)
      fun _ => step (.releaseDrive row.barcode)
    let actualChecksum ← step (.sha256sum finalDest)
    if actualChecksum ≠ record.checksumSha256 then do
      let quarantine ← withName finalDest (finalDest.name ++ ".quarantine")
      step (.rename finalDest quarantine)
      let error := "Checksum mismatch for " ++ request.catalogPath
      setJobState jobId "failed" (some error)
      raise { cls := .checksumMismatch, message := error }
    else setJobState jobId "completed" none

/-! ### A batch -/

/-- A request with the record and the instance found for it. -/
abbrev Located : Type := RestoreJobRequest × FileRecord × FileInstance

/-- `_restore_one_verified`: the file gets its name only when its checksum is verified. -/
def restoreOneVerified : Located → RestoreM RestoreItemResult
  | (request, record, row) => do
    let finalDest ← batchDest request
    let temp ← withName finalDest ("." ++ finalDest.name ++ ".restoring")
    let failed ← handle
      (do
        step (.readFile row temp)
        pure none)
      fun e =>
        if isStaleLease e then raise e
        else do
          step (.unlink temp)
          pure (some { catalogPath := request.catalogPath, ok := false, error := some (safeJobError e) : RestoreItemResult })
    match failed with
    | some result => pure result
    | none => do
      let actual ← step (.sha256sum temp)
      if actual ≠ record.checksumSha256 then do
        let quarantine ← withName finalDest (finalDest.name ++ ".quarantine")
        step (.rename temp quarantine)
        pure { catalogPath := request.catalogPath, ok := false, error := some ("Checksum mismatch for " ++ request.catalogPath) }
      else do
        step (.rename temp finalDest)
        pure { catalogPath := request.catalogPath, ok := true }

/-- The items of a tape that are not done, when it fails. -/
def notDone (results : List RestoreItemResult) (group : List Located) (message : String) : List RestoreItemResult :=
  (group.filter fun x => x.1.catalogPath ∉ results.map RestoreItemResult.catalogPath).map fun x =>
    { catalogPath := x.1.catalogPath, ok := false, error := some message }

/-- One load and one mount for the files of a tape. -/
def readGroup (barcode : Barcode) (group : List Located) : RestoreM Unit :=
  ensure
    (handle
      (do
        let fromSlot ← step (.load barcode)
        assign fun l => { l with loaded := some fromSlot }
        step (.verifyLease barcode)
        step (.mount barcode)
        ensure
          (forEach (fun x => do
            let result ← restoreOneVerified x
            assign fun l => { l with results := l.results ++ [result] }) group)
          fun _ => do
            step (.verifyLease barcode)
            -- still mounted, perhaps: the cartridge is left in the drive
            handle (step (.unmount barcode)) fun _ =>
              assign fun l =>
                { l with unmountFailed := true, tapeError := some ("Unmount of " ++ barcode ++ " failed; left in drive for reconcile") })
      fun e =>
        if isStaleLease e then noteFenced e
        else assign fun l => { l with results := l.results ++ notDone l.results group (safeJobError e) })
    fun _ => unloadTape barcode

/-- `_restore_tape_group`. -/
def restoreTapeGroup (barcode : Barcode) (group : List Located) : RestoreM (List RestoreItemResult × Option String) := scope {} do
  step (.acquireDrive barcode)
  ensure (readGroup barcode group) fun _ => step (.releaseDrive barcode)
  let l ← locals
  pure (l.results, l.tapeError)

/-- Where a request goes: it is settled at once, or waits for its tape. -/
def locate (request : RestoreJobRequest) : RestoreM (RestoreItemResult ⊕ Located) := do
  let found ← handle
    (do
      let found ← step (.latestInstance request.catalogPath)
      pure (some found))
    fun e => if e.cls = .fileNotFound then pure none else raise e
  match found with
  | none =>
    pure (.inl { catalogPath := request.catalogPath, ok := false, error := some ("No archived instance for " ++ request.catalogPath) })
  | some (record, row) => do
    let cartridge ← step (.cartridge row.barcode)
    if cartridge.map Cartridge.state = some "exported" then
      pure (.inl
        { catalogPath := request.catalogPath, ok := false, error := some ("Cartridge " ++ row.barcode ++ " is offline") })
    else if request.dryRun then pure (.inl { catalogPath := request.catalogPath, ok := true })
    else pure (.inr (request, record, row))

/-- `groups.setdefault(instance.barcode, []).append(...)`. -/
def addToGroup (groups : Dict Barcode (List Located)) (x : Located) : Dict Barcode (List Located) :=
  groups.set x.2.2.barcode ((groups.get? x.2.2.barcode).getD [] ++ [x])

/-- `f"{failed} of {len(items)} files failed to restore"`, and the errors of the tapes. -/
def batchDetail (result : RestoreBatchResult) : String :=
  let detail := toString (result.items.filter fun item => !item.ok).length ++ " of " ++ toString result.items.length ++
    " files failed to restore"
  if result.tapeErrors = [] then detail else detail ++ "; " ++ "; ".intercalate result.tapeErrors

/-- `run_restore_batch`. -/
def runRestoreBatch (requests : List RestoreJobRequest) (jobId : Nat) : RestoreM RestoreBatchResult := do
  setJobState jobId "running" none
  let located ← mapEach locate requests
  let groups := (located.filterMap Sum.getRight?).foldl addToGroup []
  let done ← mapEach
    (fun g => handle (restoreTapeGroup g.1 g.2) fun e =>
      if isStaleLease e then do
        setJobState jobId "failed" (some (safeJobError e))
        raise e
      else raise e)
    groups
  let result : RestoreBatchResult :=
    { jobId := jobId
      items := located.filterMap Sum.getLeft? ++ done.flatMap Prod.fst
      tapeErrors := done.filterMap Prod.snd }
  if result.allOk then setJobState jobId "completed" none else setJobState jobId "failed" (some (batchDetail result))
  pure result

/-! ### The service -/

/-- The state of a job that is there. -/
def refreshedState (jobId : Nat) : RestoreM String := do
  match ← step (.jobState jobId) with
  | some state => pure state
  | none => raise { cls := .assertion, message := "" }

/-- `RestoreService.enqueue`. -/
def enqueueRestore (catalogPath : String) (destination : PurePosixPath) : RestoreM String := do
  let jobId ← step (.createJob { entry := some { catalogPath := catalogPath, destPath := some destination.toString } })
  step .snapshot
  runRestoreJob { catalogPath := catalogPath, destPath := destination } jobId
  refreshedState jobId

/-- `RestoreService.enqueue_batch`: the state the job ends in, and its results. -/
def enqueueRestoreBatch (requests : List RestoreJobRequest) : RestoreM (String × RestoreBatchResult) := do
  let jobId ← step (.createJob
    { batch := requests.map fun request => { catalogPath := request.catalogPath, destPath := some request.destPath.toString } })
  step .snapshot
  let result ← runRestoreBatch requests jobId
  let state ← refreshedState jobId
  pure (state, result)

end OpenBlade
