import OpenBlade.Effects.Threads
import OpenBlade.Jobs.Restore

/-!
# The hydrator

`fuse/hydration.py`: a request for a file takes a ticket, or joins the one that is there; tickets for one tape wait together for
a timer, whose thread restores them as one job; a file that is being restored already is waited for by a thread of its own. Each
step is one section under the lock, or one call outside of it; requests, timers, workers and restore jobs of others run side by
side. A thread that is started is a thread of the system from then on.
-/

namespace OpenBlade

open Effects Proc

/-- `HydrationTicket`: what of it never changes. Tickets are numbered as they are made. -/
structure Ticket where
  id : Nat
  catalogPath : String
  checksum : String
  deriving Repr, DecidableEq

/-- What of a ticket changes. -/
structure TicketData where
  tapeKey : String := ""
  jobId : Option Nat := none
  error : Option String := none
  done : Bool := false
  deriving Repr, DecidableEq

/-- What a request finds under the lock. -/
inductive Claim where
  | existing (t : Ticket)
  | cached (t : Ticket)
  | fresh (t : Ticket)
  deriving Repr, DecidableEq

/-- What becomes of a ticket that is to wait for its tape; `armed` if the timer of the tape is started for it. -/
inductive Queued where
  | closed
  | waiting
  | armed
  deriving Repr, DecidableEq

/-- The steps of the hydrator, of restore jobs, and of whoever else changes what they work on. -/
inductive HydratorOp where
  | job (o : RestoreOp)
  /-- The first section of `request`. -/
  | claim (path checksum : String)
  /-- Its `except`. -/
  | forget (t : Ticket)
  /-- Its second section, with the tape key. -/
  | enqueue (t : Ticket) (tapeKey : String)
  /-- `_spawn(self._resume, ticket)`, with the job. -/
  | spawnResume (t : Ticket) (jobId : Nat)
  /-- The section of `_flush`. -/
  | takeBatch (tapeKey : String)
  /-- The section of `shutdown`. -/
  | close
  | fail (t : Ticket) (reason : String)
  /-- The end of `_commit`. -/
  | finish (t : Ticket)
  | findActiveJob (path : String)
  /-- The poll of `_resume` that ends it. -/
  | resumeJob (jobId : Nat) (path : String)
  | storeVerified (checksum : String) (staged : PurePosixPath)
  | discardStaged (staged : PurePosixPath)
  | insertJob (jobType : String) (metadata : JobMetadata)
  | setJob (jobId : Nat) (state : String)
  | setCatalog (catalog : Catalog)
  | writeFile (path : PurePosixPath) (data : Bytes)
  | removeFile (path : PurePosixPath)
  | evict (checksum : String)

abbrev HydratorOp.Ans : HydratorOp → Type
  | job o => o.Ans
  | claim .. => Claim
  | enqueue .. => Queued
  | takeBatch _ => Bool × List Ticket
  | close => List Ticket
  | findActiveJob _ => Option Nat
  | resumeJob .. => PurePosixPath
  | _ => Unit

/-- The tables of the hydrator, and what it works on: the jobs, the files, and the cache by checksum. -/
structure HydratorState where
  world : RestoreWorld := {}
  cached : Dict String Bytes := []
  /-- `_tickets`. -/
  tickets : Dict String Ticket := []
  data : Dict Ticket TicketData := []
  nextTicket : Nat := 0
  /-- `_pending`. -/
  pending : Dict String (List Ticket) := []
  /-- The tapes of `_timers`. -/
  timers : List String := []
  /-- `_errors`. -/
  errors : Dict String String := []
  closed : Bool := false
  deriving Repr, DecidableEq

structure HydratorConfig where
  sha256 : Bytes → String
  stagingRoot : PurePosixPath

def hydrationFailed (message : String) : Exn := { cls := .other "HydrationFailedError", message := message }

def hydrationTimeout (message : String) : Exn := { cls := .other "HydrationTimeoutError", message := message }

def unmounting : String := "hydration cancelled by unmount"

def unexpected : String := "restore failed unexpectedly"

/-- `_job_entry`, for a path. -/
def jobEntry (metadata : JobMetadata) (path : String) : Option JobEntry :=
  match metadata.entry.filter fun entry => entry.catalogPath = path with
  | some entry => some entry
  | none => metadata.batch.find? fun entry => entry.catalogPath = path

/-- `_job_dest`. -/
def jobDest (jobId : Nat) (metadata : JobMetadata) (path : String) : Except Exn PurePosixPath :=
  match (jobEntry metadata path).bind JobEntry.destPath with
  | none => .error (hydrationFailed ("restore job " ++ toString jobId ++ " has no staged destination for " ++ path))
  | some "" => .error (hydrationFailed ("restore job " ++ toString jobId ++ " has no staged destination for " ++ path))
  | some dest => .ok (.ofString dest)

def isActive (job : JobRow) : Bool := job.jobType = "restore" ∧ job.state ∈ ["pending", "running"]

namespace HydratorState

variable (config : HydratorConfig) (s : HydratorState) (choice : RestoreChoice)

def isDone (t : Ticket) : Bool := (s.data.get? t).any TicketData.done

/-- A change of what of a ticket changes. -/
def update (t : Ticket) (f : TicketData → TicketData) : HydratorState :=
  { s with data := s.data.set t (f ((s.data.get? t).getD {})) }

/-- The first section of `request`. -/
def claim (path checksum : String) : Except Exn Claim × HydratorState :=
  if s.closed then (.error (hydrationFailed "hydrator is shut down"), s)
  else
    match (s.tickets.get? path).filter fun t => !s.isDone t with
    | some t => (.ok (.existing t), s)
    | none =>
      let t : Ticket := { id := s.nextTicket, catalogPath := path, checksum := checksum }
      match choice.fails with
      | some e => (.error e, s)
      | none =>
        if (s.cached.get? checksum).isSome then
          (.ok (.cached t), { s.update t fun data => { data with done := true } with nextTicket := s.nextTicket + 1 })
        else (.ok (.fresh t), { s with tickets := s.tickets.set path t, nextTicket := s.nextTicket + 1 })

/-- The second section of `request`. -/
def enqueue (t : Ticket) (tapeKey : String) : Queued × HydratorState :=
  let s := s.update t fun data => { data with tapeKey := tapeKey }
  if s.closed then (.closed, s)
  else
    let s := { s with pending := s.pending.set tapeKey ((s.pending.get? tapeKey).getD [] ++ [t]) }
    if tapeKey ∈ s.timers then (.waiting, s) else (.armed, { s with timers := s.timers ++ [tapeKey] })

/-- What the poll finds that ends the wait for a job. -/
def resumeJob (jobId : Nat) (path : String) : Except Exn PurePosixPath :=
  match s.world.jobs.find? fun job => job.id = jobId with
  | none => .error (hydrationFailed ("restore job " ++ toString jobId ++ " disappeared"))
  | some job =>
    if job.state = "completed" then jobDest jobId job.metadata path
    else if job.state ∈ ["pending", "running"] then .error (hydrationTimeout ("restore job " ++ toString jobId ++ " did not finish in time"))
    else .error (hydrationFailed ("restore job " ++ toString jobId ++ " ended " ++ job.state))

/-- `store_verified`, of a name the cache takes. It raises where a file cannot be read or written, and where the bytes are
others. -/
def storeVerified (checksum : String) (staged : PurePosixPath) : Except Exn Unit × HydratorState :=
  match choice.fails, s.world.file? staged with
  | some _, _ => (.error (osFailure "Input/output error"), s)
  | none, none => (.error (osFailure "No such file or directory"), s)
  | none, some data =>
    if config.sha256 data ≠ checksum then
      (.error { cls := .typed "CacheChecksumError", message := "staged bytes for " ++ checksum ++ " failed verification" }, s)
    else (.ok (), { s with cached := s.cached.set checksum data })

/-- One step. -/
def exec : (o : HydratorOp) → Except Exn o.Ans × HydratorState
  | .job o => ((s.world.exec config.sha256 choice o).1, { s with world := (s.world.exec config.sha256 choice o).2 })
  | .claim path checksum => s.claim choice path checksum
  | .forget t =>
    (.ok (), if s.tickets.get? t.catalogPath = some t then { s with tickets := s.tickets.erase t.catalogPath } else s)
  | .enqueue t tapeKey => (.ok (s.enqueue t tapeKey).1, (s.enqueue t tapeKey).2)
  | .spawnResume t jobId => (.ok (), s.update t fun data => { data with jobId := some jobId })
  | .takeBatch tapeKey =>
    (.ok (s.closed, (s.pending.get? tapeKey).getD []),
      { s with timers := s.timers.filter (· ≠ tapeKey), pending := s.pending.erase tapeKey })
  | .close => (.ok (s.pending.flatMap Prod.snd), { s with closed := true, timers := [], pending := [] })
  | .fail t reason =>
    (.ok (), { s.update t fun data => { data with error := some reason, done := true } with
      errors := s.errors.set t.catalogPath reason })
  | .finish t =>
    (.ok (), { s.update t fun data => { data with done := true } with errors := s.errors.erase t.catalogPath })
  | .findActiveJob path =>
    match choice.fails with
    | some e => (.error e, s)
    | none => (.ok ((s.world.jobs.find? fun job => isActive job ∧ (jobEntry job.metadata path).isSome).map JobRow.id), s)
  | .resumeJob jobId path =>
    match choice.fails with
    | some e => (.error e, s)
    | none => (s.resumeJob jobId path, s)
  | .storeVerified checksum staged => s.storeVerified config choice checksum staged
  | .discardStaged staged =>
    (.ok (),
      match choice.fails with
      | some _ => s
      | none => { s with world := { s.world with files := s.world.files.erase staged.location } })
  | .insertJob jobType metadata =>
    (.ok (),
      { s with world :=
        { s.world with
          jobs := { id := s.world.nextJob, jobType := jobType, metadata := metadata } :: s.world.jobs
          nextJob := s.world.nextJob + 1 } })
  | .setJob jobId state =>
    (.ok (),
      { s with world :=
        { s.world with jobs := s.world.jobs.map fun job => if job.id = jobId then { job with state := state } else job } })
  | .setCatalog catalog => (.ok (), { s with world := { s.world with catalog := catalog } })
  | .writeFile path data => (.ok (), { s with world := { s.world with files := s.world.files.set path.location data } })
  | .removeFile path => (.ok (), { s with world := { s.world with files := s.world.files.erase path.location } })
  | .evict checksum => (.ok (), { s with cached := s.cached.erase checksum })

end HydratorState

/-- The steps as a machine. -/
def hydratorMachine (config : HydratorConfig) :
    Machine HydratorState HydratorOp (fun o => Except Exn o.Ans) RestoreChoice where
  exec s o choice := s.exec config choice o

abbrev HydratorM (α : Type) : Type := Proc HydratorOp HydratorOp.Ans Exn TapeLocals α

abbrev hydrator (o : HydratorOp) : HydratorM o.Ans := perform o

/-- A step of a restore job, as one of the system. -/
def ofJob {α : Type} (m : RestoreM α) : HydratorM α := Proc.embed HydratorOp.Ans HydratorOp.job m

/-! ### The engine -/

/-- `JobRestoreEngine._restore_batch`: where each path is staged, once one job has restored them all. -/
def restoreBatch (config : HydratorConfig) (paths : List String) : HydratorM (Dict String PurePosixPath) := do
  let pairs ← mapEach
    (fun path => do
      match ← ofJob (step (.fileRecord path)) with
      | none => raise (hydrationFailed (path ++ " is not in the catalog"))
      | some record => do
        ofJob (step (.makeDir config.stagingRoot))
        pure (path, config.stagingRoot.join { root := "", parts := [toString record.id] }))
    paths
  let staged := Dict.ofPairs pairs
  let (state, result) ← ofJob (enqueueRestoreBatch (staged.map fun p => { catalogPath := p.1, destPath := p.2 }))
  if state ≠ "completed" then do
    let failed := (result.items.filter fun item => !item.ok).map RestoreItemResult.catalogPath
    raise (hydrationFailed ("restore job " ++ toString result.jobId ++ " ended " ++ state ++ "; failed: " ++
      if failed = [] then "tape" else ", ".intercalate failed))
  else pure staged

/-! ### The threads -/

/-- `isinstance(e, OSError)`. -/
def isOSError (e : Exn) : Bool :=
  e.cls = .permissionError ∨ e.cls = .other "OSError" ∨ e.cls = .other "FileNotFoundError" ∨ e.cls = .other "HydrationTimeoutError"

def isChecksumError (e : Exn) : Bool := e.cls = .typed "CacheChecksumError"

/-- What a failed restore is reported as. -/
def failureReason (e : Exn) : String :=
  if e.cls = .other "HydrationFailedError" ∨ e.cls.isOpenBladeError then e.message
  else if isOSError e then "restore I/O error"
  else unexpected

/-- `store_verified`, and what it raised. -/
def tryStore (t : Ticket) (staged : PurePosixPath) : HydratorM (Option Exn) :=
  handle
    (do
      hydrator (.storeVerified t.checksum staged)
      pure none)
    fun e => pure (some e)

/-- `_commit`. -/
def commit (t : Ticket) : Option PurePosixPath → HydratorM Unit
  | none => hydrator (.fail t "restore produced no file")
  | some staged => do
    match ← tryStore t staged with
    | none => do
      hydrator (.discardStaged staged)
      hydrator (.finish t)
    | some e =>
      if isChecksumError e then do
        hydrator (.discardStaged staged)
        hydrator (.fail t "restored bytes failed checksum verification")
      else if isOSError e then hydrator (.fail t "restore I/O error")
      else raise e

def failAll (batch : List Ticket) (reason : String) : HydratorM Unit := forEach (fun t => hydrator (.fail t reason)) batch

/-- The restore of a batch: where the files are staged, or why it failed. -/
def tryRestore (config : HydratorConfig) (batch : List Ticket) : HydratorM (Dict String PurePosixPath ⊕ String) :=
  handle
    (do
      let staged ← restoreBatch config (batch.map Ticket.catalogPath)
      pure (.inl staged))
    fun e => pure (.inr (failureReason e))

/-- What a timer runs: `_flush`. -/
def flush (config : HydratorConfig) (tapeKey : String) : HydratorM Unit := do
  let (closed, batch) ← hydrator (.takeBatch tapeKey)
  if closed then failAll batch unmounting
  else if batch = [] then pure ()
  else do
    match ← tryRestore config batch with
    | .inl staged => forEach (fun t => commit t (staged.get? t.catalogPath)) batch
    | .inr reason => failAll batch reason

/-- What a worker runs: `_resume`. -/
def resume (t : Ticket) (jobId : Nat) : HydratorM Unit :=
  handle
    (do
      let staged ← hydrator (.resumeJob jobId t.catalogPath)
      commit t (some staged))
    fun e =>
      if e.cls = .other "HydrationTimeoutError" then hydrator (.fail t ("restore job " ++ toString jobId ++ " timed out"))
      else if e.cls = .other "HydrationFailedError" ∨ e.cls.isOpenBladeError ∨ isOSError e ∨ e.cls = .keyError then
        hydrator (.fail t ("restore job " ++ toString jobId ++ " did not complete"))
      else hydrator (.fail t unexpected)

/-- `_tape_key`. The `FileNotFoundError` it catches is the built-in one; the catalog raises another. -/
def tapeKeyOf (path : String) (record : FileRecord) : HydratorM String :=
  handle
    (do
      let found ← ofJob (step (.latestInstance path))
      pure found.2.barcode)
    fun e => if e.cls = .other "FileNotFoundError" then pure ("vg:" ++ toString record.volumeGroupId) else raise e

/-- The lookups of `request`: the job that restores the path already, or the tape to wait for. -/
def lookup (path : String) (record : FileRecord) : HydratorM (Nat ⊕ String) := do
  match ← hydrator (.findActiveJob path) with
  | some jobId => pure (.inl jobId)
  | none => do
    let tapeKey ← tapeKeyOf path record
    pure (.inr tapeKey)

/-- `request`. -/
def request (path : String) : HydratorM Ticket := do
  match ← ofJob (step (.fileRecord path)) with
  | none => raise { cls := .other "FileNotFoundError", message := path }
  | some record => do
    match ← hydrator (.claim path record.checksumSha256) with
    | .existing t => pure t
    | .cached t => pure t
    | .fresh t => do
      let found ← handle (lookup path record) fun e => do
        hydrator (.forget t)
        raise e
      match found with
      | .inl jobId => do
        hydrator (.spawnResume t jobId)
        pure t
      | .inr tapeKey => do
        match ← hydrator (.enqueue t tapeKey) with
        | .closed => do
          hydrator (.fail t unmounting)
          pure t
        | _ => pure t

/-- `shutdown`, but for the time it waits for its workers. -/
def shutdown : HydratorM Unit := do
  let pending ← hydrator .close
  failAll pending unmounting

/-- What a thread ends with: a request has a ticket to give. -/
abbrev HydratorThread : Type := Prog HydratorOp (fun o => Except Exn o.Ans) (Except Exn (Option Ticket) × TapeLocals)

/-- A thread that has no ticket to give. -/
def background {α : Type} (m : HydratorM α) : HydratorThread :=
  (do
    let _ ← m
    pure none : HydratorM (Option Ticket)) {}

/-- The threads that a step starts. -/
def hydratorForks (config : HydratorConfig) : (o : HydratorOp) → Except Exn o.Ans → List HydratorThread
  | .spawnResume t jobId, .ok _ => [background (resume t jobId)]
  | .enqueue _ tapeKey, .ok .armed => [background (flush config tapeKey)]
  | _, _ => []

/-- A call that is made from outside: of the hydrator, of the restore service, or of another that changes what they work on. -/
inductive HydratorCall where
  | request (path : String)
  | shutdown
  | enqueueRestore (path : String) (dest : PurePosixPath)
  | enqueueRestoreBatch (requests : List RestoreJobRequest)
  | insertJob (jobType : String) (metadata : JobMetadata)
  | setJob (jobId : Nat) (state : String)
  | setCatalog (catalog : Catalog)
  | writeFile (path : PurePosixPath) (data : Bytes)
  | removeFile (path : PurePosixPath)
  | evict (checksum : String)
  deriving Repr, DecidableEq

/-- The thread of a call. -/
def HydratorCall.thread : HydratorCall → HydratorThread
  | .request path =>
    (do
      let t ← OpenBlade.request path
      pure (some t) : HydratorM (Option Ticket)) {}
  | .shutdown => background OpenBlade.shutdown
  | .enqueueRestore path dest => background (ofJob (OpenBlade.enqueueRestore path dest))
  | .enqueueRestoreBatch requests => background (ofJob (OpenBlade.enqueueRestoreBatch requests))
  | .insertJob jobType metadata => background (hydrator (.insertJob jobType metadata))
  | .setJob jobId state => background (hydrator (.setJob jobId state))
  | .setCatalog catalog => background (hydrator (.setCatalog catalog))
  | .writeFile path data => background (hydrator (.writeFile path data))
  | .removeFile path => background (hydrator (.removeFile path))
  | .evict checksum => background (hydrator (.evict checksum))

abbrev HydratorSystem : Type :=
  System HydratorState HydratorOp (fun o => Except Exn o.Ans) (Except Exn (Option Ticket) × TapeLocals)

abbrev HydratorTurn : Type :=
  Turn HydratorState HydratorOp (fun o => Except Exn o.Ans) (Except Exn (Option Ticket) × TapeLocals)

/-- A new hydrator, and the calls that will be made. -/
def hydratorSystem (world : RestoreWorld) (cached : Dict String Bytes) (calls : List HydratorCall) : HydratorSystem :=
  { state := { world := world, cached := cached }, threads := calls.map HydratorCall.thread }

end OpenBlade
