import OpenBlade.Effects.Pool
import OpenBlade.Fuse.HydrationCache

/-!
# The mount and the gateway over the cache

`open`, `read` and `release` of `fuse/mount.py`, `on_open`, `on_read_range`, `on_close` and `on_evict` of
`nas/protocol_gateway.py`, the waits and the commit of `fuse/hydration.py`, and the operations of the cache they are made of, as
procedures that share one cache. Calls run side by side, one step at a time. What the hydrator answers, when a ticket is done and
with what bytes, is the environment's choice; the mount serves one call at a time, so nothing comes between the two entries it
makes for a new handle.
-/

namespace OpenBlade

open Effects Proc Cache

inductive HydrationState where
  | offline
  | hydrating
  | online
  deriving Repr, DecidableEq

/-- The steps of the calls. -/
inductive FuseOp where
  /-- `filesystem.stat`: whether the path is a directory, if it is anything. -/
  | stat (path : String)
  /-- `catalog.get_file_record(path).checksum_sha256`. -/
  | fileRecord (path : String)
  | isCached (checksum : String)
  | entryMatches (checksum : String)
  | dropEntry (checksum : String)
  | acquire (checksum : String)
  | release (checksum : String)
  | evict (checksum : String)
  | readEntry (checksum : String)
  | unlinkEntry (checksum : String)
  | readRange (checksum : String) (offset length : Int)
  /-- The file takes its name: `os.replace` of what was verified, or the write of `store`. -/
  | place (checksum : String) (data : Bytes)
  | writeMeta (checksum : String)
  | entrySize (checksum : String)
  | track (checksum : String) (size : Nat)
  /-- `hydrator.request`: the checksum of the ticket. -/
  | request (path : String)
  /-- `ticket.done.wait`, and what the ticket then says. -/
  | await (path : String)
  | callHydrator (path : String)
  | status (path : String)
  | issueHandle (data : Bytes) (checksum : Option String)
  | openFile (handle : Nat)
  | closeHandle (handle : Nat)
  | issueToken (checksum : String)
  | closeToken (token : Nat)
  /-- A file of the cache is altered from outside. -/
  | damage (key : Key) (file : File)

abbrev FuseOp.Ans : FuseOp → Type
  | stat _ => Option Bool
  | fileRecord _ => Option String
  | isCached _ | entryMatches _ => Bool
  | dropEntry _ | acquire _ | release _ | evict _ | unlinkEntry _ | place .. | writeMeta _ | track .. | await _ | damage .. => Unit
  | readEntry _ => Option Bytes
  | readRange .. | callHydrator _ => Bytes
  | entrySize _ => Nat
  | request _ => String
  | status _ => HydrationState
  | issueHandle .. | issueToken _ => Nat
  | openFile _ => Option Bytes
  | closeHandle _ | closeToken _ => Option String

/-- What the environment decides of a step: an exception of what is outside, the bytes and states it gives, and the time. -/
structure FuseChoice where
  fails : Option Exn := none
  isDir : Option Bool := some false
  bytes : Bytes := []
  state : HydrationState := .offline
  now : Nat := 0
  deriving Repr, DecidableEq

/-- The cache, the open files of the mount and the handles of the gateway. -/
structure FuseState where
  cache : HydrationCache := {}
  /-- `_open_files`. -/
  openFiles : Dict Nat Bytes := []
  /-- `_handle_checksums`. -/
  handleChecksums : Dict Nat String := []
  nextHandle : Nat := 1
  /-- `_handles` of the gateway; tokens are numbered as they are issued. -/
  tokens : Dict Nat String := []
  nextToken : Nat := 0
  deriving Repr, DecidableEq

/-- The catalog of the mounted files, and whether a mount hydrates: not at all, by a function, or through the data plane. -/
inductive HydrateMode where
  | none
  | callable
  | dataPlane
  deriving Repr, DecidableEq

structure FuseConfig where
  lib : Libraries
  /-- The checksum of a path's file record. -/
  record : String → Option String
  mode : HydrateMode := .dataPlane

namespace FuseState

variable (config : FuseConfig) (s : FuseState) (choice : FuseChoice)

/-- What the environment refuses, or the answer. -/
def unlessFails {α : Type} (a : α) : Except Exn α :=
  match choice.fails with
  | some e => .error e
  | none => .ok a

/-- An operation of the cache. -/
def onCache {α : Type} (done : Except Exn α × HydrationCache) : Except Exn α × FuseState := (done.1, { s with cache := done.2 })

/-- A step that is refused for the name of the entry. -/
def guarded {α : Type} (checksum : String) (done : Except Exn α × FuseState) : Except Exn α × FuseState :=
  match HydrationCache.cacheKey checksum with
  | .error e => (.error e, s)
  | .ok _ => done

/-- One step. -/
def exec : (o : FuseOp) → Except Exn o.Ans × FuseState
  | .stat _ => (unlessFails choice choice.isDir, s)
  | .fileRecord path => (.ok (config.record path), s)
  | .isCached checksum => (s.cache.isCached checksum, s)
  | .entryMatches checksum => s.guarded checksum (.ok (s.cache.entryMatches config.lib checksum), s)
  | .dropEntry checksum => (.ok (), { s with cache := s.cache.dropEntry checksum })
  | .acquire checksum => (.ok (), { s with cache := s.cache.acquire checksum })
  | .release checksum => s.onCache (s.cache.release checksum)
  | .evict checksum => s.onCache (s.cache.evict checksum)
  | .readEntry checksum => s.guarded checksum (.ok ((s.cache.file? checksum).map File.bytes), s)
  | .unlinkEntry checksum =>
    match s.cache.file? checksum with
    | none => (.error (ioError "No such file or directory"), s)
    | some _ => (.ok (), { s with cache := s.cache.unlink (entryKey checksum) })
  | .readRange checksum offset length => (s.cache.readRange checksum offset length, s)
  | .place checksum data =>
    s.guarded checksum (.ok (), { s with cache := s.cache.writeFile (entryKey checksum) { bytes := data, mtimeNs := choice.now } })
  | .writeMeta checksum =>
    match s.cache.file? checksum with
    | none => (.error (ioError "No such file or directory"), s)
    | some file => (.ok (), { s with cache := s.cache.writeMeta config.lib checksum file choice.now })
  | .entrySize checksum =>
    match s.cache.file? checksum with
    | none => (.error (ioError "No such file or directory"), s)
    | some file => (.ok file.bytes.length, s)
  | .track checksum size => s.onCache (s.cache.track checksum size)
  | .request path =>
    match choice.fails, config.record path with
    | some e, _ => (.error e, s)
    | none, some checksum => (.ok checksum, s)
    | none, none => (.error { cls := .other "FileNotFoundError", message := path }, s)
  | .await _ => (unlessFails choice (), s)
  | .callHydrator _ => (unlessFails choice choice.bytes, s)
  | .status _ => (unlessFails choice choice.state, s)
  | .issueHandle data checksum =>
    (.ok s.nextHandle,
      { s with
        openFiles := s.openFiles.set s.nextHandle data
        handleChecksums := match checksum with
          | some checksum => s.handleChecksums.set s.nextHandle checksum
          | none => s.handleChecksums
        nextHandle := s.nextHandle + 1 })
  | .openFile handle => (.ok (s.openFiles.get? handle), s)
  | .closeHandle handle =>
    (.ok (s.handleChecksums.get? handle),
      { s with openFiles := s.openFiles.erase handle, handleChecksums := s.handleChecksums.erase handle })
  | .issueToken checksum =>
    (.ok s.nextToken, { s with tokens := s.tokens.set s.nextToken checksum, nextToken := s.nextToken + 1 })
  | .closeToken token => (.ok (s.tokens.get? token), { s with tokens := s.tokens.erase token })
  | .damage key file =>
    match s.cache.dir.files.get? key with
    | none => (.ok (), s)
    | some _ => (.ok (), { s with cache := s.cache.writeFile key file })

end FuseState

/-- The steps as a machine. -/
def fuseMachine (config : FuseConfig) : Machine FuseState FuseOp (fun o => Except Exn o.Ans) FuseChoice where
  exec s o choice := s.exec config choice o

abbrev FuseM (α : Type) : Type := Proc FuseOp FuseOp.Ans Exn Unit α

abbrev fuse (o : FuseOp) : FuseM o.Ans := perform o

/-- `OSError(errno.…, os.strerror(…), path)`. -/
def osError (errno : Nat) (strerror path : String) : Exn :=
  { cls := .other "OSError", message := "[Errno " ++ toString errno ++ "] " ++ strerror ++ ": '" ++ path ++ "'" }

def noEntry (path : String) : Exn := osError 2 "No such file or directory" path

def ioFailure (path : String) : Exn := osError 5 "Input/output error" path

def tryAgain (path : String) : Exn := osError 11 "Resource temporarily unavailable" path

def isDirectory (path : String) : Exn := osError 21 "Is a directory" path

def readOnlyFilesystem : Exn := { cls := .other "OSError", message := "[Errno 30] Read-only file system" }

def isIntegrityError (e : Exn) : Bool := e.cls = .typed "CacheIntegrityError"

/-- `except (OSError, ValueError)`; errors of the cache are both typed errors and `ValueError`s. -/
def isOSOrValueError (e : Exn) : Bool :=
  e.cls ∈ [.valueError, .other "OSError", .other "FileNotFoundError", .other "HydrationTimeoutError", .typed "CacheError",
    .typed "CacheChecksumError", .typed "CacheIntegrityError"]

/-- `except (HydrationFailedError, OSError, ValueError)`. -/
def isHydrationFailure (e : Exn) : Bool := e.cls = .other "HydrationFailedError" ∨ isOSOrValueError e

/-! ## The cache -/

/-- `HydrationCache.verify_entry`. The check and the deletion are under the lock of the cache, which keeps out other holders of it
but not a file that takes its name. -/
def verifyEntry (checksum : String) : FuseM Bool := do
  if ← fuse (.entryMatches checksum) then pure true
  else do
    fuse (.dropEntry checksum)
    raise evictedEntry

/-- `HydrationCache.retrieve`. -/
def retrieveEntry (lib : Libraries) (checksum : String) : FuseM Bytes := do
  match ← fuse (.readEntry checksum) with
  | none => raise (notInCache checksum)
  | some data =>
    if lib.hexdigest data ≠ checksum then do
      fuse (.unlinkEntry checksum)
      raise (mismatch checksum (lib.hexdigest data))
    else pure data

/-- `HydrationCache.store_verified`. -/
def storeVerified (lib : Libraries) (checksum : String) (staged : Option Bytes) : FuseM Unit := do
  ofExcept ((HydrationCache.cacheKey checksum).map fun _ => ())
  match staged with
  | none => raise (ioError "staged file is missing")
  | some data =>
    if lib.hexdigest data ≠ checksum then raise (unverified checksum)
    else do
      fuse (.place checksum data)
      fuse (.writeMeta checksum)
      let size ← fuse (.entrySize checksum)
      fuse (.track checksum size)

/-- `HydrationCache.store`. -/
def storeEntry (checksum : String) (data : Bytes) : FuseM Unit := do
  fuse (.place checksum data)
  fuse (.writeMeta checksum)
  fuse (.track checksum data.length)

/-- The open-time check of the mount and of the gateway: a failed entry is dropped, so that it is hydrated again. -/
def verifyCachedEntry (checksum : String) : FuseM Unit := do
  if ← fuse (.isCached checksum) then
    handle (do let _ ← verifyEntry checksum) fun e => if isIntegrityError e then pure () else raise e
  else pure ()

/-! ## The hydrator -/

/-- `Hydrator._pinned_read`. -/
def pinnedRead {α : Type} (path checksum : String) (read : FuseM α) : FuseM α := do
  fuse (.acquire checksum)
  ensure
    (do
      fuse (.await path)
      read)
    fun _ => fuse (.release checksum)

/-- `Hydrator.wait`. -/
def waitTicket (lib : Libraries) (path checksum : String) : FuseM Bytes := pinnedRead path checksum (retrieveEntry lib checksum)

/-- `Hydrator.wait_range`. -/
def waitRange (path checksum : String) (offset length : Int) : FuseM Bytes :=
  pinnedRead path checksum (fuse (.readRange checksum offset length))

/-! ## The mount -/

/-- `_hydrate`. -/
def mountHydrate (lib : Libraries) (path : String) : FuseM Bytes := do
  let checksum ← fuse (.request path)
  handle (waitTicket lib path checksum) fun e =>
    if e.cls = .other "HydrationTimeoutError" then raise (tryAgain path)
    else if isHydrationFailure e then raise (ioFailure path)
    else raise e

/-- `_materialise`. -/
def materialise (config : FuseConfig) (path : String) : FuseM Bytes := do
  match ← fuse (.fileRecord path) with
  | none => raise (noEntry path)
  | some checksum =>
    if ← fuse (.isCached checksum) then
      handle (retrieveEntry config.lib checksum) fun e => if isOSOrValueError e then raise (ioFailure path) else raise e
    else
      match config.mode with
      | .dataPlane => mountHydrate config.lib path
      | .none => raise (ioFailure path)
      | .callable => handle (fuse (.callHydrator path)) fun _ => raise (ioFailure path)

/-- `open`; `writes` says that the flags ask for more than reading. -/
def mountOpen (config : FuseConfig) (path : String) (writes : Bool) : FuseM Nat :=
  if writes then raise readOnlyFilesystem
  else do
    match ← fuse (.stat path) with
    | none => raise (noEntry path)
    | some true => raise (isDirectory path)
    | some false =>
      let record ← fuse (.fileRecord path)
      match record with
      | some checksum => do
        verifyCachedEntry checksum
        fuse (.acquire checksum)
        let data ← handle (materialise config path) fun e => do
          fuse (.release checksum)
          raise e
        fuse (.issueHandle data (some checksum))
      | none => do
        let data ← materialise config path
        fuse (.issueHandle data none)

/-- `read`. -/
def mountRead (config : FuseConfig) (path : String) (size offset handle : Nat) : FuseM Bytes := do
  match ← fuse (.openFile handle) with
  | some data => pure ((data.drop offset).take size)
  | none => do
    let data ← materialise config path
    pure ((data.drop offset).take size)

/-- `release`. -/
def mountRelease (handle : Nat) : FuseM Unit := do
  match ← fuse (.closeHandle handle) with
  | some checksum => fuse (.release checksum)
  | none => pure ()

/-! ## The gateway -/

/-- `on_open`; `waits` says that a timeout was given. -/
def gatewayOpen (config : FuseConfig) (path : String) (waits : Bool) : FuseM (Nat × HydrationState) := do
  match ← fuse (.fileRecord path) with
  | some checksum => verifyCachedEntry checksum
  | none => pure ()
  let checksum ← fuse (.request path)
  fuse (.acquire checksum)
  let state ← handle
    (do
      if waits then
        let _ ← waitTicket config.lib path checksum
        fuse (.status path)
      else fuse (.status path))
    fun e => do
      fuse (.release checksum)
      raise e
  let token ← fuse (.issueToken checksum)
  pure (token, state)

/-- `on_read_range`. -/
def gatewayReadRange (path : String) (offset length : Int) : FuseM Bytes := do
  let checksum ← fuse (.request path)
  waitRange path checksum offset length

/-- `on_close`. -/
def gatewayClose (token : Nat) : FuseM Unit := do
  match ← fuse (.closeToken token) with
  | some checksum => fuse (.release checksum)
  | none => pure ()

/-- `on_evict`. -/
def gatewayEvict (path : String) : FuseM Bool := do
  match ← fuse (.fileRecord path) with
  | none => pure false
  | some checksum =>
    handle
      (do
        fuse (.evict checksum)
        pure true)
      fun e => if e.cls = .other "CacheEntryInUseError" then pure false else raise e

/-! ## Calls -/

/-- A call of one of the layers, or damage from outside. -/
inductive FuseCall where
  | mountOpen (path : String) (writes : Bool)
  | mountRead (path : String) (size offset handle : Nat)
  | mountRelease (handle : Nat)
  | gatewayOpen (path : String) (waits : Bool)
  | gatewayReadRange (path : String) (offset length : Int)
  | gatewayClose (token : Nat)
  | gatewayEvict (path : String)
  | hydrate (path : String)
  | hydrated (checksum : String) (staged : Option Bytes)
  | store (checksum : String) (data : Bytes)
  | verify (checksum : String)
  | retrieve (checksum : String)
  | readRange (checksum : String) (offset length : Int)
  | evict (checksum : String)
  | damage (key : Key) (file : File)
  deriving Repr, DecidableEq

/-- A call for its steps only. -/
def discard {α : Type} (m : FuseM α) : FuseM Unit := do
  let _ ← m
  pure ()

/-- What a call does. -/
def FuseCall.body (config : FuseConfig) : FuseCall → FuseM Unit
  | .mountOpen path writes => discard (OpenBlade.mountOpen config path writes)
  | .mountRead path size offset handle => discard (OpenBlade.mountRead config path size offset handle)
  | .mountRelease handle => OpenBlade.mountRelease handle
  | .gatewayOpen path waits => discard (OpenBlade.gatewayOpen config path waits)
  | .gatewayReadRange path offset length => discard (OpenBlade.gatewayReadRange path offset length)
  | .gatewayClose token => OpenBlade.gatewayClose token
  | .gatewayEvict path => discard (OpenBlade.gatewayEvict path)
  | .hydrate path => discard do
    let checksum ← fuse (.request path)
    waitTicket config.lib path checksum
  | .hydrated checksum staged => storeVerified config.lib checksum staged
  | .store checksum data => storeEntry checksum data
  | .verify checksum => discard (verifyEntry checksum)
  | .retrieve checksum => discard (retrieveEntry config.lib checksum)
  | .readRange checksum offset length => discard (fuse (.readRange checksum offset length))
  | .evict checksum => fuse (.evict checksum)
  | .damage key file => fuse (.damage key file)

/-- Calls that run side by side. -/
def fusePool {ι : Type} (config : FuseConfig) (calls : ι → FuseCall) :
    Pool ι FuseOp (fun o => Except Exn o.Ans) (Except Exn Unit × Unit) :=
  fun i => (calls i).body config ()

end OpenBlade
