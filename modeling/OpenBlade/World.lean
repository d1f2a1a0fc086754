import OpenBlade.Catalog.Repository
import OpenBlade.Effects.Footprint
import OpenBlade.Hardware.Ltfs

/-!
# The world of a job

Everything a tape job reads or changes, the operations it calls, and what the environment decides about each call: how much time
passes, whether the call raises (before or after it took effect), whether a backend answers `success = False`, whether an unmount
leaves the drive dirty, what a write leaves on the tape and what a read finds there, which of several threads goes next.
-/

namespace OpenBlade

open Effects

/-- The catalog, the library, the tapes, and the files of the host. -/
structure World where
  clock : Int := 0
  catalog : Catalog := {}
  library : Library := {}
  ltfs : Ltfs := {}
  /-- Files the jobs write on the host. -/
  host : Dict String Bytes := []
  /-- `uuid4` texts drawn so far. -/
  draws : Nat := 0
  deriving Repr, DecidableEq

/-- Calls of the catalog repository. -/
inductive CatalogOp where
  | getVolumeGroup (name : String)
  | createVolumeGroup (name : String)
  | getCartridge (barcode : Barcode)
  | addCartridge (barcode : Barcode) (volumeGroupId : Option Nat)
  | listCartridges
  /-- Assign fields of a cartridge row and commit. -/
  | saveCartridge (cartridge : Cartridge)
  | createFileRecord (fields : Catalog.FileRecordFields)
  | getFileRecord (path : String)
  | getFileRecordById (id : Nat)
  | listShardRecords (parentId : Nat)
  | instancesOf (fileRecordId : Nat)
  | getLatestInstanceForPath (path : String)
  | listInstancesForBarcode (barcode : Barcode)
  | createFileInstance (fileRecordId : Nat) (barcode : Barcode) (tapePath : String)
  | createStagedInstance (jobId : JobId) (fileRecordId : Nat) (barcode : Barcode) (tapePath : String)
  | markInstanceArchived (id : Nat) (checksumVerified : Bool)
  | markInstancesVerifying (ids : List Nat)
  | markInstancesArchived (ids : List Nat) (checksumVerified : Bool)
  | updateJobState (jobId : JobId) (state : String) (error : Option String)
  | getJob (jobId : JobId)
  | journal (jobId : JobId) (event : String) (detail : JsonObject)
  | journalDurable (jobId : JobId) (event : String) (detail : JsonObject)
  | journalEvents (event : String)
  | setCartridgeState (barcode : Barcode) (state : String)
  | listVolumeGroups
  | saveSafetyToken (token : SafetyToken)
  | getSafetyToken (tokenValue : String)
  | deleteSafetyToken (tokenValue : String)
  | createTapeOp (request : TapeOpRequest)
  | updateTapeOp (opId : Nat) (update : Catalog.TapeOpUpdate)
  deriving Repr, DecidableEq

/-- Calls of the lease store. -/
inductive LeaseOp where
  | acquire (jobId : JobId) (barcodes : List Barcode) (numDrives : Nat) (ttl : Int) (exclude : List Int)
  | heartbeat (leaseIds : List Nat) (ttl : Int)
  | setPhysicalDrive (leaseId : Nat) (physicalDriveId : Int)
  | release (leaseIds : List Nat)
  | isLive (leaseId : Nat) (fencingToken : Nat)
  | liveLeases
  deriving Repr, DecidableEq

/-- Calls of the library backend. -/
inductive LibraryOp where
  | inventory
  | findSlotByBarcode (barcode : Barcode)
  | findDriveByBarcode (barcode : Barcode)
  | load (sourceSlot : Nat) (driveId : Int)
  | unload (driveId : Int) (targetSlot : Nat)
  | move (sourceSlot targetSlot : Int)
  | isMailslotBackend
  | importExportSlots
  | importCartridge (ieSlot targetSlot : Int)
  | exportCartridgeToIe (sourceSlot ieSlot : Int)
  deriving Repr, DecidableEq

/-- Calls of the LTFS backend. -/
inductive LtfsOp where
  | ensureTape (barcode : Barcode)
  | mount (barcode : Barcode) (mode : MountMode)
  | unmount (handle : MountHandle)
  | writeFile (handle : MountHandle) (content : Bytes) (path : String)
  | stat (handle : MountHandle) (path : String)
  | readFile (handle : MountHandle) (path : String) (dest : String)
  | readBytes (barcode : Barcode) (path : String)
  | format (barcode : Barcode) (confirmation : FormatConfirmation)
  deriving Repr, DecidableEq

/-- Everything else that can fail or that the environment decides. -/
inductive HostOp where
  /-- Read a source file, or its size. -/
  | readSource (file : SourceFile)
  /-- Make or remove directories and temporary files. -/
  | scratch
  | readHost (path : String)
  | writeHost (path : String) (content : Bytes)
  | removeHost (path : String)
  /-- Rename a file; it replaces what is there. -/
  | renameHost (source target : String)
  /-- Draw a text that was never drawn before. -/
  | uuid4
  /-- `time.time()`. -/
  | time
  /-- Whose turn it is, of `n`. -/
  | pick (n : Nat)
  /-- Whether the deadline of a wait has passed. -/
  | deadlinePassed
  /-- Update the AML mirror of drives and media. -/
  | amlState
  deriving Repr, DecidableEq

inductive Op where
  | catalog (o : CatalogOp)
  | lease (o : LeaseOp)
  | library (o : LibraryOp)
  | ltfs (o : LtfsOp)
  | host (o : HostOp)
  deriving Repr, DecidableEq

/-- Calls that only look: they write nothing, draw no key and touch no tape. -/
def Op.isRead : Op → Bool
  | .catalog (.getVolumeGroup _) | .catalog (.getCartridge _) | .catalog .listCartridges | .catalog (.getFileRecord _)
  | .catalog (.getFileRecordById _) | .catalog (.listShardRecords _) | .catalog (.instancesOf _)
  | .catalog (.getLatestInstanceForPath _) | .catalog (.listInstancesForBarcode _) | .catalog (.getJob _)
  | .catalog (.journalEvents _) | .catalog .listVolumeGroups | .catalog (.getSafetyToken _) => true
  | .catalog _ => false
  | .lease (.isLive _ _) | .lease .liveLeases => true
  | .lease _ => false
  | .library (.load _ _) | .library (.unload _ _) | .library (.move _ _) | .library (.importCartridge _ _)
  | .library (.exportCartridgeToIe _ _) => false
  | .library _ => true
  | .ltfs (.ensureTape _) => true
  | .ltfs _ => false
  | .host (.writeHost _ _) | .host (.removeHost _) | .host (.renameHost _ _) => false
  | .host _ => true

def CatalogOp.Ans : CatalogOp → Type
  | getVolumeGroup _ => Option VolumeGroup
  | createVolumeGroup _ => VolumeGroup
  | getCartridge _ => Option Cartridge
  | addCartridge _ _ => Cartridge
  | listCartridges => List Cartridge
  | saveCartridge _ => Unit
  | createFileRecord _ => FileRecord
  | getFileRecord _ => Option FileRecord
  | getFileRecordById _ => Option FileRecord
  | listShardRecords _ => List FileRecord
  | instancesOf _ => List FileInstance
  | getLatestInstanceForPath _ => FileRecord × FileInstance
  | listInstancesForBarcode _ => List FileInstance
  | createFileInstance _ _ _ => FileInstance
  | createStagedInstance _ _ _ _ => FileInstance
  | markInstanceArchived _ _ => Unit
  | markInstancesVerifying _ => Unit
  | markInstancesArchived _ _ => Unit
  | updateJobState _ _ _ => Unit
  | getJob _ => Option Job
  | journal _ _ _ => Unit
  | journalDurable _ _ _ => Unit
  | journalEvents _ => List JobJournalEntry
  | setCartridgeState _ _ => Option Cartridge
  | listVolumeGroups => List VolumeGroup
  | saveSafetyToken _ => Unit
  | getSafetyToken _ => Option SafetyToken
  | deleteSafetyToken _ => Bool
  | createTapeOp _ => TapeOpRecord
  | updateTapeOp _ _ => Option TapeOpRecord

def LeaseOp.Ans : LeaseOp → Type
  | acquire _ _ _ _ _ => Option (List DriveLease)
  | heartbeat _ _ => Unit
  | setPhysicalDrive _ _ => Unit
  | release _ => Unit
  | isLive _ _ => Bool
  | liveLeases => List DriveLease

def LibraryOp.Ans : LibraryOp → Type
  | inventory => LibraryInventory
  | findSlotByBarcode _ => Option Nat
  | findDriveByBarcode _ => Option Int
  | load _ _ => OperationResult
  | unload _ _ => OperationResult
  | move _ _ => OperationResult
  | isMailslotBackend => Bool
  | importExportSlots => List (Int × Option Barcode)
  | importCartridge _ _ => OperationResult
  | exportCartridgeToIe _ _ => OperationResult

def LtfsOp.Ans : LtfsOp → Type
  | ensureTape _ => TapeContents
  | mount _ _ => MountHandle
  | unmount _ => OperationResult
  | writeFile _ _ _ => Unit
  | stat _ _ => LTFSFileStat
  | readFile _ _ _ => OperationResult
  -- The bytes, if there are any, and their digest.
  | readBytes _ _ => Option (Bytes × String)
  | format _ _ => OperationResult

def HostOp.Ans : HostOp → Type
  | readSource _ => Bytes
  | scratch => Unit
  | readHost _ => Bytes
  | writeHost _ _ => Unit
  | removeHost _ => Unit
  | renameHost _ _ => Unit
  | uuid4 => String
  | time => Int
  | pick _ => Nat
  | deadlinePassed => Bool
  | amlState => Unit

def Op.Ans : Op → Type
  | catalog o => o.Ans
  | lease o => o.Ans
  | library o => o.Ans
  | ltfs o => o.Ans
  | host o => o.Ans

/-- An error that a backend, the database or the host raises. -/
structure Fault where
  name : String
  message : String
  /-- A typed error, whose message is curated. -/
  typed : Bool := false
  deriving Repr, DecidableEq

def Fault.exn (fault : Fault) : Exn :=
  { cls := if fault.typed then .typed fault.name else .other fault.name, message := fault.message }

/-- A backend answered that it succeeded. -/
def succeeded : Except Exn OperationResult → Bool
  | .ok result => result.success
  | .error _ => false

/-- What the environment decides about one call. The default is that all is well. -/
structure Choice where
  /-- Time that passes before the call. -/
  elapsed : Nat := 0
  /-- Leases the heartbeat threads extend before the call, and by how much. -/
  beats : List (Nat × Int) := []
  /-- The call raises. -/
  raises : Option Fault := none
  /-- A physical operation answers `success = False`. -/
  refuses : Bool := false
  /-- A call that raises or refuses took effect all the same. -/
  takesEffect : Bool := false
  /-- An unmount leaves the drive dirty. -/
  dirty : Bool := false
  /-- What a write leaves on the tape, if not what was written. -/
  stored : Option Bytes := none
  /-- The session shows token rows that are deleted. -/
  stale : Bool := false
  /-- What a read finds, if not what is there. -/
  seen : Option Bytes := none
  room : TapeContents := { capacityBytes := 12000000000, usedBytes := 0 }
  pick : Nat := 0
  late : Bool := false
  deriving Repr, DecidableEq

namespace World

/-- Time passes, and heartbeat threads extend live leases. -/
def elapse (w : World) (c : Choice) : World :=
  let now := w.clock + c.elapsed
  { w with
    clock := now
    catalog := { w.catalog with
      leases := c.beats.foldl (fun leases beat => LeaseStore.heartbeat leases now [beat.1] beat.2) w.catalog.leases } }

def execCatalog (w : World) (c : Choice) : (o : CatalogOp) → Except Exn o.Ans × Catalog
  | .getVolumeGroup name => (.ok (w.catalog.getVolumeGroup name), w.catalog)
  | .createVolumeGroup name => let (group, cat) := w.catalog.createVolumeGroup name; (.ok group, cat)
  | .getCartridge barcode => (.ok (w.catalog.getCartridge barcode), w.catalog)
  | .addCartridge barcode vg => let (cartridge, cat) := w.catalog.addCartridge barcode vg; (.ok cartridge, cat)
  | .listCartridges => (.ok w.catalog.listCartridges, w.catalog)
  | .saveCartridge cartridge => (.ok (), w.catalog.updateCartridge cartridge.barcode fun _ => cartridge)
  | .createFileRecord fields => let (record, cat) := w.catalog.createFileRecord w.clock fields; (.ok record, cat)
  | .getFileRecord path => (.ok (w.catalog.getFileRecord path), w.catalog)
  | .getFileRecordById id => (.ok (w.catalog.getFileRecordById id), w.catalog)
  | .listShardRecords parentId => (.ok (w.catalog.listShardRecords parentId), w.catalog)
  | .instancesOf id => (.ok (w.catalog.instancesOf id), w.catalog)
  | .getLatestInstanceForPath path => (w.catalog.getLatestInstanceForPath path, w.catalog)
  | .listInstancesForBarcode barcode => (.ok (w.catalog.listInstancesForBarcode barcode), w.catalog)
  | .createFileInstance id barcode path =>
    let (row, cat) := w.catalog.createFileInstance w.clock id barcode path
    (.ok row, cat)
  | .createStagedInstance jobId id barcode path => w.catalog.createStagedInstance w.clock jobId id barcode path
  | .markInstanceArchived id verified => w.catalog.markInstanceArchived w.clock id verified
  | .markInstancesVerifying ids => w.catalog.markInstancesVerifying ids
  | .markInstancesArchived ids verified => w.catalog.markInstancesArchived w.clock ids verified
  | .updateJobState jobId state error => w.catalog.updateJobState w.clock jobId state error
  | .getJob jobId => (.ok (w.catalog.getJob jobId), w.catalog)
  | .journal jobId event detail => (.ok (), w.catalog.appendJournal w.clock jobId event detail)
  | .journalDurable jobId event detail => (.ok (), w.catalog.appendJournal w.clock jobId event detail)
  | .journalEvents event => (.ok (w.catalog.journalEvents event), w.catalog)
  | .setCartridgeState barcode state => let (cartridge, cat) := w.catalog.setCartridgeState barcode state; (.ok cartridge, cat)
  | .listVolumeGroups => (.ok w.catalog.listVolumeGroups, w.catalog)
  | .saveSafetyToken token => (.ok (), w.catalog.saveSafetyToken token)
  | .getSafetyToken tokenValue => (.ok (w.catalog.getSafetyToken c.stale tokenValue), w.catalog)
  | .deleteSafetyToken tokenValue => let (deleted, cat) := w.catalog.deleteSafetyToken tokenValue; (.ok deleted, cat)
  | .createTapeOp request => let (row, cat) := w.catalog.createTapeOp w.clock request; (.ok row, cat)
  | .updateTapeOp opId update => let (row, cat) := w.catalog.updateTapeOp w.clock opId update; (.ok row, cat)

def execLease (w : World) : (o : LeaseOp) → o.Ans × CatalogLeaseStore
  | .acquire jobId barcodes numDrives ttl exclude =>
    LeaseStore.acquire w.catalog.leases w.clock jobId barcodes numDrives ttl exclude
  | .heartbeat leaseIds ttl => ((), LeaseStore.heartbeat w.catalog.leases w.clock leaseIds ttl)
  | .setPhysicalDrive leaseId driveId => ((), LeaseStore.setPhysicalDrive w.catalog.leases leaseId driveId)
  | .release leaseIds => ((), LeaseStore.release w.catalog.leases w.clock leaseIds)
  | .isLive leaseId token => (LeaseStore.isLive w.catalog.leases w.clock leaseId token, w.catalog.leases)
  | .liveLeases => (LeaseStore.liveLeases w.catalog.leases w.clock, w.catalog.leases)

/-- A physical operation that answers `success = False` leaves things as they are, unless it took effect all the same. -/
def refused {σ : Type} (c : Choice) (message : String) (before : σ) (done : Except Exn OperationResult × σ) :
    Except Exn OperationResult × σ :=
  if c.refuses then (.ok { success := false, message := message }, if c.takesEffect then done.2 else before) else done

def execLibrary (w : World) (c : Choice) : (o : LibraryOp) → Except Exn o.Ans × Library
  | .inventory => (.ok w.library.inventory, w.library)
  | .findSlotByBarcode barcode => (.ok (w.library.findSlotByBarcode barcode), w.library)
  | .findDriveByBarcode barcode => (.ok (w.library.findDriveByBarcode barcode), w.library)
  | .load sourceSlot driveId => refused c "load failed" w.library (w.library.load sourceSlot driveId)
  | .unload driveId targetSlot => refused c "unload failed" w.library (w.library.unload driveId targetSlot)
  | .move sourceSlot targetSlot => refused c "move failed" w.library (w.library.move sourceSlot targetSlot)
  | .isMailslotBackend => (.ok w.library.ieSlots.isSome, w.library)
  | .importExportSlots => (.ok (w.library.ieSlots.getD []), w.library)
  | .importCartridge ieSlot targetSlot => refused c "import failed" w.library (w.library.importCartridge ieSlot targetSlot)
  | .exportCartridgeToIe sourceSlot ieSlot =>
    refused c "export failed" w.library (w.library.exportCartridgeToIe sourceSlot ieSlot)

def execLtfs (sha256 : Bytes → String) (w : World) (c : Choice) :
    (o : LtfsOp) → Except Exn o.Ans × Ltfs × Library × Dict String Bytes
  | .ensureTape _ => (.ok c.room, w.ltfs, w.library, w.host)
  | .mount barcode mode =>
    let (r, ltfs, library) := w.ltfs.mount w.library barcode mode
    (r, ltfs, library, w.host)
  | .unmount handle =>
    let (r, ltfs, library) := refused c "unmount failed" (w.ltfs, w.library) (w.ltfs.unmount w.library handle c.dirty)
    (r, ltfs, library, w.host)
  | .writeFile handle content path =>
    let (r, ltfs) := w.ltfs.writeFile handle path (c.stored.getD content)
    (r, ltfs, w.library, w.host)
  | .stat handle path =>
    ((w.ltfs.read handle path).map fun bytes =>
      { sizeBytes := (c.seen.getD bytes).length, checksumSha256 := sha256 (c.seen.getD bytes) }, w.ltfs, w.library, w.host)
  | .readFile handle path dest =>
    match w.ltfs.read handle path with
    | .error e => (.error e, w.ltfs, w.library, w.host)
    | .ok bytes => (.ok { success := true, message := "read" }, w.ltfs, w.library, w.host.set dest (c.seen.getD bytes))
  | .readBytes barcode path =>
    (.ok ((c.seen.or (w.ltfs.content barcode path)).map fun bytes => (bytes, sha256 bytes)), w.ltfs, w.library, w.host)
  | .format barcode confirmation =>
    match confirmation.validate w.clock barcode with
    | .error e => (.error e, w.ltfs, w.library, w.host)
    | .ok () =>
      let (r, ltfs, library) :=
        refused c "format failed" (w.ltfs, w.library) (.ok { success := true, message := "formatted" }, w.ltfs.format w.library barcode)
      (r, ltfs, library, w.host)

def noSuchFile (path : String) : Exn := { cls := .other "FileNotFoundError", message := path }

def execHost (w : World) (c : Choice) : (o : HostOp) → Except Exn o.Ans × World
  | .readSource file => (.ok file.content, w)
  | .scratch => (.ok (), w)
  | .readHost path =>
    match w.host.get? path with
    | none => (.error (noSuchFile path), w)
    | some bytes => (.ok bytes, w)
  | .writeHost path content => (.ok (), { w with host := w.host.set path content })
  | .removeHost path => (.ok (), { w with host := w.host.erase path })
  | .renameHost source target =>
    match w.host.get? source with
    | none => (.error (noSuchFile source), w)
    | some bytes => (.ok (), { w with host := (w.host.erase source).set target bytes })
  | .uuid4 => (.ok (toString w.draws), { w with draws := w.draws + 1 })
  | .time => (.ok w.clock, w)
  | .pick n => (.ok (c.pick % n), w)
  | .deadlinePassed => (.ok c.late, w)
  | .amlState => (.ok (), w)

/-- A call that is not made to raise. -/
def attempt (sha256 : Bytes → String) (w : World) (c : Choice) : (o : Op) → Except Exn o.Ans × World
  | .catalog o => let (r, catalog) := w.execCatalog c o; (r, { w with catalog := catalog })
  | .lease o => let (r, leases) := w.execLease o; (.ok r, { w with catalog := { w.catalog with leases := leases } })
  | .library o => let (r, library) := w.execLibrary c o; (r, { w with library := library })
  | .ltfs o =>
    let (r, ltfs, library, host) := w.execLtfs sha256 c o
    (r, { w with ltfs := ltfs, library := library, host := host })
  | .host o => w.execHost c o

/-- One call. -/
def exec (sha256 : Bytes → String) (w : World) (o : Op) (c : Choice) : Except Exn o.Ans × World :=
  match c.raises with
  | none => (w.elapse c).attempt sha256 c o
  | some fault =>
    (.error fault.exn, if c.takesEffect then ((w.elapse c).attempt sha256 c o).2 else w.elapse c)

end World

/-- The machine the jobs run on. -/
def machine (sha256 : Bytes → String) : Machine World Op (fun o => Except Exn o.Ans) Choice where
  exec := World.exec sha256

/-- A step of one of several clients. -/
abbrev ClientStep (ι : Type) : Type := ι × Step World Op (fun o => Except Exn o.Ans)

/-- A procedure of a job, with local variables `L`. -/
abbrev JobM (L α : Type) : Type := Proc Op Op.Ans Exn L α

/-- A procedure that only looks. -/
abbrev Looks {L α : Type} (m : JobM L α) : Prop := Proc.Reads (fun o => o.isRead = true) m

abbrev catalogCall {L : Type} (o : CatalogOp) : JobM L o.Ans := Proc.perform (Op.catalog o)

abbrev leaseCall {L : Type} (o : LeaseOp) : JobM L o.Ans := Proc.perform (Op.lease o)

abbrev libraryCall {L : Type} (o : LibraryOp) : JobM L o.Ans := Proc.perform (Op.library o)

abbrev ltfsCall {L : Type} (o : LtfsOp) : JobM L o.Ans := Proc.perform (Op.ltfs o)

abbrev hostCall {L : Type} (o : HostOp) : JobM L o.Ans := Proc.perform (Op.host o)

end OpenBlade
