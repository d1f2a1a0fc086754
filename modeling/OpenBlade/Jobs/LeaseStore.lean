import Mathlib
import OpenBlade.Domain.Models

/-!
# Drive leases

The two lease stores of `jobs/scheduler.py`. `InMemoryLeaseStore` keeps a dictionary of leases and the last fencing token it
gave; `CatalogLeaseStore` keeps rows of the catalog (`catalog/repository.py`) and gives the greatest token plus one. Both are
instances of the protocol `LeaseStore`; every operation reads the clock once, under the store's lock, so an operation is one
atomic step at one clock reading. The `uuid4` ids of leases are numbered in the order they are drawn; a clock reading is naive
UTC in microseconds; drive ids are integers, the negative ones being claims of slots.
-/

namespace OpenBlade

/-- A reservation of one scheduler drive for one job. -/
structure DriveLease where
  id : Nat
  driveId : Int
  jobId : JobId
  barcode : Barcode
  physicalDriveId : Option Int
  fencingToken : Nat
  acquiredAt : Int
  heartbeatAt : Int
  expiresAt : Int
  releasedAt : Option Int := none
  deriving Repr, DecidableEq

/-- `_live`: unreleased, and expiring after `now`. -/
def DriveLease.live (lease : DriveLease) (now : Int) : Bool :=
  lease.releasedAt.isNone && decide (now < lease.expiresAt)

/-- The free drives, in ascending order: below `num_drives`, held by no live lease, not excluded. -/
def freeDrives (leases : List DriveLease) (now : Int) (numDrives : Nat) (exclude : List Int) : List Int :=
  ((List.range numDrives).map fun d : Nat => (d : Int)).filter fun d =>
    !(leases.any fun lease => lease.live now && lease.driveId == d) && !exclude.contains d

/-- The leases `acquire` makes: one for each drive and barcode, with consecutive ids and fencing tokens. -/
def newLeases (jobId : JobId) (now ttl : Int) : Nat → Nat → List Int → List Barcode → List DriveLease
  | id, token, d :: ds, b :: bs =>
    { id := id, driveId := d, jobId := jobId, barcode := b, physicalDriveId := none, fencingToken := token + 1,
      acquiredAt := now, heartbeatAt := now, expiresAt := now + ttl } ::
      newLeases jobId now ttl (id + 1) (token + 1) ds bs
  | _, _, _, _ => []

/-- Update the lease with a given id, if there is one. -/
def updateLease (leases : List DriveLease) (leaseId : Nat) (f : DriveLease → DriveLease) : List DriveLease :=
  leases.map fun lease => if lease.id = leaseId then f lease else lease

/-- `heartbeat` of one lease: a live lease now expires `ttl` after `now`, any other stays as it is. -/
def DriveLease.heartbeat (now ttl : Int) (lease : DriveLease) : DriveLease :=
  if lease.live now then { lease with heartbeatAt := now, expiresAt := now + ttl } else lease

/-- `release` of one lease: an unreleased lease is released at `now`. -/
def DriveLease.release (now : Int) (lease : DriveLease) : DriveLease :=
  if lease.releasedAt.isNone then { lease with releasedAt := some now } else lease

/-- Where drive leases live: the operations of the protocol `LeaseStore` that read or write leases, at a clock reading. -/
class LeaseStore (S : Type) where
  empty : S
  /-- Every lease ever granted, in the order of acquisition. -/
  leases : S → List DriveLease
  acquire : S → Int → JobId → List Barcode → Nat → Int → List Int → Option (List DriveLease) × S
  acquireDriveLeaseAt : S → Int → JobId → Int → Barcode → Int → Option DriveLease × S
  heartbeat : S → Int → List Nat → Int → S
  setPhysicalDrive : S → Nat → Int → S
  release : S → Int → List Nat → S

/-- `is_live`: the lease is known, carries this token and is live. -/
def LeaseStore.isLive {S : Type} [LeaseStore S] (s : S) (now : Int) (leaseId : Nat) (fencingToken : Nat) : Bool :=
  ((leases s).find? fun lease => lease.id = leaseId).any fun lease =>
    lease.fencingToken == fencingToken && lease.live now

/-- `live_leases`. -/
def LeaseStore.liveLeases {S : Type} [LeaseStore S] (s : S) (now : Int) : List DriveLease :=
  (leases s).filter fun lease => lease.live now

/-- Process-local lease store. -/
structure InMemoryLeaseStore where
  leases : List DriveLease := []
  lastToken : Nat := 0
  deriving Repr, DecidableEq

namespace InMemoryLeaseStore

def acquire (s : InMemoryLeaseStore) (now : Int) (jobId : JobId) (barcodes : List Barcode) (numDrives : Nat) (ttl : Int)
    (exclude : List Int) : Option (List DriveLease) × InMemoryLeaseStore :=
  let free := freeDrives s.leases now numDrives exclude
  if free.length < barcodes.length then (none, s)
  else
    let acquired := newLeases jobId now ttl s.leases.length s.lastToken free barcodes
    (some acquired, { leases := s.leases ++ acquired, lastToken := s.lastToken + acquired.length })

def acquireDriveLeaseAt (s : InMemoryLeaseStore) (now : Int) (jobId : JobId) (driveId : Int) (barcode : Barcode)
    (ttl : Int) : Option DriveLease × InMemoryLeaseStore :=
  if s.leases.any fun lease => lease.driveId == driveId && lease.live now then (none, s)
  else
    let lease : DriveLease :=
      { id := s.leases.length, driveId := driveId, jobId := jobId, barcode := barcode, physicalDriveId := none,
        fencingToken := s.lastToken + 1, acquiredAt := now, heartbeatAt := now, expiresAt := now + ttl }
    (some lease, { leases := s.leases ++ [lease], lastToken := s.lastToken + 1 })

def heartbeat (s : InMemoryLeaseStore) (now : Int) (leaseIds : List Nat) (ttl : Int) : InMemoryLeaseStore :=
  { s with leases := leaseIds.foldl (fun ls id => updateLease ls id (DriveLease.heartbeat now ttl)) s.leases }

def setPhysicalDrive (s : InMemoryLeaseStore) (leaseId : Nat) (physicalDriveId : Int) : InMemoryLeaseStore :=
  { s with leases := updateLease s.leases leaseId fun lease => { lease with physicalDriveId := some physicalDriveId } }

def release (s : InMemoryLeaseStore) (now : Int) (leaseIds : List Nat) : InMemoryLeaseStore :=
  { s with leases := leaseIds.foldl (fun ls id => updateLease ls id (DriveLease.release now)) s.leases }

instance : LeaseStore InMemoryLeaseStore where
  empty := {}
  leases s := s.leases
  acquire := acquire
  acquireDriveLeaseAt := acquireDriveLeaseAt
  heartbeat := heartbeat
  setPhysicalDrive := setPhysicalDrive
  release := release

end InMemoryLeaseStore

/-- The rows of the table `drive_leases`, in insertion order. -/
structure CatalogLeaseStore where
  rows : List DriveLease := []
  deriving Repr, DecidableEq

namespace CatalogLeaseStore

/-- `COALESCE(MAX(fencing_token), 0)`. -/
def maxToken (s : CatalogLeaseStore) : Nat :=
  (s.rows.map DriveLease.fencingToken).foldl max 0

/-- `acquire_drive_leases`: the rows are inserted in one transaction. -/
def acquire (s : CatalogLeaseStore) (now : Int) (jobId : JobId) (barcodes : List Barcode) (numDrives : Nat) (ttl : Int)
    (exclude : List Int) : Option (List DriveLease) × CatalogLeaseStore :=
  let free := freeDrives s.rows now numDrives exclude
  if free.length < barcodes.length then (none, s)
  else
    let rows := newLeases jobId now ttl s.rows.length s.maxToken free barcodes
    (some rows, { rows := s.rows ++ rows })

def acquireDriveLeaseAt (s : CatalogLeaseStore) (now : Int) (jobId : JobId) (driveId : Int) (barcode : Barcode)
    (ttl : Int) : Option DriveLease × CatalogLeaseStore :=
  if s.rows.any fun row => row.driveId == driveId && row.live now then (none, s)
  else
    let row : DriveLease :=
      { id := s.rows.length, driveId := driveId, jobId := jobId, barcode := barcode, physicalDriveId := none,
        fencingToken := s.maxToken + 1, acquiredAt := now, heartbeatAt := now, expiresAt := now + ttl }
    (some row, { rows := s.rows ++ [row] })

/-- `heartbeat_leases`: the live rows among those named. -/
def heartbeat (s : CatalogLeaseStore) (now : Int) (leaseIds : List Nat) (ttl : Int) : CatalogLeaseStore :=
  { rows := s.rows.map fun row => if row.id ∈ leaseIds then row.heartbeat now ttl else row }

/-- `set_lease_physical_drive`. -/
def setPhysicalDrive (s : CatalogLeaseStore) (leaseId : Nat) (physicalDriveId : Int) : CatalogLeaseStore :=
  { rows := updateLease s.rows leaseId fun row => { row with physicalDriveId := some physicalDriveId } }

/-- `release_leases`: the unreleased rows among those named. -/
def release (s : CatalogLeaseStore) (now : Int) (leaseIds : List Nat) : CatalogLeaseStore :=
  { rows := s.rows.map fun row => if row.id ∈ leaseIds then row.release now else row }

/-- `live_leases`: `ORDER BY fencing_token`. -/
def liveLeases (s : CatalogLeaseStore) (now : Int) : List DriveLease :=
  (s.rows.filter fun row => row.live now).insertionSort fun a b => a.fencingToken ≤ b.fencingToken

/-- `expired_leases`: unreleased leases whose owner stopped heartbeating. -/
def expiredLeases (s : CatalogLeaseStore) (now : Int) : List DriveLease :=
  (s.rows.filter fun row => row.releasedAt.isNone && decide (row.expiresAt ≤ now)).insertionSort fun a b =>
    a.fencingToken ≤ b.fencingToken

instance : LeaseStore CatalogLeaseStore where
  empty := {}
  leases s := s.rows
  acquire := acquire
  acquireDriveLeaseAt := acquireDriveLeaseAt
  heartbeat := heartbeat
  setPhysicalDrive := setPhysicalDrive
  release := release

end CatalogLeaseStore

end OpenBlade
