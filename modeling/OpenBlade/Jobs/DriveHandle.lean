import OpenBlade.Jobs.LeaseStore

/-!
# Drive handles

What `DriveScheduler.acquire_drives` hands out, and `DriveScheduler.verify`.
-/

namespace OpenBlade

structure DriveHandle where
  /-- The drive the lease reserves. -/
  driveId : Int
  barcode : Barcode
  /-- The drive the cartridge is in, when it was found elsewhere. -/
  physicalDriveId : Option Int := none
  leaseId : Nat
  fencingToken : Nat
  /-- `_released`. -/
  released : Bool := false
  holdUnjournaled : Bool := false
  deriving Repr, DecidableEq

/-- The drive physical operations run against. -/
def DriveHandle.physical (handle : DriveHandle) : Int :=
  handle.physicalDriveId.getD handle.driveId

/-- The handle of a lease just granted. -/
def DriveHandle.ofLease (lease : DriveLease) : DriveHandle :=
  { driveId := lease.driveId, barcode := lease.barcode, leaseId := lease.id, fencingToken := lease.fencingToken }

/-- `DriveHandle.physical`, as the lease records it. -/
def DriveLease.physical (lease : DriveLease) : Int :=
  lease.physicalDriveId.getD lease.driveId

/-- The message of the `StaleLeaseError` of `verify`. -/
def staleLeaseMessage (handle : DriveHandle) : String :=
  "Lease on drive " ++ toString handle.driveId ++ " for " ++ handle.barcode ++ " is no longer live"

/-- `verify`: raise `StaleLeaseError` unless the handle's lease is still live with its token. -/
def verify {S : Type} [LeaseStore S] (s : S) (now : Int) (handle : DriveHandle) : Except Exn Unit :=
  if handle.released || !LeaseStore.isLive s now handle.leaseId handle.fencingToken then
    .error { cls := .staleLease, message := staleLeaseMessage handle }
  else .ok ()

end OpenBlade
