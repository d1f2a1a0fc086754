import OpenBlade.Jobs.DriveHandle
import OpenBlade.Jobs.Reconcile

/-!
# Restart recovery

`recover_after_restart` of `jobs/recovery.py`: fail the jobs whose leases expired, release orphaned leases, report the rest. It
never moves media, and the only evidence that a job is dead is a lease that stopped heartbeating.
-/

namespace OpenBlade

open Effects

/-- `_is_queue_claim`: a synthetic lease that names no cartridge. -/
def isQueueClaim (lease : DriveLease) : Bool :=
  lease.driveId < 0 || "QUEUE-CLAIM:".toList.isPrefixOf lease.barcode.toList || "CHANGER:".toList.isPrefixOf lease.barcode.toList

/-- `_NON_TERMINAL_JOB_STATES`. -/
def nonTerminalJobStates : List String := ["pending", "running"]

/-- `_FAILED_JOB_STATES`. -/
def failedJobStates : List String := ["failed", "failed_recoverable"]

/-- `INTERRUPTED_ERROR`. -/
def interruptedError : String :=
  "interrupted: drive lease expired without a heartbeat; physical state unknown — reconcile before retry"

/-- `DEFAULT_LEASE_TTL`, 15 minutes. -/
def defaultLeaseTtl : Int := 15 * 60 * 1000000

structure DriveMismatch where
  leaseId : Nat
  jobId : JobId
  driveId : Int
  expectedBarcode : Barcode
  observedBarcode : Option Barcode
  deriving Repr, DecidableEq

structure RecoveryReport where
  interruptedJobIds : List JobId
  releasedLeaseIds : List Nat
  mismatches : List DriveMismatch
  /-- Uncommitted instances of each `failed_recoverable` job. -/
  stagedInstances : List (JobId × List Catalog.StagedInstance)
  /-- `pending` jobs older than one lease TTL with no live lease. -/
  stalePendingJobIds : List JobId
  pendingReconciliation : List PendingReconciliation
  /-- Live leases of failed jobs, deliberately not released. -/
  heldFailedLeaseIds : List Nat
  deriving Repr, DecidableEq

/-- The clock readings of one pass, in the order they are taken. -/
structure RecoveryClock where
  /-- `expired_leases`. -/
  expired : Int
  /-- `update_job_state` and `journal`. -/
  marked : Int
  /-- `live_leases`. -/
  live : Int
  /-- `release_leases`. -/
  released : Int
  /-- The age of pending jobs. -/
  stale : Int
  deriving Repr, DecidableEq

/-- The readings of a clock that never goes back. -/
structure RecoveryClock.Ordered (t : RecoveryClock) : Prop where
  marked : t.expired ≤ t.marked
  live : t.marked ≤ t.live
  released : t.live ≤ t.released
  stale : t.released ≤ t.stale

/-- All readings at one moment. -/
def RecoveryClock.at (now : Int) : RecoveryClock :=
  { expired := now, marked := now, live := now, released := now, stale := now }

/-- One expired lease: its owner, if it is still running, is failed and recorded. -/
def interruptOwner (now : Int) (pass : Catalog × List JobId) (lease : DriveLease) : Catalog × List JobId :=
  match pass.1.getJob lease.jobId with
  | none => pass
  | some owner =>
    if owner.state = "running" ∧ owner.id ∉ pass.2 then
      let (_, cat) := pass.1.updateJobState now owner.id "failed_recoverable" (some interruptedError)
      (cat.appendJournal now owner.id "recovered" [("lease_id", .int lease.id), ("error", .str interruptedError)],
        pass.2 ++ [owner.id])
    else pass

/-- A live lease of a failed job. -/
def ownerFailed (cat : Catalog) (lease : DriveLease) : Bool :=
  (cat.getJob lease.jobId).any fun owner => owner.state ∈ failedJobStates

/-- A live lease whose job reached another terminal state, or is gone. -/
def ownerGone (cat : Catalog) (lease : DriveLease) : Bool :=
  !ownerFailed cat lease && (cat.getJob lease.jobId).all fun owner => owner.state ∉ nonTerminalJobStates

/-- What is wrong with the drive of an orphaned lease. -/
def mismatchOf (observed : Dict Int (Option Barcode)) (lease : DriveLease) : Option DriveMismatch :=
  if isQueueClaim lease then none
  else
    let seen := (observed.get? lease.physical).join
    if seen = some lease.barcode then none
    else
      some { leaseId := lease.id, jobId := lease.jobId, driveId := lease.physical, expectedBarcode := lease.barcode
             observedBarcode := seen }

/-- `_is_older_than` the lease TTL. -/
def isStale (now : Int) (job : Job) : Bool := job.createdAt < now - defaultLeaseTtl

/-- `drives_pending_reconciliation`, of a catalog. -/
def Catalog.drivesPendingReconciliation (cat : Catalog) : Dict Int PendingReconciliation :=
  drivesPending (byId (cat.journalEvents physicalStateUnknown) (cat.journalEvents driveReconciled))

/-- The loop over the expired leases: the catalog with the interrupted jobs failed, and their ids. -/
def interruptOwners (cat : Catalog) (t : RecoveryClock) : Catalog × List JobId :=
  (cat.leases.expiredLeases t.expired).foldl (interruptOwner t.marked) (cat, [])

/-- The leases a pass releases: the expired ones, and the live ones of jobs that are gone. -/
def orphanedLeases (cat : Catalog) (t : RecoveryClock) : List DriveLease :=
  let marked := (interruptOwners cat t).1
  cat.leases.expiredLeases t.expired ++ (marked.leases.liveLeases t.live).filter (ownerGone marked)

/-- What the drives were observed to hold. -/
def observedDrives (snapshot : LibraryInventory) : Dict Int (Option Barcode) :=
  snapshot.drives.foldl (fun (seen : Dict Int (Option Barcode)) drive => seen.set drive.1 drive.2) []

/-- What an operator must reconcile on tape before a `failed_recoverable` job is retried. -/
def stagedOfFailed (cat : Catalog) : List (JobId × List Catalog.StagedInstance) :=
  (cat.listJobs "failed_recoverable").map fun job => (job.id, cat.listStagedInstances job.id)

/-- `recover_after_restart`. -/
def recoverAfterRestart (cat : Catalog) (snapshot : LibraryInventory) (t : RecoveryClock) : RecoveryReport × Catalog :=
  let marked := (interruptOwners cat t).1
  let live := marked.leases.liveLeases t.live
  let orphaned := orphanedLeases cat t
  let after := { marked with leases := LeaseStore.release marked.leases t.released (orphaned.map DriveLease.id) }
  ({ interruptedJobIds := (interruptOwners cat t).2
     releasedLeaseIds := orphaned.map DriveLease.id
     mismatches := orphaned.filterMap (mismatchOf (observedDrives snapshot))
     stagedInstances := stagedOfFailed after
     stalePendingJobIds :=
       ((after.listJobs "pending").filter fun job => job.id ∉ live.map DriveLease.jobId ∧ isStale t.stale job = true).map Job.id
     pendingReconciliation := after.drivesPendingReconciliation.map Prod.snd
     heldFailedLeaseIds := (live.filter (ownerFailed marked)).map DriveLease.id },
    after)

end OpenBlade
