import OpenBlade.Jobs.DriveHandle
import OpenBlade.Jobs.Reconcile

/-!
# The drive scheduler

`DriveScheduler` of `jobs/scheduler.py` over the catalog's lease store. The heartbeat thread of a scheduler is part of the
environment: it may extend any live lease before any call.
-/

namespace OpenBlade

open Effects Proc

/-- A scheduler of one job. -/
structure DriveScheduler where
  numDrives : Nat
  jobId : JobId
  ttl : Int := 900000000
  /-- A wait looks again at most so many times before its timeout. -/
  polls : Nat := 0
  deriving Repr, DecidableEq

/-- The local variables of the jobs that use several drives at once. -/
structure LaneLocals where
  handles : List DriveHandle := []
  mounts : Dict Barcode MountHandle := []
  /-- The slot each drive was loaded from; none for a cartridge found in its drive. -/
  loadedSlots : Dict Int (Option Nat) := []
  fencedOut : Bool := false
  errors : List String := []
  shardGroupIds : List String := []
  filesArchived : Nat := 0
  bytesArchived : Nat := 0
  cleanupFailed : Bool := false
  stillMounted : List Barcode := []
  /-- The drive and the slot of a restore from one tape. -/
  driveId : Int := 0
  slotId : Option Nat := none
  deriving Repr, DecidableEq

/-- Assign to the handle of a lease. -/
def LaneLocals.updateHandle (l : LaneLocals) (leaseId : Nat) (f : DriveHandle → DriveHandle) : LaneLocals :=
  { l with handles := l.handles.map fun handle => if handle.leaseId = leaseId then f handle else handle }

variable {L : Type}

def driveBusy (message : String) : Exn := { cls := .driveBusy, message := message }

def driveUnreconciled (message : String) : Exn := { cls := .driveUnreconciled, message := message }

/-- The excluded drives of a scheduler, by name, in the message of `acquire_drives`. -/
def namedDrives (excluded : List Int) (unreconciled : Dict Int PendingReconciliation) : String :=
  ", ".intercalate ((excluded.insertionSort (· ≤ ·)).map fun d =>
    "drive " ++ toString d ++ " (barcode " ++
      (((unreconciled.get? d).bind PendingReconciliation.barcode).getD "unknown") ++ ")")

/-- The drives of a scheduler that await reconciliation. -/
def excludedDrives (scheduler : DriveScheduler) (unreconciled : Dict Int PendingReconciliation) : List Int :=
  (unreconciled.map Prod.fst).filter fun d : Int => 0 ≤ d ∧ d < scheduler.numDrives

/-- One look of `acquire_drives`: refuse what awaits reconciliation, else try to take the leases. -/
def acquireRound (scheduler : DriveScheduler) (barcodes : List Barcode) : JobM L (Option (List DriveLease)) := do
  let unreconciledBarcodes ← barcodesPendingReconciliation
  let pending := (barcodes.filter fun barcode => barcode ∈ unreconciledBarcodes).insertionSort (· ≤ ·)
  if pending ≠ [] then
    raise (driveUnreconciled ("Tape(s) " ++ ", ".intercalate pending ++
      " awaiting reconciliation after a failed unmount/unload; reconcile before reuse"))
  else do
    let unreconciled ← drivesPendingReconciliation
    let excluded := excludedDrives scheduler unreconciled
    if (scheduler.numDrives : Int) - excluded.length < barcodes.length then
      raise (driveUnreconciled ("Not enough reconciled drives for " ++ toString barcodes.length ++ " tape(s): " ++
        namedDrives excluded unreconciled ++ " awaiting reconciliation after a failed unmount/unload"))
    else storeAcquire scheduler.jobId barcodes scheduler.numDrives scheduler.ttl excluded

/-- What `acquire_drives` learns of the drives that await reconciliation, while `J` holds. -/
def Learns {σ C : Type} (M : Machine σ Op (fun o => Except Exn o.Ans) C) (K : Contract σ Op fun o => Except Exn o.Ans)
    (J : σ → Prop) (P : Dict Int PendingReconciliation → Prop) (l : L) : Prop :=
  ∀ s, J s → wp M K drivesPendingReconciliation (fun pending l' s' => l' = l ∧ P pending ∧ J s') (fun _ l' s' => l' = l ∧ J s') l s

/-- It may learn nothing. -/
theorem learns_nothing {σ C : Type} {M : Machine σ Op (fun o => Except Exn o.Ans) C}
    {K : Contract σ Op fun o => Except Exn o.Ans} {J : σ → Prop} {l : L} (hlook : Stable M K (fun o => o.isRead = true) J) :
    Learns M K J (fun _ => True) l := by
  intro s hJ
  refine wp_mono (looks_drivesPendingReconciliation.keeps hlook hJ) ?_ ?_
  · exact fun _ l' s' h => ⟨h.1.symm, trivial, h.2⟩
  · exact fun _ l' s' h => ⟨h.1.symm, h.2⟩

/-- A look raises, waits, or takes what the store gives; all it does besides is look. -/
theorem wp_acquireRound {σ C : Type} {M : Machine σ Op (fun o => Except Exn o.Ans) C}
    {K : Contract σ Op fun o => Except Exn o.Ans} {J : σ → Prop} {P : Dict Int PendingReconciliation → Prop}
    {N : Option (List DriveLease) → L → σ → Prop} {E : Exn → L → σ → Prop} {scheduler : DriveScheduler}
    {barcodes : List Barcode} {l : L} {s : σ} (hlook : Stable M K (fun o => o.isRead = true) J)
    (hlearn : Learns M K J P l) (hJ : J s) (hE : ∀ e s, J s → E e l s)
    (hacq : ∀ pending s, P pending → J s →
      wp M K (storeAcquire scheduler.jobId barcodes scheduler.numDrives scheduler.ttl (excludedDrives scheduler pending))
        N E l s) :
    wp M K (acquireRound scheduler barcodes) N E l s := by
  unfold acquireRound
  rw [wp_bind]
  refine wp_mono (looks_barcodesPendingReconciliation.keeps hlook hJ) ?_ (fun e l' s' h => h.1 ▸ hE e s' h.2)
  intro pendingBarcodes l' s' h
  obtain ⟨rfl, hJ'⟩ := h
  by_cases hp : (barcodes.filter fun barcode => barcode ∈ pendingBarcodes).insertionSort (· ≤ ·) ≠ []
  · simp only [if_pos hp, wp_raise]
    exact hE _ s' hJ'
  · simp only [if_neg hp, wp_bind]
    refine wp_mono (hlearn s' hJ') ?_ (fun e l' s' h => h.1 ▸ hE e s' h.2)
    intro unreconciled l' s' h
    obtain ⟨rfl, hP, hJ'⟩ := h
    split
    · exact hE _ s' hJ'
    · exact hacq unreconciled s' hP hJ'

/-- The loop of `acquire_drives`: look again until the leases are taken or the deadline has passed. -/
def acquireLoop (scheduler : DriveScheduler) (barcodes : List Barcode) : Nat → JobM L (List DriveLease)
  | 0 => raise (driveBusy ("Timed out waiting for " ++ toString barcodes.length ++ " free drives"))
  | polls + 1 => do
    match ← acquireRound scheduler barcodes with
    | some leases => pure leases
    | none => do
      let late ← deadlinePassed
      if late then raise (driveBusy ("Timed out waiting for " ++ toString barcodes.length ++ " free drives"))
      else acquireLoop scheduler barcodes polls

/-- `acquire_drives`. -/
def acquireDrives (scheduler : DriveScheduler) (barcodes : List Barcode) : JobM L (List DriveHandle) :=
  if scheduler.numDrives < barcodes.length then
    raise (driveBusy ("Requested " ++ toString barcodes.length ++ " drives but only " ++ toString scheduler.numDrives ++
      " exist"))
  else if ¬ barcodes.Nodup then
    raise { cls := .valueError, message := "Duplicate barcodes in acquire_drives request" }
  else do
    let leases ← acquireLoop scheduler barcodes (scheduler.polls + 1)
    pure (leases.map DriveHandle.ofLease)

/-- `handles[0]`. -/
def firstHandle : List DriveHandle → JobM L DriveHandle
  | [] => raise { cls := .other "IndexError", message := "list index out of range" }
  | lane :: _ => pure lane

/-- `acquire_drives` hands out what one look has taken, for barcodes that are all different. -/
theorem wp_acquireDrives {σ C : Type} {M : Machine σ Op (fun o => Except Exn o.Ans) C}
    {K : Contract σ Op fun o => Except Exn o.Ans} {J : σ → Prop} {P : Dict Int PendingReconciliation → Prop}
    {Q : List DriveLease → σ → Prop} {E : Exn → L → σ → Prop} {scheduler : DriveScheduler} {barcodes : List Barcode} {l : L}
    {s : σ} (hlook : Stable M K (fun o => o.isRead = true) J) (hlearn : Learns M K J P l) (hJ : J s)
    (hE : ∀ e s, J s → E e l s)
    (hacq : ∀ pending s, P pending → J s →
      wp M K (storeAcquire scheduler.jobId barcodes scheduler.numDrives scheduler.ttl (excludedDrives scheduler pending))
        (fun leases l' s' => l' = l ∧ match leases with
          | some leases => Q leases s'
          | none => J s') E l s) :
    wp M K (acquireDrives scheduler barcodes)
      (fun handles l' s' => l' = l ∧ barcodes.Nodup ∧ ∃ leases, handles = leases.map DriveHandle.ofLease ∧ Q leases s') E l s := by
  unfold acquireDrives
  split
  · exact hE _ s hJ
  split
  · exact hE _ s hJ
  rename_i hnodup
  have hloop : ∀ polls s, J s →
      wp M K (acquireLoop scheduler barcodes polls) (fun leases l' s' => l' = l ∧ Q leases s') E l s := by
    intro polls
    induction polls with
    | zero => exact fun s hJ => hE _ s hJ
    | succ polls ih =>
      intro s hJ
      rw [acquireLoop, wp_bind]
      refine wp_acquireRound hlook hlearn hJ hE fun pending s hP hJ => wp_mono (hacq pending s hP hJ) ?_ (fun _ _ _ h => h)
      intro leases l' s' h
      obtain ⟨rfl, h⟩ := h
      cases leases with
      | some leases => exact ⟨rfl, h⟩
      | none =>
        rw [wp_bind]
        refine wp_mono ((only_perform rfl : Looks (deadlinePassed : JobM L _)).keeps hlook h) ?_
          (fun e l' s' h => h.1 ▸ hE e s' h.2)
        intro late l' s' h
        obtain ⟨rfl, h⟩ := h
        cases late with
        | true => exact hE _ s' h
        | false => exact ih s' h
  rw [wp_bind]
  refine wp_mono (hloop _ s hJ) ?_ (fun _ _ _ h => h)
  intro leases l' s' h
  exact ⟨h.1, not_not.1 hnodup, leases, rfl, h.2⟩

/-- `DriveScheduler.verify`. -/
def verifyHandle (handle : DriveHandle) : JobM L Unit :=
  if handle.released then raise { cls := .staleLease, message := staleLeaseMessage handle }
  else do
    let live ← storeIsLive handle.leaseId handle.fencingToken
    if live then pure () else raise { cls := .staleLease, message := staleLeaseMessage handle }

theorem looks_verifyHandle (handle : DriveHandle) : Looks (verifyHandle handle : JobM L Unit) := by
  refine only_ite (fun _ => only_raise _) fun _ => only_bind (only_perform rfl) fun live => ?_
  cases live
  · exact only_raise _
  · exact only_pure ()

/-- `heartbeat`. -/
def heartbeat (scheduler : DriveScheduler) (handles : List DriveHandle) : JobM L Unit :=
  storeHeartbeat (handles.map DriveHandle.leaseId) scheduler.ttl

/-- `record_physical_drives`. -/
def recordPhysicalDrives (handles : List DriveHandle) : JobM L Unit :=
  forEach (fun handle => match handle.physicalDriveId with
    | none => pure ()
    | some driveId => storeSetPhysicalDrive handle.leaseId driveId) handles

theorem reads_recordPhysicalDrives {P : Op → Prop} (h : ∀ id d, P (.lease (.setPhysicalDrive id d)))
    (handles : List DriveHandle) : Reads P (recordPhysicalDrives handles : JobM L Unit) := by
  refine only_forEach (fun handle => ?_) handles
  cases handle.physicalDriveId with
  | none => exact only_pure ()
  | some driveId => exact only_perform (h _ _)

def formatDriveList (drives : List Int) : String := "[" ++ ", ".intercalate (drives.map toString) ++ "]"

/-- The message of the `JournalWriteError` of `release_drives`. -/
def leasesKeptMessage (kept : List Int) (original : Option Exn) : String :=
  "physical_state_unknown not journaled for drive(s) " ++ formatDriveList kept ++ "; leases kept" ++
    match original with
    | some exc => if exc.cls = .journalWrite then "" else "; original failure: " ++ safeJobError exc
    | none => ""

/-- `release_drives`; `original` is the exception being unwound. The handles are not used afterwards, so that they are released
is not written back. -/
def releaseDrives (handles : List DriveHandle) (original : Option Exn) : JobM L Unit := do
  let pending := handles.filter fun handle => !handle.released && !handle.holdUnjournaled
  storeRelease (pending.map DriveHandle.leaseId)
  let kept := (handles.filter fun handle => handle.holdUnjournaled && !handle.released).map DriveHandle.driveId
  if kept ≠ [] then raise { cls := .journalWrite, message := leasesKeptMessage kept original } else pure ()

theorem reads_releaseDrives {P : Op → Prop} (h : ∀ ids, P (.lease (.release ids))) (handles : List DriveHandle)
    (original : Option Exn) : Reads P (releaseDrives handles original : JobM L Unit) :=
  only_bind (only_perform (h _)) fun _ => only_ite (fun _ => only_raise _) fun _ => only_pure ()

end OpenBlade
