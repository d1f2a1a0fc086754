import OpenBlade.Calls

/-!
# Drives and cartridges awaiting reconciliation

A failed unmount or unload is journaled as `physical_state_unknown`; until a later `drive_reconciled` entry names the same drive,
the drive is excluded, and so is the cartridge (`jobs/reconcile.py`).
-/

namespace OpenBlade

open Effects Proc

variable {L : Type}

def physicalStateUnknown : String := "physical_state_unknown"

def driveReconciled : String := "drive_reconciled"

structure PendingReconciliation where
  driveId : Int
  barcode : Option String
  op : String
  jobId : JobId
  at_ : Int
  deriving Repr, DecidableEq

/-- `detail.get(key)`: a missing key reads as null. -/
def detailGet (detail : JsonObject) (key : String) : JsonValue := (Dict.get? detail key).getD .null

/-- `_drive_of`. -/
def driveOf (detail : JsonObject) : Option Int :=
  match detailGet detail "drive" with
  | .int i => some i
  | .str s => s.toInt?
  | _ => none

/-- `barcode or default`: an empty barcode counts as none. -/
def textOr (default : String) (barcode : Option Barcode) : String :=
  match barcode with
  | none => default
  | some b => if b = "" then default else b

/-- What one entry does to the drives that are pending. -/
def drivesPendingStep (pending : Dict Int PendingReconciliation) (entry : JobJournalEntry) :
    Dict Int PendingReconciliation :=
  match driveOf entry.detail with
  | none => pending
  | some drive =>
    if entry.event = driveReconciled then pending.erase drive
    else
      pending.set drive
        { driveId := drive, barcode := textUnlessNull (detailGet entry.detail "barcode")
          op := (textUnlessNull (detailGet entry.detail "op")).getD "", jobId := entry.jobId, at_ := entry.at_ }

/-- The drives whose latest `physical_state_unknown` has no later `drive_reconciled`. -/
def drivesPending (events : List JobJournalEntry) : Dict Int PendingReconciliation :=
  events.foldl drivesPendingStep []

/-- What one entry does to the barcodes of entries that name no drive. -/
def drivelessStep (driveless : List String) (entry : JobJournalEntry) : List String :=
  match textUnlessNull (detailGet entry.detail "barcode") with
  | none => driveless
  | some barcode =>
    if entry.event = driveReconciled then driveless.filter fun b => b ≠ barcode
    else if (driveOf entry.detail).isNone then driveless ++ [barcode]
    else driveless

def driveless (events : List JobJournalEntry) : List String :=
  events.foldl drivelessStep []

/-- Both events, ordered by id. -/
def byId (unknown reconciled : List JobJournalEntry) : List JobJournalEntry :=
  (unknown ++ reconciled).insertionSort fun a b => a.id ≤ b.id

def pendingEvents : JobM L (List JobJournalEntry) := do
  let unknown ← journalEvents physicalStateUnknown
  let reconciled ← journalEvents driveReconciled
  pure (byId unknown reconciled)

theorem looks_pendingEvents : Looks (pendingEvents : JobM L _) :=
  only_bind (only_perform rfl) fun _ => only_bind (only_perform rfl) fun _ => only_pure _

/-- `drives_pending_reconciliation`. -/
def drivesPendingReconciliation : JobM L (Dict Int PendingReconciliation) := do
  let events ← pendingEvents
  pure (drivesPending events)

theorem looks_drivesPendingReconciliation : Looks (drivesPendingReconciliation : JobM L _) :=
  only_bind looks_pendingEvents fun _ => only_pure _

/-- `barcodes_pending_reconciliation`. -/
def barcodesPendingReconciliation : JobM L (List String) := do
  let events ← pendingEvents
  let keyed ← drivesPendingReconciliation
  pure (driveless events ++ keyed.filterMap fun item => item.2.barcode)

theorem looks_barcodesPendingReconciliation : Looks (barcodesPendingReconciliation : JobM L _) :=
  only_bind looks_pendingEvents fun _ => only_bind looks_drivesPendingReconciliation fun _ => only_pure _

/-- `ensure_drive_reconciled`, for a drive and a barcode. -/
def ensureDriveReconciled (driveId : Int) (barcode : Barcode) : JobM L Unit := do
  let barcodes ← barcodesPendingReconciliation
  if barcode ∈ barcodes then
    raise { cls := .driveUnreconciled
            message := "Barcode " ++ barcode ++ " awaits reconciliation after a failed unmount/unload; reconcile it before reuse" }
  else do
    let drives ← drivesPendingReconciliation
    match drives.get? driveId with
    | none => pure ()
    | some item =>
      raise { cls := .driveUnreconciled
              message := "Drive " ++ toString driveId ++ " (barcode " ++ textOr "unknown" item.barcode ++
                ") awaits reconciliation after a failed " ++ (if item.op = "" then "operation" else item.op) ++
                "; reconcile it before reuse" }

theorem looks_ensureDriveReconciled (driveId : Int) (barcode : Barcode) :
    Looks (ensureDriveReconciled driveId barcode : JobM L Unit) := by
  refine only_bind looks_barcodesPendingReconciliation fun barcodes => only_ite (fun _ => only_raise _) fun _ => ?_
  refine only_bind looks_drivesPendingReconciliation fun drives => ?_
  cases drives.get? driveId with
  | none => exact only_pure ()
  | some item => exact only_raise _

/-! ### Reconciling a drive -/

/-- The check `reconcile_drive` makes of a fresh inventory snapshot: it refuses a drive that still reports an LTFS mount. -/
def observeDrive (drives : List DriveStatus) (driveId : Int) : Except Exn (Option Barcode) :=
  match drives.find? fun drive => drive.driveId = driveId with
  | none => .error { cls := .other "UnknownDriveError", message := "Drive " ++ toString driveId ++ " not found" }
  | some drive =>
    if drive.mountState = .unmounted then .ok drive.barcode
    else
      .error { cls := .driveUnreconciled
               message := "Drive " ++ toString driveId ++ " (barcode " ++ textOr "unknown" drive.barcode ++ ") is still " ++
                 drive.mountState.value ++ "; unmount it before reconciling" }

def jsonOfBarcode? : Option Barcode → JsonValue
  | none => .null
  | some barcode => .str barcode

/-- `reconcile_drive`: mark a drive reconciled against the drives of a snapshot. -/
def reconcileDrive (cat : Catalog) (now : Int) (drives : List DriveStatus) (driveId : Int) (jobId : JobId) :
    Except Exn PendingReconciliation × Catalog :=
  match observeDrive drives driveId with
  | .error e => (.error e, cat)
  | .ok observed =>
    (.ok { driveId := driveId, barcode := observed, op := driveReconciled, jobId := jobId, at_ := now },
      cat.appendJournal now jobId driveReconciled [("drive", .int driveId), ("observed_barcode", jsonOfBarcode? observed)])

end OpenBlade
