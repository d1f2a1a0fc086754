import OpenBlade.Hardware.Library

/-!
# LTFS

Tapes, their files, and the mounts of this process (`simulator/ltfs_volume.py`, `hardware/ltfs.py`). A tape is mounted in the
drive it is found in; the mount state of the drive is kept by the library.
-/

namespace OpenBlade

open Effects

structure Ltfs where
  /-- The files of each tape, by tape path. -/
  tapes : Dict Barcode (Dict String Bytes) := []
  mounts : List MountHandle := []
  nextHandle : Nat := 0
  deriving Repr, DecidableEq

namespace Ltfs

/-- The bytes at a location. -/
def content (ltfs : Ltfs) (barcode : Barcode) (path : String) : Option Bytes :=
  (ltfs.tapes.get? barcode).bind fun files => files.get? path

/-- Replace the bytes at a location. -/
def put (ltfs : Ltfs) (barcode : Barcode) (path : String) (bytes : Bytes) : Ltfs :=
  { ltfs with tapes := ltfs.tapes.set barcode (((ltfs.tapes.get? barcode).getD []).set path bytes) }

def notActive (handle : MountHandle) : Exn :=
  { cls := .cartridgeNotFound, message := "Mount handle " ++ toString handle.handleId ++ " is not active" }

def pathNotFound (path : String) : Exn := { cls := .fileNotFound, message := "Tape path " ++ path ++ " not found" }

def mountStateOf : MountMode → MountState
  | .readOnly => .mountedRo
  | .readWrite => .mountedRw

/-- `mount`: the cartridge must be in a drive, and nothing may be mounted beside a read-write mount. -/
def mount (ltfs : Ltfs) (lib : Library) (barcode : Barcode) (mode : MountMode) : Except Exn MountHandle × Ltfs × Library :=
  match lib.findDriveByBarcode barcode with
  | none =>
    (.error { cls := .cartridgeNotFound, message := "Cartridge " ++ barcode ++ " is not loaded in a drive" }, ltfs, lib)
  | some driveId =>
    let activeForTape := ltfs.mounts.filter fun mount => mount.barcode = barcode
    if activeForTape ≠ [] ∧ (mode = .readWrite ∨ (activeForTape.any fun mount => mount.mode = .readWrite)) then
      (.error { cls := .typed "SimulatedMountFailure", message := "Tape " ++ barcode ++ " is already mounted" }, ltfs, lib)
    else
      let handle : MountHandle := { handleId := ltfs.nextHandle, barcode := barcode, driveId := driveId, mode := mode }
      (.ok handle, { ltfs with mounts := ltfs.mounts ++ [handle], nextHandle := ltfs.nextHandle + 1 },
        if activeForTape = [] then lib.setDriveMountState driveId (mountStateOf mode) else lib)

/-- A mount fails and changes nothing, or adds one mount of the cartridge; what the drives hold stays. -/
theorem mount_cases (ltfs : Ltfs) (lib : Library) (barcode : Barcode) (mode : MountMode) :
    (∃ e, ltfs.mount lib barcode mode = (.error e, ltfs, lib)) ∨
    ∃ driveId lib', lib.findDriveByBarcode barcode = some driveId ∧
      let handle : MountHandle := { handleId := ltfs.nextHandle, barcode := barcode, driveId := driveId, mode := mode }
      ltfs.mount lib barcode mode =
        (.ok handle, { ltfs with mounts := ltfs.mounts ++ [handle], nextHandle := ltfs.nextHandle + 1 }, lib') ∧
      ∀ d, lib'.holds d = lib.holds d := by
  unfold mount
  cases hfind : lib.findDriveByBarcode barcode with
  | none => exact .inl ⟨_, rfl⟩
  | some driveId =>
    simp only
    split
    · exact .inl ⟨_, rfl⟩
    · refine .inr ⟨driveId, _, rfl, rfl, fun d => ?_⟩
      split
      · rw [Library.holds_setDriveMountState]
      · rfl

/-- Nothing is mounted read-write beside another mount of the tape. -/
theorem mount_beside (ltfs : Ltfs) (lib : Library) {barcode : Barcode} (h : ∃ mount ∈ ltfs.mounts, mount.barcode = barcode) :
    ∃ e, (ltfs.mount lib barcode .readWrite).1 = .error e := by
  obtain ⟨other, hmem, hb⟩ := h
  unfold mount
  cases lib.findDriveByBarcode barcode with
  | none => exact ⟨_, rfl⟩
  | some driveId =>
    have hactive : (ltfs.mounts.filter fun mount => mount.barcode = barcode) ≠ [] :=
      List.ne_nil_of_mem (List.mem_filter.2 ⟨hmem, decide_eq_true hb⟩)
    simp only [hactive, ne_eq, not_false_eq_true, true_or, and_self, if_true]
    exact ⟨_, rfl⟩

/-- The mount state an unmount leaves: `dirty` if a write was not finished, else that of the mounts that remain. -/
def stateAfterUnmount (remaining : List MountHandle) (dirty : Bool) : MountState :=
  if dirty then .dirty
  else if remaining.any fun mount => mount.mode = .readWrite then .mountedRw
  else if remaining ≠ [] then .mountedRo
  else .unmounted

def unmount (ltfs : Ltfs) (lib : Library) (handle : MountHandle) (dirty : Bool) :
    Except Exn OperationResult × Ltfs × Library :=
  if handle ∈ ltfs.mounts then
    let mounts := ltfs.mounts.filter fun mount => mount.handleId ≠ handle.handleId
    let remaining := mounts.filter fun mount => mount.barcode = handle.barcode
    (.ok { success := true, message := "unmounted" }, { ltfs with mounts := mounts },
      lib.setDriveMountState handle.driveId (stateAfterUnmount remaining dirty))
  else (.error (notActive handle), ltfs, lib)

/-- `write_file`; `stored` is what ends up on the tape. -/
def writeFile (ltfs : Ltfs) (handle : MountHandle) (path : String) (stored : Bytes) : Except Exn Unit × Ltfs :=
  if handle ∈ ltfs.mounts then
    if handle.mode = .readWrite then (.ok (), ltfs.put handle.barcode path stored)
    else (.error { cls := .permissionError, message := "Cannot write to a read-only mount" }, ltfs)
  else (.error (notActive handle), ltfs)

/-- What a read through a mount finds. -/
def read (ltfs : Ltfs) (handle : MountHandle) (path : String) : Except Exn Bytes :=
  if handle ∈ ltfs.mounts then
    match ltfs.content handle.barcode path with
    | none => .error (pathNotFound path)
    | some bytes => .ok bytes
  else .error (notActive handle)

/-- `format`: the tape loses its files, and its mounts end. -/
def format (ltfs : Ltfs) (lib : Library) (barcode : Barcode) : Ltfs × Library :=
  ({ ltfs with tapes := ltfs.tapes.set barcode [], mounts := ltfs.mounts.filter fun mount => mount.barcode ≠ barcode },
    match lib.findDriveByBarcode barcode with
    | none => lib
    | some driveId => lib.setDriveMountState driveId .unmounted)

end Ltfs

end OpenBlade
