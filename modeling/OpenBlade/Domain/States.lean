import OpenBlade.Domain.Models

/-!
# State transitions

The states of cartridges and drives, and which of them may follow which (`domain/states.py`).
-/

namespace OpenBlade

inductive CartridgeState where
  | inSlot
  | inDrive
  | exported
  | missing
  | cleaning
  deriving Repr, DecidableEq

inductive DriveState where
  | empty
  | loaded
  | busy
  | failed
  deriving Repr, DecidableEq

namespace CartridgeState

def value : CartridgeState → String
  | inSlot => "in_slot"
  | inDrive => "in_drive"
  | exported => "exported"
  | missing => "missing"
  | cleaning => "cleaning"

/-- `CARTRIDGE_TRANSITIONS`. -/
def transitions : CartridgeState → List CartridgeState
  | inSlot => [inDrive, exported]
  | inDrive => [inSlot]
  | exported => [inSlot]
  | missing => [inSlot]
  | cleaning => [inSlot, inDrive]

/-- `str(state)`. -/
def text : CartridgeState → String
  | inSlot => "CartridgeState.IN_SLOT"
  | inDrive => "CartridgeState.IN_DRIVE"
  | exported => "CartridgeState.EXPORTED"
  | missing => "CartridgeState.MISSING"
  | cleaning => "CartridgeState.CLEANING"

end CartridgeState

namespace DriveState

def value : DriveState → String
  | empty => "empty"
  | loaded => "loaded"
  | busy => "busy"
  | failed => "failed"

/-- `DRIVE_TRANSITIONS`. -/
def transitions : DriveState → List DriveState
  | empty => [loaded]
  | loaded => [empty, busy, failed]
  | busy => [loaded, failed]
  | failed => [empty]

/-- `str(state)`. -/
def text : DriveState → String
  | empty => "DriveState.EMPTY"
  | loaded => "DriveState.LOADED"
  | busy => "DriveState.BUSY"
  | failed => "DriveState.FAILED"

end DriveState

namespace MountState

/-- `MOUNT_TRANSITIONS`. -/
def transitions : MountState → List MountState
  | unmounted => [mountedRo, mountedRw]
  | mountedRo => [unmounted]
  | mountedRw => [unmounted, dirty]
  | dirty => [unmounted]

/-- `str(state)`. -/
def text : MountState → String
  | unmounted => "MountState.UNMOUNTED"
  | mountedRo => "MountState.MOUNTED_RO"
  | mountedRw => "MountState.MOUNTED_RW"
  | dirty => "MountState.DIRTY"

end MountState

/-- `_validate_transition`. -/
def validateTransition {S : Type} [DecidableEq S] (transitions : S → List S) (text : S → String) (name : String)
    (fromState toState : S) : Except Exn Unit :=
  if fromState = toState ∨ toState ∈ transitions fromState then .ok ()
  else
    .error { cls := .typed "InvalidStateTransitionError"
             message := "Invalid " ++ name ++ " transition: " ++ text fromState ++ " -> " ++ text toState }

def validateCartridgeTransition : CartridgeState → CartridgeState → Except Exn Unit :=
  validateTransition CartridgeState.transitions CartridgeState.text "cartridge"

def validateDriveTransition : DriveState → DriveState → Except Exn Unit :=
  validateTransition DriveState.transitions DriveState.text "drive"

def validateMountTransition : MountState → MountState → Except Exn Unit :=
  validateTransition MountState.transitions MountState.text "mount"

/-- It is safe to unload the drive. -/
def canUnloadDrive (driveState : DriveState) (mountState : MountState) : Bool :=
  mountState = .unmounted ∧ (driveState = .loaded ∨ driveState = .failed)

/-- A transition that passes is none, or one of the table. -/
theorem validateTransition_ok {S : Type} [DecidableEq S] {transitions : S → List S} {text : S → String} {name : String}
    {fromState toState : S} (h : validateTransition transitions text name fromState toState = .ok ()) :
    fromState = toState ∨ toState ∈ transitions fromState := by
  unfold validateTransition at h
  split at h
  · assumption
  · cases h

end OpenBlade
