import OpenBlade.Domain.States
import OpenBlade.Storage.Placement

/-!
# The simulated library

`MockLibraryBackend` of `simulator/library.py`: storage slots, import/export elements and drives, each in a dictionary of its own,
and the state of every cartridge. An operation makes its checks, updates the dictionaries piece by piece, and last checks the
invariants of the whole library, which may raise when the update is already made. Operations run one at a time, so the lock of
the changer is always free.
-/

namespace OpenBlade

open Effects Storage

/-- How `_validate_invariants_locked` names an element. -/
def Element.label : Element → String
  | slot id => "slot:" ++ toString id
  | ieSlot id => "ie-slot:" ++ toString id
  | drive id => "drive:" ++ toString id

structure MockDrive where
  barcode : Option Barcode := none
  driveState : DriveState := .empty
  mountState : MountState := .unmounted
  deriving Repr, DecidableEq

/-- The faults of the library, by the names of `FaultType`. -/
inductive FaultType where
  | loadFailure
  | unloadFailure
  | driveTimeout
  | robotLockConflict
  | changerTimeout
  | moveFailure
  deriving Repr, DecidableEq

def FaultType.value : FaultType → String
  | loadFailure => "load_failure"
  | unloadFailure => "unload_failure"
  | driveTimeout => "drive_timeout"
  | robotLockConflict => "robot_lock_conflict"
  | changerTimeout => "changer_timeout"
  | moveFailure => "move_failure"

/-- The faults of one call: those the configuration enables, and the message of the injector's, if it faults. -/
structure Faults where
  config : List FaultType := []
  injected : Option String := none
  deriving Repr, DecidableEq

structure MockLibrary where
  slots : Dict Int (Option Barcode) := []
  ieSlots : Dict Int (Option Barcode) := []
  drives : Dict Int MockDrive := []
  cartridgeStates : Dict Barcode CartridgeState := []
  /-- The keys of a dictionary are distinct. -/
  nodupSlots : slots.keys.Nodup := by decide
  nodupIeSlots : ieSlots.keys.Nodup := by decide
  nodupDrives : drives.keys.Nodup := by decide
  nodupStates : cartridgeStates.keys.Nodup := by decide
  deriving Repr, DecidableEq

namespace MockLibrary

/-- What each element holds. -/
def contents (lib : MockLibrary) : Placement Element Barcode
  | .slot id => (lib.slots.get? id).join
  | .ieSlot id => (lib.ieSlots.get? id).join
  | .drive id => (lib.drives.get? id).bind MockDrive.barcode

/-- Every element that holds a cartridge, in the order of slots, import/export elements and drives. -/
def occupied (lib : MockLibrary) : List (Element × Barcode) :=
  (lib.slots.filterMap fun slot => slot.2.map fun barcode => (Element.slot slot.1, barcode)) ++
    (lib.ieSlots.filterMap fun slot => slot.2.map fun barcode => (Element.ieSlot slot.1, barcode)) ++
    lib.drives.filterMap fun drive => drive.2.barcode.map fun barcode => (Element.drive drive.1, barcode)

/-- The elements a cartridge is in. -/
def locations (lib : MockLibrary) (barcode : Barcode) : List Element :=
  (lib.occupied.filter fun entry => entry.2 = barcode).map Prod.fst

/-- `_location_count_locked`. -/
def locationCount (lib : MockLibrary) (barcode : Barcode) : Nat := (lib.locations barcode).length

/-- A cartridge in two places. -/
def invalidLocations (lib : MockLibrary) (barcode : Barcode) : Exn :=
  { cls := .valueError
    message := "Cartridge " ++ barcode ++ " has invalid locations: ['" ++
      "', '".intercalate ((lib.locations barcode).map Element.label) ++ "']" }

/-- What is wrong with the recorded state of a cartridge, if anything. -/
def stateError (lib : MockLibrary) (barcode : Barcode) (state : CartridgeState) : Option String :=
  if (state = .inSlot ∨ state = .inDrive ∨ state = .cleaning) ∧ lib.locationCount barcode ≠ 1 then
    some ("Cartridge " ++ barcode ++ " in state " ++ state.value ++ " must exist in exactly one location")
  else if (state = .exported ∨ state = .missing) ∧ lib.locationCount barcode ≠ 0 then
    some ("Cartridge " ++ barcode ++ " in state " ++ state.value ++ " must not exist in library locations")
  else none

/-- `_validate_invariants_locked`. -/
def validateInvariants (lib : MockLibrary) : Except Exn Unit :=
  match lib.occupied.find? fun entry => lib.locationCount entry.2 ≠ 1 with
  | some entry => .error (lib.invalidLocations entry.2)
  | none =>
    match lib.cartridgeStates.findSome? fun entry => lib.stateError entry.1 entry.2 with
    | some message => .error { cls := .valueError, message := message }
    | none => .ok ()

/-! ### Updates -/

def setSlot (lib : MockLibrary) (id : Int) (content : Option Barcode) : MockLibrary :=
  { lib with slots := lib.slots.set id content, nodupSlots := Dict.nodup_keys_set lib.nodupSlots }

def setIeSlot (lib : MockLibrary) (id : Int) (content : Option Barcode) : MockLibrary :=
  { lib with ieSlots := lib.ieSlots.set id content, nodupIeSlots := Dict.nodup_keys_set lib.nodupIeSlots }

def setDrive (lib : MockLibrary) (id : Int) (drive : MockDrive) : MockLibrary :=
  { lib with drives := lib.drives.set id drive, nodupDrives := Dict.nodup_keys_set lib.nodupDrives }

def setState (lib : MockLibrary) (barcode : Barcode) (state : CartridgeState) : MockLibrary :=
  { lib with
    cartridgeStates := lib.cartridgeStates.set barcode state, nodupStates := Dict.nodup_keys_set lib.nodupStates }

def popState (lib : MockLibrary) (barcode : Barcode) : MockLibrary :=
  { lib with
    cartridgeStates := lib.cartridgeStates.erase barcode, nodupStates := Dict.nodup_keys_erase lib.nodupStates }

/-- Checks that raise leave the library as it is; after them it is updated, and its invariants are checked. -/
def update {α : Type} (lib : MockLibrary) (checked : Except Exn (MockLibrary × α)) : Except Exn α × MockLibrary :=
  match checked with
  | .error e => (.error e, lib)
  | .ok (lib', a) =>
    match lib'.validateInvariants with
    | .error e => (.error e, lib')
    | .ok () => (.ok a, lib')

/-! ### Checks -/

/-- `d[key]`. -/
def item {α : Type} (d : Dict Int α) (key : Int) : Except Exn α :=
  match d.get? key with
  | none => .error { cls := .keyError, message := toString key }
  | some a => .ok a

/-- `d.get(key)`, or raise `SlotEmptyError`. -/
def element {α : Type} (d : Dict Int α) (key : Int) (kind : String) : Except Exn α :=
  match d.get? key with
  | none => .error { cls := .slotEmpty, message := kind ++ " " ++ toString key ++ " does not exist" }
  | some a => .ok a

/-- The cartridge of an element, or raise `SlotEmptyError`. -/
def cartridgeIn (content : Option Barcode) (name : String) : Except Exn Barcode :=
  match content with
  | none => .error { cls := .slotEmpty, message := name ++ " is empty" }
  | some barcode => .ok barcode

/-- Raise `SlotOccupiedError` unless the element is free. -/
def requireFree (content : Option Barcode) (name : String) : Except Exn Unit :=
  match content with
  | none => .ok ()
  | some _ => .error { cls := .slotOccupied, message := name ++ " is occupied" }

def stateOr (lib : MockLibrary) (barcode : Barcode) (default : CartridgeState) : CartridgeState :=
  (lib.cartridgeStates.get? barcode).getD default

/-- `_maybe_raise_injected_fault`. -/
def maybeRaiseInjectedFault (faults : Faults) : Except Exn Unit :=
  match faults.injected with
  | none => .ok ()
  | some message => .error { cls := .other "SimulatorFaultError", message := message }

/-- `_enter_changer`. -/
def enterChanger (faults : Faults) : Except Exn Unit :=
  if .robotLockConflict ∈ faults.config then
    .error { cls := .typed "ChangerBusyError", message := "Injected changer lock conflict" }
  else .ok ()

/-- `_maybe_fail`. -/
def maybeFail (faults : Faults) (types : List FaultType) : Except Exn Unit :=
  if types.any fun fault => fault ∈ faults.config then
    .error { cls := .typed "SimulatedRobotTimeout"
             message := "Injected simulator fault: " ++ ", ".intercalate (types.map FaultType.value) }
  else .ok ()

/-- The state a known cartridge may become `IN_SLOT` from. -/
def validatePrevious : Option CartridgeState → Except Exn Unit
  | none => .ok ()
  | some previousState => validateCartridgeTransition previousState .inSlot

/-! ### Operations

Each operation in two parts: what it makes of the library, or what it raises before that; and the update. -/

def addCartridgeUpdate (upper : String → String) (lib : MockLibrary) (slotId : Int) (barcode : String) :
    Except Exn (MockLibrary × Unit) := do
  let slot ← item lib.slots slotId
  requireFree slot ("Slot " ++ toString slotId)
  let normalized ← normalizeBarcode upper barcode
  if 0 < lib.locationCount normalized then
    .error { cls := .slotOccupied, message := "Cartridge " ++ normalized ++ " already exists in the library" }
  else do
    validatePrevious (lib.cartridgeStates.get? normalized)
    pure ((lib.setSlot slotId (some normalized)).setState normalized .inSlot, ())

/-- `add_cartridge`. -/
def addCartridge (upper : String → String) (lib : MockLibrary) (slotId : Int) (barcode : String) :
    Except Exn Unit × MockLibrary :=
  lib.update (lib.addCartridgeUpdate upper slotId barcode)

def removeCartridgeUpdate (lib : MockLibrary) (slotId : Int) : Except Exn (MockLibrary × Barcode) := do
  let slot ← item lib.slots slotId
  let barcode ← cartridgeIn slot ("Slot " ++ toString slotId)
  pure ((lib.setSlot slotId none).popState barcode, barcode)

/-- `remove_cartridge`. -/
def removeCartridge (lib : MockLibrary) (slotId : Int) : Except Exn Barcode × MockLibrary :=
  lib.update (lib.removeCartridgeUpdate slotId)

def loadUpdate (lib : MockLibrary) (faults : Faults) (sourceSlot driveId : Int) :
    Except Exn (MockLibrary × OperationResult) := do
  maybeRaiseInjectedFault faults
  enterChanger faults
  maybeFail faults [.loadFailure, .changerTimeout, .driveTimeout]
  let slot ← item lib.slots sourceSlot
  let drive ← item lib.drives driveId
  let barcode ← cartridgeIn slot ("Slot " ++ toString sourceSlot)
  match drive.barcode with
  | some occupant =>
    .error { cls := .driveOccupied, message := "Drive " ++ toString driveId ++ " already contains " ++ occupant }
  | none => do
    validateCartridgeTransition (lib.stateOr barcode .inSlot) .inDrive
    validateDriveTransition drive.driveState .loaded
    let loaded : MockDrive := { barcode := some barcode, driveState := .loaded, mountState := .unmounted }
    pure (((lib.setSlot sourceSlot none).setDrive driveId loaded).setState barcode .inDrive,
      { success := true, message := "loaded" })

/-- `load`. -/
def load (lib : MockLibrary) (faults : Faults) (sourceSlot driveId : Int) : Except Exn OperationResult × MockLibrary :=
  lib.update (lib.loadUpdate faults sourceSlot driveId)

def unloadUpdate (lib : MockLibrary) (faults : Faults) (driveId targetSlot : Int) :
    Except Exn (MockLibrary × OperationResult) := do
  maybeRaiseInjectedFault faults
  enterChanger faults
  maybeFail faults [.unloadFailure, .changerTimeout, .driveTimeout]
  let drive ← item lib.drives driveId
  let slot ← item lib.slots targetSlot
  let barcode ← cartridgeIn drive.barcode ("Drive " ++ toString driveId)
  requireFree slot ("Slot " ++ toString targetSlot)
  if canUnloadDrive drive.driveState drive.mountState then do
    validateCartridgeTransition (lib.stateOr barcode .inDrive) .inSlot
    validateDriveTransition drive.driveState .empty
    let emptied : MockDrive := { barcode := none, driveState := .empty, mountState := .unmounted }
    pure (((lib.setDrive driveId emptied).setSlot targetSlot (some barcode)).setState barcode .inSlot,
      { success := true, message := "unloaded" })
  else
    .error { cls := .tapeMounted
             message := "Drive " ++ toString driveId ++ " cannot be unloaded while " ++ drive.mountState.value }

/-- `unload`. -/
def unload (lib : MockLibrary) (faults : Faults) (driveId targetSlot : Int) : Except Exn OperationResult × MockLibrary :=
  lib.update (lib.unloadUpdate faults driveId targetSlot)

def moveUpdate (lib : MockLibrary) (faults : Faults) (sourceSlot targetSlot : Int) :
    Except Exn (MockLibrary × OperationResult) := do
  maybeFail faults [.changerTimeout]
  let source ← item lib.slots sourceSlot
  let target ← item lib.slots targetSlot
  let barcode ← cartridgeIn source ("Slot " ++ toString sourceSlot)
  requireFree target ("Slot " ++ toString targetSlot)
  validateCartridgeTransition (lib.stateOr barcode .inSlot) .inSlot
  pure ((lib.setSlot targetSlot (some barcode)).setSlot sourceSlot none, { success := true, message := "moved" })

/-- `move`. An injected move failure is answered, not raised. -/
def move (lib : MockLibrary) (faults : Faults) (sourceSlot targetSlot : Int) : Except Exn OperationResult × MockLibrary :=
  match enterChanger faults with
  | .error e => (.error e, lib)
  | .ok () =>
    if .moveFailure ∈ faults.config then (.ok { success := false, message := "Injected move failure" }, lib)
    else lib.update (lib.moveUpdate faults sourceSlot targetSlot)

/-- The state a drive takes for a mount state. -/
def driveStateFor (mountState : MountState) (content : Option Barcode) : DriveState :=
  if mountState = .mountedRo ∨ mountState = .mountedRw ∨ mountState = .dirty then .busy
  else if content = none then .empty
  else .loaded

def setDriveMountStateUpdate (lib : MockLibrary) (driveId : Int) (mountState : MountState) :
    Except Exn (MockLibrary × Unit) := do
  let drive ← item lib.drives driveId
  validateMountTransition drive.mountState mountState
  let driveState := driveStateFor mountState drive.barcode
  validateDriveTransition drive.driveState driveState
  pure (lib.setDrive driveId { drive with driveState := driveState, mountState := mountState }, ())

/-- `set_drive_mount_state`. -/
def setDriveMountState (lib : MockLibrary) (driveId : Int) (mountState : MountState) : Except Exn Unit × MockLibrary :=
  lib.update (lib.setDriveMountStateUpdate driveId mountState)

def importCartridgeUpdate (lib : MockLibrary) (faults : Faults) (ieSlot targetSlot : Int) :
    Except Exn (MockLibrary × OperationResult) := do
  enterChanger faults
  maybeFail faults [.changerTimeout]
  let source ← element lib.ieSlots ieSlot "Import/export element"
  let barcode ← cartridgeIn source ("Import/export element " ++ toString ieSlot)
  let target ← element lib.slots targetSlot "Storage slot"
  requireFree target ("Slot " ++ toString targetSlot)
  pure (((lib.setSlot targetSlot (some barcode)).setIeSlot ieSlot none).setState barcode .inSlot,
    { success := true, message := "imported" })

/-- `import_cartridge`. -/
def importCartridge (lib : MockLibrary) (faults : Faults) (ieSlot targetSlot : Int) :
    Except Exn OperationResult × MockLibrary :=
  lib.update (lib.importCartridgeUpdate faults ieSlot targetSlot)

def exportCartridgeToIeUpdate (lib : MockLibrary) (faults : Faults) (sourceSlot ieSlot : Int) :
    Except Exn (MockLibrary × OperationResult) := do
  enterChanger faults
  maybeFail faults [.changerTimeout]
  let source ← element lib.slots sourceSlot "Storage slot"
  let barcode ← cartridgeIn source ("Slot " ++ toString sourceSlot)
  let target ← element lib.ieSlots ieSlot "Import/export element"
  requireFree target ("Import/export element " ++ toString ieSlot)
  pure (((lib.setIeSlot ieSlot (some barcode)).setSlot sourceSlot none).setState barcode .inSlot,
    { success := true, message := "exported" })

/-- `export_cartridge_to_ie`. -/
def exportCartridgeToIe (lib : MockLibrary) (faults : Faults) (sourceSlot ieSlot : Int) :
    Except Exn OperationResult × MockLibrary :=
  lib.update (lib.exportCartridgeToIeUpdate faults sourceSlot ieSlot)

/-- `export_cartridge`: the first element that holds the cartridge is emptied; a drive also if its tape is mounted. -/
def exportCartridge (lib : MockLibrary) (barcode : String) : MockLibrary :=
  match lib.slots.find? fun slot => slot.2 = some barcode with
  | some slot => (lib.setSlot slot.1 none).setState barcode .exported
  | none =>
    match lib.ieSlots.find? fun slot => slot.2 = some barcode with
    | some slot => (lib.setIeSlot slot.1 none).setState barcode .exported
    | none =>
      match lib.drives.find? fun drive => drive.2.barcode = some barcode with
      | some drive => (lib.setDrive drive.1 {}).setState barcode .exported
      | none => if (lib.cartridgeStates.get? barcode).isSome then lib.setState barcode .exported else lib

/-- `reset`: nothing is left in the library. -/
def reset (lib : MockLibrary) : MockLibrary where
  slots := lib.slots.mapValues fun _ => none
  ieSlots := lib.ieSlots.mapValues fun _ => none
  drives := lib.drives.mapValues fun _ => {}
  nodupSlots := (Dict.keys_mapValues _ lib.slots).symm ▸ lib.nodupSlots
  nodupIeSlots := (Dict.keys_mapValues _ lib.ieSlots).symm ▸ lib.nodupIeSlots
  nodupDrives := (Dict.keys_mapValues _ lib.drives).symm ▸ lib.nodupDrives

/-- `seed_slots`: the barcodes go to the slots in their order, until one is refused. -/
def seedSlots (upper : String → String) (lib : MockLibrary) (barcodes : List String) : Except Exn Unit × MockLibrary :=
  (lib.slots.keys.zip barcodes).foldl
    (fun r entry =>
      match r.1 with
      | .error _ => r
      | .ok () => r.2.addCartridge upper entry.1 entry.2)
    (.ok (), lib.reset)

/-- `_cartridge_states.setdefault(barcode, state)`, if there is a cartridge. -/
def setDefaultState (lib : MockLibrary) (content : Option Barcode) (state : CartridgeState) : MockLibrary :=
  match content with
  | none => lib
  | some barcode => if (lib.cartridgeStates.get? barcode).isSome then lib else lib.setState barcode state

/-- The library with other import/export elements. -/
def withIeSlots (lib : MockLibrary) (slots : Dict Int (Option Barcode)) : MockLibrary :=
  { lib with ieSlots := Dict.ofPairs slots, nodupIeSlots := Dict.nodup_keys_ofPairs slots }

def seedImportExportSlotsUpdate (upper : String → String) (lib : MockLibrary) (slots : Dict Int (Option String)) :
    Except Exn (MockLibrary × Unit) := do
  let seeded ← slots.mapM fun slot => (barcodeUnlessEmpty upper slot.2).map fun content => (slot.1, content)
  pure (seeded.foldl (fun lib slot => lib.setDefaultState slot.2 .inSlot) (lib.withIeSlots seeded), ())

/-- `seed_import_export_slots`. -/
def seedImportExportSlots (upper : String → String) (lib : MockLibrary) (slots : Dict Int (Option String)) :
    Except Exn Unit × MockLibrary :=
  lib.update (lib.seedImportExportSlotsUpdate upper slots)

end MockLibrary

/-- A new library: empty slots from 1 on, import/export elements after them, empty drives from 0 on. -/
def MockLibrary.new (numSlots numDrives numImportExportSlots : Nat) : MockLibrary where
  slots := (List.range numSlots).map fun i : Nat => ((i : Int) + 1, none)
  ieSlots := (List.range numImportExportSlots).map fun i : Nat => ((numSlots : Int) + 1 + i, none)
  drives := (List.range numDrives).map fun i : Nat => ((i : Int), {})
  nodupSlots := Dict.nodup_keys_range _ _ fun i j h => by omega
  nodupIeSlots := Dict.nodup_keys_range _ _ fun i j h => by omega
  nodupDrives := Dict.nodup_keys_range _ _ fun i j h => by omega

/-- A call of the simulated library. -/
inductive MockLibraryCall where
  | addCartridge (slotId : Int) (barcode : String)
  | removeCartridge (slotId : Int)
  | load (sourceSlot driveId : Int)
  | unload (driveId targetSlot : Int)
  | move (sourceSlot targetSlot : Int)
  | setDriveMountState (driveId : Int) (mountState : MountState)
  | importCartridge (ieSlot targetSlot : Int)
  | exportCartridgeToIe (sourceSlot ieSlot : Int)
  | exportCartridge (barcode : String)
  deriving Repr, DecidableEq

/-- What a call of the simulated library returns or raises. -/
inductive MockLibraryAnswer where
  | done
  | removed (barcode : Barcode)
  | answered (result : OperationResult)
  | raised (exn : Exn)
  deriving Repr, DecidableEq

namespace MockLibraryAnswer

/-- The answer of a call that may raise. -/
def ofExcept {α : Type} (f : α → MockLibraryAnswer) : Except Exn α × MockLibrary → MockLibraryAnswer × MockLibrary
  | (.ok a, lib) => (f a, lib)
  | (.error e, lib) => (raised e, lib)

/-- The operation failed: it raised, or it answered `success = False`. -/
def failed : MockLibraryAnswer → Bool
  | done => false
  | removed _ => false
  | answered result => !result.success
  | raised _ => true

end MockLibraryAnswer

namespace MockLibrary

open MockLibraryAnswer

/-- One call, under the faults of the moment. -/
def call (upper : String → String) (lib : MockLibrary) (faults : Faults) : MockLibraryCall → MockLibraryAnswer × MockLibrary
  | .addCartridge slotId barcode => ofExcept (fun _ => done) (lib.addCartridge upper slotId barcode)
  | .removeCartridge slotId => ofExcept removed (lib.removeCartridge slotId)
  | .load sourceSlot driveId => ofExcept answered (lib.load faults sourceSlot driveId)
  | .unload driveId targetSlot => ofExcept answered (lib.unload faults driveId targetSlot)
  | .move sourceSlot targetSlot => ofExcept answered (lib.move faults sourceSlot targetSlot)
  | .setDriveMountState driveId mountState => ofExcept (fun _ => done) (lib.setDriveMountState driveId mountState)
  | .importCartridge ieSlot targetSlot => ofExcept answered (lib.importCartridge faults ieSlot targetSlot)
  | .exportCartridgeToIe sourceSlot ieSlot => ofExcept answered (lib.exportCartridgeToIe faults sourceSlot ieSlot)
  | .exportCartridge barcode => (done, lib.exportCartridge barcode)

end MockLibrary

/-- An operation on the simulated library: a call under the faults of the moment, or setting the library up anew. -/
inductive LibraryOperation where
  | call (faults : Faults) (call : MockLibraryCall)
  | reset
  | seedSlots (barcodes : List String)
  | seedImportExportSlots (slots : Dict Int (Option String))
  deriving Repr, DecidableEq

namespace MockLibrary

/-- One operation. -/
def operate (upper : String → String) (lib : MockLibrary) : LibraryOperation → MockLibraryAnswer × MockLibrary
  | .call faults call => lib.call upper faults call
  | .reset => (.done, lib.reset)
  | .seedSlots barcodes => MockLibraryAnswer.ofExcept (fun _ => .done) (lib.seedSlots upper barcodes)
  | .seedImportExportSlots slots => MockLibraryAnswer.ofExcept (fun _ => .done) (lib.seedImportExportSlots upper slots)

end MockLibrary

end OpenBlade
