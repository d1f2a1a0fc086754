import OpenBlade.Domain.Models

/-!
# The tape library

Slots, drives, the import/export station and the changer, as both backends behave (`simulator/library.py`,
`hardware/library.py`). A load takes the cartridge of a slot to an empty drive, an unload takes it back; a drive whose tape is
mounted or dirty is never unloaded. Cartridges also move between slots, and between a slot and an import/export element.
-/

namespace OpenBlade

open Effects

structure Drive where
  barcode : Option Barcode := none
  mountState : MountState := .unmounted
  deriving Repr, DecidableEq

theorem nodup_oneSlot : [1].Nodup := by decide

theorem nodup_twoSlots : [1, 2].Nodup := by decide

theorem nodup_oneDrive : [(0 : Int)].Nodup := by decide

structure Library where
  slots : Dict Nat (Option Barcode) := []
  drives : Dict Int Drive := []
  /-- The import/export station; a backend without one is not a `MailslotBackend`. -/
  ieSlots : Option (Dict Int (Option Barcode)) := none
  /-- A slot has one entry, and so has a drive. -/
  nodupSlots : slots.keys.Nodup := by first | exact nodup_oneSlot | exact nodup_twoSlots | decide
  nodupDrives : drives.keys.Nodup := by first | exact nodup_oneDrive | decide
  deriving Repr, DecidableEq

namespace Library

def keyError (key : String) : Exn := { cls := .keyError, message := key }

/-- `inventory`. -/
def inventory (lib : Library) : LibraryInventory :=
  { slots := lib.slots, drives := lib.drives.map fun (d, drive) => (d, drive.barcode) }

def findSlotByBarcode (lib : Library) (barcode : Barcode) : Option Nat :=
  (lib.slots.find? fun slot => slot.2 = some barcode).map Prod.fst

def findDriveByBarcode (lib : Library) (barcode : Barcode) : Option Int :=
  (lib.drives.find? fun drive => drive.2.barcode = some barcode).map Prod.fst

/-- The entry of a slot becomes `content`. -/
def setSlot (lib : Library) (slotId : Nat) (content : Option Barcode) : Library :=
  { lib with slots := lib.slots.set slotId content, nodupSlots := Dict.nodup_keys_set lib.nodupSlots }

/-- The entry of a drive becomes `drive`. -/
def setDrive (lib : Library) (driveId : Int) (drive : Drive) : Library :=
  { lib with drives := lib.drives.set driveId drive, nodupDrives := Dict.nodup_keys_set lib.nodupDrives }

def load (lib : Library) (sourceSlot : Nat) (driveId : Int) : Except Exn OperationResult × Library :=
  match lib.slots.get? sourceSlot, lib.drives.get? driveId with
  | none, _ => (.error (keyError (toString sourceSlot)), lib)
  | _, none => (.error (keyError (toString driveId)), lib)
  | some none, some _ =>
    (.error { cls := .slotEmpty, message := "Slot " ++ toString sourceSlot ++ " is empty" }, lib)
  | some (some barcode), some drive =>
    match drive.barcode with
    | some occupant =>
      (.error { cls := .driveOccupied
                message := "Drive " ++ toString driveId ++ " already contains " ++ occupant }, lib)
    | none =>
      (.ok { success := true, message := "loaded" },
        (lib.setDrive driveId { barcode := some barcode }).setSlot sourceSlot none)

def unload (lib : Library) (driveId : Int) (targetSlot : Nat) : Except Exn OperationResult × Library :=
  match lib.drives.get? driveId, lib.slots.get? targetSlot with
  | none, _ => (.error (keyError (toString driveId)), lib)
  | _, none => (.error (keyError (toString targetSlot)), lib)
  | some drive, some slot =>
    match drive.barcode, slot with
    | none, _ => (.error { cls := .slotEmpty, message := "Drive " ++ toString driveId ++ " is empty" }, lib)
    | some _, some _ =>
      (.error { cls := .slotOccupied, message := "Slot " ++ toString targetSlot ++ " is occupied" }, lib)
    | some barcode, none =>
      if drive.mountState = .unmounted then
        (.ok { success := true, message := "unloaded" },
          (lib.setDrive driveId {}).setSlot targetSlot (some barcode))
      else
        (.error { cls := .tapeMounted
                  message := "Drive " ++ toString driveId ++ " cannot be unloaded while " ++ drive.mountState.value },
          lib)

/-- The entry of a slot, by the integer a request names. -/
def slotEntry (lib : Library) (slotId : Int) : Option (Option Barcode) :=
  if 0 ≤ slotId then lib.slots.get? slotId.toNat else none

/-- The entry of an import/export element. -/
def ieEntry (lib : Library) (ieSlot : Int) : Option (Option Barcode) := (lib.ieSlots.getD []).get? ieSlot

/-- The entry of an import/export element becomes `content`. -/
def setIeSlot (lib : Library) (ieSlot : Int) (content : Option Barcode) : Library :=
  { lib with ieSlots := lib.ieSlots.map fun ieSlots => ieSlots.set ieSlot content }

def slotEmpty (message : String) : Exn := { cls := .slotEmpty, message := message }

def slotOccupied (message : String) : Exn := { cls := .slotOccupied, message := message }

/-- `move`, from slot to slot. -/
def move (lib : Library) (sourceSlot targetSlot : Int) : Except Exn OperationResult × Library :=
  match lib.slotEntry sourceSlot, lib.slotEntry targetSlot with
  | none, _ => (.error (keyError (toString sourceSlot)), lib)
  | _, none => (.error (keyError (toString targetSlot)), lib)
  | some none, _ => (.error (slotEmpty ("Slot " ++ toString sourceSlot ++ " is empty")), lib)
  | _, some (some _) => (.error (slotOccupied ("Slot " ++ toString targetSlot ++ " is occupied")), lib)
  | some (some barcode), some none =>
    (.ok { success := true, message := "moved" },
      (lib.setSlot targetSlot.toNat (some barcode)).setSlot sourceSlot.toNat none)

/-- `import_cartridge`: from an import/export element into a slot. -/
def importCartridge (lib : Library) (ieSlot targetSlot : Int) : Except Exn OperationResult × Library :=
  match lib.ieEntry ieSlot, lib.slotEntry targetSlot with
  | none, _ => (.error (slotEmpty ("Import/export element " ++ toString ieSlot ++ " does not exist")), lib)
  | some none, _ => (.error (slotEmpty ("Import/export element " ++ toString ieSlot ++ " is empty")), lib)
  | _, none => (.error (slotEmpty ("Storage slot " ++ toString targetSlot ++ " does not exist")), lib)
  | _, some (some _) => (.error (slotOccupied ("Slot " ++ toString targetSlot ++ " is occupied")), lib)
  | some (some barcode), some none =>
    (.ok { success := true, message := "imported" }, (lib.setSlot targetSlot.toNat (some barcode)).setIeSlot ieSlot none)

/-- `export_cartridge_to_ie`: from a slot into an import/export element. -/
def exportCartridgeToIe (lib : Library) (sourceSlot ieSlot : Int) : Except Exn OperationResult × Library :=
  match lib.slotEntry sourceSlot, lib.ieEntry ieSlot with
  | none, _ => (.error (slotEmpty ("Storage slot " ++ toString sourceSlot ++ " does not exist")), lib)
  | some none, _ => (.error (slotEmpty ("Slot " ++ toString sourceSlot ++ " is empty")), lib)
  | _, none => (.error (slotEmpty ("Import/export element " ++ toString ieSlot ++ " does not exist")), lib)
  | _, some (some _) => (.error (slotOccupied ("Import/export element " ++ toString ieSlot ++ " is occupied")), lib)
  | some (some barcode), some none =>
    (.ok { success := true, message := "exported" }, (lib.setIeSlot ieSlot (some barcode)).setSlot sourceSlot.toNat none)

/-- `set_drive_mount_state`. -/
def setDriveMountState (lib : Library) (driveId : Int) (mountState : MountState) : Library :=
  match lib.drives.get? driveId with
  | none => lib
  | some drive => lib.setDrive driveId { drive with mountState := mountState }

/-! ### What the drives hold -/

/-- The cartridge in a drive. -/
def holds (lib : Library) (driveId : Int) : Option Barcode := (lib.drives.get? driveId).bind Drive.barcode

/-- The cartridge in a slot. -/
def stores (lib : Library) (slotId : Nat) : Option Barcode := (lib.slots.get? slotId).join

variable {lib : Library} {driveId d : Int} {slotId : Nat} {barcode : Barcode}

@[simp] theorem holds_setSlot (content : Option Barcode) : (lib.setSlot slotId content).holds d = lib.holds d := rfl

theorem holds_setDrive (drive : Drive) :
    (lib.setDrive driveId drive).holds d = if driveId = d then drive.barcode else lib.holds d := by
  unfold holds setDrive
  rw [Dict.get?_set]
  by_cases h : driveId = d
  · rw [if_pos h, if_pos h]
    rfl
  · rw [if_neg h, if_neg h]

/-- The drive a cartridge is found in holds it. -/
theorem holds_of_find (h : lib.findDriveByBarcode barcode = some driveId) : lib.holds driveId = some barcode := by
  unfold findDriveByBarcode at h
  obtain ⟨entry, hfind, rfl⟩ := Option.map_eq_some_iff.1 h
  have hmem := List.mem_of_find?_eq_some hfind
  have hb : entry.2.barcode = some barcode := by simpa using List.find?_some hfind
  have hget : lib.drives.get? entry.1 = some entry.2 := Dict.get?_of_mem lib.nodupDrives hmem
  unfold holds
  rw [hget, Option.bind_some, hb]

/-- A cartridge that is found in no drive is in none. -/
theorem holds_of_find_none (h : lib.findDriveByBarcode barcode = none) (d : Int) : lib.holds d ≠ some barcode := by
  intro hd
  unfold holds at hd
  obtain ⟨drive, hdrive, hb⟩ := Option.bind_eq_some_iff.1 hd
  have hmem := Dict.mem_of_get? hdrive
  unfold findDriveByBarcode at h
  rw [Option.map_eq_none_iff, List.find?_eq_none] at h
  exact h _ hmem (decide_eq_true hb)

/-- A slot that the inventory shows with a cartridge stores it. -/
theorem stores_of_inventory {entry : Nat × Option Barcode}
    (h : lib.inventory.slots.find? (fun slot => slot.2 = some barcode) = some entry) : lib.stores entry.1 = some barcode := by
  have hmem : entry ∈ lib.slots := List.mem_of_find?_eq_some h
  have hb : entry.2 = some barcode := by simpa using List.find?_some h
  have hget : lib.slots.get? entry.1 = some entry.2 := Dict.get?_of_mem lib.nodupSlots hmem
  unfold stores
  rw [hget, hb]
  rfl

/-- The mount state of a drive is not what it holds. -/
@[simp] theorem holds_setDriveMountState (state : MountState) : (lib.setDriveMountState driveId state).holds d = lib.holds d := by
  unfold setDriveMountState
  cases hdrive : lib.drives.get? driveId with
  | none => rfl
  | some drive =>
    rw [holds_setDrive]
    by_cases h : driveId = d
    · rw [if_pos h, ← h]
      unfold holds
      rw [hdrive]
      rfl
    · rw [if_neg h]

/-- The slot a cartridge is found in stores it. -/
theorem stores_of_findSlot (h : lib.findSlotByBarcode barcode = some slotId) : lib.stores slotId = some barcode := by
  unfold findSlotByBarcode at h
  obtain ⟨entry, hfind, rfl⟩ := Option.map_eq_some_iff.1 h
  exact stores_of_inventory hfind

/-- A load fails and changes nothing, or takes the cartridge of the slot to a drive that was empty. -/
theorem load_cases (lib : Library) (slotId : Nat) (driveId : Int) :
    (∃ e, lib.load slotId driveId = (.error e, lib)) ∨
    ∃ barcode lib', lib.load slotId driveId = (.ok { success := true, message := "loaded" }, lib') ∧
      lib.stores slotId = some barcode ∧ lib.holds driveId = none ∧
      ∀ d, lib'.holds d = if driveId = d then some barcode else lib.holds d := by
  unfold load
  split
  · exact .inl ⟨_, rfl⟩
  · exact .inl ⟨_, rfl⟩
  · exact .inl ⟨_, rfl⟩
  · rename_i barcode drive hslot hdrive
    cases hb : drive.barcode with
    | some occupant => exact .inl ⟨_, rfl⟩
    | none =>
      refine .inr ⟨barcode, _, rfl, ?_, ?_, fun d => ?_⟩
      · unfold stores
        rw [hslot]
        rfl
      · unfold holds
        rw [hdrive, Option.bind_some, hb]
      · rw [holds_setSlot, holds_setDrive]

end Library

end OpenBlade
