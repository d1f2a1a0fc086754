import OpenBlade.Domain.States
import OpenBlade.Effects.Traverse
import OpenBlade.Hardware.Mtx

/-!
# The inventory of a real library

`RealLibraryBackend.inventory` and `import_export_slots` of `hardware/library.py` over the status text of the changer, and the
texts they answer.
-/

namespace OpenBlade

open Effects

inductive ChangerState where
  | idle
  | moving
  | error
  deriving Repr, DecidableEq

/-- A slot is occupied when a barcode is known of it, and only then. -/
structure SlotState where
  slotId : Nat
  barcode : Option Barcode := none
  occupied : Bool := false
  matched : occupied = barcode.isSome := by rfl
  deriving Repr, DecidableEq

/-- `SlotState(…)`, with the check of `__post_init__`. -/
def slotState (slotId : Nat) (barcode : Option Barcode) (occupied : Bool) : Except Exn SlotState :=
  if h : occupied = barcode.isSome then .ok { slotId, barcode, occupied, matched := h }
  else .error { cls := .valueError, message := "occupied must match whether barcode is present" }

/-- `_drive_state`. -/
def driveStateOf (loaded : Bool) (mountState : MountState) : DriveState :=
  if !loaded then .empty
  else
    match mountState with
    | .mountedRo | .mountedRw | .dirty => .busy
    | .unmounted => .loaded

/-- The adapter of a real changer; host-side mount states are its own record. -/
structure RealLibraryBackend where
  libraryId : String
  mountStates : Dict Nat MountState := []
  deriving Repr, DecidableEq

namespace RealLibraryBackend

structure DriveStatus where
  driveId : Nat
  barcode : Option Barcode
  driveState : DriveState
  mountState : MountState
  deriving Repr, DecidableEq

structure LibraryInventory where
  libraryId : String
  slots : List SlotState
  drives : List DriveStatus
  changerState : ChangerState
  deriving Repr, DecidableEq

/-- An element as the inventory lists it. -/
def slotEntry (slot : MtxSlotInfo) : Except Exn SlotState := do
  let barcode ← barcodeUnlessEmpty upper slot.barcode
  slotState slot.slotId barcode slot.occupied

variable (backend : RealLibraryBackend)

def mountStateOf (driveId : Nat) : MountState := (backend.mountStates.get? driveId).getD .unmounted

/-- A drive as the inventory lists it. -/
def driveEntry (drive : MtxDriveInfo) : Except Exn DriveStatus := do
  let barcode ← barcodeUnlessEmpty upper drive.barcode
  pure
    { driveId := drive.driveId, barcode, driveState := driveStateOf drive.loaded (backend.mountStateOf drive.driveId)
      mountState := backend.mountStateOf drive.driveId }

/-- `inventory`, of a changer that prints this status. -/
def inventory (output : String) : Except Exn LibraryInventory := do
  let status ← parseMtxStatus output
  let slots ← status.slots.mapM slotEntry
  let drives ← status.drives.mapM backend.driveEntry
  pure { libraryId := backend.libraryId, slots, drives, changerState := .idle }

/-- `import_export_slots`. -/
def importExportSlots (output : String) : Except Exn (List SlotState) := do
  let status ← parseMtxStatus output
  status.importExportSlots.mapM slotEntry

/-! ## The statement -/

/-- Every element reported is listed as often as it is reported, with its occupancy. -/
structure ListsAll (status : MtxStatus) (inventory : LibraryInventory) (mailslots : List SlotState) : Prop where
  slots : (inventory.slots.map fun s => (s.slotId, s.occupied)) = status.slots.map fun s => (s.slotId, s.occupied)
  drives : (inventory.drives.map fun d => (d.driveId, d.driveState != .empty)) = status.drives.map fun d => (d.driveId, d.loaded)
  mailslots : (mailslots.map fun s => (s.slotId, s.occupied)) = status.importExportSlots.map fun s => (s.slotId, s.occupied)

/-- The library is answered for: neither call raises, and no element is missing. -/
def AnswersFor (status : MtxStatus) (output : String) : Prop :=
  ∃ inventory mailslots, backend.inventory output = .ok inventory ∧ importExportSlots output = .ok mailslots ∧
    ListsAll status inventory mailslots

/-- A label in the form of `Barcode`: eight letters or digits. -/
def IsLabel (tag : String) : Prop := ∃ barcode, normalizeBarcode upper tag = .ok barcode

/-- The changer reports a volume tag of every full slot and of no empty one, and every tag, those of drives included, is a
label. -/
structure Labelled (status : MtxStatus) : Prop where
  tagged : ∀ slot ∈ status.elements, slot.occupied = slot.barcode.isSome
  labels : ∀ tag ∈ status.tags, IsLabel tag

/-! ## One element -/

theorem exists_barcodeUnlessEmpty_iff {barcode : Option String} (hne : ∀ tag ∈ barcode, tag ≠ "") :
    (∃ b, barcodeUnlessEmpty upper barcode = .ok b) ↔ ∀ tag ∈ barcode, IsLabel tag := by
  cases barcode with
  | none => exact ⟨fun _ => nofun, fun _ => ⟨none, rfl⟩⟩
  | some tag =>
    simp only [barcodeUnlessEmpty, hne tag rfl, if_false, Option.mem_some_iff, forall_eq', IsLabel]
    cases normalizeBarcode upper tag with
    | error e => exact ⟨fun ⟨_, h⟩ => (nomatch h), fun ⟨_, h⟩ => (nomatch h)⟩
    | ok b => exact ⟨fun _ => ⟨b, rfl⟩, fun _ => ⟨some b, rfl⟩⟩

/-- A volume tag that is accepted becomes a barcode. -/
theorem isSome_of_barcodeUnlessEmpty {barcode : Option String} {b : Option Barcode} (hne : ∀ tag ∈ barcode, tag ≠ "")
    (h : barcodeUnlessEmpty upper barcode = .ok b) : b.isSome = barcode.isSome := by
  cases barcode with
  | none => exact Except.ok.inj h ▸ rfl
  | some tag =>
    rw [barcodeUnlessEmpty, if_neg (hne tag rfl)] at h
    cases hlabel : normalizeBarcode upper tag with
    | error e =>
      rw [hlabel] at h
      cases h
    | ok barcode =>
      rw [hlabel] at h
      exact Except.ok.inj h ▸ rfl

theorem slotEntry_view {slot : MtxSlotInfo} {entry : SlotState} (h : slotEntry slot = .ok entry) :
    (entry.slotId, entry.occupied) = (slot.slotId, slot.occupied) := by
  obtain ⟨barcode, -, h⟩ := bind_eq_ok.1 h
  unfold slotState at h
  split at h
  · exact Except.ok.inj h ▸ rfl
  · cases h

theorem exists_slotEntry_iff {slot : MtxSlotInfo} (hne : ∀ tag ∈ slot.barcode, tag ≠ "") :
    (∃ entry, slotEntry slot = .ok entry) ↔ slot.occupied = slot.barcode.isSome ∧ ∀ tag ∈ slot.barcode, IsLabel tag := by
  constructor
  · rintro ⟨entry, h⟩
    obtain ⟨barcode, hbarcode, h⟩ := bind_eq_ok.1 h
    refine ⟨?_, (exists_barcodeUnlessEmpty_iff hne).1 ⟨barcode, hbarcode⟩⟩
    unfold slotState at h
    split at h
    · rename_i hmatched
      rw [hmatched, isSome_of_barcodeUnlessEmpty hne hbarcode]
    · cases h
  · rintro ⟨htagged, hlabel⟩
    obtain ⟨barcode, hbarcode⟩ := (exists_barcodeUnlessEmpty_iff hne).2 hlabel
    have hmatched : slot.occupied = barcode.isSome := by rw [htagged, isSome_of_barcodeUnlessEmpty hne hbarcode]
    exact ⟨_, bind_eq_ok.2 ⟨barcode, hbarcode, dif_pos hmatched⟩⟩

variable {backend}

theorem driveEntry_view {drive : MtxDriveInfo} {entry : DriveStatus} (h : backend.driveEntry drive = .ok entry) :
    (entry.driveId, entry.driveState != .empty) = (drive.driveId, drive.loaded) := by
  obtain ⟨barcode, -, h⟩ := bind_eq_ok.1 h
  obtain rfl := Except.ok.inj h
  cases hloaded : drive.loaded with
  | false => simp [driveStateOf]
  | true => cases hmount : backend.mountStateOf drive.driveId <;> simp [driveStateOf]

theorem exists_driveEntry_iff {drive : MtxDriveInfo} (hne : ∀ tag ∈ drive.barcode, tag ≠ "") :
    (∃ entry, backend.driveEntry drive = .ok entry) ↔ ∀ tag ∈ drive.barcode, IsLabel tag := by
  rw [← exists_barcodeUnlessEmpty_iff hne]
  constructor
  · rintro ⟨entry, h⟩
    obtain ⟨barcode, hbarcode, -⟩ := bind_eq_ok.1 h
    exact ⟨barcode, hbarcode⟩
  · rintro ⟨barcode, hbarcode⟩
    exact ⟨_, bind_eq_ok.2 ⟨barcode, hbarcode, rfl⟩⟩

/-! ## The whole library -/

/-- The library is answered for when every element can be listed. -/
theorem answersFor_iff {output : String} {status : MtxStatus} (hparse : parseMtxStatus output = .ok status) :
    backend.AnswersFor status output ↔ (∃ slots, status.slots.mapM slotEntry = .ok slots) ∧
      (∃ drives, status.drives.mapM backend.driveEntry = .ok drives) ∧
      ∃ mailslots, status.importExportSlots.mapM slotEntry = .ok mailslots := by
  constructor
  · rintro ⟨inventory, mailslots, hinventory, hmailslots, -⟩
    simp only [RealLibraryBackend.inventory, importExportSlots, hparse, bind_eq_ok, Except.ok.injEq, exists_eq_left']
      at hinventory hmailslots
    obtain ⟨slots, hslots, drives, hdrives, -⟩ := hinventory
    exact ⟨⟨slots, hslots⟩, ⟨drives, hdrives⟩, ⟨mailslots, hmailslots⟩⟩
  · rintro ⟨⟨slots, hslots⟩, ⟨drives, hdrives⟩, ⟨mailslots, hmailslots⟩⟩
    refine ⟨{ libraryId := backend.libraryId, slots, drives, changerState := .idle }, mailslots, ?_, ?_, ?_⟩
    · exact bind_eq_ok.2 ⟨status, hparse, bind_eq_ok.2 ⟨slots, hslots, bind_eq_ok.2 ⟨drives, hdrives, rfl⟩⟩⟩
    · exact bind_eq_ok.2 ⟨status, hparse, hmailslots⟩
    · exact ⟨map_eq_of_mapM_ok hslots fun _ _ h => slotEntry_view h, map_eq_of_mapM_ok hdrives fun _ _ h => driveEntry_view h,
        map_eq_of_mapM_ok hmailslots fun _ _ h => slotEntry_view h⟩

/-- **The real inventory answers for exactly the libraries that are labelled throughout.** One full slot without a volume tag,
one empty slot with one, or one tag that is not eight letters or digits, in a drive or at the import/export station too, and
the whole library has no inventory or no import/export station. -/
theorem answersFor_iff_labelled (backend : RealLibraryBackend) (output : String) (status : MtxStatus)
    (hparse : parseMtxStatus output = .ok status) : backend.AnswersFor status output ↔ Labelled status := by
  have hne := tags_parseMtxStatus hparse
  have hslots : ∀ slot ∈ status.elements, ∀ tag ∈ slot.barcode, tag ∈ status.tags := by
    intro slot hslot tag htag
    rcases List.mem_append.1 hslot with hslot | hslot
    · exact List.mem_append_left _ (List.mem_append_left _ (List.mem_filterMap.2 ⟨slot, hslot, htag⟩))
    · exact List.mem_append_right _ (List.mem_filterMap.2 ⟨slot, hslot, htag⟩)
  have hdrives : ∀ drive ∈ status.drives, ∀ tag ∈ drive.barcode, tag ∈ status.tags := fun drive hdrive tag htag =>
    List.mem_append_left _ (List.mem_append_right _ (List.mem_filterMap.2 ⟨drive, hdrive, htag⟩))
  rw [answersFor_iff hparse, exists_mapM_ok_iff, exists_mapM_ok_iff, exists_mapM_ok_iff]
  constructor
  · rintro ⟨hstorage, hloaded, hmail⟩
    have hall : ∀ slot ∈ status.elements, slot.occupied = slot.barcode.isSome ∧ ∀ tag ∈ slot.barcode, IsLabel tag := by
      intro slot hslot
      rw [← exists_slotEntry_iff fun tag htag => hne tag (hslots slot hslot tag htag)]
      rcases List.mem_append.1 hslot with hslot | hslot
      · exact hstorage slot hslot
      · exact hmail slot hslot
    refine ⟨fun slot hslot => (hall slot hslot).1, fun tag htag => ?_⟩
    rcases List.mem_append.1 htag with htag | htag
    · rcases List.mem_append.1 htag with htag | htag
      · obtain ⟨slot, hslot, htag⟩ := List.mem_filterMap.1 htag
        exact (hall slot (List.mem_append_left _ hslot)).2 tag htag
      · obtain ⟨drive, hdrive, htag⟩ := List.mem_filterMap.1 htag
        exact (exists_driveEntry_iff fun tag htag => hne tag (hdrives drive hdrive tag htag)).1 (hloaded drive hdrive) tag htag
    · obtain ⟨slot, hslot, htag⟩ := List.mem_filterMap.1 htag
      exact (hall slot (List.mem_append_right _ hslot)).2 tag htag
  · intro h
    have hall : ∀ slot ∈ status.elements, ∃ entry, slotEntry slot = .ok entry := fun slot hslot =>
      (exists_slotEntry_iff fun tag htag => hne tag (hslots slot hslot tag htag)).2
        ⟨h.tagged slot hslot, fun tag htag => h.labels tag (hslots slot hslot tag htag)⟩
    refine ⟨fun slot hslot => hall slot (List.mem_append_left _ hslot), fun drive hdrive => ?_,
      fun slot hslot => hall slot (List.mem_append_right _ hslot)⟩
    exact (exists_driveEntry_iff fun tag htag => hne tag (hdrives drive hdrive tag htag)).2 fun tag htag =>
      h.labels tag (hdrives drive hdrive tag htag)

/-- `SAMPLE_MTX_REAL_SCALAR`, shortened: a loaded drive, a cleaning cartridge and an import/export element. -/
def sampleScalar : String :=
  "  Storage Changer /dev/sg3:2 Drives, 3 Slots ( 1 Import/Export )\n" ++
    "Data Transfer Element 0:Full (Storage Element 2 Loaded):VolumeTag = OB0007L8\n" ++
    "Data Transfer Element 1:Empty\n" ++
    "      Storage Element 1:Full :VolumeTag=CLN001L8\n" ++
    "      Storage Element 2:Empty\n" ++
    "      Storage Element 3 IMPORT/EXPORT:Full :VolumeTag=OB0009L8\n"

def scalarStatus : MtxStatus where
  device := "/dev/sg3"
  drives := [{ driveId := 0, loaded := true, barcode := some "OB0007L8", sourceSlot := some 2 },
    { driveId := 1, loaded := false, barcode := none }]
  slots := [{ slotId := 1, occupied := true, barcode := some "CLN001L8" }, { slotId := 2, occupied := false, barcode := none }]
  driveCount := 2
  slotCount := 3
  importExportSlots := [{ slotId := 3, occupied := true, barcode := some "OB0009L8", isImportExport := true }]

theorem parse_sampleScalar : parseMtxStatus sampleScalar = .ok scalarStatus := by decide +kernel

theorem labelled_scalarStatus : Labelled scalarStatus := by
  refine ⟨by decide, ?_⟩
  intro tag htag
  have hlabel : ∀ tag ∈ ["CLN001L8", "OB0007L8", "OB0009L8"], normalizeBarcode upper tag = .ok tag := by decide +kernel
  exact ⟨tag, hlabel tag htag⟩

theorem answersFor_iff_labelled_scalar :
    (RealLibraryBackend.mk "sg3" []).AnswersFor scalarStatus sampleScalar :=
  (answersFor_iff_labelled _ _ _ parse_sampleScalar).2 labelled_scalarStatus

/-- `SAMPLE_MTX_BARCODE_MISSING`: one cartridge without a label. -/
def sampleBarcodeMissing : String :=
  "Storage Changer /dev/sg0:1 Drives, 4 Slots ( 0 Import/Export )\n" ++
    "Data Transfer Element 0:Empty\n" ++
    "      Storage Element 1:Full\n" ++
    "      Storage Element 2:Empty\n"

/-- One cartridge without a label, and the library has no inventory. -/
theorem no_inventory_of_unlabelled :
    ∃ status, parseMtxStatus sampleBarcodeMissing = .ok status ∧
      status.slots.map (fun s => (s.slotId, s.occupied)) = [(1, true), (2, false)] ∧
      ∀ backend : RealLibraryBackend, backend.inventory sampleBarcodeMissing =
        .error { cls := .valueError, message := "occupied must match whether barcode is present" } ∧
        ¬backend.AnswersFor status sampleBarcodeMissing := by
  let status : MtxStatus :=
    { device := "/dev/sg0", drives := [{ driveId := 0, loaded := false, barcode := none }]
      slots := [{ slotId := 1, occupied := true, barcode := none }, { slotId := 2, occupied := false, barcode := none }]
      driveCount := 1, slotCount := 4 }
  have hparse : parseMtxStatus sampleBarcodeMissing = .ok status := by decide +kernel
  have hraises (backend : RealLibraryBackend) : backend.inventory sampleBarcodeMissing =
      .error { cls := .valueError, message := "occupied must match whether barcode is present" } := by
    rw [inventory, hparse]
    rfl
  refine ⟨status, hparse, rfl, fun backend => ⟨hraises backend, ?_⟩⟩
  rintro ⟨inventory, -, hinventory, -⟩
  cases (hraises backend).symm.trans hinventory

end RealLibraryBackend

end OpenBlade
