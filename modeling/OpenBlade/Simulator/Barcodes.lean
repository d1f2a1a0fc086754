import OpenBlade.Effects.Traverse
import OpenBlade.Simulator.Setup

/-!
# The barcodes of the simulated library

Every cartridge is named in the form of `Barcode` when it comes into the library, and keeps its name wherever it is moved.
-/

namespace OpenBlade

open Effects

/-- `str.upper`, which leaves digits and capital letters as they are. -/
structure UpperCase where
  apply : String → String
  fixes : ∀ text : String, (text.toList.all fun c => ('A' ≤ c ∧ c ≤ 'Z') ∨ ('0' ≤ c ∧ c ≤ '9')) = true → apply text = text

namespace UpperCase

/-- `str.upper` of ASCII texts. -/
def ascii : UpperCase where
  apply text := String.ofList (text.toList.map Char.toUpper)
  fixes text h := by
    have hchars : text.toList.map Char.toUpper = text.toList.map id := by
      refine List.map_congr_left fun c hc => ?_
      have hclass := of_decide_eq_true (List.all_eq_true.1 h c hc)
      unfold Char.toUpper
      rw [dif_neg]
      · rfl
      · simp only [Char.le_def, UInt32.le_iff_toNat_le] at hclass ⊢
        simp at hclass ⊢
        omega
    rw [hchars, List.map_id, String.ofList_toList]

end UpperCase

/-- A barcode in the form of `Barcode` is in that form already. -/
theorem normalizeBarcode_idem (upper : UpperCase) {text : String} {barcode : Barcode}
    (h : normalizeBarcode upper.apply text = .ok barcode) : normalizeBarcode upper.apply barcode = .ok barcode := by
  unfold normalizeBarcode at h
  dsimp only at h
  split at h
  · rename_i hform
    obtain rfl := Except.ok.inj h
    unfold normalizeBarcode
    dsimp only
    rw [upper.fixes _ hform.2, if_pos hform]
  · cases h

namespace MockLibrary

/-- Every cartridge in an element is named in the form of `Barcode`. -/
def Canonical (upper : String → String) (lib : MockLibrary) : Prop :=
  ∀ e barcode, lib.contents e = some barcode → normalizeBarcode upper barcode = .ok barcode

section canonical

variable {upper : UpperCase} {lib lib' : MockLibrary}

theorem Canonical.of_contents (h : Canonical upper.apply lib) (hcontents : lib'.contents = lib.contents) :
    Canonical upper.apply lib' := fun e barcode he => h e barcode (hcontents ▸ he)

theorem Canonical.update (h : Canonical upper.apply lib) {x : Element} {content : Option Barcode}
    (hcontents : lib'.contents = Function.update lib.contents x content)
    (hnew : ∀ barcode, content = some barcode → normalizeBarcode upper.apply barcode = .ok barcode) :
    Canonical upper.apply lib' := by
  intro e barcode he
  rw [hcontents, Function.update_apply] at he
  split at he
  · exact hnew barcode he
  · exact h e barcode he

theorem Canonical.setSlot (h : Canonical upper.apply lib) (id : Int) (content : Option Barcode)
    (hnew : ∀ barcode, content = some barcode → normalizeBarcode upper.apply barcode = .ok barcode) :
    Canonical upper.apply (lib.setSlot id content) := h.update (contents_setSlot lib id content) hnew

theorem Canonical.setIeSlot (h : Canonical upper.apply lib) (id : Int) (content : Option Barcode)
    (hnew : ∀ barcode, content = some barcode → normalizeBarcode upper.apply barcode = .ok barcode) :
    Canonical upper.apply (lib.setIeSlot id content) := h.update (contents_setIeSlot lib id content) hnew

theorem Canonical.setDrive (h : Canonical upper.apply lib) (id : Int) (drive : MockDrive)
    (hnew : ∀ barcode, drive.barcode = some barcode → normalizeBarcode upper.apply barcode = .ok barcode) :
    Canonical upper.apply (lib.setDrive id drive) := h.update (contents_setDrive lib id drive) hnew

theorem Canonical.setState (h : Canonical upper.apply lib) (barcode : Barcode) (state : CartridgeState) :
    Canonical upper.apply (lib.setState barcode state) := h.of_contents (contents_setState lib barcode state)

theorem Canonical.addCartridge (h : Canonical upper.apply lib) {slotId : Int} {text : String} {u : Unit}
    (hok : lib.addCartridgeUpdate upper.apply slotId text = .ok (lib', u)) : Canonical upper.apply lib' := by
  obtain ⟨slot, -, hok⟩ := bind_ok hok
  obtain ⟨_, -, hok⟩ := bind_ok hok
  obtain ⟨barcode, hnorm, hok⟩ := bind_ok hok
  split at hok
  · cases hok
  · obtain ⟨_, -, hok⟩ := bind_ok hok
    obtain ⟨rfl, -⟩ := Prod.mk.inj (Except.ok.inj hok)
    refine (h.setSlot slotId _ fun b hb => ?_).setState _ _
    rw [← Option.some.inj hb]
    exact normalizeBarcode_idem upper hnorm

theorem Canonical.removeCartridge (h : Canonical upper.apply lib) {slotId : Int} {barcode : Barcode}
    (hok : lib.removeCartridgeUpdate slotId = .ok (lib', barcode)) : Canonical upper.apply lib' := by
  obtain ⟨slot, -, hok⟩ := bind_ok hok
  obtain ⟨b, -, hok⟩ := bind_ok hok
  obtain ⟨rfl, -⟩ := Prod.mk.inj (Except.ok.inj hok)
  exact (h.setSlot slotId none (by nofun)).of_contents (contents_popState _ _)

theorem Canonical.load (h : Canonical upper.apply lib) {faults : Faults} {sourceSlot driveId : Int} {result : OperationResult}
    (hok : lib.loadUpdate faults sourceSlot driveId = .ok (lib', result)) : Canonical upper.apply lib' := by
  obtain ⟨_, -, hok⟩ := bind_ok hok
  obtain ⟨_, -, hok⟩ := bind_ok hok
  obtain ⟨_, -, hok⟩ := bind_ok hok
  obtain ⟨slot, hslot, hok⟩ := bind_ok hok
  obtain ⟨drive, -, hok⟩ := bind_ok hok
  obtain ⟨barcode, hb, hok⟩ := bind_ok hok
  have hsource := h _ _ ((contents_slot (item_ok hslot)).trans (cartridgeIn_ok hb))
  split at hok
  · cases hok
  · obtain ⟨_, -, hok⟩ := bind_ok hok
    obtain ⟨_, -, hok⟩ := bind_ok hok
    obtain ⟨rfl, -⟩ := Prod.mk.inj (Except.ok.inj hok)
    refine ((h.setSlot sourceSlot none (by nofun)).setDrive driveId _ fun b hb' => ?_).setState _ _
    rwa [← Option.some.inj hb']

theorem Canonical.unload (h : Canonical upper.apply lib) {faults : Faults} {driveId targetSlot : Int} {result : OperationResult}
    (hok : lib.unloadUpdate faults driveId targetSlot = .ok (lib', result)) : Canonical upper.apply lib' := by
  obtain ⟨_, -, hok⟩ := bind_ok hok
  obtain ⟨_, -, hok⟩ := bind_ok hok
  obtain ⟨_, -, hok⟩ := bind_ok hok
  obtain ⟨drive, hdrive, hok⟩ := bind_ok hok
  obtain ⟨slot, -, hok⟩ := bind_ok hok
  obtain ⟨barcode, hb, hok⟩ := bind_ok hok
  obtain ⟨_, -, hok⟩ := bind_ok hok
  have hsource := h _ _ ((contents_drive (item_ok hdrive)).trans (cartridgeIn_ok hb))
  split at hok
  · obtain ⟨_, -, hok⟩ := bind_ok hok
    obtain ⟨_, -, hok⟩ := bind_ok hok
    obtain ⟨rfl, -⟩ := Prod.mk.inj (Except.ok.inj hok)
    refine ((h.setDrive driveId { barcode := none, driveState := .empty, mountState := .unmounted }
      (by nofun)).setSlot targetSlot _ fun b hb' => ?_).setState _ _
    rwa [← Option.some.inj hb']
  · cases hok

theorem Canonical.move (h : Canonical upper.apply lib) {faults : Faults} {sourceSlot targetSlot : Int} {result : OperationResult}
    (hok : lib.moveUpdate faults sourceSlot targetSlot = .ok (lib', result)) : Canonical upper.apply lib' := by
  obtain ⟨_, -, hok⟩ := bind_ok hok
  obtain ⟨source, hslot, hok⟩ := bind_ok hok
  obtain ⟨target, -, hok⟩ := bind_ok hok
  obtain ⟨barcode, hb, hok⟩ := bind_ok hok
  obtain ⟨_, -, hok⟩ := bind_ok hok
  obtain ⟨_, -, hok⟩ := bind_ok hok
  have hsource := h _ _ ((contents_slot (item_ok hslot)).trans (cartridgeIn_ok hb))
  obtain ⟨rfl, -⟩ := Prod.mk.inj (Except.ok.inj hok)
  refine (h.setSlot targetSlot _ fun b hb' => ?_).setSlot sourceSlot none (by nofun)
  rwa [← Option.some.inj hb']

theorem Canonical.setDriveMountState (h : Canonical upper.apply lib) {d : Int} {mountState : MountState} {u : Unit}
    (hok : lib.setDriveMountStateUpdate d mountState = .ok (lib', u)) : Canonical upper.apply lib' := by
  obtain ⟨drive, hget, -, rfl⟩ := setDriveMountState_ok hok
  exact h.setDrive d _ fun b hb => h _ _ ((contents_drive hget).trans hb)

theorem Canonical.importCartridge (h : Canonical upper.apply lib) {faults : Faults} {ieSlot targetSlot : Int}
    {result : OperationResult} (hok : lib.importCartridgeUpdate faults ieSlot targetSlot = .ok (lib', result)) :
    Canonical upper.apply lib' := by
  obtain ⟨_, -, hok⟩ := bind_ok hok
  obtain ⟨_, -, hok⟩ := bind_ok hok
  obtain ⟨source, hslot, hok⟩ := bind_ok hok
  obtain ⟨barcode, hb, hok⟩ := bind_ok hok
  obtain ⟨target, -, hok⟩ := bind_ok hok
  obtain ⟨_, -, hok⟩ := bind_ok hok
  have hsource := h _ _ ((contents_ieSlot (element_ok hslot)).trans (cartridgeIn_ok hb))
  obtain ⟨rfl, -⟩ := Prod.mk.inj (Except.ok.inj hok)
  refine ((h.setSlot targetSlot _ fun b hb' => ?_).setIeSlot ieSlot none (by nofun)).setState _ _
  rwa [← Option.some.inj hb']

theorem Canonical.exportCartridgeToIe (h : Canonical upper.apply lib) {faults : Faults} {sourceSlot ieSlot : Int}
    {result : OperationResult} (hok : lib.exportCartridgeToIeUpdate faults sourceSlot ieSlot = .ok (lib', result)) :
    Canonical upper.apply lib' := by
  obtain ⟨_, -, hok⟩ := bind_ok hok
  obtain ⟨_, -, hok⟩ := bind_ok hok
  obtain ⟨source, hslot, hok⟩ := bind_ok hok
  obtain ⟨barcode, hb, hok⟩ := bind_ok hok
  obtain ⟨target, -, hok⟩ := bind_ok hok
  obtain ⟨_, -, hok⟩ := bind_ok hok
  have hsource := h _ _ ((contents_slot (element_ok hslot)).trans (cartridgeIn_ok hb))
  obtain ⟨rfl, -⟩ := Prod.mk.inj (Except.ok.inj hok)
  refine ((h.setIeSlot ieSlot _ fun b hb' => ?_).setSlot sourceSlot none (by nofun)).setState _ _
  rwa [← Option.some.inj hb']

theorem Canonical.exportCartridge (h : Canonical upper.apply lib) (barcode : String) :
    Canonical upper.apply (lib.exportCartridge barcode) := by
  unfold MockLibrary.exportCartridge
  split
  · exact (h.setSlot _ none (by nofun)).setState _ _
  · split
    · exact (h.setIeSlot _ none (by nofun)).setState _ _
    · split
      · exact (h.setDrive _ {} (by nofun)).setState _ _
      · split
        · exact h.setState _ _
        · exact h

theorem canonical_reset (lib : MockLibrary) : Canonical upper.apply lib.reset := by
  intro e barcode he
  cases (lib.contents_reset e).symm.trans he

theorem canonical_seedSlots (lib : MockLibrary) (barcodes : List String) :
    Canonical upper.apply (lib.seedSlots upper.apply barcodes).2 :=
  seedSlots_keeps lib.canonical_reset fun _ _ _ h => update_state h fun _ _ hok => h.addCartridge hok

/-- What a barcode that may be left out is. -/
theorem barcodeUnlessEmpty_ok {entry : Int × Option String} {x : Int × Option Barcode} {barcode : Barcode}
    (hx : (barcodeUnlessEmpty upper.apply entry.2).map (fun content => (entry.1, content)) = .ok (x.1, some barcode)) :
    normalizeBarcode upper.apply barcode = .ok barcode := by
  obtain ⟨id, text⟩ := entry
  cases text with
  | none => cases hx
  | some text =>
    simp only [barcodeUnlessEmpty] at hx
    split at hx
    · cases hx
    · cases hnorm : normalizeBarcode upper.apply text with
      | error e =>
        rw [hnorm] at hx
        cases hx
      | ok b =>
        rw [hnorm] at hx
        obtain ⟨-, hb⟩ := Prod.mk.inj (Except.ok.inj hx)
        rw [← Option.some.inj hb]
        exact normalizeBarcode_idem upper hnorm

theorem Canonical.seedImportExportSlots (h : Canonical upper.apply lib) {slots : Dict Int (Option String)} {u : Unit}
    (hok : lib.seedImportExportSlotsUpdate upper.apply slots = .ok (lib', u)) : Canonical upper.apply lib' := by
  obtain ⟨seeded, hseeded, hok⟩ := bind_ok hok
  obtain ⟨rfl, -⟩ := Prod.mk.inj (Except.ok.inj hok)
  have hcontents := (lib.withIeSlots seeded).contents_setDefaultStates (fun slot => slot.2) .inSlot seeded
  intro e barcode he
  rw [hcontents] at he
  cases e with
  | slot i => exact h (.slot i) barcode he
  | drive i => exact h (.drive i) barcode he
  | ieSlot i =>
    have hget : (Dict.ofPairs seeded).get? i = some (some barcode) := Option.join_eq_some_iff.1 he
    obtain ⟨slot, -, hslot⟩ := Effects.mem_of_mapM_ok hseeded (Dict.mem_of_mem_ofPairs (Dict.mem_of_get? hget))
    exact barcodeUnlessEmpty_ok (x := (i, some barcode)) hslot

/-- Every operation keeps the names. -/
theorem Canonical.operate (h : Canonical upper.apply lib) (op : LibraryOperation) :
    Canonical upper.apply (lib.operate upper.apply op).2 := by
  cases op with
  | call faults call =>
    cases call with
    | addCartridge slotId text => exact update_keeps _ h fun _ _ hok => h.addCartridge hok
    | removeCartridge slotId => exact update_keeps _ h fun _ _ hok => h.removeCartridge hok
    | load sourceSlot driveId => exact update_keeps _ h fun _ _ hok => h.load hok
    | unload driveId targetSlot => exact update_keeps _ h fun _ _ hok => h.unload hok
    | move sourceSlot targetSlot =>
      simp only [MockLibrary.operate, MockLibrary.call, MockLibrary.move]
      split
      · exact h
      · split
        · exact h
        · exact update_keeps _ h fun _ _ hok => h.move hok
    | setDriveMountState driveId mountState => exact update_keeps _ h fun _ _ hok => h.setDriveMountState hok
    | importCartridge ieSlot targetSlot => exact update_keeps _ h fun _ _ hok => h.importCartridge hok
    | exportCartridgeToIe sourceSlot ieSlot => exact update_keeps _ h fun _ _ hok => h.exportCartridgeToIe hok
    | exportCartridge barcode => exact h.exportCartridge barcode
  | reset => exact lib.canonical_reset
  | seedSlots barcodes => exact ofExcept_state (canonical_seedSlots lib barcodes)
  | seedImportExportSlots slots => exact update_keeps _ h fun _ _ hok => h.seedImportExportSlots hok

end canonical

end MockLibrary

end OpenBlade
