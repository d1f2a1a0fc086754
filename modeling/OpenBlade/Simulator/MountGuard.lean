import OpenBlade.Simulator.Invariant

/-!
# Mounted tapes stay in their drives

`unload` refuses a drive whose tape is mounted or dirty, and no other call of the changer takes a cartridge out of a drive.
`export_cartridge` is not a call of the changer: it empties the first element that holds the cartridge, without a look at the
mount state; and `reset` empties every drive.
-/

namespace OpenBlade

open Effects Storage

namespace MockLibrary

/-- What the mounted drives hold, they still hold. -/
def KeepsMounted (lib lib' : MockLibrary) : Prop :=
  ∀ d drive barcode, lib.drives.get? d = some drive → drive.mountState ≠ .unmounted → drive.barcode = some barcode →
    lib'.contents (.drive d) = some barcode

/-- The drive that `export_cartridge` empties, if it comes to the drives. -/
def exportedFrom (lib : MockLibrary) (barcode : Barcode) : Option (Int × MockDrive) :=
  if (lib.slots.any fun slot => slot.2 = some barcode) ∨ (lib.ieSlots.any fun slot => slot.2 = some barcode) then none
  else lib.drives.find? fun drive => drive.2.barcode = some barcode

/-- A drive holds a cartridge and is not `UNMOUNTED`. -/
def holdsMounted (drive : MockDrive) : Bool := drive.barcode.isSome ∧ drive.mountState ≠ .unmounted

/-- The operation takes a cartridge out of a drive that is not `UNMOUNTED`: it exports a cartridge that is in such a drive, or it
sets up anew a library with such a drive. -/
def takesMounted (lib : MockLibrary) : LibraryOperation → Bool
  | .call _ (.exportCartridge barcode) => (lib.exportedFrom barcode).any fun drive => holdsMounted drive.2
  | .reset | .seedSlots _ => lib.drives.any fun drive => holdsMounted drive.2
  | _ => false

/-! ### Drives that stay as they are -/

/-- A drive with a mounted tape is as it was. -/
def StaysMounted (lib lib' : MockLibrary) : Prop :=
  ∀ d drive, lib.drives.get? d = some drive → holdsMounted drive = true → lib'.drives.get? d = some drive

theorem StaysMounted.of_drives {lib lib' : MockLibrary} (h : lib'.drives = lib.drives) : StaysMounted lib lib' :=
  fun _ _ hget _ => h ▸ hget

theorem StaysMounted.refl (lib : MockLibrary) : StaysMounted lib lib := .of_drives rfl

/-- A drive without a mounted tape may change. -/
theorem StaysMounted.of_setDrive {lib lib' : MockLibrary} {id : Int} {old new : MockDrive}
    (hold : lib.drives.get? id = some old) (hdrives : lib'.drives = lib.drives.set id new) (h : holdsMounted old = false) :
    StaysMounted lib lib' := by
  intro d drive hget hmounted
  rw [hdrives, Dict.get?_set]
  split
  · rename_i hid
    subst hid
    obtain rfl : old = drive := Option.some.inj (hold.symm.trans hget)
    rw [h] at hmounted
    cases hmounted
  · exact hget

theorem StaysMounted.keeps {lib lib' : MockLibrary} (h : StaysMounted lib lib') : KeepsMounted lib lib' := by
  intro d drive barcode hget hmount hb
  rw [contents, h d drive hget (by simp [holdsMounted, hb, hmount])]
  exact hb

/-- Checks that raise change nothing; so what the update keeps is kept, also if the check after it raises. -/
theorem update_state {α : Type} {lib : MockLibrary} {checked : Except Exn (MockLibrary × α)} {P : MockLibrary → Prop}
    (hrefl : P lib) (h : ∀ lib' a, checked = .ok (lib', a) → P lib') : P (lib.update checked).2 := by
  unfold update
  cases hc : checked with
  | error e => exact hrefl
  | ok x =>
    obtain ⟨lib', a⟩ := x
    have hkeeps := h lib' a hc
    dsimp only
    split <;> exact hkeeps

/-- An answer does not change the library. -/
theorem ofExcept_state {α : Type} {f : α → MockLibraryAnswer} {r : Except Exn α × MockLibrary} {P : MockLibrary → Prop}
    (h : P r.2) : P (MockLibraryAnswer.ofExcept f r).2 := by
  obtain ⟨_ | a, lib⟩ := r <;> exact h

theorem update_keeps {α : Type} {lib : MockLibrary} {checked : Except Exn (MockLibrary × α)} {P : MockLibrary → Prop}
    (f : α → MockLibraryAnswer) (hrefl : P lib) (h : ∀ lib' a, checked = .ok (lib', a) → P lib') :
    P (MockLibraryAnswer.ofExcept f (lib.update checked)).2 := ofExcept_state (update_state hrefl h)

/-- Seeding the slots is a reset, and adding cartridges. -/
theorem seedSlots_keeps {lib : MockLibrary} {upper : String → String} {barcodes : List String} {P : MockLibrary → Prop}
    (hreset : P lib.reset) (hadd : ∀ lib slotId text, P lib → P (lib.addCartridge upper slotId text).2) :
    P (lib.seedSlots upper barcodes).2 := by
  unfold seedSlots
  suffices hfold : ∀ (step : Except Exn Unit × MockLibrary → Int × String → Except Exn Unit × MockLibrary),
      (∀ r entry, P r.2 → P (step r entry).2) → ∀ (entries : List (Int × String)) (r : Except Exn Unit × MockLibrary), P r.2 →
        P (entries.foldl step r).2 by
    refine hfold _ (fun r entry h => ?_) _ _ hreset
    obtain ⟨answer, lib'⟩ := r
    cases answer with
    | error e => exact h
    | ok u => exact hadd lib' entry.1 entry.2 h
  intro step hstep entries
  induction entries with
  | nil => exact fun _ h => h
  | cons entry entries ih => exact fun r h => ih _ (hstep r entry h)

/-! ### The calls of the changer -/

/-- A load goes into a drive that holds nothing. -/
theorem staysMounted_load {lib lib' : MockLibrary} {faults : Faults} {sourceSlot driveId : Int} {result : OperationResult}
    (hok : lib.loadUpdate faults sourceSlot driveId = .ok (lib', result)) : StaysMounted lib lib' := by
  obtain ⟨_, -, hok⟩ := bind_ok hok
  obtain ⟨_, -, hok⟩ := bind_ok hok
  obtain ⟨_, -, hok⟩ := bind_ok hok
  obtain ⟨slot, -, hok⟩ := bind_ok hok
  obtain ⟨drive, hdrive, hok⟩ := bind_ok hok
  obtain ⟨barcode, -, hok⟩ := bind_ok hok
  split at hok
  · cases hok
  · rename_i hempty
    obtain ⟨_, -, hok⟩ := bind_ok hok
    obtain ⟨_, -, hok⟩ := bind_ok hok
    obtain ⟨rfl, -⟩ := Prod.mk.inj (Except.ok.inj hok)
    exact .of_setDrive (item_ok hdrive) rfl (by simp [holdsMounted, hempty])

/-- An unload is refused while the tape is mounted. -/
theorem staysMounted_unload {lib lib' : MockLibrary} {faults : Faults} {driveId targetSlot : Int} {result : OperationResult}
    (hok : lib.unloadUpdate faults driveId targetSlot = .ok (lib', result)) : StaysMounted lib lib' := by
  obtain ⟨_, -, hok⟩ := bind_ok hok
  obtain ⟨_, -, hok⟩ := bind_ok hok
  obtain ⟨_, -, hok⟩ := bind_ok hok
  obtain ⟨drive, hdrive, hok⟩ := bind_ok hok
  obtain ⟨slot, -, hok⟩ := bind_ok hok
  obtain ⟨barcode, -, hok⟩ := bind_ok hok
  obtain ⟨_, -, hok⟩ := bind_ok hok
  split at hok
  · rename_i hguard
    have hmount : drive.mountState = .unmounted := by
      simp only [canUnloadDrive, decide_eq_true_eq] at hguard
      exact hguard.1
    obtain ⟨_, -, hok⟩ := bind_ok hok
    obtain ⟨_, -, hok⟩ := bind_ok hok
    obtain ⟨rfl, -⟩ := Prod.mk.inj (Except.ok.inj hok)
    exact .of_setDrive (item_ok hdrive) rfl (by simp [holdsMounted, hmount])
  · cases hok

/-- A change of the mount state is one of the table, and leaves the tape where it is. -/
theorem setDriveMountState_ok {lib lib' : MockLibrary} {driveId : Int} {mountState : MountState} {u : Unit}
    (hok : lib.setDriveMountStateUpdate driveId mountState = .ok (lib', u)) :
    ∃ drive, lib.drives.get? driveId = some drive ∧
      (drive.mountState = mountState ∨ mountState ∈ drive.mountState.transitions) ∧
      lib' = lib.setDrive driveId { drive with driveState := driveStateFor mountState drive.barcode, mountState := mountState } := by
  obtain ⟨drive, hdrive, hok⟩ := bind_ok hok
  obtain ⟨_, hmount, hok⟩ := bind_ok hok
  obtain ⟨_, -, hok⟩ := bind_ok hok
  obtain ⟨rfl, -⟩ := Prod.mk.inj (Except.ok.inj hok)
  exact ⟨drive, item_ok hdrive, validateTransition_ok hmount, rfl⟩

theorem keepsMounted_setDriveMountState {lib lib' : MockLibrary} {driveId : Int} {mountState : MountState} {u : Unit}
    (hok : lib.setDriveMountStateUpdate driveId mountState = .ok (lib', u)) : KeepsMounted lib lib' := by
  obtain ⟨old, hold, -, rfl⟩ := setDriveMountState_ok hok
  intro d drive barcode hget _ hb
  rw [contents_setDrive, Function.update_apply]
  split
  · rename_i hd
    obtain rfl : d = driveId := Element.drive.inj hd
    obtain rfl : old = drive := Option.some.inj (hold.symm.trans hget)
    exact hb
  · exact (contents_drive hget).trans hb

/-- The other calls of the changer are about slots and import/export elements. -/
theorem drives_addCartridge {lib lib' : MockLibrary} {upper : String → String} {slotId : Int} {text : String} {u : Unit}
    (hok : lib.addCartridgeUpdate upper slotId text = .ok (lib', u)) : lib'.drives = lib.drives := by
  obtain ⟨slot, -, hok⟩ := bind_ok hok
  obtain ⟨_, -, hok⟩ := bind_ok hok
  obtain ⟨barcode, -, hok⟩ := bind_ok hok
  split at hok
  · cases hok
  · obtain ⟨_, -, hok⟩ := bind_ok hok
    obtain ⟨rfl, -⟩ := Prod.mk.inj (Except.ok.inj hok)
    rfl

theorem drives_removeCartridge {lib lib' : MockLibrary} {slotId : Int} {barcode : Barcode}
    (hok : lib.removeCartridgeUpdate slotId = .ok (lib', barcode)) : lib'.drives = lib.drives := by
  obtain ⟨slot, -, hok⟩ := bind_ok hok
  obtain ⟨b, -, hok⟩ := bind_ok hok
  obtain ⟨rfl, -⟩ := Prod.mk.inj (Except.ok.inj hok)
  rfl

theorem drives_move {lib lib' : MockLibrary} {faults : Faults} {sourceSlot targetSlot : Int} {result : OperationResult}
    (hok : lib.moveUpdate faults sourceSlot targetSlot = .ok (lib', result)) : lib'.drives = lib.drives := by
  obtain ⟨_, -, hok⟩ := bind_ok hok
  obtain ⟨source, -, hok⟩ := bind_ok hok
  obtain ⟨target, -, hok⟩ := bind_ok hok
  obtain ⟨barcode, -, hok⟩ := bind_ok hok
  obtain ⟨_, -, hok⟩ := bind_ok hok
  obtain ⟨_, -, hok⟩ := bind_ok hok
  obtain ⟨rfl, -⟩ := Prod.mk.inj (Except.ok.inj hok)
  rfl

theorem drives_importCartridge {lib lib' : MockLibrary} {faults : Faults} {ieSlot targetSlot : Int} {result : OperationResult}
    (hok : lib.importCartridgeUpdate faults ieSlot targetSlot = .ok (lib', result)) : lib'.drives = lib.drives := by
  obtain ⟨_, -, hok⟩ := bind_ok hok
  obtain ⟨_, -, hok⟩ := bind_ok hok
  obtain ⟨source, -, hok⟩ := bind_ok hok
  obtain ⟨barcode, -, hok⟩ := bind_ok hok
  obtain ⟨target, -, hok⟩ := bind_ok hok
  obtain ⟨_, -, hok⟩ := bind_ok hok
  obtain ⟨rfl, -⟩ := Prod.mk.inj (Except.ok.inj hok)
  rfl

theorem drives_exportCartridgeToIe {lib lib' : MockLibrary} {faults : Faults} {sourceSlot ieSlot : Int}
    {result : OperationResult} (hok : lib.exportCartridgeToIeUpdate faults sourceSlot ieSlot = .ok (lib', result)) :
    lib'.drives = lib.drives := by
  obtain ⟨_, -, hok⟩ := bind_ok hok
  obtain ⟨_, -, hok⟩ := bind_ok hok
  obtain ⟨source, -, hok⟩ := bind_ok hok
  obtain ⟨barcode, -, hok⟩ := bind_ok hok
  obtain ⟨target, -, hok⟩ := bind_ok hok
  obtain ⟨_, -, hok⟩ := bind_ok hok
  obtain ⟨rfl, -⟩ := Prod.mk.inj (Except.ok.inj hok)
  rfl

@[simp] theorem drives_setDefaultState (lib : MockLibrary) (content : Option Barcode) (state : CartridgeState) :
    (lib.setDefaultState content state).drives = lib.drives := by
  unfold setDefaultState
  cases content with
  | none => rfl
  | some barcode =>
    dsimp only
    split <;> rfl

theorem drives_setDefaultStates (lib : MockLibrary) (seeded : List (Int × Option Barcode)) :
    (seeded.foldl (fun lib slot => lib.setDefaultState slot.2 .inSlot) lib).drives = lib.drives := by
  induction seeded generalizing lib with
  | nil => rfl
  | cons slot seeded ih => exact (ih _).trans (drives_setDefaultState ..)

theorem drives_seedImportExportSlots {lib lib' : MockLibrary} {upper : String → String} {slots : Dict Int (Option String)}
    {u : Unit} (hok : lib.seedImportExportSlotsUpdate upper slots = .ok (lib', u)) : lib'.drives = lib.drives := by
  obtain ⟨seeded, -, hok⟩ := bind_ok hok
  obtain ⟨rfl, -⟩ := Prod.mk.inj (Except.ok.inj hok)
  exact drives_setDefaultStates _ seeded

/-! ### Exports and resets -/

/-- `export_cartridge` in two cases: the drives stay, or the drive it comes to is emptied. -/
theorem exportCartridge_cases (lib : MockLibrary) (barcode : String) :
    (lib.exportedFrom barcode = none ∧ (lib.exportCartridge barcode).drives = lib.drives) ∨
      ∃ drive, lib.exportedFrom barcode = some drive ∧ drive ∈ lib.drives ∧ drive.2.barcode = some barcode ∧
        (lib.exportCartridge barcode).drives = lib.drives.set drive.1 {} := by
  unfold exportCartridge exportedFrom
  cases hslot : lib.slots.find? fun slot => slot.2 = some barcode with
  | some slot =>
    have hany : (lib.slots.any fun slot => slot.2 = some barcode) = true :=
      List.any_eq_true.2 ⟨slot, List.mem_of_find?_eq_some hslot, by simpa using List.find?_some hslot⟩
    exact .inl ⟨if_pos (.inl hany), rfl⟩
  | none =>
    cases hie : lib.ieSlots.find? fun slot => slot.2 = some barcode with
    | some slot =>
      have hany : (lib.ieSlots.any fun slot => slot.2 = some barcode) = true :=
        List.any_eq_true.2 ⟨slot, List.mem_of_find?_eq_some hie, by simpa using List.find?_some hie⟩
      exact .inl ⟨if_pos (.inr hany), rfl⟩
    | none =>
      have hnot : ¬((lib.slots.any fun slot => slot.2 = some barcode) = true ∨
          (lib.ieSlots.any fun slot => slot.2 = some barcode) = true) := by
        simp only [List.any_eq_true, not_or, not_exists, not_and]
        exact ⟨List.find?_eq_none.1 hslot, List.find?_eq_none.1 hie⟩
      rw [if_neg hnot]
      cases hdrive : lib.drives.find? fun drive => drive.2.barcode = some barcode with
      | some drive =>
        refine .inr ⟨drive, rfl, List.mem_of_find?_eq_some hdrive, ?_, rfl⟩
        simpa using List.find?_some hdrive
      | none =>
        refine .inl ⟨rfl, ?_⟩
        dsimp only
        split <;> rfl

/-- An export that takes no mounted tape leaves the mounted drives as they are. -/
theorem staysMounted_exportCartridge {lib : MockLibrary} {barcode : String}
    (h : ((lib.exportedFrom barcode).any fun drive => holdsMounted drive.2) = false) :
    StaysMounted lib (lib.exportCartridge barcode) := by
  rcases lib.exportCartridge_cases barcode with ⟨-, hdrives⟩ | ⟨drive, hsome, hmem, -, hdrives⟩
  · exact .of_drives hdrives
  · rw [hsome, Option.any_some] at h
    exact .of_setDrive (Dict.get?_of_mem lib.nodupDrives hmem) hdrives h

/-- An export takes a mounted tape exactly when the drive it comes to is mounted. -/
theorem keepsMounted_exportCartridge (lib : MockLibrary) (barcode : String) :
    KeepsMounted lib (lib.exportCartridge barcode) ↔
      ((lib.exportedFrom barcode).any fun drive => holdsMounted drive.2) = false := by
  refine ⟨fun hkeeps => ?_, fun hnot => (staysMounted_exportCartridge hnot).keeps⟩
  rcases lib.exportCartridge_cases barcode with ⟨hnone, -⟩ | ⟨drive, hsome, hmem, hb, hdrives⟩
  · rw [hnone]
    rfl
  · rw [hsome, Option.any_some]
    by_contra hmounted
    have hmount : drive.2.mountState ≠ .unmounted := by
      simp only [holdsMounted, ne_eq, Bool.decide_and, Bool.not_eq_false, Bool.and_eq_true, decide_eq_true_eq] at hmounted
      exact hmounted.2
    have hstill := hkeeps drive.1 drive.2 barcode (Dict.get?_of_mem lib.nodupDrives hmem) hmount hb
    rw [contents, hdrives, Dict.get?_set, if_pos rfl] at hstill
    cases hstill

/-- Every drive is empty after a reset. -/
theorem contents_reset_drive (lib : MockLibrary) (d : Int) : lib.reset.contents (.drive d) = none := by
  rw [contents, reset, Dict.get?_mapValues]
  cases lib.drives.get? d <;> rfl

/-- Every drive is empty after the slots are seeded. -/
theorem contents_seedSlots_drive (lib : MockLibrary) (upper : String → String) (barcodes : List String) (d : Int) :
    (lib.operate upper (.seedSlots barcodes)).2.contents (.drive d) = none := by
  refine ofExcept_state (P := fun lib' => lib'.contents (.drive d) = none) ?_
  refine seedSlots_keeps (P := fun lib' => lib'.contents (.drive d) = none) (lib.contents_reset_drive d) ?_
  intro lib' slotId text h
  refine update_state (P := fun lib' => lib'.contents (.drive d) = none) h fun lib'' u hok => ?_
  rw [contents, drives_addCartridge hok]
  exact h

/-- Where every drive is emptied and the mounted tapes are kept, there were none. -/
theorem noneMounted_of_emptied {lib lib' : MockLibrary} (h : ∀ d, lib'.contents (.drive d) = none)
    (hkeeps : KeepsMounted lib lib') : (lib.drives.any fun drive => holdsMounted drive.2) = false := by
  rw [List.any_eq_false]
  intro drive hmem hmounted
  simp only [holdsMounted, ne_eq, Bool.decide_and, Bool.and_eq_true, decide_eq_true_eq] at hmounted
  obtain ⟨barcode, hb⟩ := Option.isSome_iff_exists.1 hmounted.1
  have hstill := hkeeps drive.1 drive.2 barcode (Dict.get?_of_mem lib.nodupDrives hmem) hmounted.2 hb
  rw [h] at hstill
  cases hstill

/-- Where no mounted tape is taken, and no mount state changed, the mounted drives are as they were. -/
theorem staysMounted_operate {upper : String → String} {lib : MockLibrary} {op : LibraryOperation}
    (htakes : lib.takesMounted op = false) (hset : ∀ faults d mountState, op ≠ .call faults (.setDriveMountState d mountState)) :
    StaysMounted lib (lib.operate upper op).2 := by
  have hemptied : ∀ lib' : MockLibrary, (lib.drives.any fun drive => holdsMounted drive.2) = false → StaysMounted lib lib' := by
    intro lib' hnone d drive hget hmounted
    exact absurd hmounted (List.any_eq_false.1 hnone _ (Dict.mem_of_get? hget))
  cases op with
  | call faults call =>
    cases call with
    | addCartridge slotId text => exact update_keeps _ (.refl lib) fun _ _ hok => .of_drives (drives_addCartridge hok)
    | removeCartridge slotId => exact update_keeps _ (.refl lib) fun _ _ hok => .of_drives (drives_removeCartridge hok)
    | load sourceSlot driveId => exact update_keeps _ (.refl lib) fun _ _ hok => staysMounted_load hok
    | unload driveId targetSlot => exact update_keeps _ (.refl lib) fun _ _ hok => staysMounted_unload hok
    | move sourceSlot targetSlot =>
      simp only [operate, call, move]
      split
      · exact .refl lib
      · split
        · exact .refl lib
        · exact update_keeps _ (.refl lib) fun _ _ hok => .of_drives (drives_move hok)
    | setDriveMountState driveId mountState => exact absurd rfl (hset faults driveId mountState)
    | importCartridge ieSlot targetSlot =>
      exact update_keeps _ (.refl lib) fun _ _ hok => .of_drives (drives_importCartridge hok)
    | exportCartridgeToIe sourceSlot ieSlot =>
      exact update_keeps _ (.refl lib) fun _ _ hok => .of_drives (drives_exportCartridgeToIe hok)
    | exportCartridge barcode => exact staysMounted_exportCartridge htakes
  | reset => exact hemptied _ htakes
  | seedSlots barcodes => exact hemptied _ htakes
  | seedImportExportSlots slots =>
    exact update_keeps _ (.refl lib) fun _ _ hok => .of_drives (drives_seedImportExportSlots hok)

/-- Which operations keep the mounted tapes, from any state. -/
theorem keepsMounted_iff (upper : String → String) (lib : MockLibrary) (op : LibraryOperation) :
    KeepsMounted lib (lib.operate upper op).2 ↔ lib.takesMounted op = false := by
  constructor
  · intro hkeeps
    cases op with
    | call faults call =>
      cases call with
      | exportCartridge barcode => exact (lib.keepsMounted_exportCartridge barcode).1 hkeeps
      | _ => rfl
    | reset => exact noneMounted_of_emptied lib.contents_reset_drive hkeeps
    | seedSlots barcodes => exact noneMounted_of_emptied (contents_seedSlots_drive lib upper barcodes) hkeeps
    | seedImportExportSlots slots => rfl
  · intro htakes
    by_cases hset : ∃ faults d mountState, op = .call faults (.setDriveMountState d mountState)
    · obtain ⟨faults, d, mountState, rfl⟩ := hset
      have hrefl : KeepsMounted lib lib := (StaysMounted.refl lib).keeps
      exact update_keeps _ hrefl fun _ _ hok => keepsMounted_setDriveMountState hok
    · exact (staysMounted_operate htakes fun faults d mountState he => hset ⟨faults, d, mountState, he⟩).keeps

end MockLibrary

/-- The simulated library with every operation on it. -/
def simulatedLibrary (upper : String → String) (numSlots numDrives numImportExportSlots : Nat) :
    Automaton LibraryOperation MockLibraryAnswer where
  State := MockLibrary
  init := .new numSlots numDrives numImportExportSlots
  step lib op := lib.operate upper op

/-- From every state that any operations lead to, the next operation leaves the tape of each drive that is mounted or dirty in
its drive exactly when it is no export of such a tape, and no reset of a library with one. -/
theorem mounted_tape_stays_iff (upper : String → String) (numSlots numDrives numImportExportSlots : Nat)
    (operations : List LibraryOperation) (op : LibraryOperation) :
    let lib : MockLibrary := (simulatedLibrary upper numSlots numDrives numImportExportSlots).after
      (.new numSlots numDrives numImportExportSlots) operations
    MockLibrary.KeepsMounted lib (lib.operate upper op).2 ↔ lib.takesMounted op = false :=
  MockLibrary.keepsMounted_iff upper _ op

/-- A tape that is mounted read-write is exported out of its drive. -/
theorem export_takes_mounted_tape :
    let lib : MockLibrary := (simulatedLibrary id 1 1 0).after (.new 1 1 0)
      [.call {} (.addCartridge 1 "TAPE0001"), .call {} (.load 1 0), .call {} (.setDriveMountState 0 .mountedRw)]
    ¬MockLibrary.KeepsMounted lib (lib.operate id (.call {} (.exportCartridge "TAPE0001"))).2 := by
  intro lib hkeeps
  have hget : lib.drives.get? 0 = some { barcode := some "TAPE0001", driveState := .busy, mountState := .mountedRw } := by
    decide +kernel
  have hstill := hkeeps 0 _ "TAPE0001" hget (by decide) rfl
  have hgone : (lib.operate id (.call {} (.exportCartridge "TAPE0001"))).2.contents (.drive 0) = none := by decide +kernel
  rw [hgone] at hstill
  cases hstill

end OpenBlade
