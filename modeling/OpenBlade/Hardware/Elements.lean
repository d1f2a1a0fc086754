import OpenBlade.Frames
import OpenBlade.Storage.Placement

/-!
# Elements

The slots, drives and import/export elements of a library as one store. Whatever moves a cartridge takes it from one element to
another that is free: an operation of the library does nothing, or makes the one transfer its arguments name.
-/

namespace OpenBlade

open Effects Storage

namespace Library

/-- What each element holds. -/
def contents (lib : Library) : Placement Element Barcode
  | .slot id => (lib.slotEntry id).join
  | .ieSlot id => (lib.ieEntry id).join
  | .drive id => lib.holds id

/-- The element exists and holds nothing. -/
def Free (lib : Library) : Element → Prop
  | .slot id => lib.slotEntry id = some none
  | .ieSlot id => lib.ieEntry id = some none
  | .drive id => ∃ drive, lib.drives.get? id = some drive ∧ drive.barcode = none

/-- A cartridge may be taken out of the element: a drive whose tape is mounted or dirty keeps it. -/
def Loose (lib : Library) : Element → Prop
  | .drive id => ∀ drive, lib.drives.get? id = some drive → drive.mountState = .unmounted
  | _ => True

/-- The cartridge of `src` can be taken to `dst`. -/
structure CanTransfer (lib : Library) (src dst : Element) (barcode : Barcode) : Prop where
  source : lib.contents src = some barcode
  loose : lib.Loose src
  free : lib.Free dst

variable {lib lib' : Library} {src dst : Element} {barcode : Barcode}

theorem contents_of_free (h : lib.Free dst) : lib.contents dst = none := by
  cases dst with
  | slot id => exact congrArg Option.join h
  | ieSlot id => exact congrArg Option.join h
  | drive id =>
    obtain ⟨drive, hdrive, hb⟩ := h
    show (lib.drives.get? id).bind Drive.barcode = none
    rw [hdrive, Option.bind_some, hb]

/-! ### Updates -/

theorem contents_setSlot (slotId : Nat) (content : Option Barcode) :
    (lib.setSlot slotId content).contents = Function.update lib.contents (.slot slotId) content := by
  funext e
  rw [Function.update_apply]
  cases e with
  | slot id =>
    simp only [contents, slotEntry, setSlot, Element.slot.injEq, Dict.get?_set]
    by_cases hid : id = (slotId : Int)
    · subst hid
      simp
    · by_cases hpos : 0 ≤ id
      · have hne : slotId ≠ id.toNat := by omega
        simp [hid, hpos, hne]
      · simp [hid, hpos]
  | ieSlot id => rfl
  | drive id => rfl

theorem contents_setDrive (driveId : Int) (drive : Drive) :
    (lib.setDrive driveId drive).contents = Function.update lib.contents (.drive driveId) drive.barcode := by
  funext e
  rw [Function.update_apply]
  cases e with
  | drive id =>
    simp only [contents, holds_setDrive, Element.drive.injEq, eq_comm]
  | _ => rfl

/-- The mount state of a drive is not what it holds. -/
theorem contents_setDriveMountState (driveId : Int) (state : MountState) :
    (lib.setDriveMountState driveId state).contents = lib.contents := by
  unfold setDriveMountState
  cases hdrive : lib.drives.get? driveId with
  | none => rfl
  | some drive =>
    rw [contents_setDrive]
    refine Function.update_eq_self_iff.2 ?_
    show drive.barcode = (lib.drives.get? driveId).bind Drive.barcode
    rw [hdrive, Option.bind_some]

theorem contents_setIeSlot {ieSlot : Int} {entry content : Option Barcode} (h : lib.ieEntry ieSlot = some entry) :
    (lib.setIeSlot ieSlot content).contents = Function.update lib.contents (.ieSlot ieSlot) content := by
  funext e
  rw [Function.update_apply]
  cases e with
  | ieSlot id =>
    have hsome : lib.ieSlots.isSome = true := by
      unfold ieEntry at h
      cases hie : lib.ieSlots with
      | none => simp [hie] at h
      | some ieSlots => rfl
    obtain ⟨ieSlots, hie⟩ := Option.isSome_iff_exists.1 hsome
    simp only [contents, ieEntry, setIeSlot, hie, Option.map_some, Option.getD_some, Dict.get?_set, Element.ieSlot.injEq]
    by_cases hid : id = ieSlot
    · simp [hid]
    · simp [hid, Ne.symm hid]
  | _ => rfl

/-! ### Transfers -/

/-- What an operation that is to take the cartridge of `src` to `dst` does: it raises and changes nothing, or makes the transfer,
and it makes it if it can. -/
structure Transfers (lib : Library) (src dst : Element) (done : Except Exn OperationResult × Library) : Prop where
  cases : (∃ e, done = (.error e, lib)) ∨
    ∃ barcode message lib', done = (.ok { success := true, message := message }, lib') ∧ lib.CanTransfer src dst barcode ∧
      lib'.contents = lib.contents.transfer src dst
  able : ∀ barcode, lib.CanTransfer src dst barcode → ∃ result lib', done = (.ok result, lib')

theorem slotEntry_natCast (slotId : Nat) : lib.slotEntry slotId = lib.slots.get? slotId := by
  unfold slotEntry
  rw [if_pos (Int.natCast_nonneg slotId), Int.toNat_natCast]

theorem contents_slot {id : Int} : lib.contents (.slot id) = some barcode ↔ lib.slotEntry id = some (some barcode) :=
  Option.join_eq_some_iff

theorem contents_ieSlot {id : Int} : lib.contents (.ieSlot id) = some barcode ↔ lib.ieEntry id = some (some barcode) :=
  Option.join_eq_some_iff

theorem contents_drive {id : Int} :
    lib.contents (.drive id) = some barcode ↔ ∃ drive, lib.drives.get? id = some drive ∧ drive.barcode = some barcode :=
  Option.bind_eq_some_iff

theorem load_transfers (slotId : Nat) (driveId : Int) : lib.Transfers (.slot slotId) (.drive driveId) (lib.load slotId driveId) := by
  constructor
  · unfold load
    split
    · exact .inl ⟨_, rfl⟩
    · exact .inl ⟨_, rfl⟩
    · exact .inl ⟨_, rfl⟩
    · rename_i barcode drive hslot hdrive
      cases hb : drive.barcode with
      | some occupant => exact .inl ⟨_, rfl⟩
      | none =>
        have hsource : lib.contents (.slot slotId) = some barcode := contents_slot.2 (by rw [slotEntry_natCast, hslot])
        refine .inr ⟨barcode, _, _, rfl, ⟨hsource, trivial, drive, hdrive, hb⟩, ?_⟩
        rw [contents_setSlot, contents_setDrive, Placement.transfer, Placement.clear, hsource]
        exact Function.update_comm (by simp) _ _ _
  · rintro barcode ⟨hsource, -, drive, hdrive, hb⟩
    rw [contents_slot, slotEntry_natCast] at hsource
    unfold load
    simp only [hsource, hdrive, hb]
    exact ⟨_, _, rfl⟩

theorem unload_transfers (driveId : Int) (slotId : Nat) :
    lib.Transfers (.drive driveId) (.slot slotId) (lib.unload driveId slotId) := by
  constructor
  · unfold unload
    split
    · exact .inl ⟨_, rfl⟩
    · exact .inl ⟨_, rfl⟩
    · rename_i drive slot hdrive hslot
      split
      · exact .inl ⟨_, rfl⟩
      · exact .inl ⟨_, rfl⟩
      · rename_i barcode hb
        split
        · rename_i hmount
          have hsource : lib.contents (.drive driveId) = some barcode := contents_drive.2 ⟨drive, hdrive, hb⟩
          have hfree : lib.Free (.slot slotId) := (slotEntry_natCast slotId).trans hslot
          have hloose : lib.Loose (.drive driveId) := fun drive' hdrive' => Option.some.inj (hdrive.symm.trans hdrive') ▸ hmount
          refine .inr ⟨barcode, _, _, rfl, ⟨hsource, hloose, hfree⟩, ?_⟩
          rw [contents_setSlot, contents_setDrive, Placement.transfer, Placement.clear, hsource]
        · exact .inl ⟨_, rfl⟩
  · rintro barcode ⟨hsource, hloose, hfree⟩
    obtain ⟨drive, hdrive, hb⟩ := contents_drive.1 hsource
    have hslot : lib.slots.get? slotId = some none := (slotEntry_natCast slotId).symm.trans hfree
    unfold unload
    simp only [hdrive, hslot, hb, hloose drive hdrive, if_true]
    exact ⟨_, _, rfl⟩

theorem natCast_toNat_of_slotEntry {id : Int} {entry : Option Barcode} (h : lib.slotEntry id = some entry) : (id.toNat : Int) = id := by
  unfold slotEntry at h
  split at h
  · rename_i hpos
    exact Int.toNat_of_nonneg hpos
  · cases h

theorem move_transfers (sourceSlot targetSlot : Int) :
    lib.Transfers (.slot sourceSlot) (.slot targetSlot) (lib.move sourceSlot targetSlot) := by
  constructor
  · unfold move
    split
    · exact .inl ⟨_, rfl⟩
    · exact .inl ⟨_, rfl⟩
    · exact .inl ⟨_, rfl⟩
    · exact .inl ⟨_, rfl⟩
    · rename_i barcode hslot htarget
      have hsource : lib.contents (.slot sourceSlot) = some barcode := contents_slot.2 hslot
      have hne : Element.slot sourceSlot ≠ .slot targetSlot := by
        intro he
        rw [Element.slot.inj he, htarget] at hslot
        cases hslot
      refine .inr ⟨barcode, _, _, rfl, ⟨hsource, trivial, htarget⟩, ?_⟩
      rw [contents_setSlot, contents_setSlot, natCast_toNat_of_slotEntry hslot, natCast_toNat_of_slotEntry htarget,
        Placement.transfer, Placement.clear, hsource]
      exact Function.update_comm hne.symm _ _ _
  · rintro barcode ⟨hsource, -, hfree⟩
    have hentry : lib.slotEntry targetSlot = some none := hfree
    unfold move
    simp only [contents_slot.1 hsource, hentry]
    exact ⟨_, _, rfl⟩

theorem importCartridge_transfers (ieSlot targetSlot : Int) :
    lib.Transfers (.ieSlot ieSlot) (.slot targetSlot) (lib.importCartridge ieSlot targetSlot) := by
  constructor
  · unfold importCartridge
    split
    · exact .inl ⟨_, rfl⟩
    · exact .inl ⟨_, rfl⟩
    · exact .inl ⟨_, rfl⟩
    · exact .inl ⟨_, rfl⟩
    · rename_i barcode hie htarget
      have hsource : lib.contents (.ieSlot ieSlot) = some barcode := contents_ieSlot.2 hie
      have hentry : (lib.setSlot targetSlot.toNat (some barcode)).ieEntry ieSlot = some (some barcode) := hie
      refine .inr ⟨barcode, _, _, rfl, ⟨hsource, trivial, htarget⟩, ?_⟩
      rw [contents_setIeSlot hentry, contents_setSlot, natCast_toNat_of_slotEntry htarget, Placement.transfer, Placement.clear,
        hsource]
      exact Function.update_comm (by simp) _ _ _
  · rintro barcode ⟨hsource, -, hfree⟩
    have hentry : lib.slotEntry targetSlot = some none := hfree
    unfold importCartridge
    simp only [contents_ieSlot.1 hsource, hentry]
    exact ⟨_, _, rfl⟩

theorem exportCartridgeToIe_transfers (sourceSlot ieSlot : Int) :
    lib.Transfers (.slot sourceSlot) (.ieSlot ieSlot) (lib.exportCartridgeToIe sourceSlot ieSlot) := by
  constructor
  · unfold exportCartridgeToIe
    split
    · exact .inl ⟨_, rfl⟩
    · exact .inl ⟨_, rfl⟩
    · exact .inl ⟨_, rfl⟩
    · exact .inl ⟨_, rfl⟩
    · rename_i barcode hslot hie
      have hsource : lib.contents (.slot sourceSlot) = some barcode := contents_slot.2 hslot
      refine .inr ⟨barcode, _, _, rfl, ⟨hsource, trivial, hie⟩, ?_⟩
      rw [contents_setSlot, contents_setIeSlot hie, natCast_toNat_of_slotEntry hslot, Placement.transfer, Placement.clear, hsource]
      exact Function.update_comm (by simp) _ _ _
  · rintro barcode ⟨hsource, -, hfree⟩
    have hentry : lib.ieEntry ieSlot = some none := hfree
    unfold exportCartridgeToIe
    simp only [contents_slot.1 hsource, hentry]
    exact ⟨_, _, rfl⟩

end Library

/-! ### Calls that move cartridges -/

/-- The elements a call takes a cartridge from and to. -/
def LibraryOp.route : LibraryOp → Option (Element × Element)
  | .load sourceSlot driveId => some (.slot sourceSlot, .drive driveId)
  | .unload driveId targetSlot => some (.drive driveId, .slot targetSlot)
  | .move sourceSlot targetSlot => some (.slot sourceSlot, .slot targetSlot)
  | .importCartridge ieSlot targetSlot => some (.ieSlot ieSlot, .slot targetSlot)
  | .exportCartridgeToIe sourceSlot ieSlot => some (.slot sourceSlot, .ieSlot ieSlot)
  | _ => none

/-- The library says that it has moved a cartridge. -/
def LibraryOp.saysMoved : (o : LibraryOp) → Except Exn o.Ans → Bool
  | .load _ _ | .unload _ _ | .move _ _ | .importCartridge _ _ | .exportCartridgeToIe _ _ => succeeded
  | _ => fun _ => false

namespace World

variable (sha256 : Bytes → String) {w : World} {c : Choice} {src dst : Element}

/-- Nothing was moved, or the cartridge of `src` was taken to `dst`. -/
def Took (lib lib' : Library) (src dst : Element) (said : Bool) : Prop :=
  (lib'.contents = lib.contents ∧ said = false) ∨
    ∃ barcode, lib.CanTransfer src dst barcode ∧ lib'.contents = lib.contents.transfer src dst

theorem took_refused {lib : Library} {done : Except Exn OperationResult × Library} (h : lib.Transfers src dst done) (message : String) :
    Took lib (refused c message lib done).2 src dst (succeeded (refused c message lib done).1) := by
  unfold refused
  rcases h.cases with ⟨e, rfl⟩ | ⟨barcode, _, lib', rfl, hcan, htransfer⟩
  · by_cases hr : c.refuses = true
    · exact .inl (by simp [hr, succeeded])
    · exact .inl (by simp [hr, succeeded])
  · by_cases hr : c.refuses = true
    · by_cases ht : c.takesEffect = true
      · exact .inr ⟨barcode, hcan, by simp [hr, ht, htransfer]⟩
      · exact .inl (by simp [hr, ht, succeeded])
    · exact .inr ⟨barcode, hcan, by simp [hr, htransfer]⟩

/-- A call that moves cartridges moves nothing, and does not say that it did, or makes the one transfer of its arguments. -/
theorem exec_route {o : LibraryOp} (h : o.route = some (src, dst)) :
    Took w.library (w.exec sha256 (.library o) c).2.library src dst (o.saysMoved (w.exec sha256 (.library o) c).1) := by
  have hattempt : Took w.library ((w.elapse c).attempt sha256 c (.library o)).2.library src dst
      (o.saysMoved ((w.elapse c).attempt sha256 c (.library o)).1) := by
    cases o with
    | load sourceSlot driveId =>
      obtain ⟨rfl, rfl⟩ := Prod.mk.inj (Option.some.inj h)
      exact took_refused (Library.load_transfers sourceSlot driveId) _
    | unload driveId targetSlot =>
      obtain ⟨rfl, rfl⟩ := Prod.mk.inj (Option.some.inj h)
      exact took_refused (Library.unload_transfers driveId targetSlot) _
    | move sourceSlot targetSlot =>
      obtain ⟨rfl, rfl⟩ := Prod.mk.inj (Option.some.inj h)
      exact took_refused (Library.move_transfers sourceSlot targetSlot) _
    | importCartridge ieSlot targetSlot =>
      obtain ⟨rfl, rfl⟩ := Prod.mk.inj (Option.some.inj h)
      exact took_refused (Library.importCartridge_transfers ieSlot targetSlot) _
    | exportCartridgeToIe sourceSlot ieSlot =>
      obtain ⟨rfl, rfl⟩ := Prod.mk.inj (Option.some.inj h)
      exact took_refused (Library.exportCartridgeToIe_transfers sourceSlot ieSlot) _
    | _ => cases h
  have hsilent : ∀ e, o.saysMoved (.error e) = false := fun e => by cases o <;> rfl
  rcases exec_cases sha256 (w := w) (c := c) (.library o) with ⟨e, he⟩ | ⟨e, he⟩ | he <;> rw [he]
  · exact .inl ⟨rfl, hsilent e⟩
  · rcases hattempt with ⟨hsame, -⟩ | hmoved
    · exact .inl ⟨hsame, hsilent e⟩
    · exact .inr hmoved
  · exact hattempt

/-- What LTFS does leaves every cartridge where it is. -/
theorem execLtfs_contents (o : LtfsOp) : (w.execLtfs sha256 c o).2.2.1.contents = w.library.contents := by
  cases o with
  | ensureTape barcode => rfl
  | mount barcode mode =>
    simp only [execLtfs, Ltfs.mount]
    split
    · rfl
    · split
      · rfl
      · simp only
        split
        · exact Library.contents_setDriveMountState _ _
        · rfl
  | unmount handle =>
    refine refused_post (fun x : Ltfs × Library => x.2.contents = w.library.contents) rfl ?_
    unfold Ltfs.unmount
    split
    · exact Library.contents_setDriveMountState _ _
    · rfl
  | writeFile handle content path => rfl
  | stat handle path => rfl
  | readBytes barcode path => rfl
  | readFile handle path dest =>
    simp only [execLtfs]
    split <;> rfl
  | format barcode confirmation =>
    simp only [execLtfs]
    split
    · rfl
    · refine refused_post (fun x : Ltfs × Library => x.2.contents = w.library.contents) rfl ?_
      unfold Ltfs.format
      simp only
      split
      · rfl
      · exact Library.contents_setDriveMountState _ _

/-- Other calls leave every cartridge where it is. -/
theorem exec_contents {o : Op} (h : ∀ o', o = .library o' → o'.route = none) :
    (w.exec sha256 o c).2.library.contents = w.library.contents := by
  refine exec_post sha256 (fun w' => w'.library.contents = w.library.contents) rfl ?_
  cases o with
  | catalog o => rfl
  | lease o => rfl
  | library o =>
    cases o with
    | load sourceSlot driveId => cases h _ rfl
    | unload driveId targetSlot => cases h _ rfl
    | move sourceSlot targetSlot => cases h _ rfl
    | importCartridge ieSlot targetSlot => cases h _ rfl
    | exportCartridgeToIe sourceSlot ieSlot => cases h _ rfl
    | _ => rfl
  | ltfs o => exact execLtfs_contents sha256 o
  | host o =>
    obtain ⟨host, draws, hh⟩ := attempt_host sha256 (w := w.elapse c) (c := c) o
    rw [hh]
    rfl

end World

end OpenBlade
