import OpenBlade.Aml.MoveMedium
import OpenBlade.Effects.Traverse

/-!
# A request moves what it names

The element types are free text, and the handler drops them once it has chosen between `load`, `unload` and `move`: a coordinate
that is no drive counts as a slot, and a drive that is loaded into a drive counts as one too. A request that the library carries
out moves the cartridge it names exactly when its types are those of the operation chosen, and the library keeps its own records
in order.
-/

namespace OpenBlade

open Effects Storage

/-! ### What a request names -/

/-- The element a coordinate names: an element of any other type than these two is none. -/
def Coordinate.element (coordinate : Coordinate) : Option Element :=
  if coordinate.1 = "slot" then some (.slot coordinate.2)
  else if coordinate.1 = "drive" then some (.drive coordinate.2)
  else none

/-- The element that a coordinate of the payload names. -/
def namedElement (py : Builtins) (value : Option WireValue) : Option Element :=
  match parseCoordinate py value with
  | .ok (some coordinate) => coordinate.element
  | _ => none

/-- The payload gives a destination, whether it can be read or not. -/
def givesDestination (payload : Dict String WireValue) : Bool :=
  (WireValue.get (moveData payload) "destinationCoordinate").isSome

/-- `dst` is the destination the payload gives; if it gives none, a storage slot that is empty. -/
def NamesDestination (py : Builtins) (payload : Dict String WireValue) (lib : MockLibrary) (dst : Element) : Prop :=
  if givesDestination payload then namedElement py ((moveData payload).get? "destinationCoordinate") = some dst
  else ∃ slot, dst = .slot slot ∧ lib.slots.get? slot = some none

/-- The cartridge of the source that the payload names is in the destination it names, and no other cartridge changed place. -/
def MovedAsNamed (py : Builtins) (payload : Dict String WireValue) (lib lib' : MockLibrary) : Prop :=
  ∃ src dst barcode, namedElement py ((moveData payload).get? "sourceCoordinate") = some src ∧
    NamesDestination py payload lib dst ∧ lib.contents src = some barcode ∧ lib'.contents dst = some barcode ∧
    ∀ b, lib.contents.Moved lib'.contents b ↔ b = barcode

/-- A request that succeeds moved what it names, and one that fails moved nothing. -/
def MovesOnlyNamed (py : Builtins) (payload : Dict String WireValue) (lib : MockLibrary)
    (outcome : Except RequestFailure String × MockLibrary) : Prop :=
  match outcome with
  | (.ok _, lib') => MovedAsNamed py payload lib lib'
  | (.error _, lib') => lib'.contents = lib.contents

/-- The types of the request are those of an operation of the library: from a slot to a slot or a drive, or from a drive to a
slot; from a drive, the payload may give no destination. -/
def MoveRequest.WellTyped (request : MoveRequest) (payload : Dict String WireValue) : Prop :=
  match request.destination with
  | some destination =>
    (request.source.1 = "slot" ∧ (destination.1 = "slot" ∨ destination.1 = "drive")) ∨
      (request.source.1 = "drive" ∧ destination.1 = "slot")
  | none => request.source.1 = "drive" ∧ givesDestination payload = false

/-! ### What the library accepts -/

namespace Robotics

/-- The element a cartridge is taken from. -/
def source : Robotics → Element
  | load sourceSlot _ => .slot sourceSlot
  | unload driveId _ => .drive driveId
  | move sourceSlot _ => .slot sourceSlot

/-- The element it is put into. -/
def target : Robotics → Element
  | load _ driveId => .drive driveId
  | unload _ targetSlot => .slot targetSlot
  | move _ targetSlot => .slot targetSlot

end Robotics

/-- None of the faults is enabled. -/
def Faults.Spare (faults : Faults) (types : List FaultType) : Prop := ∀ fault ∈ types, fault ∉ faults.config

namespace MockLibrary

/-- The checks that the library makes before a move pass. -/
def Accepts (lib : MockLibrary) (faults : Faults) : Robotics → Prop
  | .load sourceSlot driveId =>
    faults.injected = none ∧ faults.Spare [.robotLockConflict, .loadFailure, .changerTimeout, .driveTimeout] ∧
      ∃ barcode drive, lib.slots.get? sourceSlot = some (some barcode) ∧ lib.drives.get? driveId = some drive ∧
        drive.barcode = none ∧ validateCartridgeTransition (lib.stateOr barcode .inSlot) .inDrive = .ok () ∧
        validateDriveTransition drive.driveState .loaded = .ok ()
  | .unload driveId targetSlot =>
    faults.injected = none ∧ faults.Spare [.robotLockConflict, .unloadFailure, .changerTimeout, .driveTimeout] ∧
      ∃ barcode drive, lib.drives.get? driveId = some drive ∧ drive.barcode = some barcode ∧
        lib.slots.get? targetSlot = some none ∧ canUnloadDrive drive.driveState drive.mountState = true ∧
        validateCartridgeTransition (lib.stateOr barcode .inDrive) .inSlot = .ok () ∧
        validateDriveTransition drive.driveState .empty = .ok ()
  | .move sourceSlot targetSlot =>
    faults.Spare [.robotLockConflict, .moveFailure, .changerTimeout] ∧
      ∃ barcode, lib.slots.get? sourceSlot = some (some barcode) ∧ lib.slots.get? targetSlot = some none ∧
        validateCartridgeTransition (lib.stateOr barcode .inSlot) .inSlot = .ok ()

/-- The cartridge is recorded as one that is in the library. -/
def isPresent (state : CartridgeState) : Bool := state = .inSlot ∨ state = .inDrive ∨ state = .cleaning

/-- No cartridge is in two elements, and each record but that of `apart` says whether its cartridge is in the library. -/
structure InOrder (lib : MockLibrary) (apart : Option Barcode) : Prop where
  exclusive : lib.contents.Exclusive
  recorded : ∀ barcode state, lib.cartridgeStates.get? barcode = some state → apart ≠ some barcode →
    (isPresent state = true ↔ barcode ∈ lib.contents.held)

/-- The records are in order for a move: an unload writes the record of its cartridge anew. -/
def InOrderFor (lib : MockLibrary) : Robotics → Prop
  | .unload driveId _ => lib.InOrder (lib.contents (.drive driveId))
  | _ => lib.InOrder none

/-- A record says whether its cartridge is in the library exactly when the check of the library finds nothing wrong with it. -/
theorem stateError_iff {lib : MockLibrary} (h : lib.contents.Exclusive) (barcode : Barcode) (state : CartridgeState) :
    lib.stateError barcode state = none ↔ (isPresent state = true ↔ barcode ∈ lib.contents.held) := by
  by_cases hheld : barcode ∈ lib.contents.held
  · have hcount : lib.locationCount barcode = 1 := hheld.elim fun _ he => count_of_contents h he
    cases state <;> simp [stateError, isPresent, hcount, hheld]
  · have hcount : lib.locationCount barcode = 0 := count_of_not_held hheld
    cases state <;> simp [stateError, isPresent, hcount, hheld]

/-- The check of the library passes exactly when everything is in order. -/
theorem validate_iff (lib : MockLibrary) : lib.validateInvariants = .ok () ↔ lib.InOrder none := by
  constructor
  · intro h
    obtain ⟨hexclusive, hstates⟩ := of_validate h
    exact ⟨hexclusive, fun barcode state hget _ => (stateError_iff hexclusive barcode state).1 (hstates barcode state hget)⟩
  · intro h
    have hfind : lib.occupied.find? (fun entry => lib.locationCount entry.2 ≠ 1) = none := by
      refine List.find?_eq_none.2 fun entry hentry => ?_
      simp [count_of_contents h.exclusive (mem_occupied.1 hentry)]
    have hstates : lib.cartridgeStates.findSome? (fun entry => lib.stateError entry.1 entry.2) = none := by
      refine List.findSome?_eq_none_iff.2 fun entry hentry => ?_
      have hget := Dict.get?_of_mem lib.nodupStates hentry
      exact (stateError_iff h.exclusive entry.1 entry.2).2 (h.recorded _ _ hget nofun)
    unfold validateInvariants
    rw [hfind, hstates]

/-! ### What a move does -/

theorem item_ok_iff {α : Type} {d : Dict Int α} {key : Int} {a : α} : item d key = .ok a ↔ d.get? key = some a := by
  refine ⟨item_ok, fun h => ?_⟩
  unfold item
  rw [h]

theorem cartridgeIn_ok_iff {content : Option Barcode} {name : String} {barcode : Barcode} :
    cartridgeIn content name = .ok barcode ↔ content = some barcode := by
  refine ⟨cartridgeIn_ok, fun h => ?_⟩
  rw [h]
  rfl

theorem maybeRaiseInjectedFault_ok_iff {faults : Faults} {u : Unit} :
    maybeRaiseInjectedFault faults = .ok u ↔ faults.injected = none := by
  unfold maybeRaiseInjectedFault
  cases faults.injected <;> simp

theorem enterChanger_ok_iff {faults : Faults} {u : Unit} :
    enterChanger faults = .ok u ↔ .robotLockConflict ∉ faults.config := by
  unfold enterChanger
  split <;> simp_all

theorem maybeFail_ok_iff {faults : Faults} {types : List FaultType} {u : Unit} :
    maybeFail faults types = .ok u ↔ faults.Spare types := by
  unfold maybeFail Faults.Spare
  split <;> simp_all

theorem spare_cons {faults : Faults} {fault : FaultType} {types : List FaultType} :
    faults.Spare (fault :: types) ↔ fault ∉ faults.config ∧ faults.Spare types := List.forall_mem_cons

/-- The library after a load that passed its checks. -/
def loaded (lib : MockLibrary) (sourceSlot driveId : Int) (barcode : Barcode) : MockLibrary :=
  ((lib.setSlot sourceSlot none).setDrive driveId
    { barcode := some barcode, driveState := .loaded, mountState := .unmounted }).setState barcode .inDrive

/-- The library after an unload that passed its checks. -/
def unloaded (lib : MockLibrary) (driveId targetSlot : Int) (barcode : Barcode) : MockLibrary :=
  ((lib.setDrive driveId { barcode := none, driveState := .empty, mountState := .unmounted }).setSlot targetSlot
    (some barcode)).setState barcode .inSlot

/-- The library after a move that passed its checks. -/
def moved (lib : MockLibrary) (sourceSlot targetSlot : Int) (barcode : Barcode) : MockLibrary :=
  (lib.setSlot targetSlot (some barcode)).setSlot sourceSlot none

variable {lib lib' : MockLibrary} {faults : Faults} {result : OperationResult} {barcode : Barcode}

theorem loadUpdate_ok {sourceSlot driveId : Int} (h : lib.loadUpdate faults sourceSlot driveId = .ok (lib', result)) :
    lib.Accepts faults (.load sourceSlot driveId) := by
  obtain ⟨_, hinjected, h⟩ := bind_ok h
  obtain ⟨_, hchanger, h⟩ := bind_ok h
  obtain ⟨_, hfaults, h⟩ := bind_ok h
  obtain ⟨slot, hslot, h⟩ := bind_ok h
  obtain ⟨drive, hdrive, h⟩ := bind_ok h
  obtain ⟨barcode, hb, h⟩ := bind_ok h
  split at h
  · cases h
  · rename_i hempty
    obtain ⟨_, hcartridge, h⟩ := bind_ok h
    obtain ⟨_, hstate, h⟩ := bind_ok h
    refine ⟨maybeRaiseInjectedFault_ok_iff.1 hinjected, ?_, barcode, drive, ?_, item_ok hdrive, hempty, hcartridge, hstate⟩
    · exact spare_cons.2 ⟨enterChanger_ok_iff.1 hchanger, maybeFail_ok_iff.1 hfaults⟩
    · rw [item_ok hslot, cartridgeIn_ok hb]

theorem unloadUpdate_ok {driveId targetSlot : Int} (h : lib.unloadUpdate faults driveId targetSlot = .ok (lib', result)) :
    lib.Accepts faults (.unload driveId targetSlot) := by
  obtain ⟨_, hinjected, h⟩ := bind_ok h
  obtain ⟨_, hchanger, h⟩ := bind_ok h
  obtain ⟨_, hfaults, h⟩ := bind_ok h
  obtain ⟨drive, hdrive, h⟩ := bind_ok h
  obtain ⟨slot, hslot, h⟩ := bind_ok h
  obtain ⟨barcode, hb, h⟩ := bind_ok h
  obtain ⟨_, hfree, h⟩ := bind_ok h
  split at h
  · rename_i hunloadable
    obtain ⟨_, hcartridge, h⟩ := bind_ok h
    obtain ⟨_, hstate, h⟩ := bind_ok h
    refine ⟨maybeRaiseInjectedFault_ok_iff.1 hinjected, ?_, barcode, drive, item_ok hdrive, cartridgeIn_ok hb, ?_,
      hunloadable, hcartridge, hstate⟩
    · exact spare_cons.2 ⟨enterChanger_ok_iff.1 hchanger, maybeFail_ok_iff.1 hfaults⟩
    · rw [item_ok hslot, requireFree_ok hfree]
  · cases h

/-- A load makes its update exactly when its checks pass. -/
theorem loadUpdate_of_accepts {sourceSlot driveId : Int} (h : lib.Accepts faults (.load sourceSlot driveId)) :
    ∃ barcode, lib.contents (.slot sourceSlot) = some barcode ∧
      validateCartridgeTransition (lib.stateOr barcode .inSlot) .inDrive = .ok () ∧
      lib.loadUpdate faults sourceSlot driveId =
        .ok (lib.loaded sourceSlot driveId barcode, { success := true, message := "loaded" }) := by
  obtain ⟨hinjected, hspare, barcode, drive, hslot, hdrive, hempty, hcartridge, hstate⟩ := h
  obtain ⟨hchanger, hspare⟩ := spare_cons.1 hspare
  refine ⟨barcode, contents_slot hslot, hcartridge, bind_eq_ok.2 ⟨(), maybeRaiseInjectedFault_ok_iff.2 hinjected, ?_⟩⟩
  refine bind_eq_ok.2 ⟨(), enterChanger_ok_iff.2 hchanger, bind_eq_ok.2 ⟨(), maybeFail_ok_iff.2 hspare, ?_⟩⟩
  refine bind_eq_ok.2 ⟨_, item_ok_iff.2 hslot, bind_eq_ok.2 ⟨_, item_ok_iff.2 hdrive, bind_eq_ok.2 ⟨_, rfl, ?_⟩⟩⟩
  rw [hempty]
  exact bind_eq_ok.2 ⟨(), hcartridge, bind_eq_ok.2 ⟨(), hstate, rfl⟩⟩

theorem unloadUpdate_of_accepts {driveId targetSlot : Int} (h : lib.Accepts faults (.unload driveId targetSlot)) :
    ∃ barcode, lib.contents (.drive driveId) = some barcode ∧ lib.contents (.slot targetSlot) = none ∧
      lib.unloadUpdate faults driveId targetSlot =
        .ok (lib.unloaded driveId targetSlot barcode, { success := true, message := "unloaded" }) := by
  obtain ⟨hinjected, hspare, barcode, drive, hdrive, hb, hslot, hunloadable, hcartridge, hstate⟩ := h
  obtain ⟨hchanger, hspare⟩ := spare_cons.1 hspare
  refine ⟨barcode, (contents_drive hdrive).trans hb, contents_slot hslot, ?_⟩
  refine bind_eq_ok.2 ⟨(), maybeRaiseInjectedFault_ok_iff.2 hinjected, bind_eq_ok.2 ⟨(), enterChanger_ok_iff.2 hchanger, ?_⟩⟩
  refine bind_eq_ok.2 ⟨(), maybeFail_ok_iff.2 hspare, bind_eq_ok.2 ⟨_, item_ok_iff.2 hdrive, ?_⟩⟩
  refine bind_eq_ok.2 ⟨_, item_ok_iff.2 hslot, bind_eq_ok.2 ⟨barcode, cartridgeIn_ok_iff.2 hb, ?_⟩⟩
  refine bind_eq_ok.2 ⟨(), rfl, ?_⟩
  rw [if_pos hunloadable]
  exact bind_eq_ok.2 ⟨(), hcartridge, bind_eq_ok.2 ⟨(), hstate, rfl⟩⟩

/-- A move answers with a failure, raises, or makes its update. -/
theorem move_eq {sourceSlot targetSlot : Int} (h : faults.Spare [.robotLockConflict, .moveFailure]) :
    lib.move faults sourceSlot targetSlot = lib.update (lib.moveUpdate faults sourceSlot targetSlot) := by
  obtain ⟨hchanger, hmove⟩ := spare_cons.1 h
  obtain ⟨hmove, -⟩ := spare_cons.1 hmove
  have henter : enterChanger faults = .ok () := enterChanger_ok_iff.2 hchanger
  unfold move
  rw [henter]
  exact if_neg hmove

theorem moveUpdate_ok {sourceSlot targetSlot : Int} (hspare : faults.Spare [.robotLockConflict, .moveFailure])
    (h : lib.moveUpdate faults sourceSlot targetSlot = .ok (lib', result)) :
    lib.Accepts faults (.move sourceSlot targetSlot) := by
  obtain ⟨_, hfaults, h⟩ := bind_ok h
  obtain ⟨source, hsource, h⟩ := bind_ok h
  obtain ⟨target, htarget, h⟩ := bind_ok h
  obtain ⟨barcode, hb, h⟩ := bind_ok h
  obtain ⟨_, hfree, h⟩ := bind_ok h
  obtain ⟨_, hcartridge, h⟩ := bind_ok h
  obtain ⟨hchanger, hmove⟩ := spare_cons.1 hspare
  obtain ⟨hmove, -⟩ := spare_cons.1 hmove
  refine ⟨?_, barcode, ?_, ?_, hcartridge⟩
  · exact spare_cons.2 ⟨hchanger, spare_cons.2 ⟨hmove, maybeFail_ok_iff.1 hfaults⟩⟩
  · rw [item_ok hsource, cartridgeIn_ok hb]
  · rw [item_ok htarget, requireFree_ok hfree]

theorem moveUpdate_of_accepts {sourceSlot targetSlot : Int} (h : lib.Accepts faults (.move sourceSlot targetSlot)) :
    ∃ barcode, lib.contents (.slot sourceSlot) = some barcode ∧ lib.contents (.slot targetSlot) = none ∧
      lib.moveUpdate faults sourceSlot targetSlot =
        .ok (lib.moved sourceSlot targetSlot barcode, { success := true, message := "moved" }) := by
  obtain ⟨hspare, barcode, hsource, htarget, hcartridge⟩ := h
  obtain ⟨-, hspare⟩ := spare_cons.1 hspare
  obtain ⟨-, hspare⟩ := spare_cons.1 hspare
  refine ⟨barcode, contents_slot hsource, contents_slot htarget, bind_eq_ok.2 ⟨(), maybeFail_ok_iff.2 hspare, ?_⟩⟩
  refine bind_eq_ok.2 ⟨_, item_ok_iff.2 hsource, bind_eq_ok.2 ⟨_, item_ok_iff.2 htarget, ?_⟩⟩
  exact bind_eq_ok.2 ⟨barcode, rfl, bind_eq_ok.2 ⟨(), rfl, bind_eq_ok.2 ⟨(), hcartridge, rfl⟩⟩⟩

/-! ### Where the cartridges are after it -/

theorem transferred_loaded {sourceSlot driveId : Int} (hsource : lib.contents (.slot sourceSlot) = some barcode)
    (hfree : lib.contents (.drive driveId) = none) :
    Transferred lib (lib.loaded sourceSlot driveId barcode) (.slot sourceSlot) (.drive driveId) := by
  refine ⟨⟨barcode, hsource⟩, hfree, ?_⟩
  unfold loaded
  rw [contents_setState, contents_setDrive, contents_setSlot, Placement.transfer, hsource]
  rfl

theorem transferred_unloaded {driveId targetSlot : Int} (hsource : lib.contents (.drive driveId) = some barcode)
    (hfree : lib.contents (.slot targetSlot) = none) :
    Transferred lib (lib.unloaded driveId targetSlot barcode) (.drive driveId) (.slot targetSlot) := by
  refine ⟨⟨barcode, hsource⟩, hfree, ?_⟩
  unfold unloaded
  rw [contents_setState, contents_setSlot, contents_setDrive, Placement.transfer, hsource]
  rfl

theorem transferred_moved {sourceSlot targetSlot : Int} (hsource : lib.contents (.slot sourceSlot) = some barcode)
    (hfree : lib.contents (.slot targetSlot) = none) :
    Transferred lib (lib.moved sourceSlot targetSlot barcode) (.slot sourceSlot) (.slot targetSlot) := by
  have hne : (Element.slot targetSlot) ≠ .slot sourceSlot := by
    intro he
    rw [he, hsource] at hfree
    cases hfree
  refine ⟨⟨barcode, hsource⟩, hfree, ?_⟩
  unfold moved
  rw [contents_setSlot, contents_setSlot, Function.update_comm hne, Placement.transfer, hsource]
  rfl

/-- Taking a cartridge to a free element puts none into two elements, and takes none out of two. -/
theorem exclusive_transfer_iff {src dst : Element} (h : Transferred lib lib' src dst) :
    lib'.contents.Exclusive ↔ lib.contents.Exclusive := by
  obtain ⟨⟨barcode, hsource⟩, hfree, hcontents⟩ := h
  constructor
  · intro hexclusive
    have hback : lib.contents = lib'.contents.transfer dst src := by
      funext e
      rw [Placement.transfer_apply, hcontents, Placement.transfer_apply, Placement.transfer_apply, if_pos rfl]
      by_cases hsrc : e = src
      · rw [if_pos hsrc, hsrc]
      · by_cases hdst : e = dst
        · rw [if_neg hsrc, if_pos hdst, hdst, hfree]
        · rw [if_neg hsrc, if_neg hdst, if_neg hdst, if_neg hsrc]
    rw [hback]
    exact hexclusive.transfer
  · intro hexclusive
    rw [hcontents]
    exact hexclusive.transfer

/-- The records after a cartridge was taken somewhere and its record written. -/
theorem inOrder_of_recorded {src dst : Element} {state : CartridgeState} (ht : Transferred lib lib' src dst)
    (hsource : lib.contents src = some barcode) (hpresent : isPresent state = true)
    (hstates : ∀ b, lib'.cartridgeStates.get? b = if barcode = b then some state else lib.cartridgeStates.get? b) :
    lib'.InOrder none ↔ lib.InOrder (some barcode) := by
  have hheld : lib'.contents.held = lib.contents.held := by rw [ht.contents, Placement.held_transfer ht.free]
  constructor
  · rintro ⟨hexclusive, hrecorded⟩
    refine ⟨(exclusive_transfer_iff ht).1 hexclusive, fun b st hget hne => ?_⟩
    have hother : barcode ≠ b := fun hb => hne (congrArg some hb)
    rw [← hheld]
    exact hrecorded b st ((hstates b).trans ((if_neg hother).trans hget)) nofun
  · rintro ⟨hexclusive, hrecorded⟩
    refine ⟨(exclusive_transfer_iff ht).2 hexclusive, fun b st hget _ => ?_⟩
    rw [hheld]
    rw [hstates] at hget
    split at hget
    · rename_i hb
      rw [← Option.some.inj hget]
      exact ⟨fun _ => ⟨src, hb ▸ hsource⟩, fun _ => hpresent⟩
    · rename_i hb
      exact hrecorded b st hget fun hsome => hb (Option.some.inj hsome)

/-- The record of a cartridge that is in the library, and recorded so or not at all, is in order. -/
theorem inOrder_apart {src : Element} (hsource : lib.contents src = some barcode)
    (hpresent : ∀ state, lib.cartridgeStates.get? barcode = some state → isPresent state = true) :
    lib.InOrder (some barcode) ↔ lib.InOrder none := by
  constructor
  · rintro ⟨hexclusive, hrecorded⟩
    refine ⟨hexclusive, fun b st hget _ => ?_⟩
    by_cases hb : barcode = b
    · subst hb
      exact ⟨fun _ => ⟨src, hsource⟩, fun _ => hpresent st hget⟩
    · exact hrecorded b st hget fun hsome => hb (Option.some.inj hsome)
  · rintro ⟨hexclusive, hrecorded⟩
    exact ⟨hexclusive, fun b st hget _ => hrecorded b st hget nofun⟩

/-- Only a cartridge that is recorded as present is loaded. -/
theorem isPresent_of_loadable {state : CartridgeState} (h : validateCartridgeTransition state .inDrive = .ok ()) :
    isPresent state = true := by
  cases state with
  | inSlot => rfl
  | inDrive => rfl
  | cleaning => rfl
  | exported => cases h
  | missing => cases h

/-- A move that the library accepts: its update, and whether the library passes its check after it. -/
theorem perform_of_accepts {robotics : Robotics} (h : lib.Accepts faults robotics) :
    ∃ lib' result, lib.perform faults robotics = lib.update (.ok (lib', result)) ∧ result.success = true ∧
      Transferred lib lib' robotics.source robotics.target ∧ (lib'.InOrder none ↔ lib.InOrderFor robotics) := by
  cases robotics with
  | load sourceSlot driveId =>
    have hfree : lib.contents (.drive driveId) = none := by
      obtain ⟨-, -, _, drive, -, hdrive, hempty, -⟩ := h
      exact (contents_drive hdrive).trans hempty
    obtain ⟨barcode, hsource, hcartridge, hupdate⟩ := loadUpdate_of_accepts h
    have ht := transferred_loaded hsource hfree
    refine ⟨_, _, congrArg lib.update hupdate, rfl, ht, ?_⟩
    rw [inOrder_of_recorded ht hsource rfl (Dict.get?_set _ _ · _)]
    refine inOrder_apart hsource fun state hget => isPresent_of_loadable ?_
    rw [stateOr, hget] at hcartridge
    exact hcartridge
  | unload driveId targetSlot =>
    obtain ⟨barcode, hsource, hfree, hupdate⟩ := unloadUpdate_of_accepts h
    have ht := transferred_unloaded hsource hfree
    refine ⟨_, _, congrArg lib.update hupdate, rfl, ht, ?_⟩
    rw [inOrder_of_recorded ht hsource rfl (Dict.get?_set _ _ · _)]
    show _ ↔ lib.InOrder (lib.contents (.drive driveId))
    rw [hsource]
  | move sourceSlot targetSlot =>
    have hspare : faults.Spare [.robotLockConflict, .moveFailure] := by
      obtain ⟨hspare, -⟩ := h
      obtain ⟨hchanger, hspare⟩ := spare_cons.1 hspare
      obtain ⟨hmove, -⟩ := spare_cons.1 hspare
      exact spare_cons.2 ⟨hchanger, spare_cons.2 ⟨hmove, nofun⟩⟩
    obtain ⟨barcode, hsource, hfree, hupdate⟩ := moveUpdate_of_accepts h
    have ht := transferred_moved hsource hfree
    refine ⟨_, _, (move_eq hspare).trans (congrArg lib.update hupdate), rfl, ht, ?_⟩
    have hheld : (lib.moved sourceSlot targetSlot barcode).contents.held = lib.contents.held := by
      rw [ht.contents, Placement.held_transfer ht.free]
    constructor
    · rintro ⟨hexclusive, hrecorded⟩
      exact ⟨(exclusive_transfer_iff ht).1 hexclusive, fun b st hget hne => hheld ▸ hrecorded b st hget hne⟩
    · rintro ⟨hexclusive, hrecorded⟩
      exact ⟨(exclusive_transfer_iff ht).2 hexclusive, fun b st hget hne => hheld.symm ▸ hrecorded b st hget hne⟩

/-- Checks that never pass change nothing, and answer nothing. -/
theorem update_refused (lib : MockLibrary) {checked : Except Exn (MockLibrary × OperationResult)}
    (h : ∀ lib' result, checked ≠ .ok (lib', result)) : ∃ e, lib.update checked = (.error e, lib) := by
  cases hc : checked with
  | error e => exact ⟨e, rfl⟩
  | ok x => exact absurd hc (h x.1 x.2)

/-- A move that the library does not accept is not made. -/
theorem perform_of_refused {robotics : Robotics} (h : ¬lib.Accepts faults robotics) :
    (lib.perform faults robotics).2 = lib ∧
      ∀ result, (lib.perform faults robotics).1 = .ok result → result.success = false := by
  cases robotics with
  | load sourceSlot driveId =>
    obtain ⟨e, he⟩ := update_refused lib fun lib' result hok => h (loadUpdate_ok hok)
    have hperform : lib.perform faults (.load sourceSlot driveId) = (.error e, lib) := he
    rw [hperform]
    exact ⟨rfl, fun _ h => by cases h⟩
  | unload driveId targetSlot =>
    obtain ⟨e, he⟩ := update_refused lib fun lib' result hok => h (unloadUpdate_ok hok)
    have hperform : lib.perform faults (.unload driveId targetSlot) = (.error e, lib) := he
    rw [hperform]
    exact ⟨rfl, fun _ h => by cases h⟩
  | move sourceSlot targetSlot =>
    by_cases hspare : faults.Spare [.robotLockConflict, .moveFailure]
    · obtain ⟨e, he⟩ := update_refused lib fun lib' result hok => h (moveUpdate_ok hspare hok)
      have hperform : lib.perform faults (.move sourceSlot targetSlot) = (.error e, lib) := (move_eq hspare).trans he
      rw [hperform]
      exact ⟨rfl, fun _ h => by cases h⟩
    · simp only [perform, move]
      split
      · exact ⟨rfl, fun _ h => by cases h⟩
      · rename_i henter
        have hmove : .moveFailure ∈ faults.config := by
          by_contra hmove
          exact hspare (spare_cons.2 ⟨enterChanger_ok_iff.1 henter, spare_cons.2 ⟨hmove, fun _ h => by cases h⟩⟩)
        rw [if_pos hmove]
        refine ⟨rfl, fun result hresult => ?_⟩
        rw [← Except.ok.inj hresult]

end MockLibrary

/-! ### What the request reads -/

variable {py : Builtins} {payload : Dict String WireValue} {request : MoveRequest} {lib lib' : MockLibrary} {robotics : Robotics}

theorem uncaught_ok {α : Type} {x : Except Exn α} {a : α} (h : uncaught x = .ok a) : x = .ok a := by
  cases x with
  | error e => cases h
  | ok b => rw [Except.ok.inj h]

/-- The coordinates of a request that is read are those of its payload. -/
theorem coordinates_of_read (h : readMoveRequest py payload = .ok request) :
    parseCoordinate py ((moveData payload).get? "sourceCoordinate") = .ok (some request.source) ∧
      parseCoordinate py ((moveData payload).get? "destinationCoordinate") = .ok request.destination := by
  obtain ⟨moveClass, -, h⟩ := bind_eq_ok.1 h
  split at h
  · obtain ⟨source, hsource, h⟩ := bind_eq_ok.1 h
    cases source with
    | none => cases h
    | some source =>
      obtain ⟨destination, hdestination, h⟩ := bind_eq_ok.1 h
      rw [← Except.ok.inj h]
      exact ⟨uncaught_ok hsource, uncaught_ok hdestination⟩
  · cases h

/-- A payload that gives no destination has none to be read. -/
theorem gives_of_read {coordinate : Coordinate}
    (h : parseCoordinate py ((moveData payload).get? "destinationCoordinate") = .ok (some coordinate)) :
    givesDestination payload = true := by
  unfold givesDestination WireValue.get
  cases hget : (moveData payload).get? "destinationCoordinate" with
  | none =>
    rw [hget] at h
    cases h
  | some value =>
    cases value with
    | null =>
      rw [hget] at h
      cases h
    | _ => rfl

theorem element_eq_slot {coordinate : Coordinate} {slot : Int} :
    coordinate.element = some (.slot slot) ↔ coordinate = ("slot", slot) := by
  obtain ⟨elementType, address⟩ := coordinate
  unfold Coordinate.element
  split
  · simp_all
  · split <;> simp_all

theorem element_eq_drive {coordinate : Coordinate} {drive : Int} :
    coordinate.element = some (.drive drive) ↔ coordinate = ("drive", drive) := by
  obtain ⟨elementType, address⟩ := coordinate
  unfold Coordinate.element
  split
  · simp_all
  · split <;> simp_all

/-- The slot that is chosen where no destination is given is empty. -/
theorem firstEmptySlot_ok {slot : Int} (h : firstEmptySlot lib = .ok slot) : lib.slots.get? slot = some none := by
  unfold firstEmptySlot at h
  cases hfind : lib.slots.find? fun slot => slot.2 = none with
  | none =>
    rw [hfind] at h
    cases h
  | some entry =>
    rw [hfind] at h
    have hmem := List.mem_of_find?_eq_some hfind
    have hnone : entry.2 = none := by simpa using List.find?_some hfind
    rw [← Except.ok.inj h, ← hnone]
    exact Dict.get?_of_mem lib.nodupSlots hmem

/-- What the handler asks of the library, by the types of the request. -/
theorem robotics_cases (h : request.robotics lib = .ok robotics) :
    match request.destination with
    | none => request.source.1 = "drive" ∧
        ∃ slot, lib.slots.get? slot = some none ∧ robotics = .unload request.source.2 slot
    | some destination =>
      (destination.1 = "drive" ∧ robotics = .load request.source.2 destination.2) ∨
        (destination.1 ≠ "drive" ∧ request.source.1 = "drive" ∧ robotics = .unload request.source.2 destination.2) ∨
          (destination.1 ≠ "drive" ∧ request.source.1 ≠ "drive" ∧ robotics = .move request.source.2 destination.2) := by
  unfold MoveRequest.robotics at h
  split at h
  · split at h
    · cases h
    · rename_i hdrive
      rw [ne_eq, not_not] at hdrive
      cases hdestination : request.destination with
      | none =>
        rw [hdestination] at h
        cases hslot : firstEmptySlot lib with
        | error e =>
          rw [hslot] at h
          cases h
        | ok slot =>
          rw [hslot] at h
          exact ⟨hdrive, slot, firstEmptySlot_ok hslot, (Except.ok.inj h).symm⟩
      | some destination =>
        rw [hdestination] at h
        simp only at h
        split at h
        · cases h
        · rename_i hslot
          rw [ne_eq, not_not] at hslot
          refine .inr (.inl ⟨?_, hdrive, (Except.ok.inj h).symm⟩)
          rw [hslot]
          decide
  · cases hdestination : request.destination with
    | none =>
      rw [hdestination] at h
      cases h
    | some destination =>
      rw [hdestination] at h
      simp only at h
      split at h
      · rename_i htype
        exact .inl ⟨htype, (Except.ok.inj h).symm⟩
      · rename_i htype
        split at h
        · rename_i hdrive
          exact .inr (.inl ⟨htype, hdrive, (Except.ok.inj h).symm⟩)
        · rename_i hdrive
          exact .inr (.inr ⟨htype, hdrive, (Except.ok.inj h).symm⟩)

/-- The request names the elements that the library is asked to use exactly when its types are those of the operation. -/
theorem names_iff_wellTyped (hread : readMoveRequest py payload = .ok request) (h : request.robotics lib = .ok robotics) :
    (namedElement py ((moveData payload).get? "sourceCoordinate") = some robotics.source ∧
      NamesDestination py payload lib robotics.target) ↔ request.WellTyped payload := by
  obtain ⟨hsource, hdestination⟩ := coordinates_of_read hread
  have hcases := robotics_cases h
  obtain ⟨moveClass, ⟨sourceType, sourceAddress⟩, destination⟩ := request
  cases destination with
  | none =>
    obtain ⟨htype, slot, hslot, rfl⟩ := hcases
    simp only at hsource hdestination htype
    subst htype
    simp only [namedElement, NamesDestination, hsource, hdestination, MoveRequest.WellTyped, Robotics.source, Robotics.target,
      element_eq_drive, true_and]
    cases hgives : givesDestination payload with
    | true => simp
    | false =>
      simp only [Bool.false_eq_true, ↓reduceIte, iff_true]
      exact ⟨slot, rfl, hslot⟩
  | some destination =>
    obtain ⟨destinationType, destinationAddress⟩ := destination
    have hgives : givesDestination payload = true := gives_of_read hdestination
    simp only at hsource hdestination hcases
    simp only [namedElement, NamesDestination, hsource, hdestination, hgives, MoveRequest.WellTyped, if_true]
    rcases hcases with ⟨rfl, rfl⟩ | ⟨htype, rfl, rfl⟩ | ⟨htype, hsourceType, rfl⟩
    · simp [Robotics.source, Robotics.target, element_eq_slot, element_eq_drive]
    · simp [Robotics.source, Robotics.target, element_eq_slot, element_eq_drive]
    · simp [Robotics.source, Robotics.target, element_eq_slot, htype, hsourceType]

/-- One cartridge was taken from `src` to `dst`: that is what the payload names exactly when it names these elements. -/
theorem movedAsNamed_iff {src dst : Element} (hexclusive : lib.contents.Exclusive)
    (ht : MockLibrary.Transferred lib lib' src dst) :
    MovedAsNamed py payload lib lib' ↔
      namedElement py ((moveData payload).get? "sourceCoordinate") = some src ∧ NamesDestination py payload lib dst := by
  have hafter : lib'.contents.Exclusive := (MockLibrary.exclusive_transfer_iff ht).2 hexclusive
  obtain ⟨⟨barcode, hsource⟩, hfree, hcontents⟩ := ht
  have hmoved : ∀ b, lib.contents.Moved lib'.contents b ↔ lib.contents src = some b := fun b => by
    rw [hcontents, Placement.moved_transfer hfree]
  have htarget : lib'.contents dst = some barcode := by rw [hcontents, Placement.transfer_apply, if_pos rfl, hsource]
  constructor
  · rintro ⟨src', dst', b, hnamed, hdestination, hsource', htarget', hall⟩
    have hb : lib.contents src = some b := (hmoved b).1 ((hall b).2 rfl)
    rw [hexclusive src src' b hb hsource', hafter dst dst' b (by rw [htarget, ← hsource, hb]) htarget']
    exact ⟨hnamed, hdestination⟩
  · rintro ⟨hnamed, hdestination⟩
    refine ⟨src, dst, barcode, hnamed, hdestination, hsource, htarget, fun b => ?_⟩
    rw [hmoved, hsource, Option.some.injEq, eq_comm]

/-- A request that asks the library for a move. -/
theorem moveAnswer_moves_named_iff (faults : Faults) (hread : readMoveRequest py payload = .ok request)
    (hrobotics : request.robotics lib = .ok robotics) :
    MovesOnlyNamed py payload lib (moveAnswer (lib.perform faults robotics)) ↔
      (lib.Accepts faults robotics → request.WellTyped payload ∧ lib.InOrderFor robotics) := by
  by_cases haccepts : lib.Accepts faults robotics
  · obtain ⟨lib', result, hperform, hsuccess, ht, horder⟩ := MockLibrary.perform_of_accepts haccepts
    rw [hperform, ← names_iff_wellTyped hread hrobotics, ← horder, ← MockLibrary.validate_iff]
    cases hvalid : lib'.validateInvariants with
    | ok u =>
      have hexclusive := ((MockLibrary.validate_iff lib').1 hvalid).exclusive
      have hanswer : moveAnswer (lib.update (.ok (lib', result))) = (.ok "moveMedium completed", lib') := by
        simp [MockLibrary.update, hvalid, moveAnswer, hsuccess]
      rw [hanswer]
      refine (movedAsNamed_iff ((MockLibrary.exclusive_transfer_iff ht).1 hexclusive) ht).trans ?_
      exact ⟨fun h _ => ⟨h, rfl⟩, fun h => (h haccepts).1⟩
    | error e =>
      have hanswer : moveAnswer (lib.update (.ok (lib', result))) = (.error (.http 400 e.message), lib') := by
        simp [MockLibrary.update, hvalid, moveAnswer]
      rw [hanswer]
      -- The check of the library raised when the cartridge had been moved already.
      refine iff_of_false (fun hsame => ?_) fun h => nomatch (h haccepts).2
      obtain ⟨⟨barcode, hsource⟩, hfree, hcontents⟩ := ht
      have hmoved := (Placement.moved_transfer hfree).2 hsource
      rw [← hcontents, show lib'.contents = lib.contents from hsame] at hmoved
      exact Placement.not_moved lib.contents barcode hmoved
  · obtain ⟨hsame, hfailed⟩ := MockLibrary.perform_of_refused haccepts
    refine iff_of_true ?_ fun h => absurd h haccepts
    generalize lib.perform faults robotics = outcome at hsame hfailed
    obtain ⟨answer, lib'⟩ := outcome
    simp only at hsame
    subst hsame
    cases answer with
    | error e => rfl
    | ok result =>
      rw [moveAnswer, hfailed result rfl]
      rfl

/-- Every `moveMedium` request of every user, on every state of the library under any faults, moves what it names and nothing else,
or fails and moves nothing, exactly when this holds: if it gets as far as asking the library for a move, and the library accepts
it, then its types are those of that move, and the records of the library are in order. -/
theorem moveMedium_moves_named_iff (py : Builtins) (role : Int) (lib : MockLibrary) (faults : Faults)
    (payload : Dict String WireValue) :
    MovesOnlyNamed py payload lib (moveMedium py role lib faults payload) ↔
      ∀ request robotics, role = 0 → readMoveRequest py payload = .ok request → request.robotics lib = .ok robotics →
        lib.Accepts faults robotics → request.WellTyped payload ∧ lib.InOrderFor robotics := by
  unfold moveMedium
  by_cases hrole : role = 0
  · rw [if_neg (not_not.2 hrole)]
    cases hread : readMoveRequest py payload with
    | error e => exact iff_of_true rfl nofun
    | ok request =>
      cases hrobotics : request.robotics lib with
      | error e =>
        simp only [hrobotics]
        refine iff_of_true rfl fun request' robotics _ hread' hrobotics' => ?_
        rw [← Except.ok.inj hread', hrobotics] at hrobotics'
        cases hrobotics'
      | ok robotics =>
        simp only [hrobotics]
        rw [moveAnswer_moves_named_iff faults hread hrobotics]
        constructor
        · intro h request' robotics' _ hrequest hrobotics'
          rw [← Except.ok.inj hrequest, hrobotics] at hrobotics'
          rw [← Except.ok.inj hrequest, ← Except.ok.inj hrobotics']
          exact h
        · intro h
          exact h request robotics hrole rfl hrobotics
  · rw [if_pos hrole]
    exact iff_of_true rfl fun _ _ h => absurd h hrole

/-- A coordinate as a payload gives it. -/
def coordinateValue (elementType : String) (address : Int) : WireValue :=
  .obj [("elementType", .str elementType), ("elementAddress", .int address)]

/-- From one drive, which is empty, to another: the cartridge of the slot with the number of the first drive is loaded, and the
request succeeds. -/
theorem drive_to_drive_loads_slot :
    let lib : MockLibrary := (simulatedLibrary id 2 3 0).after (.new 2 3 0) [.call {} (.addCartridge 1 "TAPE0001")]
    let payload := [("sourceCoordinate", coordinateValue "drive" 1), ("destinationCoordinate", coordinateValue "drive" 2)]
    let outcome := moveMedium ⟨fun _ => "", fun _ => none⟩ 0 lib {} payload
    outcome.2.contents (.drive 2) = some "TAPE0001" ∧
      ¬MovesOnlyNamed ⟨fun _ => "", fun _ => none⟩ payload lib outcome := by
  intro lib payload outcome
  have hloaded : outcome.2.contents (.drive 2) = some "TAPE0001" := by decide +kernel
  have hanswer : outcome.1.isOk = true := by decide +kernel
  have hempty : lib.contents (.drive 1) = none := by decide +kernel
  have hnamed : namedElement ⟨fun _ => "", fun _ => none⟩ ((moveData payload).get? "sourceCoordinate") = some (.drive 1) := rfl
  refine ⟨hloaded, fun hmoves => ?_⟩
  generalize outcome = outcome at hmoves hanswer
  obtain ⟨answer, lib'⟩ := outcome
  cases answer with
  | error e => cases hanswer
  | ok text =>
    obtain ⟨src, dst, barcode, hsrc, -, hsource, -⟩ := hmoves
    rw [hnamed] at hsrc
    rw [← Option.some.inj hsrc, hempty] at hsource
    cases hsource

end OpenBlade
