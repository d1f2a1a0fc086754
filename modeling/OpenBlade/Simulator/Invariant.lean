import OpenBlade.Effects.Automaton
import OpenBlade.Simulator.MockLibrary

/-!
# What the simulated library keeps

The contents of the library are a placement of cartridges in elements, and every operation clears an element, puts a cartridge
that is nowhere into a free one, or transfers one. So no cartridge is ever in two elements, the recorded states of cartridges
agree with where they are, and the check after an update never raises: an operation that fails has changed nothing.
-/

namespace OpenBlade

open Effects Storage

namespace MockLibrary

/-- The state recorded of a cartridge in an element. -/
def stateIn : Element → CartridgeState
  | .slot _ | .ieSlot _ => .inSlot
  | .drive _ => .inDrive

/-- The states of a drive and what it holds go together. -/
def Coherent (drive : MockDrive) : Prop :=
  match drive.barcode with
  | none => drive.driveState = .empty ∧ drive.mountState = .unmounted
  | some _ =>
    (drive.driveState = .loaded ∧ drive.mountState = .unmounted) ∨ (drive.driveState = .busy ∧ drive.mountState ≠ .unmounted)

/-- The invariant of the simulated library. -/
structure Sound (lib : MockLibrary) : Prop where
  exclusive : lib.contents.Exclusive
  /-- A cartridge that is somewhere has the state that goes with it. -/
  placed : ∀ e barcode, lib.contents e = some barcode → lib.cartridgeStates.get? barcode = some (stateIn e)
  /-- A cartridge that is nowhere was exported, if it is known at all. -/
  known : ∀ barcode state, lib.cartridgeStates.get? barcode = some state →
    barcode ∈ lib.contents.held ∨ state = .exported
  coherent : ∀ d drive, lib.drives.get? d = some drive → Coherent drive

section contents

variable (lib : MockLibrary) (id : Int) (content : Option Barcode) (barcode : Barcode)

theorem contents_setSlot : (lib.setSlot id content).contents = Function.update lib.contents (.slot id) content := by
  funext e
  rw [Function.update_apply]
  cases e with
  | slot i =>
    simp only [contents, setSlot, Dict.get?_set, Element.slot.injEq]
    by_cases hi : id = i
    · simp [hi]
    · simp [hi, Ne.symm hi]
  | ieSlot i => rfl
  | drive i => rfl

theorem contents_setIeSlot : (lib.setIeSlot id content).contents = Function.update lib.contents (.ieSlot id) content := by
  funext e
  rw [Function.update_apply]
  cases e with
  | slot i => rfl
  | ieSlot i =>
    simp only [contents, setIeSlot, Dict.get?_set, Element.ieSlot.injEq]
    by_cases hi : id = i
    · simp [hi]
    · simp [hi, Ne.symm hi]
  | drive i => rfl

theorem contents_setDrive (drive : MockDrive) :
    (lib.setDrive id drive).contents = Function.update lib.contents (.drive id) drive.barcode := by
  funext e
  rw [Function.update_apply]
  cases e with
  | slot i => rfl
  | ieSlot i => rfl
  | drive i =>
    simp only [contents, setDrive, Dict.get?_set, Element.drive.injEq]
    by_cases hi : id = i
    · simp [hi]
    · simp [hi, Ne.symm hi]

@[simp] theorem contents_setState (state : CartridgeState) : (lib.setState barcode state).contents = lib.contents := by
  funext e
  cases e <;> rfl

@[simp] theorem contents_popState : (lib.popState barcode).contents = lib.contents := by
  funext e
  cases e <;> rfl

end contents

/-! ### The check of the invariants -/

/-- The occupied elements are those that hold something. -/
theorem mem_occupied {lib : MockLibrary} {e : Element} {barcode : Barcode} :
    (e, barcode) ∈ lib.occupied ↔ lib.contents e = some barcode := by
  have hslot : ∀ d : Dict Int (Option Barcode), d.keys.Nodup → ∀ i, (i, some barcode) ∈ d ↔ (d.get? i).join = some barcode := by
    intro d hd i
    rw [Option.join_eq_some_iff]
    exact ⟨Dict.get?_of_mem hd, Dict.mem_of_get?⟩
  have hdrive : ∀ i, (∃ drive : MockDrive, (i, drive) ∈ lib.drives ∧ drive.barcode = some barcode) ↔
      (lib.drives.get? i).bind MockDrive.barcode = some barcode := by
    intro i
    rw [Option.bind_eq_some_iff]
    constructor
    · intro h
      obtain ⟨drive, hm, hb⟩ := h
      exact ⟨drive, Dict.get?_of_mem lib.nodupDrives hm, hb⟩
    · intro h
      obtain ⟨drive, hget, hb⟩ := h
      exact ⟨drive, Dict.mem_of_get? hget, hb⟩
  cases e with
  | slot i => simpa [occupied, contents] using hslot lib.slots lib.nodupSlots i
  | ieSlot i => simpa [occupied, contents] using hslot lib.ieSlots lib.nodupIeSlots i
  | drive i => simpa [occupied, contents] using hdrive i

/-- Under distinct keys, the elements of one dictionary are listed once. -/
theorem nodup_elements {α : Type} {d : Dict Int α} (hd : d.keys.Nodup) {mk : Int → Element} (hmk : ∀ i j, mk i = mk j → i = j)
    (g : α → Option Barcode) :
    ((d.filterMap fun p => (g p.2).map fun barcode => (mk p.1, barcode)).map Prod.fst).Nodup := by
  induction d with
  | nil => exact List.nodup_nil
  | cons p d ih =>
    obtain ⟨hp, hd⟩ : p.1 ∉ Dict.keys d ∧ (Dict.keys d).Nodup := List.nodup_cons.1 hd
    rw [List.filterMap_cons]
    cases g p.2 with
    | none => exact ih hd
    | some barcode =>
      refine List.nodup_cons.2 ⟨fun hm => ?_, ih hd⟩
      obtain ⟨x, hx, hfst⟩ := List.mem_map.1 hm
      obtain ⟨q, hq, hsome⟩ := List.mem_filterMap.1 hx
      obtain ⟨b, -, rfl⟩ := Option.map_eq_some_iff.1 hsome
      have hkey : q.1 = p.1 := hmk _ _ hfst
      exact hp (hkey ▸ List.mem_map_of_mem hq)

/-- No element is listed twice. -/
theorem nodup_occupied (lib : MockLibrary) : (lib.occupied.map Prod.fst).Nodup := by
  have hslots := nodup_elements lib.nodupSlots (fun _ _ h => Element.slot.inj h) id
  have hie := nodup_elements lib.nodupIeSlots (fun _ _ h => Element.ieSlot.inj h) id
  have hdrives := nodup_elements lib.nodupDrives (fun _ _ h => Element.drive.inj h) MockDrive.barcode
  unfold occupied
  rw [List.map_append, List.map_append]
  refine List.nodup_append.2 ⟨List.nodup_append.2 ⟨hslots, hie, ?_⟩, hdrives, ?_⟩
  · simp
    grind
  · simp
    grind

/-- The elements a cartridge is listed in are those that hold it. -/
theorem mem_locations {lib : MockLibrary} {e : Element} {barcode : Barcode} :
    e ∈ lib.locations barcode ↔ lib.contents e = some barcode := by
  simp [locations, mem_occupied]

/-- Where nothing is in two elements, what is in one is counted once. -/
theorem count_of_contents {lib : MockLibrary} (h : lib.contents.Exclusive) {e : Element} {barcode : Barcode}
    (he : lib.contents e = some barcode) : lib.locationCount barcode = 1 := by
  have hnodup : (lib.locations barcode).Nodup := List.Nodup.sublist (List.filter_sublist.map _) lib.nodup_occupied
  have hmem : e ∈ lib.locations barcode := mem_locations.2 he
  have hall : ∀ x ∈ lib.locations barcode, x = e := fun x hx => h x e barcode (mem_locations.1 hx) he
  unfold locationCount
  rw [List.eq_replicate_of_mem hall] at hnodup hmem ⊢
  have hle := List.nodup_replicate.1 hnodup
  have hne : (lib.locations barcode).length ≠ 0 := (List.mem_replicate.1 hmem).1
  rw [List.length_replicate]
  omega

theorem count_of_not_held {lib : MockLibrary} {barcode : Barcode} (h : barcode ∉ lib.contents.held) :
    lib.locationCount barcode = 0 := by
  unfold locationCount
  rw [List.length_eq_zero_iff, List.eq_nil_iff_forall_not_mem]
  exact fun e he => h ⟨e, mem_locations.1 he⟩

/-- The check after an update does not raise. -/
theorem Sound.validate {lib : MockLibrary} (h : lib.Sound) : lib.validateInvariants = .ok () := by
  have hfind : (lib.occupied.find? fun entry => lib.locationCount entry.2 ≠ 1) = none := by
    rw [List.find?_eq_none]
    intro entry hm
    have hcount := count_of_contents h.exclusive (mem_occupied.1 hm)
    simp [hcount]
  have hstates : (lib.cartridgeStates.findSome? fun entry => lib.stateError entry.1 entry.2) = none := by
    rw [List.findSome?_eq_none_iff]
    intro entry hm
    have hget : lib.cartridgeStates.get? entry.1 = some entry.2 := Dict.get?_of_mem lib.nodupStates hm
    unfold stateError
    rcases h.known entry.1 entry.2 hget with hheld | hexp
    · obtain ⟨e, he⟩ := hheld
      have hcount := count_of_contents h.exclusive he
      have hstate : entry.2 = stateIn e := Option.some.inj (hget.symm.trans (h.placed e entry.1 he))
      rw [if_neg (by simp [hcount]), if_neg]
      rw [hstate]
      cases e <;> simp [stateIn]
    · rw [if_neg (by simp [hexp]), if_neg]
      intro hc
      by_cases hheld : entry.1 ∈ lib.contents.held
      · obtain ⟨e, he⟩ := hheld
        have hstate : entry.2 = stateIn e := Option.some.inj (hget.symm.trans (h.placed e entry.1 he))
        rw [hexp] at hstate
        cases e <;> cases hstate
      · exact hc.2 (count_of_not_held hheld)
  unfold validateInvariants
  rw [hfind]
  simp only
  rw [hstates]

/-! ### Updates that keep the invariant -/

/-- A cartridge is put where nothing was. -/
theorem Sound.put {lib lib' : MockLibrary} (h : lib.Sound) {e : Element} {barcode : Barcode}
    (hb : barcode ∉ lib.contents.held) (hfree : lib.contents e = none) (hcontents : lib'.contents = lib.contents.put e barcode)
    (hstates : lib'.cartridgeStates = lib.cartridgeStates.set barcode (stateIn e))
    (hdrives : ∀ d drive, lib'.drives.get? d = some drive → Coherent drive) : lib'.Sound where
  exclusive := by
    rw [hcontents]
    exact h.exclusive.put hb
  placed x b hx := by
    rw [hcontents, Placement.put_apply] at hx
    rw [hstates, Dict.get?_set]
    split at hx
    · rename_i hxe
      rw [if_pos (Option.some.inj hx), hxe]
    · rw [if_neg (fun hbb : barcode = b => hb ⟨x, hbb ▸ hx⟩)]
      exact h.placed x b hx
  known b state hb' := by
    rw [hstates, Dict.get?_set] at hb'
    rw [hcontents, Placement.held_put hfree]
    split at hb'
    · rename_i hbb
      exact .inl (.inl hbb.symm)
    · rcases h.known b state hb' with hheld | hexp
      · exact .inl (.inr hheld)
      · exact .inr hexp
  coherent := hdrives

/-- A cartridge is taken out of its element, and its state says so or is forgotten. -/
theorem Sound.clear {lib lib' : MockLibrary} (h : lib.Sound) {e : Element} {barcode : Barcode}
    (he : lib.contents e = some barcode) (hcontents : lib'.contents = lib.contents.clear e)
    (hother : ∀ b, barcode ≠ b → lib'.cartridgeStates.get? b = lib.cartridgeStates.get? b)
    (hself : ∀ state, lib'.cartridgeStates.get? barcode = some state → state = .exported)
    (hdrives : ∀ d drive, lib'.drives.get? d = some drive → Coherent drive) : lib'.Sound where
  exclusive := by
    rw [hcontents]
    exact h.exclusive.clear
  placed x b hx := by
    have hmem : b ∈ (lib.contents.clear e).held := ⟨x, hcontents ▸ hx⟩
    rw [Placement.held_clear h.exclusive he] at hmem
    rw [hcontents, Placement.clear_apply] at hx
    rw [hother b (fun hbb => hmem.2 hbb.symm)]
    split at hx
    · cases hx
    · exact h.placed x b hx
  known b state hb := by
    by_cases hbb : barcode = b
    · exact .inr (hself state (hbb ▸ hb))
    · rw [hother b hbb] at hb
      rw [hcontents, Placement.held_clear h.exclusive he]
      rcases h.known b state hb with hheld | hexp
      · exact .inl ⟨hheld, fun hc => hbb hc.symm⟩
      · exact .inr hexp
  coherent := hdrives

/-- `lib'` is `lib` after the cartridge in `src` was taken to `dst`, which was free. -/
structure Transferred (lib lib' : MockLibrary) (src dst : Element) : Prop where
  source : ∃ barcode, lib.contents src = some barcode
  free : lib.contents dst = none
  contents : lib'.contents = lib.contents.transfer src dst

/-- A cartridge is taken from one element to another. -/
theorem Sound.transfer {lib lib' : MockLibrary} (h : lib.Sound) {src dst : Element} {barcode : Barcode}
    (hsrc : lib.contents src = some barcode) (ht : Transferred lib lib' src dst)
    (hstates : ∀ b, lib'.cartridgeStates.get? b = if barcode = b then some (stateIn dst) else lib.cartridgeStates.get? b)
    (hdrives : ∀ d drive, lib'.drives.get? d = some drive → Coherent drive) : lib'.Sound where
  exclusive := by
    rw [ht.contents]
    exact h.exclusive.transfer
  placed x b hx := by
    rw [ht.contents, Placement.transfer_apply] at hx
    rw [hstates]
    split at hx
    · rename_i hxd
      rw [if_pos (Option.some.inj (hsrc.symm.trans hx)), hxd]
    · split at hx
      · cases hx
      · rename_i hxs
        rw [if_neg (fun hbb : barcode = b => hxs (h.exclusive x src barcode (hbb ▸ hx) hsrc))]
        exact h.placed x b hx
  known b state hb := by
    rw [ht.contents, Placement.held_transfer ht.free]
    rw [hstates] at hb
    split at hb
    · rename_i hbb
      exact .inl ⟨src, hbb ▸ hsrc⟩
    · exact h.known b state hb
  coherent := hdrives

/-- Checks that raise change nothing, and an update that keeps the invariant is made whole. -/
theorem update_cases {α : Type} {lib : MockLibrary} {checked : Except Exn (MockLibrary × α)}
    (h : ∀ lib' a, checked = .ok (lib', a) → lib'.Sound) :
    (∃ e, lib.update checked = (.error e, lib)) ∨
      ∃ lib' a, checked = .ok (lib', a) ∧ lib.update checked = (.ok a, lib') ∧ lib'.Sound := by
  unfold update
  cases hc : checked with
  | error e => exact .inl ⟨e, rfl⟩
  | ok x =>
    obtain ⟨lib', a⟩ := x
    have hs := h lib' a hc
    exact .inr ⟨lib', a, rfl, by simp [hs.validate], hs⟩

/-- What a sequence of checks passed. -/
theorem bind_ok {α β : Type} {x : Except Exn α} {f : α → Except Exn β} {b : β} (h : (x >>= f) = .ok b) :
    ∃ a, x = .ok a ∧ f a = .ok b := by
  cases x with
  | error e => cases h
  | ok a => exact ⟨a, rfl, h⟩

theorem item_ok {α : Type} {d : Dict Int α} {key : Int} {a : α} (h : item d key = .ok a) : d.get? key = some a := by
  unfold item at h
  split at h
  · cases h
  · rename_i hget
    rw [hget, Except.ok.inj h]

theorem element_ok {α : Type} {d : Dict Int α} {key : Int} {kind : String} {a : α} (h : element d key kind = .ok a) :
    d.get? key = some a := by
  unfold element at h
  split at h
  · cases h
  · rename_i hget
    rw [hget, Except.ok.inj h]

theorem cartridgeIn_ok {content : Option Barcode} {name : String} {barcode : Barcode}
    (h : cartridgeIn content name = .ok barcode) : content = some barcode := by
  cases content with
  | none => cases h
  | some b => rw [Except.ok.inj h]

theorem requireFree_ok {content : Option Barcode} {name : String} {u : Unit} (h : requireFree content name = .ok u) :
    content = none := by
  cases content with
  | none => rfl
  | some b => cases h

theorem contents_slot {lib : MockLibrary} {id : Int} {content : Option Barcode} (h : lib.slots.get? id = some content) :
    lib.contents (.slot id) = content := by
  simp [contents, h]

theorem contents_ieSlot {lib : MockLibrary} {id : Int} {content : Option Barcode} (h : lib.ieSlots.get? id = some content) :
    lib.contents (.ieSlot id) = content := by
  simp [contents, h]

theorem contents_drive {lib : MockLibrary} {id : Int} {drive : MockDrive} (h : lib.drives.get? id = some drive) :
    lib.contents (.drive id) = drive.barcode := by
  simp [contents, h]

/-- The drives after one of them changed. -/
theorem Sound.coherent_setDrive {lib : MockLibrary} (h : lib.Sound) (id : Int) {drive : MockDrive} (hc : Coherent drive) :
    ∀ d drive', (lib.setDrive id drive).drives.get? d = some drive' → Coherent drive' := by
  intro d drive' hd
  unfold setDrive at hd
  rw [Dict.get?_set] at hd
  split at hd
  · rw [← Option.some.inj hd]
    exact hc
  · exact h.coherent d drive' hd

/-! ### The operations -/

/-- What `add_cartridge` does when it raises nothing. -/
theorem Sound.addCartridge {lib lib' : MockLibrary} (h : lib.Sound) {upper : String → String} {slotId : Int} {text : String}
    {u : Unit} (hok : lib.addCartridgeUpdate upper slotId text = .ok (lib', u)) :
    lib'.Sound ∧ ∃ barcode, normalizeBarcode upper text = .ok barcode ∧
      lib'.contents.held = insert barcode lib.contents.held := by
  obtain ⟨slot, hslot, hok⟩ := bind_ok hok
  obtain ⟨_, hfree, hok⟩ := bind_ok hok
  obtain ⟨barcode, hnorm, hok⟩ := bind_ok hok
  split at hok
  · cases hok
  · rename_i hcount
    obtain ⟨_, -, hok⟩ := bind_ok hok
    obtain ⟨rfl, -⟩ := Prod.mk.inj (Except.ok.inj hok)
    have hnew : barcode ∉ lib.contents.held := by
      intro hheld
      obtain ⟨e, he⟩ := hheld
      rw [count_of_contents h.exclusive he] at hcount
      exact hcount Nat.one_pos
    have hempty : lib.contents (.slot slotId) = none := (contents_slot (item_ok hslot)).trans (requireFree_ok hfree)
    have hcontents : ((lib.setSlot slotId (some barcode)).setState barcode .inSlot).contents =
        lib.contents.put (.slot slotId) barcode := by
      rw [contents_setState, contents_setSlot]
      rfl
    refine ⟨h.put hnew hempty hcontents rfl h.coherent, barcode, hnorm, ?_⟩
    rw [hcontents, Placement.held_put hempty]

/-- What `remove_cartridge` does when it raises nothing. -/
theorem Sound.removeCartridge {lib lib' : MockLibrary} (h : lib.Sound) {slotId : Int} {barcode : Barcode}
    (hok : lib.removeCartridgeUpdate slotId = .ok (lib', barcode)) :
    lib'.Sound ∧ lib.contents (.slot slotId) = some barcode ∧ lib'.contents.held = lib.contents.held \ {barcode} := by
  obtain ⟨slot, hslot, hok⟩ := bind_ok hok
  obtain ⟨b, hb, hok⟩ := bind_ok hok
  obtain ⟨rfl, rfl⟩ := Prod.mk.inj (Except.ok.inj hok)
  have hsource : lib.contents (.slot slotId) = some b := (contents_slot (item_ok hslot)).trans (cartridgeIn_ok hb)
  have hcontents : ((lib.setSlot slotId none).popState b).contents = lib.contents.clear (.slot slotId) := by
    rw [contents_popState, contents_setSlot]
    rfl
  refine ⟨h.clear hsource hcontents ?_ ?_ h.coherent, hsource, ?_⟩
  · intro b' hne
    exact (Dict.get?_erase lib.cartridgeStates b b').trans (if_neg hne)
  · intro state hstate
    have hnone : (lib.cartridgeStates.erase b).get? b = none := (Dict.get?_erase lib.cartridgeStates b b).trans (if_pos rfl)
    cases hnone.symm.trans hstate
  · rw [hcontents, Placement.held_clear h.exclusive hsource]

/-- What `load` does when it raises nothing. -/
theorem Sound.load {lib lib' : MockLibrary} (h : lib.Sound) {faults : Faults} {sourceSlot driveId : Int}
    {result : OperationResult} (hok : lib.loadUpdate faults sourceSlot driveId = .ok (lib', result)) :
    lib'.Sound ∧ result.success = true ∧ Transferred lib lib' (.slot sourceSlot) (.drive driveId) := by
  obtain ⟨_, -, hok⟩ := bind_ok hok
  obtain ⟨_, -, hok⟩ := bind_ok hok
  obtain ⟨_, -, hok⟩ := bind_ok hok
  obtain ⟨slot, hslot, hok⟩ := bind_ok hok
  obtain ⟨drive, hdrive, hok⟩ := bind_ok hok
  obtain ⟨barcode, hb, hok⟩ := bind_ok hok
  split at hok
  · cases hok
  · rename_i hempty
    obtain ⟨_, -, hok⟩ := bind_ok hok
    obtain ⟨_, -, hok⟩ := bind_ok hok
    obtain ⟨rfl, rfl⟩ := Prod.mk.inj (Except.ok.inj hok)
    have hsource : lib.contents (.slot sourceSlot) = some barcode := (contents_slot (item_ok hslot)).trans (cartridgeIn_ok hb)
    have ht : Transferred lib
        (((lib.setSlot sourceSlot none).setDrive driveId
          { barcode := some barcode, driveState := .loaded, mountState := .unmounted }).setState barcode .inDrive)
        (.slot sourceSlot) (.drive driveId) := by
      refine ⟨⟨barcode, hsource⟩, (contents_drive (item_ok hdrive)).trans hempty, ?_⟩
      rw [contents_setState, contents_setDrive, contents_setSlot, Placement.transfer, hsource]
      rfl
    refine ⟨h.transfer hsource ht (Dict.get?_set _ _ · _) ?_, rfl, ht⟩
    exact h.coherent_setDrive driveId (.inl ⟨rfl, rfl⟩)

/-- What `unload` does when it raises nothing. -/
theorem Sound.unload {lib lib' : MockLibrary} (h : lib.Sound) {faults : Faults} {driveId targetSlot : Int}
    {result : OperationResult} (hok : lib.unloadUpdate faults driveId targetSlot = .ok (lib', result)) :
    lib'.Sound ∧ result.success = true ∧ Transferred lib lib' (.drive driveId) (.slot targetSlot) := by
  obtain ⟨_, -, hok⟩ := bind_ok hok
  obtain ⟨_, -, hok⟩ := bind_ok hok
  obtain ⟨_, -, hok⟩ := bind_ok hok
  obtain ⟨drive, hdrive, hok⟩ := bind_ok hok
  obtain ⟨slot, hslot, hok⟩ := bind_ok hok
  obtain ⟨barcode, hb, hok⟩ := bind_ok hok
  obtain ⟨_, hfree, hok⟩ := bind_ok hok
  split at hok
  · obtain ⟨_, -, hok⟩ := bind_ok hok
    obtain ⟨_, -, hok⟩ := bind_ok hok
    obtain ⟨rfl, rfl⟩ := Prod.mk.inj (Except.ok.inj hok)
    have hsource : lib.contents (.drive driveId) = some barcode := (contents_drive (item_ok hdrive)).trans (cartridgeIn_ok hb)
    have ht : Transferred lib
        (((lib.setDrive driveId { barcode := none, driveState := .empty, mountState := .unmounted }).setSlot targetSlot
          (some barcode)).setState barcode .inSlot)
        (.drive driveId) (.slot targetSlot) := by
      refine ⟨⟨barcode, hsource⟩, (contents_slot (item_ok hslot)).trans (requireFree_ok hfree), ?_⟩
      rw [contents_setState, contents_setSlot, contents_setDrive, Placement.transfer, hsource]
      rfl
    refine ⟨h.transfer hsource ht (Dict.get?_set _ _ · _) ?_, rfl, ht⟩
    exact h.coherent_setDrive driveId ⟨rfl, rfl⟩
  · cases hok

/-- What `move` does when it raises nothing. -/
theorem Sound.move {lib lib' : MockLibrary} (h : lib.Sound) {faults : Faults} {sourceSlot targetSlot : Int}
    {result : OperationResult} (hok : lib.moveUpdate faults sourceSlot targetSlot = .ok (lib', result)) :
    lib'.Sound ∧ result.success = true ∧ Transferred lib lib' (.slot sourceSlot) (.slot targetSlot) := by
  obtain ⟨_, -, hok⟩ := bind_ok hok
  obtain ⟨source, hsrc, hok⟩ := bind_ok hok
  obtain ⟨target, htgt, hok⟩ := bind_ok hok
  obtain ⟨barcode, hb, hok⟩ := bind_ok hok
  obtain ⟨_, hfree, hok⟩ := bind_ok hok
  obtain ⟨_, -, hok⟩ := bind_ok hok
  obtain ⟨rfl, rfl⟩ := Prod.mk.inj (Except.ok.inj hok)
  have hsource : lib.contents (.slot sourceSlot) = some barcode := (contents_slot (item_ok hsrc)).trans (cartridgeIn_ok hb)
  have htarget : lib.contents (.slot targetSlot) = none := (contents_slot (item_ok htgt)).trans (requireFree_ok hfree)
  have hne : (Element.slot targetSlot) ≠ .slot sourceSlot := by
    intro he
    rw [he, hsource] at htarget
    cases htarget
  have ht : Transferred lib ((lib.setSlot targetSlot (some barcode)).setSlot sourceSlot none) (.slot sourceSlot)
      (.slot targetSlot) := by
    refine ⟨⟨barcode, hsource⟩, htarget, ?_⟩
    rw [contents_setSlot, contents_setSlot, Function.update_comm hne, Placement.transfer, hsource]
    rfl
  refine ⟨h.transfer hsource ht ?_ h.coherent, rfl, ht⟩
  -- the cartridge stays `IN_SLOT`
  intro b
  split
  · rename_i hbb
    have hplaced := h.placed _ _ hsource
    rw [← hbb]
    exact hplaced
  · rfl

/-- What `import_cartridge` does when it raises nothing. -/
theorem Sound.importCartridge {lib lib' : MockLibrary} (h : lib.Sound) {faults : Faults} {ieSlot targetSlot : Int}
    {result : OperationResult} (hok : lib.importCartridgeUpdate faults ieSlot targetSlot = .ok (lib', result)) :
    lib'.Sound ∧ result.success = true ∧ Transferred lib lib' (.ieSlot ieSlot) (.slot targetSlot) := by
  obtain ⟨_, -, hok⟩ := bind_ok hok
  obtain ⟨_, -, hok⟩ := bind_ok hok
  obtain ⟨source, hsrc, hok⟩ := bind_ok hok
  obtain ⟨barcode, hb, hok⟩ := bind_ok hok
  obtain ⟨target, htgt, hok⟩ := bind_ok hok
  obtain ⟨_, hfree, hok⟩ := bind_ok hok
  obtain ⟨rfl, rfl⟩ := Prod.mk.inj (Except.ok.inj hok)
  have hsource : lib.contents (.ieSlot ieSlot) = some barcode := (contents_ieSlot (element_ok hsrc)).trans (cartridgeIn_ok hb)
  have ht : Transferred lib (((lib.setSlot targetSlot (some barcode)).setIeSlot ieSlot none).setState barcode .inSlot)
      (.ieSlot ieSlot) (.slot targetSlot) := by
    refine ⟨⟨barcode, hsource⟩, (contents_slot (element_ok htgt)).trans (requireFree_ok hfree), ?_⟩
    have hne : (Element.slot targetSlot) ≠ .ieSlot ieSlot := nofun
    rw [contents_setState, contents_setIeSlot, contents_setSlot, Function.update_comm hne, Placement.transfer, hsource]
    rfl
  exact ⟨h.transfer hsource ht (Dict.get?_set _ _ · _) h.coherent, rfl, ht⟩

/-- What `export_cartridge_to_ie` does when it raises nothing. -/
theorem Sound.exportCartridgeToIe {lib lib' : MockLibrary} (h : lib.Sound) {faults : Faults} {sourceSlot ieSlot : Int}
    {result : OperationResult} (hok : lib.exportCartridgeToIeUpdate faults sourceSlot ieSlot = .ok (lib', result)) :
    lib'.Sound ∧ result.success = true ∧ Transferred lib lib' (.slot sourceSlot) (.ieSlot ieSlot) := by
  obtain ⟨_, -, hok⟩ := bind_ok hok
  obtain ⟨_, -, hok⟩ := bind_ok hok
  obtain ⟨source, hsrc, hok⟩ := bind_ok hok
  obtain ⟨barcode, hb, hok⟩ := bind_ok hok
  obtain ⟨target, htgt, hok⟩ := bind_ok hok
  obtain ⟨_, hfree, hok⟩ := bind_ok hok
  obtain ⟨rfl, rfl⟩ := Prod.mk.inj (Except.ok.inj hok)
  have hsource : lib.contents (.slot sourceSlot) = some barcode := (contents_slot (element_ok hsrc)).trans (cartridgeIn_ok hb)
  have ht : Transferred lib (((lib.setIeSlot ieSlot (some barcode)).setSlot sourceSlot none).setState barcode .inSlot)
      (.slot sourceSlot) (.ieSlot ieSlot) := by
    refine ⟨⟨barcode, hsource⟩, (contents_ieSlot (element_ok htgt)).trans (requireFree_ok hfree), ?_⟩
    have hne : (Element.ieSlot ieSlot) ≠ .slot sourceSlot := nofun
    rw [contents_setState, contents_setSlot, contents_setIeSlot, Function.update_comm hne, Placement.transfer, hsource]
    rfl
  exact ⟨h.transfer hsource ht (Dict.get?_set _ _ · _) h.coherent, rfl, ht⟩

/-- What `set_drive_mount_state` does when it raises nothing. -/
theorem Sound.setDriveMountState {lib lib' : MockLibrary} (h : lib.Sound) {driveId : Int} {mountState : MountState} {u : Unit}
    (hok : lib.setDriveMountStateUpdate driveId mountState = .ok (lib', u)) :
    lib'.Sound ∧ lib'.contents = lib.contents := by
  obtain ⟨drive, hdrive, hok⟩ := bind_ok hok
  obtain ⟨_, -, hok⟩ := bind_ok hok
  obtain ⟨_, hstate, hok⟩ := bind_ok hok
  obtain ⟨rfl, -⟩ := Prod.mk.inj (Except.ok.inj hok)
  have hget := item_ok hdrive
  have hcontents : (lib.setDrive driveId
      { drive with driveState := driveStateFor mountState drive.barcode, mountState := mountState }).contents = lib.contents := by
    rw [contents_setDrive]
    exact Function.update_eq_self_iff.2 (contents_drive hget).symm
  refine ⟨⟨hcontents ▸ h.exclusive, fun e b he => h.placed e b (hcontents ▸ he), fun b s hb => hcontents ▸ h.known b s hb, ?_⟩,
    hcontents⟩
  refine h.coherent_setDrive driveId ?_
  have hold := h.coherent driveId drive hget
  have hnext := validateTransition_ok hstate
  -- an empty drive can neither become busy nor be mounted
  cases hb : drive.barcode with
  | none =>
    simp only [Coherent, hb] at hold
    rw [hold.1] at hnext
    cases mountState <;> simp_all [driveStateFor, DriveState.transitions, Coherent]
  | some b => cases mountState <;> simp [driveStateFor, Coherent]

/-- A cartridge is taken out of its element and recorded as exported. -/
theorem Sound.exportFrom {lib lib' : MockLibrary} (h : lib.Sound) {e : Element} {barcode : Barcode}
    (he : lib.contents e = some barcode) (hcontents : lib'.contents = lib.contents.clear e)
    (hstates : lib'.cartridgeStates = lib.cartridgeStates)
    (hdrives : ∀ d drive, lib'.drives.get? d = some drive → Coherent drive) :
    (lib'.setState barcode .exported).Sound ∧
      (lib'.setState barcode .exported).contents.held = lib.contents.held \ {barcode} := by
  have hget : ∀ b, (lib'.setState barcode .exported).cartridgeStates.get? b =
      if barcode = b then some .exported else lib.cartridgeStates.get? b := by
    intro b
    rw [← hstates]
    exact Dict.get?_set lib'.cartridgeStates barcode b .exported
  have hc : (lib'.setState barcode .exported).contents = lib.contents.clear e := by
    rw [contents_setState, hcontents]
  refine ⟨h.clear he hc (fun b hne => by rw [hget, if_neg hne]) ?_ hdrives, by rw [hc, Placement.held_clear h.exclusive he]⟩
  intro state hstate
  rw [hget, if_pos rfl] at hstate
  exact (Option.some.inj hstate).symm

/-- What `export_cartridge` does: the cartridge is nowhere afterwards. -/
theorem Sound.exportCartridge {lib : MockLibrary} (h : lib.Sound) (barcode : String) :
    (lib.exportCartridge barcode).Sound ∧ (lib.exportCartridge barcode).contents.held = lib.contents.held \ {barcode} := by
  unfold MockLibrary.exportCartridge
  split
  · rename_i slot hfind
    have hb : slot.2 = some barcode := by simpa using List.find?_some hfind
    have hget : lib.slots.get? slot.1 = some slot.2 := Dict.get?_of_mem lib.nodupSlots (List.mem_of_find?_eq_some hfind)
    refine h.exportFrom ((contents_slot hget).trans hb) ?_ rfl h.coherent
    rw [contents_setSlot]
    rfl
  · rename_i hslots
    split
    · rename_i slot hfind
      have hb : slot.2 = some barcode := by simpa using List.find?_some hfind
      have hget : lib.ieSlots.get? slot.1 = some slot.2 := Dict.get?_of_mem lib.nodupIeSlots (List.mem_of_find?_eq_some hfind)
      refine h.exportFrom ((contents_ieSlot hget).trans hb) ?_ rfl h.coherent
      rw [contents_setIeSlot]
      rfl
    · rename_i hie
      split
      · rename_i drive hfind
        have hb : drive.2.barcode = some barcode := by simpa using List.find?_some hfind
        have hget : lib.drives.get? drive.1 = some drive.2 := Dict.get?_of_mem lib.nodupDrives (List.mem_of_find?_eq_some hfind)
        refine h.exportFrom ((contents_drive hget).trans hb) ?_ rfl (h.coherent_setDrive drive.1 ⟨rfl, rfl⟩)
        rw [contents_setDrive]
        rfl
      · rename_i hdrives
        have hnot : barcode ∉ lib.contents.held := by
          intro hheld
          obtain ⟨e, he⟩ := hheld
          rw [List.find?_eq_none] at hslots hie hdrives
          cases e with
          | slot i =>
            have hget : lib.slots.get? i = some (some barcode) := Option.join_eq_some_iff.1 he
            exact hslots _ (Dict.mem_of_get? hget) (by simp)
          | ieSlot i =>
            have hget : lib.ieSlots.get? i = some (some barcode) := Option.join_eq_some_iff.1 he
            exact hie _ (Dict.mem_of_get? hget) (by simp)
          | drive i =>
            obtain ⟨drive, hget, hb⟩ := Option.bind_eq_some_iff.1 he
            exact hdrives _ (Dict.mem_of_get? hget) (by simp [hb])
        rw [Set.sdiff_singleton_eq_self hnot]
        split
        · refine ⟨⟨?_, ?_, ?_, h.coherent⟩, by rw [contents_setState]⟩
          · rw [contents_setState]
            exact h.exclusive
          · intro e b he
            rw [contents_setState] at he
            have hne : barcode ≠ b := fun hbb => hnot ⟨e, hbb ▸ he⟩
            exact ((Dict.get?_set _ _ _ _).trans (if_neg hne)).trans (h.placed e b he)
          · intro b state hb
            rw [contents_setState]
            have hb' : (if barcode = b then some CartridgeState.exported else lib.cartridgeStates.get? b) = some state :=
              (Dict.get?_set lib.cartridgeStates barcode b .exported).symm.trans hb
            split at hb'
            · exact .inr (Option.some.inj hb').symm
            · exact h.known b state hb'
        · exact ⟨h, rfl⟩

/-! ### Calls -/

open MockLibraryAnswer

/-- What a call may do to the cartridges of the library. -/
structure Accounted (upper : String → String) (lib lib' : MockLibrary) (call : MockLibraryCall) : Prop where
  /-- A cartridge that is new was added. -/
  added : ∀ barcode ∈ lib'.contents.held, barcode ∉ lib.contents.held →
    ∃ slotId text, call = .addCartridge slotId text ∧ normalizeBarcode upper text = .ok barcode
  /-- A cartridge that is gone was removed or exported. -/
  removed : ∀ barcode ∈ lib.contents.held, barcode ∉ lib'.contents.held →
    (∃ slotId, call = .removeCartridge slotId ∧ lib.contents (.slot slotId) = some barcode) ∨ call = .exportCartridge barcode

theorem Accounted.of_held {upper : String → String} {lib lib' : MockLibrary} {call : MockLibraryCall}
    (h : lib'.contents.held = lib.contents.held) : Accounted upper lib lib' call :=
  ⟨fun _ hm hn => absurd (h ▸ hm) hn, fun _ hm hn => absurd (h.symm ▸ hm) hn⟩

/-- What is asked of a call: it keeps the invariant, accounts for the cartridges, and changes nothing if it fails. -/
structure CallLaw (upper : String → String) (lib : MockLibrary) (call : MockLibraryCall)
    (r : MockLibraryAnswer × MockLibrary) : Prop where
  sound : r.2.Sound
  accounted : Accounted upper lib r.2 call
  atomic : r.1.failed = true → r.2 = lib

/-- An operation that raises before its update, or makes the update whole. -/
theorem CallLaw.of_update {α : Type} {upper : String → String} {lib : MockLibrary} (h : lib.Sound) {call : MockLibraryCall}
    {checked : Except Exn (MockLibrary × α)} (f : α → MockLibraryAnswer)
    (hok : ∀ lib' a, checked = .ok (lib', a) → lib'.Sound ∧ Accounted upper lib lib' call ∧ (f a).failed = false) :
    CallLaw upper lib call (ofExcept f (lib.update checked)) := by
  rcases update_cases fun lib' a hc => (hok lib' a hc).1 with ⟨e, herr⟩ | ⟨lib', a, hc, hupd, hs⟩
  · rw [herr]
    exact ⟨h, .of_held rfl, fun _ => rfl⟩
  · rw [hupd]
    obtain ⟨-, hacc, hnot⟩ := hok lib' a hc
    refine ⟨hs, hacc, fun hfail => ?_⟩
    have hfailed : (f a).failed = true := hfail
    simp [hnot] at hfailed

/-- An operation that transfers a cartridge. -/
theorem CallLaw.of_transfer {upper : String → String} {lib : MockLibrary} (h : lib.Sound) {call : MockLibraryCall}
    {src dst : Element} {checked : Except Exn (MockLibrary × OperationResult)}
    (hok : ∀ lib' result, checked = .ok (lib', result) →
      lib'.Sound ∧ result.success = true ∧ Transferred lib lib' src dst) :
    CallLaw upper lib call (ofExcept answered (lib.update checked)) := by
  refine .of_update h answered fun lib' result hc => ?_
  obtain ⟨hs, hsuccess, ht⟩ := hok lib' result hc
  refine ⟨hs, .of_held ?_, by simp [failed, hsuccess]⟩
  rw [ht.contents, Placement.held_transfer ht.free]

/-- Every call keeps the law, under any faults. -/
theorem Sound.call {lib : MockLibrary} (h : lib.Sound) (upper : String → String) (faults : Faults) (call : MockLibraryCall) :
    CallLaw upper lib call (lib.call upper faults call) := by
  cases call with
  | addCartridge slotId text =>
    refine .of_update h _ fun lib' u hc => ?_
    obtain ⟨hs, barcode, hnorm, hheld⟩ := h.addCartridge hc
    refine ⟨hs, ⟨fun b hb hnot => ?_, fun b hb hnot => absurd (hheld ▸ .inr hb) hnot⟩, rfl⟩
    rw [hheld] at hb
    rcases hb with rfl | hb
    · exact ⟨slotId, text, rfl, hnorm⟩
    · exact absurd hb hnot
  | removeCartridge slotId =>
    refine .of_update h _ fun lib' barcode hc => ?_
    obtain ⟨hs, hsource, hheld⟩ := h.removeCartridge hc
    refine ⟨hs, ⟨fun b hb hnot => absurd (hheld ▸ hb).1 hnot, fun b hb hnot => ?_⟩, rfl⟩
    rw [hheld] at hnot
    have hbb : b = barcode := by_contra fun hne => hnot ⟨hb, hne⟩
    exact .inl ⟨slotId, rfl, hbb ▸ hsource⟩
  | load sourceSlot driveId => exact .of_transfer h fun lib' result hc => h.load hc
  | unload driveId targetSlot => exact .of_transfer h fun lib' result hc => h.unload hc
  | move sourceSlot targetSlot =>
    simp only [MockLibrary.call, MockLibrary.move]
    split
    · exact ⟨h, .of_held rfl, fun _ => rfl⟩
    · split
      · exact ⟨h, .of_held rfl, fun _ => rfl⟩
      · exact .of_transfer h fun lib' result hc => h.move hc
  | setDriveMountState driveId mountState =>
    refine .of_update h _ fun lib' u hc => ?_
    obtain ⟨hs, hcontents⟩ := h.setDriveMountState hc
    exact ⟨hs, .of_held (by rw [hcontents]), rfl⟩
  | importCartridge ieSlot targetSlot => exact .of_transfer h fun lib' result hc => h.importCartridge hc
  | exportCartridgeToIe sourceSlot ieSlot => exact .of_transfer h fun lib' result hc => h.exportCartridgeToIe hc
  | exportCartridge barcode =>
    obtain ⟨hs, hheld⟩ := h.exportCartridge barcode
    refine ⟨hs, ⟨fun b hb hnot => absurd (hheld ▸ hb).1 hnot, fun b hb hnot => ?_⟩, fun hfail => ?_⟩
    · have hbb : b = barcode := by_contra fun hne => hnot (hheld ▸ ⟨hb, hne⟩)
      exact .inr (by rw [hbb])
    · cases hfail

/-- A new library holds nothing. -/
theorem contents_new (numSlots numDrives numImportExportSlots : Nat) (e : Element) :
    (new numSlots numDrives numImportExportSlots).contents e = none := by
  cases e with
  | slot i =>
    rw [contents, Option.join_eq_none_iff]
    cases hget : (new numSlots numDrives numImportExportSlots).slots.get? i with
    | none => exact .inl rfl
    | some content =>
      obtain ⟨_, -, heq⟩ := List.mem_map.1 (Dict.mem_of_get? hget)
      exact .inr (by rw [← (Prod.mk.inj heq).2])
  | ieSlot i =>
    rw [contents, Option.join_eq_none_iff]
    cases hget : (new numSlots numDrives numImportExportSlots).ieSlots.get? i with
    | none => exact .inl rfl
    | some content =>
      obtain ⟨_, -, heq⟩ := List.mem_map.1 (Dict.mem_of_get? hget)
      exact .inr (by rw [← (Prod.mk.inj heq).2])
  | drive i =>
    rw [contents]
    cases hget : (new numSlots numDrives numImportExportSlots).drives.get? i with
    | none => rfl
    | some drive =>
      obtain ⟨_, -, heq⟩ := List.mem_map.1 (Dict.mem_of_get? hget)
      rw [← (Prod.mk.inj heq).2]
      rfl

/-- A new library keeps the invariant. -/
theorem sound_new (numSlots numDrives numImportExportSlots : Nat) : (new numSlots numDrives numImportExportSlots).Sound where
  exclusive e e' barcode he := by cases (contents_new numSlots numDrives numImportExportSlots e).symm.trans he
  placed e barcode he := by cases (contents_new numSlots numDrives numImportExportSlots e).symm.trans he
  known barcode state h := by cases h
  coherent d drive h := by
    obtain ⟨_, -, heq⟩ := List.mem_map.1 (Dict.mem_of_get? h)
    rw [← (Prod.mk.inj heq).2]
    exact ⟨rfl, rfl⟩

end MockLibrary

/-- The simulated library as a system that answers calls, each under the faults of the moment. -/
def mockLibrary (upper : String → String) (numSlots numDrives numImportExportSlots : Nat) :
    Automaton (Faults × MockLibraryCall) MockLibraryAnswer where
  State := MockLibrary
  init := .new numSlots numDrives numImportExportSlots
  step lib call := lib.call upper call.1 call.2

/-- What holds of the simulated library after any calls, under any faults, and of the call that comes next. -/
structure MockLibraryLaw (upper : String → String) (lib : MockLibrary) (faults : Faults) (call : MockLibraryCall) : Prop where
  /-- Each barcode occurs in at most one element. -/
  once : ∀ e e' barcode, lib.contents e = some barcode → lib.contents e' = some barcode → e = e'
  /-- A drive is `EMPTY` exactly when it holds no barcode. -/
  empty : ∀ d drive, lib.drives.get? d = some drive → (drive.driveState = .empty ↔ drive.barcode = none)
  /-- A drive whose mount state is not `UNMOUNTED` is loaded. -/
  mounted : ∀ d drive, lib.drives.get? d = some drive → drive.mountState ≠ .unmounted → drive.barcode ≠ none
  /-- A barcode that the call brings into the library is added. -/
  added : ∀ barcode ∈ (lib.call upper faults call).2.contents.held, barcode ∉ lib.contents.held →
    ∃ slotId text, call = .addCartridge slotId text ∧ normalizeBarcode upper text = .ok barcode
  /-- A barcode that the call takes out of the library is removed or exported. -/
  removed : ∀ barcode ∈ lib.contents.held, barcode ∉ (lib.call upper faults call).2.contents.held →
    (∃ slotId, call = .removeCartridge slotId ∧ lib.contents (.slot slotId) = some barcode) ∨ call = .exportCartridge barcode
  /-- A call that fails leaves everything as it was. -/
  atomic : (lib.call upper faults call).1.failed = true → (lib.call upper faults call).2 = lib

/-- The law of the simulated library, over every sequence of calls with any arguments and any faults. -/
theorem mockLibrary_lawful (upper : String → String) (numSlots numDrives numImportExportSlots : Nat)
    (calls : List (Faults × MockLibraryCall)) (faults : Faults) (call : MockLibraryCall) :
    MockLibraryLaw upper
      ((mockLibrary upper numSlots numDrives numImportExportSlots).after (.new numSlots numDrives numImportExportSlots) calls)
      faults call := by
  have hsound : MockLibrary.Sound
      ((mockLibrary upper numSlots numDrives numImportExportSlots).after (.new numSlots numDrives numImportExportSlots) calls) :=
    Automaton.after_keeps (M := mockLibrary upper numSlots numDrives numImportExportSlots) (I := MockLibrary.Sound)
      (fun lib call h => (MockLibrary.Sound.call h upper call.1 call.2).sound)
      (MockLibrary.sound_new numSlots numDrives numImportExportSlots) calls
  have hlaw := hsound.call upper faults call
  refine ⟨hsound.exclusive, ?_, ?_, hlaw.accounted.added, hlaw.accounted.removed, hlaw.atomic⟩
  · intro d drive hget
    have hc := hsound.coherent d drive hget
    unfold MockLibrary.Coherent at hc
    cases hb : drive.barcode <;> simp_all
    grind
  · intro d drive hget hmount hb
    have hc := hsound.coherent d drive hget
    simp only [MockLibrary.Coherent, hb] at hc
    exact hmount hc.2

end OpenBlade
