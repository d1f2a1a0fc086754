import OpenBlade.Simulator.MountGuard

/-!
# Setting the simulated library up

What `reset`, `seed_slots` and `seed_import_export_slots` leave. A reset leaves nothing, and cartridges are added one by one; the
import/export elements are exchanged before they are checked, so the library stays sound only if the check passes.
-/

namespace OpenBlade

open Effects Storage

namespace MockLibrary

/-- A library that passes its check has no cartridge in two elements, and states that go with where the cartridges are. -/
theorem of_validate {lib : MockLibrary} (h : lib.validateInvariants = .ok ()) :
    lib.contents.Exclusive ∧
      ∀ barcode state, lib.cartridgeStates.get? barcode = some state → lib.stateError barcode state = none := by
  unfold validateInvariants at h
  split at h
  · cases h
  · rename_i hfind
    split at h
    · cases h
    · rename_i hstates
      refine ⟨?_, fun barcode state hget => List.findSome?_eq_none_iff.1 hstates _ (Dict.mem_of_get? hget)⟩
      intro e e' barcode he he'
      have hcount : lib.locationCount barcode = 1 := by
        have hone := List.find?_eq_none.1 hfind _ (mem_occupied.2 he)
        simpa using hone
      obtain ⟨x, hx⟩ := List.length_eq_one_iff.1 hcount
      have hmem : e ∈ lib.locations barcode := mem_locations.2 he
      have hmem' : e' ∈ lib.locations barcode := mem_locations.2 he'
      rw [hx, List.mem_singleton] at hmem hmem'
      rw [hmem, hmem']

/-- Nothing is left after a reset. -/
theorem contents_reset (lib : MockLibrary) (e : Element) : lib.reset.contents e = none := by
  cases e with
  | slot i =>
    rw [contents, reset, Dict.get?_mapValues]
    cases lib.slots.get? i <;> rfl
  | ieSlot i =>
    rw [contents, reset, Dict.get?_mapValues]
    cases lib.ieSlots.get? i <;> rfl
  | drive i => exact contents_reset_drive lib i

theorem sound_reset (lib : MockLibrary) : lib.reset.Sound where
  exclusive e e' barcode he := by cases (lib.contents_reset e).symm.trans he
  placed e barcode he := by cases (lib.contents_reset e).symm.trans he
  known barcode state h := by cases h
  coherent d drive h := by
    rw [reset, Dict.get?_mapValues, Option.map_eq_some_iff] at h
    obtain ⟨_, -, rfl⟩ := h
    exact ⟨rfl, rfl⟩

theorem sound_seedSlots (lib : MockLibrary) (upper : String → String) (barcodes : List String) :
    (lib.seedSlots upper barcodes).2.Sound :=
  seedSlots_keeps lib.sound_reset fun _ _ _ h => update_state h fun _ _ hok => (Sound.addCartridge h hok).1

/-- A state by default. -/
theorem get?_setDefaultState (lib : MockLibrary) (content : Option Barcode) (state : CartridgeState) (barcode : Barcode) :
    (lib.setDefaultState content state).cartridgeStates.get? barcode =
      (lib.cartridgeStates.get? barcode).or (if content = some barcode then some state else none) := by
  unfold setDefaultState
  cases content with
  | none => simp
  | some b =>
    dsimp only
    split
    · rename_i hsome
      by_cases hb : b = barcode
      · subst hb
        obtain ⟨st, hst⟩ := Option.isSome_iff_exists.1 hsome
        rw [hst]
        rfl
      · simp [hb]
    · rename_i hnone
      rw [setState, Dict.get?_set]
      by_cases hb : b = barcode
      · subst hb
        simp [Option.not_isSome_iff_eq_none.1 hnone]
      · simp [hb]

theorem get?_setDefaultStates {α : Type} (lib : MockLibrary) (content : α → Option Barcode) (state : CartridgeState) (xs : List α)
    (barcode : Barcode) :
    (xs.foldl (fun lib x => lib.setDefaultState (content x) state) lib).cartridgeStates.get? barcode =
      (lib.cartridgeStates.get? barcode).or (if some barcode ∈ xs.map content then some state else none) := by
  induction xs generalizing lib with
  | nil => simp
  | cons x xs ih =>
    rw [List.foldl_cons, ih, get?_setDefaultState, Option.or_assoc]
    congr 1
    by_cases hs : content x = some barcode
    · simp [hs]
    · have hmem : some barcode ∈ (x :: xs).map content ↔ some barcode ∈ xs.map content := by
        rw [List.map_cons, List.mem_cons]
        exact or_iff_right fun h => hs h.symm
      simp only [hs, if_false, Option.none_or, hmem]

@[simp] theorem contents_setDefaultState (lib : MockLibrary) (content : Option Barcode) (state : CartridgeState) :
    (lib.setDefaultState content state).contents = lib.contents := by
  unfold setDefaultState
  cases content with
  | none => rfl
  | some barcode =>
    dsimp only
    split
    · rfl
    · rw [contents_setState]

theorem contents_setDefaultStates {α : Type} (lib : MockLibrary) (content : α → Option Barcode) (state : CartridgeState)
    (xs : List α) : (xs.foldl (fun lib x => lib.setDefaultState (content x) state) lib).contents = lib.contents := by
  induction xs generalizing lib with
  | nil => rfl
  | cons x xs ih => exact (ih _).trans (contents_setDefaultState ..)

/-- Seeded import/export elements that go with the rest of the library leave it sound. -/
theorem Sound.seedImportExportSlots {lib lib' : MockLibrary} (h : lib.Sound) {upper : String → String}
    {slots : Dict Int (Option String)} {u : Unit} (hok : lib.seedImportExportSlotsUpdate upper slots = .ok (lib', u))
    (hvalid : lib'.validateInvariants = .ok ()) : lib'.Sound := by
  obtain ⟨hexclusive, hstate⟩ := of_validate hvalid
  have hdrives := drives_seedImportExportSlots hok
  obtain ⟨seeded, -, hok⟩ := bind_ok hok
  obtain ⟨rfl, -⟩ := Prod.mk.inj (Except.ok.inj hok)
  have hget := (lib.withIeSlots seeded).get?_setDefaultStates (fun slot => slot.2) .inSlot seeded
  have hcontents := (lib.withIeSlots seeded).contents_setDefaultStates (fun slot => slot.2) .inSlot seeded
  generalize hlib' : seeded.foldl (fun lib slot => lib.setDefaultState slot.2 .inSlot) (lib.withIeSlots seeded) = lib' at *
  -- a cartridge that was known keeps its state
  have hkept : ∀ barcode state, lib.cartridgeStates.get? barcode = some state →
      lib'.cartridgeStates.get? barcode = some state := by
    intro barcode state hst
    rw [hget, show (lib.withIeSlots seeded).cartridgeStates = lib.cartridgeStates from rfl, hst]
    rfl
  -- one that was not known is in a slot
  have hnew : ∀ barcode state, lib.cartridgeStates.get? barcode = none → lib'.cartridgeStates.get? barcode = some state →
      state = .inSlot := by
    intro barcode state hnone hst
    rw [hget, show (lib.withIeSlots seeded).cartridgeStates = lib.cartridgeStates from rfl, hnone, Option.none_or] at hst
    split at hst
    · exact (Option.some.inj hst).symm
    · cases hst
  have helsewhere : ∀ e, (∀ i, e ≠ .ieSlot i) → lib'.contents e = lib.contents e := by
    intro e he
    rw [hcontents]
    cases e with
    | slot i => rfl
    | ieSlot i => exact absurd rfl (he i)
    | drive i => rfl
  have hcount : ∀ e barcode, lib'.contents e = some barcode → lib'.locationCount barcode = 1 := fun e barcode he =>
    count_of_contents hexclusive he
  have hnotMissing : ∀ barcode state, lib'.cartridgeStates.get? barcode = some state → state ≠ .missing := by
    intro barcode state hst
    cases hold : lib.cartridgeStates.get? barcode with
    | none =>
      rw [hnew barcode state hold hst]
      nofun
    | some old =>
      obtain rfl : old = state := Option.some.inj ((hkept barcode old hold).symm.trans hst)
      rcases h.known barcode old hold with ⟨e, he⟩ | rfl
      · rw [Option.some.inj (hold.symm.trans (h.placed e barcode he))]
        cases e <;> nofun
      · nofun
  refine ⟨hexclusive, ?_, ?_, fun d drive hd => h.coherent d drive (hdrives ▸ hd)⟩
  · intro e barcode he
    by_cases hie : ∃ i, e = .ieSlot i
    · obtain ⟨i, rfl⟩ := hie
      have hknown : lib'.cartridgeStates.get? barcode ≠ none := by
        have hmem : some barcode ∈ seeded.map Prod.snd := by
          rw [hcontents] at he
          have hslot : (Dict.ofPairs seeded).get? i = some (some barcode) := Option.join_eq_some_iff.1 he
          exact List.mem_map.2 ⟨(i, some barcode), Dict.mem_of_mem_ofPairs (Dict.mem_of_get? hslot), rfl⟩
        rw [hget, if_pos hmem]
        cases (lib.withIeSlots seeded).cartridgeStates.get? barcode <;> nofun
      obtain ⟨state, hst⟩ := Option.ne_none_iff_exists'.1 hknown
      rw [hst]
      cases hold : lib.cartridgeStates.get? barcode with
      | none =>
        rw [hnew barcode state hold hst]
        rfl
      | some old =>
        obtain rfl : old = state := Option.some.inj ((hkept barcode old hold).symm.trans hst)
        rcases h.known barcode old hold with ⟨e₀, he₀⟩ | rfl
        · rw [Option.some.inj (hold.symm.trans (h.placed e₀ barcode he₀))]
          cases e₀ with
          | slot j => rfl
          | ieSlot j => rfl
          | drive j =>
            have hstill : lib'.contents (.drive j) = some barcode := (helsewhere _ (by nofun)).trans he₀
            cases hexclusive _ _ _ hstill he
        · have herror := hstate barcode .exported hst
          simp [stateError, hcount _ _ he] at herror
    · have hold : lib.contents e = some barcode := (helsewhere e fun i hi => hie ⟨i, hi⟩).symm.trans he
      exact hkept _ _ (h.placed e barcode hold)
  · intro barcode state hst
    by_cases hexp : state = .exported
    · exact .inr hexp
    · left
      by_contra hnot
      have herror := hstate barcode state hst
      have hzero := count_of_not_held hnot
      have hmissing := hnotMissing barcode state hst
      cases state <;> simp_all [stateError]

/-- The import/export elements that an operation seeds go with the rest of the library. -/
def seedsCleanly (upper : String → String) (lib : MockLibrary) : LibraryOperation → Bool
  | .seedImportExportSlots slots =>
    match lib.seedImportExportSlotsUpdate upper slots with
    | .ok (lib', _) => lib'.validateInvariants.isOk
    | .error _ => true
  | _ => true

/-- Every operation keeps a sound library sound, as long as what it seeds goes with the rest. -/
theorem Sound.operate {lib : MockLibrary} (h : lib.Sound) {upper : String → String} {op : LibraryOperation}
    (hseeds : lib.seedsCleanly upper op = true) : (lib.operate upper op).2.Sound := by
  cases op with
  | call faults call => exact (h.call upper faults call).sound
  | reset => exact lib.sound_reset
  | seedSlots barcodes => exact ofExcept_state (lib.sound_seedSlots upper barcodes)
  | seedImportExportSlots slots =>
    refine update_keeps (P := Sound) _ h fun lib' u hok => h.seedImportExportSlots hok ?_
    simp only [seedsCleanly, hok] at hseeds
    cases hv : lib'.validateInvariants with
    | error e => simp [hv, Except.isOk, Except.toBool] at hseeds
    | ok u => rfl

end MockLibrary

end OpenBlade
