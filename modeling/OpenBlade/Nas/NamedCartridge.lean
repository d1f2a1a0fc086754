import OpenBlade.Hardware.Elements
import OpenBlade.Nas.TapeOrchestrator

/-!
# The cartridge a request names

A request that moves media names a cartridge, and may name elements. An import or an export checks that the element holds the
cartridge; a load, an unload or a move takes whatever the named element holds, and completes. So a request moves no other cartridge
than the one it names exactly when no element it names holds another that the library can move.
-/

namespace OpenBlade

open Effects Proc Storage

/-- The requests that move media. -/
def TapeOpType.movesMedia : TapeOpType → Bool
  | .load | .unload | .move | .importMedia | .exportMedia => true
  | .format | .write | .read | .verify | .eject => false

/-- The slot a value of `extras` names. -/
def namedSlot : JsonValue → Option Int
  | .null => none
  | value => (intOf value).toOption

/-- What a request says of the slot it moves from. -/
def sourceValue (request : TapeOpRequest) : JsonValue :=
  extraOr request "source_slot_id" (extraOr request "source_slot" (Catalog.jsonOfNat? request.slotId))

/-- What a request says of the slot it moves to. -/
def destValue (request : TapeOpRequest) : JsonValue :=
  extraOr request "dest_slot_id" (extraOr request "dest_slot" (Catalog.jsonOfNat? request.slotId))

/-- The element a request asks for its cartridge to be taken to. -/
def Destination (request : TapeOpRequest) (dst : Element) : Prop :=
  match request.opType with
  | .load => dst = .drive (request.driveId.getD 0)
  | .unload | .eject => ∃ slotId : Nat, dst = .slot slotId ∧ ∀ given ∈ request.slotId, given = slotId
  | .move => ∃ dest, namedSlot (destValue request) = some dest ∧ dst = .slot dest
  | .importMedia => ∃ slotId : Nat, request.slotId = some slotId ∧ dst = .slot slotId
  | .exportMedia => ∃ ieSlot, requiredInt request "ie_slot" "export" = .ok ieSlot ∧ dst = .ieSlot ieSlot
  | _ => False

namespace Library

/-- The slot `_find_empty_slot` finds. -/
def emptySlot (lib : Library) : Option Nat := (lib.inventory.slots.find? fun slot => slot.2 = none).map Prod.fst

/-- The elements a request takes a cartridge from and to, when it names the one it takes it from. -/
def namedRoute (lib : Library) (request : TapeOpRequest) : Option (Element × Element) :=
  match request.opType with
  | .load => request.slotId.map fun slotId : Nat => (.slot slotId, .drive (request.driveId.getD 0))
  | .unload => request.driveId.bind fun driveId =>
      (request.slotId.or lib.emptySlot).map fun slotId : Nat => (.drive driveId, .slot slotId)
  | .move => (namedSlot (sourceValue request)).bind fun source =>
      (namedSlot (destValue request)).map fun dest => (.slot source, .slot dest)
  | _ => none

/-- The element a valid request takes a cartridge from holds another than the request names, and the library can move it. -/
def MovesAnother (lib : Library) (request : TapeOpRequest) : Prop :=
  validateRequest request = .ok () ∧
    ∃ src dst barcode, lib.namedRoute request = some (src, dst) ∧ lib.CanTransfer src dst barcode ∧ barcode ≠ request.barcode

/-- No cartridge but this one is elsewhere than it was. -/
def OnlyMoved (lib lib' : Library) (barcode : Barcode) : Prop :=
  ∀ other, other ≠ barcode → ¬Placement.Moved lib.contents lib'.contents other

end Library

namespace NamedAux

variable {L : Type} (sha256 : Bytes → String) {lib lib' : Library} {request : TapeOpRequest} {src dst : Element} {said : Bool} {l : L}
  {s : World}

/-- What takes at most the named cartridge moves no other. -/
theorem onlyMoved_of_took {barcode : Barcode} (h : World.Took lib lib' src dst said)
    (hsrc : ∀ b, lib.CanTransfer src dst b → b = barcode) : lib.OnlyMoved lib' barcode := by
  intro other hne
  rcases h with ⟨hsame, -⟩ | ⟨b, hcan, htransfer⟩
  · rw [hsame]
    exact Placement.not_moved _ _
  · rw [htransfer, Placement.moved_transfer (Library.contents_of_free hcan.free), hcan.source]
    exact fun hb => hne (Option.some.inj hb ▸ hsrc b hcan)

theorem onlyMoved_refl {barcode : Barcode} : lib.OnlyMoved lib barcode := fun _ _ => Placement.not_moved _ _

variable {A : Step World Op (fun o => Except Exn o.Ans) → Prop} {P : Element → Library → Prop}

/-- A program that runs alone, in runs whose steps have `A`. -/
abbrev alone (A : Step World Op (fun o => Except Exn o.Ans) → Prop) : Contract World Op (fun o => Except Exn o.Ans) :=
  .alone A fun _ => True

/-- A move that takes no cartridge but the named one to `dst` leaves a library with `P dst`. -/
def Delivers (sha256 : Bytes → String) (A : Step World Op (fun o => Except Exn o.Ans) → Prop) (lib : Library) (barcode : Barcode)
    (P : Element → Library → Prop) : Prop :=
  ∀ (s : World) (c : Choice) (o : LibraryOp) (src dst : Element) (a : o.Ans), s.library = lib → o.route = some (src, dst) →
    (∀ b, lib.CanTransfer src dst b → b = barcode) → A ((machine sha256).step s (.library o) c) →
    (s.exec sha256 (.library o) c).1 = .ok a → P dst (s.exec sha256 (.library o) c).2.library

/-- The library a request is to leave. -/
def Reached (request : TapeOpRequest) (P : Element → Library → Prop) (lib : Library) : Prop :=
  ∃ dst, Destination request dst ∧ P dst lib

/-- A call that leaves the library alone. -/
theorem wp_looks {o : Op} {N : o.Ans → L → World → Prop} {E : Exn → L → World → Prop} (ho : World.touchesLibrary o = false)
    (hlib : s.library = lib) (h : ∀ c a s', (s.exec sha256 o c).1 = .ok a → s'.library = lib → N a l s') (hE : ∀ e s', E e l s') :
    wp (machine sha256) (alone A) (perform o : JobM L o.Ans) N E l s := by
  refine wp_call fun s₁ hr c _ => ?_
  obtain rfl : s = s₁ := hr
  exact ⟨trivial, fun a hans => h c a _ hans ((World.exec_library sha256 ho).trans hlib), fun e _ => hE e _⟩

/-- A call that moves a cartridge of the route, which is the one the request names. -/
theorem wp_moves {o : LibraryOp} {E : Exn → L → World → Prop} (hP : Delivers sha256 A lib request.barcode P)
    (ho : o.route = some (src, dst)) (hdst : Destination request dst) (hlib : s.library = lib)
    (hsrc : ∀ b, lib.CanTransfer src dst b → b = request.barcode) (hE : ∀ e s', E e l s') :
    wp (machine sha256) (alone A) (libraryCall o : JobM L o.Ans) (fun _ l' s' => l' = l ∧ Reached request P s'.library) E l s := by
  refine wp_call fun s₁ hr c hA => ?_
  obtain rfl : s = s₁ := hr
  exact ⟨trivial, fun a hans => ⟨rfl, dst, hdst, hP s c o src dst a hlib ho hsrc hA hans⟩, fun e _ => hE e _⟩

theorem contents_of_findSlot {slotId : Nat} {barcode : Barcode} (h : lib.findSlotByBarcode barcode = some slotId) :
    lib.contents (.slot slotId) = some barcode := by
  show (lib.slotEntry slotId).join = some barcode
  rw [Library.slotEntry_natCast]
  exact Library.stores_of_findSlot h

/-- The cartridge that is taken is the one that was found. -/
theorem eq_of_found {barcode b : Barcode} (h : lib.contents src = some barcode) (hcan : lib.CanTransfer src dst b) : b = barcode :=
  Option.some.inj (hcan.source.symm.trans h)

theorem destination_load (hop : request.opType = .load) : Destination request (.drive (request.driveId.getD 0)) := by
  unfold Destination
  rw [hop]

theorem wp_load (hP : Delivers sha256 A lib request.barcode P) (hop : request.opType = .load)
    (hvalid : validateRequest request = .ok ()) (h : ¬lib.MovesAnother request) (hlib : s.library = lib) :
    wp (machine sha256) (alone A) (orchestratorLoad request : JobM L JsonObject)
      (fun _ l' s' => l' = l ∧ Reached request P s'.library) (fun _ l' _ => l' = l ∧ True) l s := by
  unfold orchestratorLoad
  rw [wp_bind]
  cases hslot : request.slotId with
  | some slotId =>
    rw [Option.map_some, givenOr, wp_pure, wp_bind]
    refine wp_mono (wp_moves sha256 (o := .load slotId (request.driveId.getD 0)) hP rfl (destination_load hop) hlib (fun b hcan => ?_)
      fun _ _ => ⟨rfl, trivial⟩) (fun _ _ _ h => h) fun _ _ _ h => h
    by_contra hne
    exact h ⟨hvalid, _, _, b, by rw [Library.namedRoute, hop, hslot]; rfl, hcan, hne⟩
  | none =>
    rw [Option.map_none, givenOr]
    refine wp_looks sha256 rfl hlib (fun c found s' hans hlib' => ?_) fun _ _ => ⟨rfl, trivial⟩
    have hfound := World.exec_findSlot sha256 hans
    rw [hlib] at hfound
    cases found with
    | none => exact ⟨rfl, trivial⟩
    | some slotId =>
      simp only []
      rw [wp_bind]
      exact wp_moves sha256 (o := .load slotId (request.driveId.getD 0)) hP rfl (destination_load hop) hlib'
        (fun b hcan => eq_of_found (contents_of_findSlot hfound) hcan) fun _ _ => ⟨rfl, trivial⟩

theorem namedSlot_of_intOf {value : JsonValue} {slotId : Int} (h : intOf value = .ok slotId) : namedSlot value = some slotId := by
  unfold namedSlot
  split
  · cases h
  · rw [h]
    rfl

/-- The empty slot that is found. -/
theorem wp_findEmptySlot (hlib : s.library = lib) :
    wp (machine sha256) (alone A) (findEmptySlot : JobM L Nat)
      (fun slotId l' s' => l' = l ∧ s'.library = lib ∧ lib.emptySlot = some slotId) (fun _ l' _ => l' = l ∧ True) l s := by
  unfold findEmptySlot
  rw [wp_bind]
  refine wp_looks sha256 rfl hlib (fun c inv s' hans hlib' => ?_) fun _ _ => ⟨rfl, trivial⟩
  have hinv := World.exec_inventory sha256 hans
  rw [hlib] at hinv
  split
  · exact ⟨rfl, trivial⟩
  · rename_i slot hslot
    refine ⟨rfl, hlib', ?_⟩
    unfold Library.emptySlot
    rw [hinv, hslot]
    rfl

theorem destination_unload (hop : request.opType = .unload ∨ request.opType = .eject) {slotId : Nat}
    (hslot : ∀ given ∈ request.slotId, given = slotId) : Destination request (.slot slotId) := by
  unfold Destination
  rcases hop with hop | hop <;> rw [hop] <;> exact ⟨slotId, rfl, hslot⟩

/-- What is in the drive, if the request names one, is the cartridge it names. -/
theorem wp_unload (hP : Delivers sha256 A lib request.barcode P) (hop : request.opType = .unload ∨ request.opType = .eject)
    (h : ∀ driveId slotId b, request.driveId = some driveId → request.slotId.or lib.emptySlot = some slotId →
      lib.CanTransfer (.drive driveId) (.slot slotId) b → b = request.barcode) (hlib : s.library = lib) :
    wp (machine sha256) (alone A) (orchestratorUnload request : JobM L JsonObject)
      (fun _ l' s' => l' = l ∧ Reached request P s'.library) (fun _ l' _ => l' = l ∧ True) l s := by
  -- whichever drive and slot it is, the cartridge in the drive is the one the request names
  have hrest : ∀ (driveId : Int) (s : World), s.library = lib →
      (∀ slotId b, request.slotId.or lib.emptySlot = some slotId → lib.CanTransfer (.drive driveId) (.slot slotId) b →
        b = request.barcode) →
      wp (machine sha256) (alone A) ((do
        let slotId ← givenOr request.slotId findEmptySlot
        refuseIfLeasedByAnotherJob driveId request.jobId
        let result ← libraryUnload driveId slotId
        pure (operationResult result
          [("barcode", .str request.barcode), ("drive_id", .int driveId), ("slot_id", .int slotId)])) : JobM L JsonObject)
        (fun _ l' s' => l' = l ∧ Reached request P s'.library) (fun _ l' _ => l' = l ∧ True) l s := by
    intro driveId s hlib hnamed
    have hmove : ∀ slotId (s : World), s.library = lib → request.slotId.or lib.emptySlot = some slotId →
        wp (machine sha256) (alone A) ((do
          refuseIfLeasedByAnotherJob driveId request.jobId
          let result ← libraryUnload driveId slotId
          pure (operationResult result
            [("barcode", .str request.barcode), ("drive_id", .int driveId), ("slot_id", .int slotId)])) : JobM L JsonObject)
          (fun _ l' s' => l' = l ∧ Reached request P s'.library) (fun _ l' _ => l' = l ∧ True) l s := by
      intro slotId s hlib hslot
      unfold refuseIfLeasedByAnotherJob
      rw [wp_bind, wp_bind]
      refine wp_looks sha256 rfl hlib (fun c leases s' _ hlib' => ?_) fun _ _ => ⟨rfl, trivial⟩
      split
      · rw [wp_pure, wp_bind]
        refine wp_moves sha256 (o := .unload driveId slotId) hP rfl (destination_unload hop fun given hgiven => ?_) hlib'
          (fun b hcan => hnamed slotId b hslot hcan) fun _ _ => ⟨rfl, trivial⟩
        rw [Option.mem_def.1 hgiven] at hslot
        exact Option.some.inj hslot
      · exact ⟨rfl, trivial⟩
    rw [wp_bind]
    cases hslot : request.slotId with
    | some slotId =>
      rw [givenOr, wp_pure]
      exact hmove slotId s hlib (by rw [hslot, Option.some_or])
    | none =>
      rw [givenOr]
      refine wp_mono (wp_findEmptySlot sha256 hlib) ?_ fun _ _ _ h => h
      intro slotId l' s' hfound
      obtain ⟨rfl, hlib', hempty⟩ := hfound
      exact hmove slotId s' hlib' (by rw [hslot, Option.none_or]; exact hempty)
  unfold orchestratorUnload
  rw [wp_bind]
  cases hdrive : request.driveId with
  | some driveId =>
    rw [Option.map_some, givenOr, wp_pure]
    exact hrest driveId s hlib fun slotId b hslot hcan => h driveId slotId b hdrive hslot hcan
  | none =>
    rw [Option.map_none, givenOr]
    refine wp_looks sha256 rfl hlib (fun c found s' hans hlib' => ?_) fun _ _ => ⟨rfl, trivial⟩
    have hfound := World.exec_findDrive sha256 hans
    rw [hlib] at hfound
    cases found with
    | none => exact ⟨rfl, trivial⟩
    | some driveId =>
      have hsource : lib.contents (.drive driveId) = some request.barcode := Library.holds_of_find hfound
      exact hrest driveId s' hlib' fun slotId b _ hcan => eq_of_found hsource hcan

/-- The slot a move takes from: one the request names, or the one its cartridge was found in. -/
theorem wp_sourceSlot (hlib : s.library = lib) :
    wp (machine sha256) (alone A) (sourceSlot request : JobM L Int)
      (fun source l' s' => l' = l ∧ s'.library = lib ∧
        (namedSlot (sourceValue request) = some source ∨ lib.contents (.slot source) = some request.barcode))
      (fun _ l' _ => l' = l ∧ True) l s := by
  unfold sourceSlot
  rw [show extraOr request "source_slot_id" _ = sourceValue request from rfl]
  split
  · rw [wp_bind]
    refine wp_looks sha256 rfl hlib (fun c found s' hans hlib' => ?_) fun _ _ => ⟨rfl, trivial⟩
    have hfound := World.exec_findSlot sha256 hans
    rw [hlib] at hfound
    cases found with
    | none => exact ⟨rfl, trivial⟩
    | some slotId => exact ⟨rfl, hlib', .inr (contents_of_findSlot hfound)⟩
  · rw [wp_ofExcept]
    cases hint : intOf (sourceValue request) with
    | error e => exact ⟨rfl, trivial⟩
    | ok source => exact ⟨rfl, hlib, .inl (namedSlot_of_intOf hint)⟩

/-- The slot a move takes to is one the request names. -/
theorem wp_destSlot (hlib : s.library = lib) :
    wp (machine sha256) (alone A) (destSlot request : JobM L Int)
      (fun dest l' s' => l' = l ∧ s'.library = lib ∧
        namedSlot (destValue request) = some dest)
      (fun _ l' _ => l' = l ∧ True) l s := by
  unfold destSlot
  rw [show extraOr request "dest_slot_id" _ = destValue request from rfl]
  split
  · exact ⟨rfl, trivial⟩
  · rw [wp_bind, wp_ofExcept]
    cases hint : intOf (destValue request) with
    | error e => exact ⟨rfl, trivial⟩
    | ok dest =>
      simp only []
      rw [wp_bind]
      refine wp_looks sha256 rfl hlib (fun c inv s' _ hlib' => ?_) fun _ _ => ⟨rfl, trivial⟩
      split
      · exact ⟨rfl, hlib', namedSlot_of_intOf hint⟩
      · exact ⟨rfl, trivial⟩

theorem wp_move (hP : Delivers sha256 A lib request.barcode P) (hop : request.opType = .move) (hvalid : validateRequest request = .ok ()) (h : ¬lib.MovesAnother request)
    (hlib : s.library = lib) :
    wp (machine sha256) (alone A) (orchestratorMove request : JobM L JsonObject)
      (fun _ l' s' => l' = l ∧ Reached request P s'.library) (fun _ l' _ => l' = l ∧ True) l s := by
  unfold orchestratorMove
  rw [wp_bind]
  refine wp_mono (wp_sourceSlot sha256 hlib) ?_ fun _ _ _ h => h
  intro source l' s' hsource
  obtain ⟨rfl, hlib', hsource⟩ := hsource
  rw [wp_bind]
  refine wp_mono (wp_destSlot sha256 hlib') ?_ fun _ _ _ h => h
  intro dest l' s' hdest
  obtain ⟨rfl, hlib', hdest⟩ := hdest
  rw [wp_bind]
  have hdestination : Destination request (.slot dest) := by
    unfold Destination
    rw [hop]
    exact ⟨dest, hdest, rfl⟩
  refine wp_moves sha256 (o := .move source dest) hP rfl hdestination hlib' (fun b hcan => ?_) fun _ _ => ⟨rfl, trivial⟩
  rcases hsource with hsource | hsource
  · by_contra hne
    refine h ⟨hvalid, _, _, b, ?_, hcan, hne⟩
    simp only [Library.namedRoute, hop, hsource, hdest, Option.bind_some, Option.map_some]
  · exact eq_of_found hsource hcan

/-! ### Imports and exports -/

/-- What leaves the library alone. -/
theorem stable_library (J : Library → Prop) :
    Stable (machine sha256) (alone A) (fun o => World.touchesLibrary o = false) fun s => J s.library := by
  intro o ho s s₁ c hJ hr _
  obtain rfl : s = s₁ := hr
  refine ⟨trivial, ?_⟩
  show J (s.exec sha256 o c).2.library
  rwa [World.exec_library sha256 ho]

theorem untouched_of_isRowOf {o : Op} (h : o.isRowOf request = true) : World.touchesLibrary o = false := by
  unfold Op.isRowOf at h
  split at h
  · rfl
  · rfl
  · cases h

/-- Calls that leave the library alone leave alone what is true of it. -/
theorem wp_library {α : Type} {m : JobM L α} (hm : Reads (fun o => World.touchesLibrary o = false) m) (J : Library → Prop)
    (hJ : J s.library) :
    wp (machine sha256) (alone A) m (fun _ l' s' => l' = l ∧ J s'.library) (fun _ l' _ => l' = l ∧ True) l s :=
  wp_mono (hm.keeps (stable_library sha256 J) hJ) (fun _ _ _ h => ⟨h.1.symm, h.2⟩) fun _ _ _ h => ⟨h.1.symm, trivial⟩

theorem wp_requireMailslot (hlib : s.library = lib) :
    wp (machine sha256) (alone A) (requireMailslot : JobM L Unit) (fun _ l' s' => l' = l ∧ s'.library = lib) (fun _ l' _ => l' = l ∧ True)
      l s :=
  wp_library sha256 (reads_requireMailslot (P := fun o => World.touchesLibrary o = false) rfl) (fun lib' => lib' = lib) hlib

theorem wp_requireIeElement (hlib : s.library = lib) (ieSlot : Int) :
    wp (machine sha256) (alone A) (requireIeElement ieSlot : JobM L (Option Barcode))
      (fun content l' s' => l' = l ∧ s'.library = lib ∧ lib.contents (.ieSlot ieSlot) = content) (fun _ l' _ => l' = l ∧ True) l s := by
  unfold requireIeElement
  rw [wp_bind]
  refine wp_looks sha256 rfl hlib (fun c elements s' hans hlib' => ?_) fun _ _ => ⟨rfl, trivial⟩
  have helements : lib.ieSlots.getD [] = elements := by
    rw [← hlib]
    exact Except.ok.inj (World.exec_ok sha256 hans).1
  split
  · exact ⟨rfl, trivial⟩
  · rename_i content hcontent
    refine ⟨rfl, hlib', ?_⟩
    show ((lib.ieSlots.getD []).get? ieSlot).join = content
    rw [helements, hcontent, Option.join_some]

theorem wp_import (hP : Delivers sha256 A lib request.barcode P) (hop : request.opType = .importMedia) (hlib : s.library = lib) :
    wp (machine sha256) (alone A) (orchestratorImport request : JobM L JsonObject)
      (fun _ l' s' => l' = l ∧ Reached request P s'.library) (fun _ l' _ => l' = l ∧ True) l s := by
  unfold orchestratorImport
  rw [wp_bind]
  refine wp_mono (wp_requireMailslot sha256 hlib) ?_ fun _ _ _ h => h
  intro _ l' s' h
  obtain ⟨rfl, hlib⟩ := h
  rw [wp_bind, wp_ofExcept]
  cases requiredInt request "ie_slot" "import" with
  | error e => exact ⟨rfl, trivial⟩
  | ok ieSlot =>
    simp only []
    rw [wp_bind]
    refine wp_mono (wp_requireIeElement sha256 hlib ieSlot) ?_ fun _ _ _ h => h
    intro content l' s' h
    obtain ⟨rfl, hlib, hcontent⟩ := h
    cases content with
    | none => exact ⟨rfl, trivial⟩
    | some source =>
      simp only []
      split
      · exact ⟨rfl, trivial⟩
      rename_i hsource
      rw [not_not.1 hsource] at hcontent
      cases htarget : request.slotId with
      | none => exact ⟨rfl, trivial⟩
      | some targetSlot =>
        simp only []
        rw [wp_bind]
        refine wp_mono (wp_library sha256 (reads_requireStorageSlot (P := fun o => World.touchesLibrary o = false) rfl targetSlot) (fun lib' => lib' = lib) hlib) ?_ fun _ _ _ h => h
        intro occupant l' s' h
        obtain ⟨rfl, hlib⟩ := h
        cases occupant with
        | some occupant => exact ⟨rfl, trivial⟩
        | none =>
          simp only []
          rw [wp_bind]
          have hdestination : Destination request (.slot targetSlot) := by
            unfold Destination
            rw [hop]
            exact ⟨targetSlot, htarget, rfl⟩
          refine wp_mono (wp_moves sha256 (o := .importCartridge ieSlot targetSlot) hP rfl hdestination hlib
            (fun b hcan => eq_of_found hcontent hcan) fun _ _ => ⟨rfl, trivial⟩) ?_ fun _ _ _ h => h
          intro result l' s' h
          obtain ⟨rfl, hmoved⟩ := h
          rw [wp_bind]
          exact wp_library sha256 (reads_recordCartridgeState (fun _ _ => rfl) (fun _ _ => rfl) _ _) (Reached request P) hmoved

theorem wp_export (hP : Delivers sha256 A lib request.barcode P) (hop : request.opType = .exportMedia) (hlib : s.library = lib) :
    wp (machine sha256) (alone A) (orchestratorExport request : JobM L JsonObject)
      (fun _ l' s' => l' = l ∧ Reached request P s'.library) (fun _ l' _ => l' = l ∧ True) l s := by
  unfold orchestratorExport
  rw [wp_bind]
  refine wp_mono (wp_requireMailslot sha256 hlib) ?_ fun _ _ _ h => h
  intro _ l' s' h
  obtain ⟨rfl, hlib⟩ := h
  rw [wp_bind]
  refine wp_looks sha256 rfl hlib (fun c found s' hans hlib' => ?_) fun _ _ => ⟨rfl, trivial⟩
  have hfound := World.exec_findSlot sha256 hans
  rw [hlib] at hfound
  cases found with
  | none => exact ⟨rfl, trivial⟩
  | some source =>
    simp only []
    split
    · exact ⟨rfl, trivial⟩
    have hguard : Reads (fun o => World.touchesLibrary o = false) (guardExport request : JobM L Unit) :=
      reads_guardExport (fun _ h => World.touchesLibrary_of_isRead h.2) request
    rw [wp_bind]
    refine wp_mono (wp_library sha256 hguard (fun lib' => lib' = lib) hlib') ?_ fun _ _ _ h => h
    intro _ l' s' h
    obtain ⟨rfl, hlib⟩ := h
    rw [wp_bind, wp_ofExcept]
    cases hie : requiredInt request "ie_slot" "export" with
    | error e => exact ⟨rfl, trivial⟩
    | ok ieSlot =>
      simp only []
      rw [wp_bind]
      refine wp_mono (wp_requireIeElement sha256 hlib ieSlot) ?_ fun _ _ _ h => h
      intro content l' s' h
      obtain ⟨rfl, hlib, -⟩ := h
      cases content with
      | some occupant => exact ⟨rfl, trivial⟩
      | none =>
        simp only []
        rw [wp_bind]
        have hdestination : Destination request (.ieSlot ieSlot) := by
          unfold Destination
          rw [hop]
          exact ⟨ieSlot, hie, rfl⟩
        refine wp_mono (wp_moves sha256 (o := .exportCartridgeToIe source ieSlot) hP rfl hdestination hlib
          (fun b hcan => eq_of_found (contents_of_findSlot hfound) hcan) fun _ _ => ⟨rfl, trivial⟩) ?_ fun _ _ _ h => h
        intro result l' s' h
        obtain ⟨rfl, hmoved⟩ := h
        rw [wp_bind]
        exact wp_library sha256 (reads_recordCartridgeState (fun _ _ => rfl) (fun _ _ => rfl) _ _) (Reached request P) hmoved

/-- The operation of a valid request takes no other cartridge than the one it names. -/
theorem wp_dispatch (hP : Delivers sha256 A lib request.barcode P) (hmedia : request.opType.movesMedia = true)
    (hvalid : validateRequest request = .ok ()) (h : ¬lib.MovesAnother request) (hlib : s.library = lib) :
    wp (machine sha256) (alone A) (dispatch request : JobM L JsonObject)
      (fun _ l' s' => l' = l ∧ Reached request P s'.library) (fun _ l' _ => l' = l ∧ True) l s := by
  unfold dispatch
  cases hop : request.opType with
  | load => exact wp_load sha256 hP hop hvalid h hlib
  | unload =>
    refine wp_unload sha256 hP (.inl hop) (fun driveId slotId b hdrive hslot hcan => ?_) hlib
    by_contra hne
    refine h ⟨hvalid, _, _, b, ?_, hcan, hne⟩
    simp only [Library.namedRoute, hop, hdrive, Option.bind_some, hslot, Option.map_some]
  | move => exact wp_move sha256 hP hop hvalid h hlib
  | importMedia => exact wp_import sha256 hP hop hlib
  | exportMedia => exact wp_export sha256 hP hop hlib
  | format | write | read | verify | eject =>
    rw [hop] at hmedia
    cases hmedia

/-- A request whose row is not failed leaves what its operation leaves, and one that is to raise returns no failed row. -/
theorem wp_request {J : Library → Prop} (hlib : s.library = lib)
    (hd : validateRequest request = .ok () → ∀ s, s.library = lib → wp (machine sha256) (alone A) (dispatch request : JobM L JsonObject)
      (fun _ l' s' => l' = l ∧ J s'.library) (fun _ l' _ => l' = l ∧ True) l s) (raiseOnFailed : Bool) :
    wp (machine sha256) (alone A) (executeTapeRequest request raiseOnFailed : JobM L TapeOpRecord)
      (fun record _ s' => (record.status ≠ .failed → J s'.library) ∧ (raiseOnFailed = true → record.status ≠ .failed))
      (fun _ _ _ => True) l s := by
  unfold executeTapeRequest
  rw [wp_bind]
  have hop : wp (machine sha256) (alone A) (executeTapeOp request : JobM L TapeOpRecord)
      (fun record _ s' => record.status ≠ .failed → J s'.library) (fun _ _ _ => True) l s := by
    cases hvalid : validateRequest request with
    | error e =>
      unfold executeTapeOp
      rw [wp_bind, hvalid]
      trivial
    | ok u =>
      have hrow : ∀ J : Library → Prop, Stable (machine sha256) (alone A) (fun o => o.isRowOf request = true) fun s => J s.library :=
        fun J o ho => stable_library sha256 J o (untouched_of_isRowOf ho)
      have hvalidate : ∀ s, s.library = lib → wp (machine sha256) (alone A) (validateMove request : JobM L Unit)
          (fun _ l' s' => l' = l ∧ s'.library = lib) (fun _ l' s' => l' = l ∧ s'.library = lib) l s := by
        intro s hlib
        have hreads : Reads (fun o => World.touchesLibrary o = false) (validateMove request : JobM L Unit) :=
          reads_validateMove (P := fun o => World.touchesLibrary o = false) (fun _ => rfl) rfl request
        refine wp_mono (hreads.keeps (stable_library sha256 fun lib' => lib' = lib) hlib) ?_ ?_
        · exact fun _ _ _ h => ⟨h.1.symm, h.2⟩
        · exact fun _ _ _ h => ⟨h.1.symm, h.2⟩
      refine wp_mono (wp_executeTapeOp (I := fun s => s.library = lib) (honest_machine sha256) hvalidate (hrow fun lib' => lib' = lib)
        (hrow J) (hrow fun _ => True) hlib (hd hvalid)) ?_ fun _ _ _ _ => trivial
      intro record l' s' hend hnot
      rcases hend.2 with hreached | ⟨hfailed, -⟩
      · exact hreached
      · exact absurd hfailed hnot
  refine wp_mono hop ?_ fun _ _ _ _ => trivial
  intro record l' s' hrecord
  by_cases hfailed : raiseOnFailed = true ∧ record.status = .failed
  · rw [if_pos hfailed]
    trivial
  · rw [if_neg hfailed]
    exact ⟨hrecord, fun hraise h => hfailed ⟨hraise, h⟩⟩

/-- A call that takes at most the named cartridge moves no other. -/
theorem delivers_onlyMoved (barcode : Barcode) :
    Delivers sha256 (fun _ => True) lib barcode fun _ lib' => lib.OnlyMoved lib' barcode := by
  intro s c o src dst a hlib ho hsrc _ _
  have htook := World.exec_route (w := s) sha256 (c := c) ho
  rw [hlib] at htook
  exact onlyMoved_of_took htook hsrc

/-! ### A run that moves another cartridge -/

/-- All is well, and time passes. -/
def patient (n : Nat) : Choice := { elapsed := n }

/-- The library is this one, the row of the request is there, if there is to be one, and after `n` no lease is live. -/
structure Ready (n : Nat) (row : Option Nat) (lib : Library) (s : World) : Prop where
  library : s.library = lib
  logged : ∀ opId, row = some opId → ∃ entry ∈ s.catalog.tapeOps, entry.opId = opId
  expired : ∀ lease ∈ s.catalog.leases.rows, lease.expiresAt ≤ s.clock + n

variable {opId n : Nat} {row : Option Nat} {barcode : Barcode} {E : Exn → L → World → Prop}

/-- A run in which the environment is patient at every call. -/
abbrev patiently (n : Nat) : Contract World Op (fun o => Except Exn o.Ans) := .fixed (machine sha256) (patient n)

theorem Ready.elapse (h : Ready n row lib s) : Ready n row lib (s.elapse (patient n)) :=
  ⟨h.library, h.logged, fun lease hl => Int.le_trans (h.expired lease hl) (by show s.clock + n ≤ s.clock + (n : Int) + n; omega)⟩

/-- The row of a request is updated. -/
theorem wp_updateTapeOp (h : Ready n (some opId) lib s) (update : Catalog.TapeOpUpdate) :
    wp (machine sha256) (patiently sha256 n) (updateTapeOp opId update : JobM L (Option TapeOpRecord))
      (fun entry l' s' => l' = l ∧ Ready n (some opId) lib s' ∧ ∃ r now, entry = some (update.apply now r)) E l s := by
  have h' := h.elapse
  obtain ⟨entry, hentry, hid⟩ := h.logged opId rfl
  obtain ⟨found, hfound⟩ := Option.isSome_iff_exists.1
    (List.find?_isSome.2 ⟨entry, hentry, decide_eq_true hid⟩ : (s.catalog.tapeOps.find? fun row => row.opId = opId).isSome)
  have hfoundId : found.opId = opId := by simpa using List.find?_some hfound
  have hupd : (s.elapse (patient n)).catalog.updateTapeOp (s.elapse (patient n)).clock opId update =
      (some (update.apply (s.elapse (patient n)).clock found),
        { (s.elapse (patient n)).catalog with
          tapeOps := s.catalog.tapeOps.map fun r => if r.opId = opId then update.apply (s.elapse (patient n)).clock r else r }) := by
    unfold Catalog.updateTapeOp
    rw [show (s.elapse (patient n)).catalog.tapeOps = s.catalog.tapeOps from rfl, hfound]
  have hexec : (machine sha256).exec s (.catalog (.updateTapeOp opId update)) (patient n) =
      (.ok ((s.elapse (patient n)).catalog.updateTapeOp (s.elapse (patient n)).clock opId update).1, { s.elapse (patient n) with
        catalog := ((s.elapse (patient n)).catalog.updateTapeOp (s.elapse (patient n)).clock opId update).2 }) := rfl
  rw [hupd] at hexec
  refine wp_fixed hexec ⟨rfl, ⟨h'.library, ?_, h'.expired⟩, found, _, rfl⟩
  rintro _ ⟨⟩
  refine ⟨update.apply (s.elapse (patient n)).clock found, ?_, ?_⟩
  · exact List.mem_map.2 ⟨found, List.mem_of_find?_eq_some hfound, by rw [if_pos hfoundId]⟩
  · rw [← hfoundId]
    cases update <;> rfl

/-- A call that moves a cartridge moves the cartridge it can. -/
theorem wp_transfer {o : LibraryOp} (ho : o.route = some (src, dst)) (h : Ready n row lib s) (hcan : lib.CanTransfer src dst barcode) :
    wp (machine sha256) (patiently sha256 n) (libraryCall o : JobM L o.Ans)
      (fun _ l' s' => l' = l ∧ ∃ lib', Ready n row lib' s' ∧ lib'.contents = lib.contents.transfer src dst) E l s := by
  have h' := h.elapse
  have hlib : (s.elapse (patient n)).library = lib := h'.library
  have hdone : ∀ {done : Except Exn OperationResult × Library}, lib.Transfers src dst done →
      ∃ result lib', done = (.ok result, lib') ∧ lib'.contents = lib.contents.transfer src dst := by
    intro done ht
    obtain ⟨result, lib', hok⟩ := ht.able barcode hcan
    rcases ht.cases with ⟨e, he⟩ | ⟨b, message, lib'', he, -, hc⟩
    · rw [hok] at he
      cases he
    · exact ⟨_, _, he, hc⟩
  have hend : ∀ {o : LibraryOp} {a : o.Ans} {lib' : Library}, lib'.contents = lib.contents.transfer src dst →
      (machine sha256).exec s (.library o) (patient n) = (.ok a, { s.elapse (patient n) with library := lib' }) →
      wp (machine sha256) (patiently sha256 n) (libraryCall o : JobM L o.Ans)
        (fun _ l' s' => l' = l ∧ ∃ lib', Ready n row lib' s' ∧ lib'.contents = lib.contents.transfer src dst) E l s :=
    fun hc hexec => wp_fixed hexec ⟨rfl, _, ⟨rfl, h'.logged, h'.expired⟩, hc⟩
  cases o with
  | load sourceSlot driveId =>
    obtain ⟨rfl, rfl⟩ := Prod.mk.inj (Option.some.inj ho)
    obtain ⟨result, lib', hok, hc⟩ := hdone (Library.load_transfers sourceSlot driveId)
    refine hend (a := result) hc ?_
    show (((s.elapse (patient n)).library.load sourceSlot driveId).1, { s.elapse (patient n) with
      library := ((s.elapse (patient n)).library.load sourceSlot driveId).2 }) = _
    rw [hlib, hok]
    rfl
  | unload driveId targetSlot =>
    obtain ⟨rfl, rfl⟩ := Prod.mk.inj (Option.some.inj ho)
    obtain ⟨result, lib', hok, hc⟩ := hdone (Library.unload_transfers driveId targetSlot)
    refine hend (a := result) hc ?_
    show (((s.elapse (patient n)).library.unload driveId targetSlot).1, { s.elapse (patient n) with
      library := ((s.elapse (patient n)).library.unload driveId targetSlot).2 }) = _
    rw [hlib, hok]
    rfl
  | move sourceSlot targetSlot =>
    obtain ⟨rfl, rfl⟩ := Prod.mk.inj (Option.some.inj ho)
    obtain ⟨result, lib', hok, hc⟩ := hdone (Library.move_transfers sourceSlot targetSlot)
    refine hend (a := result) hc ?_
    show (((s.elapse (patient n)).library.move sourceSlot targetSlot).1, { s.elapse (patient n) with
      library := ((s.elapse (patient n)).library.move sourceSlot targetSlot).2 }) = _
    rw [hlib, hok]
    rfl
  | importCartridge ieSlot targetSlot =>
    obtain ⟨rfl, rfl⟩ := Prod.mk.inj (Option.some.inj ho)
    obtain ⟨result, lib', hok, hc⟩ := hdone (Library.importCartridge_transfers ieSlot targetSlot)
    refine hend (a := result) hc ?_
    show (((s.elapse (patient n)).library.importCartridge ieSlot targetSlot).1, { s.elapse (patient n) with
      library := ((s.elapse (patient n)).library.importCartridge ieSlot targetSlot).2 }) = _
    rw [hlib, hok]
    rfl
  | exportCartridgeToIe sourceSlot ieSlot =>
    obtain ⟨rfl, rfl⟩ := Prod.mk.inj (Option.some.inj ho)
    obtain ⟨result, lib', hok, hc⟩ := hdone (Library.exportCartridgeToIe_transfers sourceSlot ieSlot)
    refine hend (a := result) hc ?_
    show (((s.elapse (patient n)).library.exportCartridgeToIe sourceSlot ieSlot).1, { s.elapse (patient n) with
      library := ((s.elapse (patient n)).library.exportCartridgeToIe sourceSlot ieSlot).2 }) = _
    rw [hlib, hok]
    rfl
  | _ => cases ho

theorem wp_inventory (h : Ready n row lib s) :
    wp (machine sha256) (patiently sha256 n) (inventory : JobM L LibraryInventory)
      (fun inv l' s' => l' = l ∧ Ready n row lib s' ∧ inv = lib.inventory) E l s := by
  have hexec : (machine sha256).exec s (.library .inventory) (patient n) = (.ok s.library.inventory, s.elapse (patient n)) := rfl
  exact wp_fixed hexec ⟨rfl, h.elapse, by rw [h.library]⟩

/-- No lease is live, so the drive is nobody's. -/
theorem wp_refuseIfLeased (h : Ready n row lib s) (driveId : Int) (jobId : Option JobId) :
    wp (machine sha256) (patiently sha256 n) (refuseIfLeasedByAnotherJob driveId jobId : JobM L Unit)
      (fun _ l' s' => l' = l ∧ Ready n row lib s') E l s := by
  have hnone : LeaseStore.liveLeases (s.elapse (patient n)).catalog.leases (s.elapse (patient n)).clock = [] := by
    refine List.filter_eq_nil_iff.2 fun lease hlease => ?_
    have hexpired : lease.expiresAt ≤ (s.elapse (patient n)).clock := h.expired lease hlease
    simp [DriveLease.live, Int.not_lt.2 hexpired]
  unfold refuseIfLeasedByAnotherJob
  rw [wp_bind]
  have hexec : (machine sha256).exec s (.lease .liveLeases) (patient n) =
      (.ok (LeaseStore.liveLeases (s.elapse (patient n)).catalog.leases (s.elapse (patient n)).clock), s.elapse (patient n)) := rfl
  rw [hnone] at hexec
  exact wp_fixed hexec ⟨rfl, h.elapse⟩

theorem intOf_of_namedSlot {value : JsonValue} {slotId : Int} (h : namedSlot value = some slotId) :
    value ≠ .null ∧ intOf value = .ok slotId := by
  unfold namedSlot at h
  split at h
  · cases h
  · rename_i hnull
    refine ⟨hnull, ?_⟩
    cases hint : intOf value with
    | error e =>
      rw [hint] at h
      cases h
    | ok i =>
      rw [hint] at h
      exact congrArg Except.ok (Option.some.inj h)

theorem wp_sourceSlot_named {source : Int} (hsource : namedSlot (sourceValue request) = some source) (h : Ready n row lib s) :
    wp (machine sha256) (patiently sha256 n) (sourceSlot request : JobM L Int)
      (fun slotId l' s' => l' = l ∧ slotId = source ∧ Ready n row lib s') E l s := by
  obtain ⟨hnull, hint⟩ := intOf_of_namedSlot hsource
  unfold sourceSlot
  rw [show extraOr request "source_slot_id" _ = sourceValue request from rfl]
  split
  · contradiction
  · rw [hint]
    exact ⟨rfl, rfl, h⟩

theorem wp_destSlot_named {dest : Int} (hdest : namedSlot (destValue request) = some dest) (hfree : lib.Free (.slot dest))
    (h : Ready n row lib s) :
    wp (machine sha256) (patiently sha256 n) (destSlot request : JobM L Int)
      (fun slotId l' s' => l' = l ∧ slotId = dest ∧ Ready n row lib s') E l s := by
  obtain ⟨hnull, hint⟩ := intOf_of_namedSlot hdest
  unfold destSlot
  rw [show extraOr request "dest_slot_id" _ = destValue request from rfl]
  split
  · contradiction
  · rw [hint, wp_bind, wp_ofExcept]
    simp only []
    rw [wp_bind]
    refine wp_mono (wp_inventory sha256 h) ?_ fun _ _ _ h => h
    intro inv l' s' h'
    obtain ⟨rfl, h', rfl⟩ := h'
    have hentry : lib.slotEntry dest = some none := hfree
    have hget : lib.slots.get? dest.toNat = some none := by
      rw [← Library.slotEntry_natCast, Library.natCast_toNat_of_slotEntry hentry]
      exact hentry
    have hknown : ((lib.inventory.slots.map Prod.fst).any fun slot => (slot : Int) = dest) = true := by
      refine List.any_eq_true.2 ⟨dest.toNat, List.mem_map.2 ⟨_, Dict.mem_of_get? hget, rfl⟩, ?_⟩
      exact decide_eq_true (Library.natCast_toNat_of_slotEntry hentry)
    rw [if_pos hknown]
    exact ⟨rfl, rfl, h'⟩

/-- The operation takes the cartridge from the element that is named. -/
theorem wp_dispatch_named (hroute : lib.namedRoute request = some (src, dst)) (hcan : lib.CanTransfer src dst barcode)
    (h : Ready n row lib s) :
    wp (machine sha256) (patiently sha256 n) (dispatch request : JobM L JsonObject)
      (fun _ l' s' => l' = l ∧ ∃ lib', Ready n row lib' s' ∧ lib'.contents = lib.contents.transfer src dst) E l s := by
  unfold dispatch
  cases hop : request.opType with
  | load =>
    simp only [Library.namedRoute, hop, Option.map_eq_some_iff] at hroute
    obtain ⟨slotId, hslot, hpair⟩ := hroute
    simp only [orchestratorLoad, hslot, Option.map_some, givenOr]
    rw [wp_bind, wp_pure, wp_bind]
    exact wp_transfer sha256 (o := .load slotId (request.driveId.getD 0)) (congrArg some hpair) h hcan
  | unload =>
    simp only [Library.namedRoute, hop, Option.bind_eq_some_iff, Option.map_eq_some_iff] at hroute
    obtain ⟨driveId, hdrive, slotId, hslot, hpair⟩ := hroute
    have hrest : ∀ s, Ready n row lib s → wp (machine sha256) (patiently sha256 n) ((do
        refuseIfLeasedByAnotherJob driveId request.jobId
        let result ← libraryUnload driveId slotId
        pure (operationResult result
          [("barcode", .str request.barcode), ("drive_id", .int driveId), ("slot_id", .int slotId)])) : JobM L JsonObject)
        (fun _ l' s' => l' = l ∧ ∃ lib', Ready n row lib' s' ∧ lib'.contents = lib.contents.transfer src dst) E l s := by
      intro s h
      rw [wp_bind]
      refine wp_mono (wp_refuseIfLeased sha256 h _ _) ?_ fun _ _ _ h => h
      intro _ l' s' h'
      obtain ⟨rfl, h'⟩ := h'
      rw [wp_bind]
      exact wp_transfer sha256 (o := .unload driveId slotId) (congrArg some hpair) h' hcan
    simp only [orchestratorUnload, hdrive, Option.map_some, givenOr]
    rw [wp_bind, wp_pure]
    simp only []
    rw [wp_bind]
    cases hgiven : request.slotId with
    | some given =>
      rw [hgiven, Option.some_or] at hslot
      obtain rfl := Option.some.inj hslot
      exact hrest s h
    | none =>
      rw [hgiven, Option.none_or] at hslot
      simp only [findEmptySlot]
      rw [wp_bind]
      refine wp_mono (wp_inventory sha256 h) ?_ fun _ _ _ h => h
      intro inv l' s' h'
      obtain ⟨rfl, h', rfl⟩ := h'
      unfold Library.emptySlot at hslot
      obtain ⟨slot, hfind, rfl⟩ := Option.map_eq_some_iff.1 hslot
      rw [hfind]
      exact hrest s' h'
  | move =>
    simp only [Library.namedRoute, hop, Option.bind_eq_some_iff, Option.map_eq_some_iff] at hroute
    obtain ⟨source, hsource, dest, hdest, hpair⟩ := hroute
    obtain ⟨rfl, rfl⟩ := Prod.mk.inj hpair
    show wp _ _ (orchestratorMove request) _ _ l s
    unfold orchestratorMove
    rw [wp_bind]
    refine wp_mono (wp_sourceSlot_named sha256 hsource h) ?_ fun _ _ _ h => h
    intro _ l' s' h'
    obtain ⟨rfl, rfl, h'⟩ := h'
    rw [wp_bind]
    refine wp_mono (wp_destSlot_named sha256 hdest hcan.free h') ?_ fun _ _ _ h => h
    intro _ l' s' h'
    obtain ⟨rfl, rfl, h'⟩ := h'
    rw [wp_bind]
    exact wp_transfer sha256 (o := .move _ _) rfl h' hcan
  | _ =>
    simp only [Library.namedRoute, hop] at hroute
    cases hroute

/-- Time enough for every lease to expire. -/
theorem exists_patience (s : World) : ∃ n : Nat, ∀ lease ∈ s.catalog.leases.rows, lease.expiresAt ≤ s.clock + n := by
  generalize s.catalog.leases.rows = rows
  induction rows with
  | nil => exact ⟨0, by simp⟩
  | cons row rows ih =>
    obtain ⟨n, hn⟩ := ih
    refine ⟨max n (row.expiresAt - s.clock).toNat, fun lease hl => ?_⟩
    rcases List.mem_cons.1 hl with rfl | hl
    · omega
    · have := hn lease hl
      omega

/-- A move whose slots are named and can be used is valid. -/
theorem wp_validateMove_named (hroute : lib.namedRoute request = some (src, dst)) (hcan : lib.CanTransfer src dst barcode)
    (h : Ready n row lib s) :
    wp (machine sha256) (patiently sha256 n) (validateMove request : JobM L Unit) (fun _ l' s' => l' = l ∧ Ready n row lib s') E l s := by
  by_cases hop : request.opType = .move
  · simp only [Library.namedRoute, hop, Option.bind_eq_some_iff, Option.map_eq_some_iff] at hroute
    obtain ⟨source, hsource, dest, hdest, hpair⟩ := hroute
    obtain ⟨rfl, rfl⟩ := Prod.mk.inj hpair
    unfold validateMove
    rw [hop]
    simp only []
    rw [wp_bind]
    refine wp_mono (wp_sourceSlot_named sha256 hsource h) ?_ fun _ _ _ h => h
    intro _ l' s' h'
    obtain ⟨rfl, rfl, h'⟩ := h'
    rw [wp_bind]
    refine wp_mono (wp_destSlot_named sha256 hdest hcan.free h') ?_ fun _ _ _ h => h
    intro _ l' s' h'
    obtain ⟨rfl, rfl, h'⟩ := h'
    split
    · rename_i hsame
      rw [hsame] at hcan
      exact absurd hcan.source (by simp [Library.contents_of_free hcan.free])
    · exact ⟨rfl, h'⟩
  · rw [validateMove_of_ne hop]
    exact ⟨rfl, h⟩

/-- A request whose named element holds another cartridge completes and has moved it. -/
theorem wp_request_named (hvalid : validateRequest request = .ok ()) (hroute : lib.namedRoute request = some (src, dst))
    (hcan : lib.CanTransfer src dst barcode) (h : Ready n none lib s) (raiseOnFailed : Bool) :
    wp (machine sha256) (patiently sha256 n) (executeTapeRequest request raiseOnFailed : JobM L TapeOpRecord)
      (fun record l' s' => l' = l ∧ record.status = .completed ∧ s'.library.contents = lib.contents.transfer src dst)
      (fun _ _ _ => False) l s := by
  unfold executeTapeRequest executeTapeOp
  rw [wp_bind, wp_bind, hvalid, wp_ofExcept]
  simp only []
  rw [wp_bind]
  refine wp_mono (wp_validateMove_named sha256 hroute hcan h) ?_ fun _ _ _ h => h
  intro _ l' s' h'
  obtain ⟨rfl, h'⟩ := h'
  rw [wp_bind]
  have hcreate : (machine sha256).exec s' (.catalog (.createTapeOp request)) (patient n) =
      (.ok ((s'.elapse (patient n)).catalog.createTapeOp (s'.elapse (patient n)).clock request).1, { s'.elapse (patient n) with
        catalog := ((s'.elapse (patient n)).catalog.createTapeOp (s'.elapse (patient n)).clock request).2 }) := rfl
  refine wp_fixed hcreate ?_
  have hlogged : Ready n (some ((s'.elapse (patient n)).catalog.createTapeOp (s'.elapse (patient n)).clock request).1.opId) lib
      { s'.elapse (patient n) with
        catalog := ((s'.elapse (patient n)).catalog.createTapeOp (s'.elapse (patient n)).clock request).2 } := by
    refine ⟨h'.elapse.library, ?_, h'.elapse.expired⟩
    rintro _ ⟨⟩
    exact ⟨_, List.mem_append_right _ (List.mem_singleton.2 rfl), rfl⟩
  generalize ((s'.elapse (patient n)).catalog.createTapeOp (s'.elapse (patient n)).clock request).1 = created at hlogged ⊢
  generalize World.mk _ _ _ _ _ _ = s₁ at hlogged ⊢
  rw [wp_bind]
  refine wp_mono (wp_updateTapeOp sha256 hlogged .running) ?_ fun _ _ _ h => h
  intro _ l₁ s₂ h₂
  obtain ⟨rfl, h₂, -⟩ := h₂
  rw [wp_handle, wp_bind]
  refine wp_mono (wp_dispatch_named (E := fun _ _ _ => False) sha256 hroute hcan h₂) ?_ fun _ _ _ h => h.elim
  intro result l₂ s₃ h₃
  obtain ⟨rfl, lib', h₃, hcontents⟩ := h₃
  rw [wp_bind]
  refine wp_mono (wp_updateTapeOp (E := fun _ _ _ => False) sha256 h₃ (.completed result)) ?_ fun _ _ _ h => h.elim
  intro persisted l₃ s₄ h₄
  obtain ⟨rfl, h₄, entry, now, rfl⟩ := h₄
  show wp _ _ (ite _ _ _) _ _ l₃ s₄
  rw [if_neg (fun h => by cases h.2)]
  exact ⟨rfl, rfl, by rw [h₄.library, hcontents]⟩

end NamedAux

namespace NamedExample

/-- Two cartridges in slots, and an empty drive. -/
def world : World := { library := { slots := [(1, some "A"), (2, some "B")], drives := [(0, {})] } }

end NamedExample

end OpenBlade
