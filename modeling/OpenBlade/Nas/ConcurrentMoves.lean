import OpenBlade.Effects.Protocol
import OpenBlade.Nas.NamedCartridge

/-!
# Moves under concurrency

Requests run side by side, one step of one of them at a time. The locks of the orchestrator are its own, and each request makes an
orchestrator, so they keep no request out: between the step in which a request finds its cartridge and the step in which it moves
it, others may move. A request moves whatever it then finds in the element, and completes. It has moved the cartridge it names
when nothing else had come into that element.
-/

namespace OpenBlade

open Effects Proc Storage

/-- The requests that deliver a cartridge to a drive, a slot or an import/export element. -/
def TapeOpType.delivers : TapeOpType → Bool
  | .load | .unload | .importMedia | .exportMedia => true
  | .move | .format | .write | .read | .verify | .eject => false

/-- The element a request itself names as the one to take its cartridge from. -/
def namedSource (request : TapeOpRequest) : Option Element :=
  match request.opType with
  | .load => request.slotId.map fun slotId : Nat => .slot slotId
  | .unload => request.driveId.map .drive
  | _ => none

/-- The element a completed request reports its cartridge to be in. -/
def reportedElement (opType : TapeOpType) (result : JsonObject) : Option Element :=
  match opType with
  | .load => (Dict.get? result "drive_id").bind namedSlot |>.map .drive
  | .unload => (Dict.get? result "slot_id").bind namedSlot |>.map .slot
  | .importMedia => (Dict.get? result "target_slot").bind namedSlot |>.map .slot
  | .exportMedia => (Dict.get? result "ie_slot").bind namedSlot |>.map .ieSlot
  | _ => none

namespace Op

/-- The elements a call takes a cartridge from and to. -/
def route : Op → Option (Element × Element)
  | .library o => o.route
  | _ => none

/-- The library says that it has moved a cartridge. -/
def saysMoved : (o : Op) → Except Exn o.Ans → Bool
  | .library o => o.saysMoved
  | _ => fun _ => false

/-- The answer says that the element holds the cartridge. -/
def Finds : (o : Op) → Except Exn o.Ans → Element → Barcode → Prop
  | .library (.findSlotByBarcode barcode), .ok (some (slotId : Nat)) => fun e b => e = .slot slotId ∧ b = barcode
  | .library (.findDriveByBarcode barcode), .ok (some (driveId : Int)) => fun e b => e = .drive driveId ∧ b = barcode
  | .library .importExportSlots, .ok (elements : List (Int × Option Barcode)) =>
    fun e b => ∃ id, e = .ieSlot id ∧ Dict.get? elements id = some (some b)
  | _, _ => fun _ _ => False

theorem isRead_of_finds {o : Op} {a : Except Exn o.Ans} {e : Element} {b : Barcode} (h : o.Finds a e b) : o.isRead = true := by
  unfold Finds at h
  split at h
  · rfl
  · rfl
  · rfl
  · exact h.elim

/-- The call records that the operation is complete, and what it reports. -/
def Completes (result : JsonObject) (o : Op) : Prop := ∃ opId, o = .catalog (.updateTapeOp opId (.completed result))

end Op

section Deliveries

variable {ι : Type} (request : TapeOpRequest) (i : ι) (hist : List (ClientStep ι))

/-- The request named the element, or found its cartridge there. -/
def Sourced (src : Element) : Prop :=
  namedSource request = some src ∨ ∃ y ∈ hist, y.1 = i ∧ y.2.op.Finds y.2.ans src request.barcode

/-- Every step of the client has moved the named cartridge or none, and one has moved it to the element that is reported. -/
def Delivered (result : JsonObject) : Prop :=
  (∀ y ∈ hist, y.1 = i → y.2.pre.library.OnlyMoved y.2.post.library request.barcode) ∧
    ∃ y ∈ hist, y.1 = i ∧ Placement.Moved y.2.pre.library.contents y.2.post.library.contents request.barcode ∧
      ∃ dst, reportedElement request.opType result = some dst ∧ y.2.post.library.contents dst = some request.barcode

/-- A step that moves cartridges meets no trouble: the library does not answer `success = False`, and what can be taken from the
element is the named cartridge, if the request named the element, and was there when the request found its cartridge in it. -/
def Untroubled (x : ClientStep ι) : Prop :=
  ∀ src dst, x.2.op.route = some (src, dst) →
    (∀ a, x.2.ans = .ok a → x.2.op.saysMoved x.2.ans = true) ∧
      ∀ b, x.2.pre.library.CanTransfer src dst b →
        (namedSource request = some src → b = request.barcode) ∧
          ∀ y ∈ hist, y.1 = x.1 → y.2.op.Finds y.2.ans src request.barcode → y.2.pre.library.contents src = some b

end Deliveries

/-! ### The protocol of a request -/

/-- What a request has found, and where it has last moved a cartridge to. -/
structure Noted where
  found : Element → Barcode → Prop := fun _ _ => False
  movedTo : Option Element := none

namespace Noted

/-- What is noted of a call and its answer. -/
def note (m : Noted) (o : Op) (a : Except Exn o.Ans) : Noted where
  found e b := m.found e b ∨ o.Finds a e b
  movedTo := (a.toOption.bind fun _ => o.route.map Prod.snd).or m.movedTo

/-- A request moves from an element it named or found its cartridge in, and completes when it has moved to the one it reports. -/
def allows (request : TapeOpRequest) (m : Noted) (o : Op) : Prop :=
  request.opType.delivers = true →
    (World.touchesLibrary o = true →
      ∃ src dst, o.route = some (src, dst) ∧ (namedSource request = some src ∨ m.found src request.barcode)) ∧
    ∀ result, o.Completes result → ∃ dst, m.movedTo = some dst ∧ reportedElement request.opType result = some dst

/-- Calls that move nothing and complete nothing. -/
def isPlain : Op → Bool
  | .catalog (.updateTapeOp _ (.completed _)) => false
  | o => !World.touchesLibrary o

variable {request : TapeOpRequest} {m : Noted} {L : Type} {l : L}

theorem untouched_of_isPlain {o : Op} (h : isPlain o = true) : World.touchesLibrary o = false := by
  unfold isPlain at h
  split at h
  · cases h
  · simpa using h

theorem route_of_untouched {o : Op} (h : World.touchesLibrary o = false) : o.route = none := by
  cases o with
  | library o => cases o <;> first | rfl | cases h
  | _ => rfl

theorem allows_plain {o : Op} (h : isPlain o = true) : m.allows request o := by
  intro _
  refine ⟨fun ht => ?_, ?_⟩
  · rw [untouched_of_isPlain h] at ht
    cases ht
  · rintro result ⟨opId, rfl⟩
    cases h

/-- A plain call leaves the last move as it was. -/
theorem movedTo_plain {o : Op} (h : isPlain o = true) (a : Except Exn o.Ans) : (m.note o a).movedTo = m.movedTo := by
  simp [note, route_of_untouched (untouched_of_isPlain h)]

theorem found_note {o : Op} {a : Except Exn o.Ans} {e : Element} {b : Barcode} (h : m.found e b) : (m.note o a).found e b := .inl h

/-- What is kept by calls that move nothing and complete nothing. -/
def Lasting (J : Noted → Prop) : Prop := ∀ m o (a : Except Exn o.Ans), isPlain o = true → J m → J (m.note o a)

theorem lasting_true : Lasting fun _ => True := fun _ _ _ _ _ => trivial

theorem lasting_found {e : Element} {b : Barcode} : Lasting fun m => m.found e b := fun _ _ _ _ h => found_note h

theorem lasting_movedTo {dst : Element} : Lasting fun m => m.movedTo = some dst := fun _ _ a ho h => (movedTo_plain ho a).trans h

/-- Plain calls of a request keep what lasts. -/
theorem wp_plain {α : Type} {p : JobM L α} {J : Noted → Prop} (hp : Reads (fun o => isPlain o = true) p) (hJ : Lasting J)
    (hm : J m) :
    wp (havoc note) (.protocol (allows request)) p (fun _ l' m' => l' = l ∧ J m') (fun _ l' _ => l' = l) l m := by
  have hstable : Stable (havoc note) (.protocol (allows request)) (fun o => isPlain o = true) J :=
    stable_follows fun o ho m h => ⟨allows_plain ho, fun a => hJ m o a ho h⟩
  refine wp_mono (hp.keeps hstable hm) ?_ ?_
  · exact fun _ l' m' h => ⟨h.1.symm, h.2⟩
  · exact fun _ l' m' h => h.1.symm

/-- A move from an element that was named or found, and where it leaves the request. -/
theorem wp_moves {o : LibraryOp} {src dst : Element} (ho : o.route = some (src, dst))
    (hsrc : namedSource request = some src ∨ m.found src request.barcode) :
    wp (havoc note) (.protocol (allows request)) (libraryCall o : JobM L o.Ans) (fun _ l' m' => l' = l ∧ m'.movedTo = some dst)
      (fun _ l' _ => l' = l) l m := by
  refine wp_follows ?_ (fun a => ⟨rfl, ?_⟩) fun e => rfl
  · intro _
    refine ⟨fun _ => ⟨src, dst, ho, hsrc⟩, ?_⟩
    rintro result ⟨opId, h⟩
    cases h
  · simp [note, Op.route, ho, Except.toOption]

/-- The request has moved its cartridge to the element it is to report. -/
abbrev Arrived (request : TapeOpRequest) (result : JsonObject) (m : Noted) : Prop :=
  ∃ dst, m.movedTo = some dst ∧ reportedElement request.opType result = some dst

theorem wp_load (hop : request.opType = .load) :
    wp (havoc note) (.protocol (allows request)) (orchestratorLoad request : JobM L JsonObject)
      (fun result l' m' => l' = l ∧ Arrived request result m') (fun _ l' _ => l' = l) l m := by
  have hmove : ∀ (slotId : Nat) (m : Noted), namedSource request = some (.slot slotId) ∨ m.found (.slot slotId) request.barcode →
      wp (havoc note) (.protocol (allows request)) ((do
        let driveId := request.driveId.getD 0
        let result ← libraryLoad slotId driveId
        pure (operationResult result
          [("barcode", .str request.barcode), ("drive_id", .int driveId), ("slot_id", .int slotId)])) : JobM L JsonObject)
        (fun result l' m' => l' = l ∧ Arrived request result m') (fun _ l' _ => l' = l) l m := by
    intro slotId m hsrc
    rw [wp_bind]
    refine wp_mono (wp_moves (o := .load slotId (request.driveId.getD 0)) rfl hsrc) ?_ fun _ _ _ h => h
    intro result l' m' h
    refine ⟨h.1, _, h.2, ?_⟩
    rw [hop]
    rfl
  unfold orchestratorLoad
  rw [wp_bind]
  cases hslot : request.slotId with
  | some slotId => exact hmove slotId m (.inl (by simp [namedSource, hop, hslot]))
  | none =>
    refine wp_follows (allows_plain rfl) (fun found => ?_) fun e => rfl
    cases found with
    | none => rfl
    | some slotId => exact hmove slotId _ (.inr (.inr ⟨rfl, rfl⟩))

theorem reads_findEmptySlot : Reads (fun o => isPlain o = true) (findEmptySlot : JobM L Nat) := by
  refine only_bind (only_perform rfl) fun inv => ?_
  split
  · exact only_raise _
  · exact only_pure _

theorem reads_refuseIfLeased (driveId : Int) (jobId : Option JobId) :
    Reads (fun o => isPlain o = true) (refuseIfLeasedByAnotherJob driveId jobId : JobM L Unit) := by
  refine only_bind (only_perform rfl) fun leases => ?_
  split
  · exact only_pure ()
  · exact only_raise _

theorem wp_unload (hop : request.opType = .unload) :
    wp (havoc note) (.protocol (allows request)) (orchestratorUnload request : JobM L JsonObject)
      (fun result l' m' => l' = l ∧ Arrived request result m') (fun _ l' _ => l' = l) l m := by
  have hmove : ∀ (driveId : Int) (m : Noted), namedSource request = some (.drive driveId) ∨ m.found (.drive driveId) request.barcode →
      wp (havoc note) (.protocol (allows request)) ((do
        let slotId ← givenOr request.slotId findEmptySlot
        refuseIfLeasedByAnotherJob driveId request.jobId
        let result ← libraryUnload driveId slotId
        pure (operationResult result
          [("barcode", .str request.barcode), ("drive_id", .int driveId), ("slot_id", .int slotId)])) : JobM L JsonObject)
        (fun result l' m' => l' = l ∧ Arrived request result m') (fun _ l' _ => l' = l) l m := by
    intro driveId m hsrc
    have hlasting : Lasting fun m => namedSource request = some (.drive driveId) ∨ m.found (.drive driveId) request.barcode :=
      fun _ _ _ _ h => h.imp_right found_note
    rw [wp_bind]
    refine wp_mono (wp_plain (reads_givenOr _ reads_findEmptySlot) hlasting hsrc) ?_ fun _ _ _ h => h
    intro slotId l' m' h
    obtain ⟨rfl, hsrc⟩ := h
    rw [wp_bind]
    refine wp_mono (wp_plain (reads_refuseIfLeased _ _) hlasting hsrc) ?_ fun _ _ _ h => h
    intro _ l' m' h
    obtain ⟨rfl, hsrc⟩ := h
    rw [wp_bind]
    refine wp_mono (wp_moves (o := .unload driveId slotId) rfl hsrc) ?_ fun _ _ _ h => h
    intro result l' m' h
    refine ⟨h.1, _, h.2, ?_⟩
    rw [hop]
    rfl
  unfold orchestratorUnload
  rw [wp_bind]
  cases hdrive : request.driveId with
  | some driveId => exact hmove driveId m (.inl (by simp [namedSource, hop, hdrive]))
  | none =>
    refine wp_follows (allows_plain rfl) (fun found => ?_) fun e => rfl
    cases found with
    | none => rfl
    | some driveId => exact hmove driveId _ (.inr (.inr ⟨rfl, rfl⟩))

/-- What an element of the station is said to hold is noted. -/
theorem wp_requireIeElement (ieSlot : Int) (J : Noted → Prop) (hJ : Lasting J) (hm : J m) :
    wp (havoc note) (.protocol (allows request)) (requireIeElement ieSlot : JobM L (Option Barcode))
      (fun content l' m' => l' = l ∧ J m' ∧ ∀ barcode, content = some barcode → m'.found (.ieSlot ieSlot) barcode)
      (fun _ l' _ => l' = l) l m := by
  unfold requireIeElement
  rw [wp_bind]
  refine wp_follows (allows_plain rfl) (fun elements => ?_) fun e => rfl
  split
  · rfl
  · rename_i content hcontent
    refine ⟨rfl, hJ m _ _ rfl hm, ?_⟩
    rintro barcode rfl
    exact .inr ⟨ieSlot, rfl, hcontent⟩

theorem wp_import (hop : request.opType = .importMedia) :
    wp (havoc note) (.protocol (allows request)) (orchestratorImport request : JobM L JsonObject)
      (fun result l' m' => l' = l ∧ Arrived request result m') (fun _ l' _ => l' = l) l m := by
  unfold orchestratorImport
  rw [wp_bind]
  refine wp_mono (wp_plain (reads_requireMailslot (P := fun o => isPlain o = true) rfl) lasting_true trivial) ?_ fun _ _ _ h => h
  intro _ l' m' h
  obtain ⟨rfl, -⟩ := h
  rw [wp_bind, wp_ofExcept]
  cases requiredInt request "ie_slot" "import" with
  | error e => rfl
  | ok ieSlot =>
    simp only []
    rw [wp_bind]
    refine wp_mono (wp_requireIeElement ieSlot (fun _ => True) lasting_true trivial) ?_ fun _ _ _ h => h
    intro content l' m' h
    obtain ⟨rfl, -, hfound⟩ := h
    cases content with
    | none => rfl
    | some source =>
      simp only []
      split
      · rfl
      rename_i hsource
      have hfound := hfound source rfl
      rw [not_not.1 hsource] at hfound
      cases request.slotId with
      | none => rfl
      | some targetSlot =>
        simp only []
        rw [wp_bind]
        refine wp_mono (wp_plain (reads_requireStorageSlot (P := fun o => isPlain o = true) rfl targetSlot) lasting_found hfound) ?_
          fun _ _ _ h => h
        intro occupant l' m' h
        obtain ⟨rfl, hfound⟩ := h
        cases occupant with
        | some occupant => rfl
        | none =>
          simp only []
          rw [wp_bind]
          refine wp_mono (wp_moves (o := .importCartridge ieSlot targetSlot) rfl (.inr hfound)) ?_ fun _ _ _ h => h
          intro result l' m' h
          obtain ⟨rfl, hmoved⟩ := h
          rw [wp_bind]
          refine wp_mono (wp_plain (reads_recordCartridgeState (fun _ _ => rfl) (fun _ _ => rfl) _ _) lasting_movedTo hmoved) ?_
            fun _ _ _ h => h
          intro _ l' m' h
          refine ⟨h.1, _, h.2, ?_⟩
          rw [hop]
          rfl

theorem isPlain_of_isRead {o : Op} (h : o.isRead = true) : isPlain o = true := by
  unfold isPlain
  split
  · cases h
  · rw [World.touchesLibrary_of_isRead h]
    rfl

theorem wp_export (hop : request.opType = .exportMedia) :
    wp (havoc note) (.protocol (allows request)) (orchestratorExport request : JobM L JsonObject)
      (fun result l' m' => l' = l ∧ Arrived request result m') (fun _ l' _ => l' = l) l m := by
  unfold orchestratorExport
  rw [wp_bind]
  refine wp_mono (wp_plain (reads_requireMailslot (P := fun o => isPlain o = true) rfl) lasting_true trivial) ?_ fun _ _ _ h => h
  intro _ l' m' h
  obtain ⟨rfl, -⟩ := h
  rw [wp_bind]
  refine wp_follows (allows_plain rfl) (fun found => ?_) fun e => rfl
  cases found with
  | none => rfl
  | some source =>
    have hfound : (m'.note (.library (.findSlotByBarcode request.barcode)) (.ok (some source))).found (.slot source) request.barcode :=
      .inr ⟨rfl, rfl⟩
    generalize m'.note _ _ = m₁ at hfound ⊢
    simp only []
    split
    · rfl
    have hguard : Reads (fun o => isPlain o = true) (guardExport request : JobM L Unit) :=
      reads_guardExport (fun _ h => isPlain_of_isRead h.2) request
    rw [wp_bind]
    refine wp_mono (wp_plain hguard lasting_found hfound) ?_ fun _ _ _ h => h
    intro _ l' m' h
    obtain ⟨rfl, hfound⟩ := h
    rw [wp_bind, wp_ofExcept]
    cases requiredInt request "ie_slot" "export" with
    | error e => rfl
    | ok ieSlot =>
      simp only []
      rw [wp_bind]
      refine wp_mono (wp_requireIeElement ieSlot _ lasting_found hfound) ?_ fun _ _ _ h => h
      intro content l' m' h
      obtain ⟨rfl, hfound, -⟩ := h
      cases content with
      | some occupant => rfl
      | none =>
        simp only []
        rw [wp_bind]
        refine wp_mono (wp_moves (o := .exportCartridgeToIe source ieSlot) rfl (.inr hfound)) ?_ fun _ _ _ h => h
        intro result l' m' h
        obtain ⟨rfl, hmoved⟩ := h
        rw [wp_bind]
        refine wp_mono (wp_plain (reads_recordCartridgeState (fun _ _ => rfl) (fun _ _ => rfl) _ _) lasting_movedTo hmoved) ?_
          fun _ _ _ h => h
        intro _ l' m' h
        refine ⟨h.1, _, h.2, ?_⟩
        rw [hop]
        rfl

theorem wp_dispatch (hdelivers : request.opType.delivers = true) :
    wp (havoc note) (.protocol (allows request)) (dispatch request : JobM L JsonObject)
      (fun result l' m' => l' = l ∧ Arrived request result m') (fun _ l' _ => l' = l) l m := by
  unfold dispatch
  cases hop : request.opType with
  | load => exact wp_mono (wp_load hop) (fun _ _ _ h => h) fun _ _ _ h => h
  | unload => exact wp_mono (wp_unload hop) (fun _ _ _ h => h) fun _ _ _ h => h
  | importMedia => exact wp_mono (wp_import hop) (fun _ _ _ h => h) fun _ _ _ h => h
  | exportMedia => exact wp_mono (wp_export hop) (fun _ _ _ h => h) fun _ _ _ h => h
  | move | format | write | read | verify | eject =>
    rw [hop] at hdelivers
    cases hdelivers

/-- The row of a failed operation is written by plain calls. -/
theorem reads_recordFailedOp (opId : Nat) (opType : TapeOpType) (exc : Exn) :
    Reads (fun o => isPlain o = true) (recordFailedOp opId opType exc : JobM L TapeOpRecord) := by
  refine only_bind (only_perform rfl) fun row => only_bind ?_ fun record => only_ite (fun _ => only_raise _) fun _ => only_pure _
  cases row with
  | none => exact only_raise _
  | some row => exact only_pure row

/-- A request that delivers follows its protocol. -/
theorem wp_executeTapeOp (hdelivers : request.opType.delivers = true) :
    wp (havoc note) (.protocol (allows request)) (executeTapeOp request : JobM L TapeOpRecord) (fun _ _ _ => True) (fun _ _ _ => True)
      l m := by
  have hfailed : ∀ opId exc l m, wp (havoc note) (.protocol (allows request))
      (recordFailedOp opId request.opType exc : JobM L TapeOpRecord) (fun _ _ _ => True) (fun _ _ _ => True) l m :=
    fun opId exc l m => wp_mono (wp_plain (reads_recordFailedOp opId _ exc) lasting_true trivial) (fun _ _ _ _ => trivial)
      fun _ _ _ _ => trivial
  unfold executeTapeOp
  rw [wp_bind, wp_ofExcept]
  cases validateRequest request with
  | error e => trivial
  | ok u =>
    simp only []
    rw [wp_bind, validateMove_of_ne (fun h => by rw [h] at hdelivers; cases hdelivers), wp_pure, wp_bind]
    refine wp_follows (allows_plain rfl) (fun row => ?_) fun e => trivial
    rw [wp_bind]
    refine wp_follows (allows_plain rfl) (fun _ => ?_) fun e => trivial
    rw [wp_handle, wp_bind]
    refine wp_mono (wp_dispatch hdelivers) ?_ fun exc l' m' _ => hfailed _ exc l' m'
    intro result l' m' h
    obtain ⟨rfl, harrived⟩ := h
    rw [wp_bind]
    refine wp_follows ?_ (fun persisted => ?_) fun exc => hfailed _ exc _ _
    · intro _
      refine ⟨(by intro h; cases h), ?_⟩
      rintro result' ⟨opId, hcomplete⟩
      cases hcomplete
      exact harrived
    · cases persisted with
      | none => exact hfailed _ _ _ _
      | some row => trivial

/-- Every request follows its protocol. -/
theorem follows_request (request : TapeOpRequest) (raiseOnFailed : Bool) :
    (executeTapeRequest request raiseOnFailed ()).Follows note (allows request) {} := by
  have hall : wp (havoc note) (.protocol (allows request)) (executeTapeRequest request raiseOnFailed)
      (fun _ _ _ => True) (fun _ _ _ => True) () {} := by
    by_cases hdelivers : request.opType.delivers = true
    · unfold executeTapeRequest
      rw [wp_bind]
      refine wp_mono (wp_executeTapeOp hdelivers) ?_ fun _ _ _ _ => trivial
      intro record l' m' _
      split <;> trivial
    · exact wp_true (fun st h => absurd h hdelivers) _
  exact Prog.wp_mono hall fun _ _ _ => trivial

end Noted

/-! ### The steps of an interleaving -/

/-- What an answer says an element holds, it held when the call was made. -/
theorem World.contents_of_finds (sha256 : Bytes → String) {w : World} {c : Choice} {o : Op} {e : Element} {b : Barcode}
    (h : o.Finds (w.exec sha256 o c).1 e b) : w.library.contents e = some b := by
  generalize hans : (w.exec sha256 o c).1 = a at h
  unfold Op.Finds at h
  split at h
  · obtain ⟨rfl, rfl⟩ := h
    exact NamedAux.contents_of_findSlot (World.exec_findSlot sha256 hans)
  · obtain ⟨rfl, rfl⟩ := h
    exact Library.holds_of_find (World.exec_findDrive sha256 hans)
  · obtain ⟨id, rfl, hget⟩ := h
    have helements : w.library.ieSlots.getD [] = _ := Except.ok.inj (World.exec_ok sha256 hans).1
    show ((w.library.ieSlots.getD []).get? id).join = some b
    rw [helements, hget]
    rfl
  · exact h.elim

namespace DeliveryAux

variable {ι : Type} {sha256 : Bytes → String} {requests : ι → TapeOpRequest} {hist : List (ClientStep ι)} {noted : ι → Noted}

/-- The step moved what was in an element to `dst`, as far as its client was told. -/
def MovesTo (dst : Element) (x : ClientStep ι) : Prop := (∃ src, x.2.op.route = some (src, dst)) ∧ ∃ a, x.2.ans = .ok a

/-- What a step of a request that delivers has behind it. -/
def Backed (requests : ι → TapeOpRequest) (pre : List (ClientStep ι)) (x : ClientStep ι) : Prop :=
  (requests x.1).opType.delivers = true →
    (World.touchesLibrary x.2.op = true → ∃ src dst, x.2.op.route = some (src, dst) ∧ Sourced (requests x.1) x.1 pre src) ∧
    ∀ result, x.2.op.Completes result →
      ∃ y ∈ pre, y.1 = x.1 ∧ ∃ dst, MovesTo dst y ∧ reportedElement (requests x.1).opType result = some dst

/-- What the clients have noted has happened, and their steps are backed by it. -/
structure Followed (sha256 : Bytes → String) (requests : ι → TapeOpRequest) (hist : List (ClientStep ι)) (noted : ι → Noted) :
    Prop where
  found : ∀ i e b, (noted i).found e b → ∃ y ∈ hist, y.1 = i ∧ y.2.op.Finds y.2.ans e b
  movedTo : ∀ i dst, (noted i).movedTo = some dst → ∃ y ∈ hist, y.1 = i ∧ MovesTo dst y
  backed : Throughout (Backed requests) hist
  ran : ∀ y ∈ hist, ∃ w o c, y.2 = (machine sha256).step w o c

/-- An allowed call of a client keeps it so. -/
theorem Followed.step [DecidableEq ι] {w : World} {i : ι} {o : Op} {c : Choice} (h : Followed sha256 requests hist noted)
    (ha : (noted i).allows (requests i) o) :
    Followed sha256 requests (hist ++ [(i, (machine sha256).step w o c)])
      (Function.update noted i ((noted i).note o (w.exec sha256 o c).1)) := by
  have hold : ∀ {P : ClientStep ι → Prop}, (∃ y ∈ hist, P y) → ∃ y ∈ hist ++ [(i, (machine sha256).step w o c)], P y :=
    fun ⟨y, hy, hP⟩ => ⟨y, List.mem_append_left _ hy, hP⟩
  refine ⟨fun j e b hf => ?_, fun j dst hm => ?_, throughout_concat h.backed ?_, fun y hy => ?_⟩
  · by_cases hj : j = i
    · subst hj
      rw [Function.update_self] at hf
      rcases hf with hf | hf
      · exact hold (h.found j e b hf)
      · exact ⟨_, List.mem_append_right _ (List.mem_singleton.2 rfl), rfl, hf⟩
    · rw [Function.update_of_ne hj] at hf
      exact hold (h.found j e b hf)
  · by_cases hj : j = i
    · subst hj
      rw [Function.update_self] at hm
      rcases Option.or_eq_some_iff.1 hm with hm | ⟨-, hm⟩
      · obtain ⟨a, hans, hroute⟩ := Option.bind_eq_some_iff.1 hm
        obtain ⟨⟨src, dst'⟩, hpair, rfl⟩ := Option.map_eq_some_iff.1 hroute
        refine ⟨_, List.mem_append_right _ (List.mem_singleton.2 rfl), rfl, ⟨src, hpair⟩, a, ?_⟩
        show (w.exec sha256 o c).1 = .ok a
        cases hexec : (w.exec sha256 o c).1 with
        | error e =>
          rw [hexec] at hans
          cases hans
        | ok a' =>
          rw [hexec] at hans
          rw [Option.some.inj hans]
      · exact hold (h.movedTo j dst hm)
    · rw [Function.update_of_ne hj] at hm
      exact hold (h.movedTo j dst hm)
  · intro hdelivers
    obtain ⟨hmove, hcomplete⟩ := ha hdelivers
    refine ⟨fun ht => ?_, fun result hres => ?_⟩
    · obtain ⟨src, dst, hroute, hsrc⟩ := hmove ht
      exact ⟨src, dst, hroute, hsrc.imp_right (h.found i src _)⟩
    · obtain ⟨dst, hm, hreport⟩ := hcomplete result hres
      obtain ⟨y, hy, hi, hto⟩ := h.movedTo i dst hm
      exact ⟨y, hy, hi, dst, hto, hreport⟩
  · rcases List.mem_append.1 hy with hy | hy
    · exact h.ran y hy
    · exact ⟨w, o, c, by rw [List.mem_singleton.1 hy]⟩

/-- It is so in every interleaving. -/
theorem followed_trace [DecidableEq ι] (sha256 : Bytes → String) (requests : ι → TapeOpRequest) (raising : ι → Bool) (w : World)
    (sched : List (ι × Choice)) :
    ∃ noted, Followed sha256 requests
      (Pool.trace (machine sha256) sched (fun i => executeTapeRequest (requests i) (raising i) ()) w) noted := by
  have hstart : Followed sha256 requests [] fun _ : ι => ({} : Noted) := by
    constructor <;> simp [throughout_nil]
  exact Pool.invariant_of_follows (M := machine sha256) (I := fun hist _ noted => Followed sha256 requests hist noted)
    (fun o => ⟨.error { cls := .assertion, message := "" }⟩) (fun _ _ _ _ _ _ h ha => h.step ha)
    (fun i => Noted.follows_request (requests i) (raising i)) hstart sched

variable {pre : List (ClientStep ι)} {x : ClientStep ι}

/-- What an untroubled step can take from the element is the cartridge the request names. -/
theorem eq_of_untroubled {src dst : Element} {b : Barcode} {request : TapeOpRequest} (hran : ∀ y ∈ pre, ∃ w o c, y.2 = (machine sha256).step w o c)
    (hroute : x.2.op.route = some (src, dst)) (hsrc : Sourced request x.1 pre src) (hun : Untroubled request pre x)
    (hcan : x.2.pre.library.CanTransfer src dst b) : b = request.barcode := by
  obtain ⟨hnamed, hkept⟩ := (hun src dst hroute).2 b hcan
  rcases hsrc with hsrc | ⟨y, hy, hi, hfinds⟩
  · exact hnamed hsrc
  · have hb := hkept y hy hi hfinds
    obtain ⟨w, o, c, hstep⟩ := hran y hy
    rw [hstep] at hb hfinds
    exact Option.some.inj (hb.symm.trans (World.contents_of_finds sha256 hfinds))

/-- An untroubled step moves no other cartridge, and if its client is told so it has moved the named one. -/
theorem delivers_of_untroubled (hran : ∀ y ∈ pre ++ [x], ∃ w o c, y.2 = (machine sha256).step w o c)
    (hdelivers : (requests x.1).opType.delivers = true) (hback : Backed requests pre x) (hun : Untroubled (requests x.1) pre x) :
    x.2.pre.library.OnlyMoved x.2.post.library (requests x.1).barcode ∧
      ∀ dst, MovesTo dst x →
        Placement.Moved x.2.pre.library.contents x.2.post.library.contents (requests x.1).barcode ∧
          x.2.post.library.contents dst = some (requests x.1).barcode := by
  obtain ⟨i, st⟩ := x
  obtain ⟨w, o, c, hstep⟩ := hran (i, st) (by simp)
  obtain rfl : st = (machine sha256).step w o c := hstep
  by_cases ht : World.touchesLibrary o = true
  · obtain ⟨src, dst, hroute, hsrc⟩ := (hback hdelivers).1 ht
    have hnamed : ∀ b, w.library.CanTransfer src dst b → b = (requests i).barcode := fun b hcan =>
      eq_of_untroubled (x := (i, (machine sha256).step w o c)) (fun y hy => hran y (List.mem_append_left _ hy)) hroute hsrc hun hcan
    obtain ⟨op, rfl, hop⟩ : ∃ op, o = .library op ∧ op.route = some (src, dst) := by
      cases o with
      | library op => exact ⟨op, rfl, hroute⟩
      | _ => cases hroute
    have htook := World.exec_route (w := w) sha256 (c := c) hop
    refine ⟨NamedAux.onlyMoved_of_took htook hnamed, ?_⟩
    rintro dst' ⟨⟨src', hroute'⟩, a, hans⟩
    obtain ⟨rfl, rfl⟩ := Prod.mk.inj (Option.some.inj (hroute.symm.trans hroute'))
    have hsaid : op.saysMoved (w.exec sha256 (.library op) c).1 = true := (hun _ _ hroute).1 a hans
    rcases htook with ⟨-, hnot⟩ | ⟨b, hcan, htransfer⟩
    · rw [hsaid] at hnot
      cases hnot
    · obtain rfl := hnamed b hcan
      show Placement.Moved w.library.contents (w.exec sha256 (.library op) c).2.library.contents _ ∧
        (w.exec sha256 (.library op) c).2.library.contents dst = _
      rw [htransfer, Placement.moved_transfer (Library.contents_of_free hcan.free), Placement.transfer_apply, if_pos rfl]
      exact ⟨hcan.source, hcan.source⟩
  · have hsame : (w.exec sha256 o c).2.library = w.library := World.exec_library sha256 (by simpa using ht)
    refine ⟨?_, ?_⟩
    · show w.library.OnlyMoved (w.exec sha256 o c).2.library _
      rw [hsame]
      exact NamedAux.onlyMoved_refl
    · rintro dst ⟨⟨src, hroute⟩, -⟩
      have hnone : o.route = none := Noted.route_of_untouched (by simpa using ht)
      rw [show o.route = some (src, dst) from hroute] at hnone
      cases hnone

end DeliveryAux

/-- In every interleaving of requests, a load, unload, import or export that completes has moved the cartridge it names and no
other, and has taken it to the drive, slot or element it reports, if each of its steps that moves cartridges meets no trouble. -/
theorem requests_deliver_named {ι : Type} [DecidableEq ι] (sha256 : Bytes → String) (requests : ι → TapeOpRequest) (raising : ι → Bool)
    (w : World) (sched : List (ι × Choice)) (pre post : List (ClientStep ι)) (x : ClientStep ι) (result : JsonObject)
    (htrace : Pool.trace (machine sha256) sched (fun i => executeTapeRequest (requests i) (raising i) ()) w = pre ++ x :: post)
    (hdelivers : (requests x.1).opType.delivers = true) (hcompletes : x.2.op.Completes result)
    (huntroubled : ∀ past y rest, pre = past ++ y :: rest → y.1 = x.1 → Untroubled (requests x.1) past y) :
    Delivered (requests x.1) x.1 pre result := by
  obtain ⟨noted, h⟩ := DeliveryAux.followed_trace sha256 requests raising w sched
  rw [htrace] at h
  have hstep : ∀ past y rest, pre = past ++ y :: rest → y.1 = x.1 →
      y.2.pre.library.OnlyMoved y.2.post.library (requests x.1).barcode ∧ ∀ dst, DeliveryAux.MovesTo dst y →
        Placement.Moved y.2.pre.library.contents y.2.post.library.contents (requests x.1).barcode ∧
          y.2.post.library.contents dst = some (requests x.1).barcode := by
    intro past y rest hsplit hi
    rw [← hi]
    have hpre : past ++ [y] ⊆ pre ++ x :: post := by
      intro z hz
      rw [hsplit]
      simp only [List.mem_append, List.mem_cons] at hz ⊢
      tauto
    refine DeliveryAux.delivers_of_untroubled (fun z hz => h.ran z (hpre hz)) (hi ▸ hdelivers)
      (h.backed past y (rest ++ x :: post) (by simp [hsplit])) ?_
    rw [hi]
    exact huntroubled past y rest hsplit hi
  obtain ⟨y, hy, hi, dst, hto, hreport⟩ := (h.backed pre x post rfl hdelivers).2 result hcompletes
  refine ⟨fun z hz hzi => ?_, y, hy, hi, ?_⟩
  · obtain ⟨past, rest, hsplit⟩ := List.append_of_mem hz
    exact (hstep past z rest hsplit hzi).1
  · obtain ⟨past, rest, hsplit⟩ := List.append_of_mem hy
    obtain ⟨hmoved, harrived⟩ := (hstep past y rest hsplit hi).2 dst hto
    exact ⟨hmoved, dst, hreport, harrived⟩

namespace DeliveryExample

/-- Two cartridges in slots, an empty drive, and an import/export station. -/
def world : World := { library := { slots := [(1, some "A"), (2, some "B")], drives := [(0, {})], ieSlots := some [(10, none)] } }

/-- One client exports `A`, one loads a cartridge, one moves `B` to slot 1. -/
def requests (loaded : Barcode) : Nat → TapeOpRequest
  | 0 => { opType := .exportMedia, barcode := "A", extras := [("ie_slot", .int 10)] }
  | 1 => { opType := .load, barcode := loaded }
  | _ => { opType := .move, barcode := "B", extras := [("dest_slot", .int 1)] }

/-- What the export reports. -/
def exported : JsonObject :=
  [("success", .bool true), ("message", .str "exported"), ("barcode", .str "A"), ("source_slot", .int 1), ("ie_slot", .int 10)]

/-- The export finds its cartridge, and then waits until the other clients have ended. -/
def steps (loaded : Barcode) (others : List Nat) : List (ClientStep Nat) :=
  let turns : Nat → List (Nat × Choice) := fun i => List.replicate 20 (i, {})
  Pool.trace (machine fun _ => "") ((turns 0).take 5 ++ (others.map turns).flatten ++ turns 0)
    (fun i => executeTapeRequest (requests loaded i) false ()) world

end DeliveryExample

/-- An export of cartridge `A` finds it in slot 1. Before it moves it, other requests load `A` into the drive and move `B` to slot 1.
The export completes, and has moved `B`. -/
theorem export_moves_another :
    ¬∀ (sha256 : Bytes → String) (requests : Nat → TapeOpRequest) (raising : Nat → Bool) (w : World) (sched : List (Nat × Choice))
      (pre post : List (ClientStep Nat)) (x : ClientStep Nat) (result : JsonObject),
      Pool.trace (machine sha256) sched (fun i => executeTapeRequest (requests i) (raising i) ()) w = pre ++ x :: post →
      (requests x.1).opType.delivers = true → x.2.op.Completes result → Delivered (requests x.1) x.1 pre result := by
  intro h
  have hlast : (DeliveryExample.steps "A" [1, 2])[23]?.map (fun x => (x.1, x.2.op)) =
      some (0, .catalog (.updateTapeOp 0 (.completed DeliveryExample.exported))) := by
    decide +kernel
  have hmove : ((DeliveryExample.steps "A" [1, 2]).take 23)[20]?.map
      (fun y => (y.1, y.2.pre.library.contents (.slot 1), y.2.post.library.contents (.slot 1))) = some (0, some "B", none) := by
    decide +kernel
  obtain ⟨x, hx, hxop⟩ := Option.map_eq_some_iff.1 hlast
  obtain ⟨y, hy, hyop⟩ := Option.map_eq_some_iff.1 hmove
  obtain ⟨hlen, rfl⟩ := List.getElem?_eq_some_iff.1 hx
  simp only [Prod.mk.injEq] at hxop hyop
  have hsplit : DeliveryExample.steps "A" [1, 2] = (DeliveryExample.steps "A" [1, 2]).take 23 ++
      (DeliveryExample.steps "A" [1, 2])[23] :: (DeliveryExample.steps "A" [1, 2]).drop 24 := by
    rw [List.getElem_cons_drop, List.take_append_drop]
  have hdelivered := h (fun _ => "") (DeliveryExample.requests "A") (fun _ => false) DeliveryExample.world _ _ _ _ _ hsplit
    (by rw [hxop.1]; rfl) ⟨0, hxop.2⟩
  rw [hxop.1] at hdelivered
  refine hdelivered.1 y (List.mem_of_getElem? hy) hyop.1 "B" (by decide) ⟨.slot 1, ?_⟩
  rw [hyop.2.1, hyop.2.2]
  simp

namespace DeliveryExample

/-- The export moves from slot 1, which holds `A` whenever it looks or moves. -/
theorem untroubled_of_calm {pre past rest : List (ClientStep Nat)} {y : ClientStep Nat} (hcalm : ∀ z ∈ pre, z.1 = 0 →
      (z.2.op.route = none ∨ z.2.op.route = some (.slot 1, .ieSlot 10) ∧ z.2.op.saysMoved z.2.ans = true ∧
        z.2.pre.library.contents (.slot 1) = some "A") ∧
      (z.2.op.isRead = true → z.2.pre.library.contents (.slot 1) = some "A"))
    (hsplit : pre = past ++ y :: rest) (hi : y.1 = 0) : Untroubled (requests "B" 0) past y := by
  intro src dst hroute
  rcases (hcalm y (by simp [hsplit]) hi).1 with hnone | ⟨hsome, hsaid, hthere⟩
  · rw [hnone] at hroute
    cases hroute
  · obtain ⟨rfl, rfl⟩ := Prod.mk.inj (Option.some.inj (hsome.symm.trans hroute))
    refine ⟨fun _ _ => hsaid, fun b hcan => ⟨(by rintro ⟨⟩), fun z hz hzi hfinds => ?_⟩⟩
    rw [(hcalm z (by simp [hsplit, hz]) (hzi.trans hi)).2 (Op.isRead_of_finds hfinds), ← hthere]
    exact hcan.source

end DeliveryExample

/-- The load of another cartridge meanwhile does not trouble an export. -/
theorem requests_deliver_named_export :
    ∃ pre, pre <+: DeliveryExample.steps "B" [1] ∧ Delivered (DeliveryExample.requests "B" 0) 0 pre DeliveryExample.exported := by
  have hlast : (DeliveryExample.steps "B" [1])[15]?.map (fun x => (x.1, x.2.op)) =
      some (0, .catalog (.updateTapeOp 0 (.completed DeliveryExample.exported))) := by
    decide +kernel
  have hcalm : ∀ z ∈ (DeliveryExample.steps "B" [1]).take 15, z.1 = 0 →
      (z.2.op.route = none ∨ z.2.op.route = some (.slot 1, .ieSlot 10) ∧ z.2.op.saysMoved z.2.ans = true ∧
        z.2.pre.library.contents (.slot 1) = some "A") ∧
      (z.2.op.isRead = true → z.2.pre.library.contents (.slot 1) = some "A") := by
    decide +kernel
  obtain ⟨x, hx, hxop⟩ := Option.map_eq_some_iff.1 hlast
  obtain ⟨hlen, rfl⟩ := List.getElem?_eq_some_iff.1 hx
  simp only [Prod.mk.injEq] at hxop
  have hsplit : DeliveryExample.steps "B" [1] = (DeliveryExample.steps "B" [1]).take 15 ++
      (DeliveryExample.steps "B" [1])[15] :: (DeliveryExample.steps "B" [1]).drop 16 := by
    rw [List.getElem_cons_drop, List.take_append_drop]
  have hdelivered := requests_deliver_named (fun _ => "") (DeliveryExample.requests "B") (fun _ => false) DeliveryExample.world _ _ _ _
    DeliveryExample.exported hsplit (by rw [hxop.1]; rfl) ⟨0, hxop.2⟩ fun past y rest hpre hi => by
      rw [hxop.1] at hi ⊢
      exact DeliveryExample.untroubled_of_calm hcalm hpre hi
  rw [hxop.1] at hdelivered
  exact ⟨_, List.take_prefix _ _, hdelivered⟩

end OpenBlade
