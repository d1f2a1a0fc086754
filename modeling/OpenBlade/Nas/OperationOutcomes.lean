import OpenBlade.Effects.Carries
import OpenBlade.Effects.Protocol
import OpenBlade.Nas.NamedCartridge

/-!
# The outcome of a tape operation

A backend reports a failure in two shapes: it raises, or it answers `success = False`. A request fails its row for the first. It
looks at no answer: a load, an unload, a move or a format that was refused is completed, and a refused import or export is written
into the catalog as if the cartridge had moved. Where nothing is refused a completed row means that every call of the hardware was
done, and the caller that asked for an exception has the cartridge where it asked for it, unless the request took another one.
-/

namespace OpenBlade

open Effects Proc Storage

/-- How a call ended: it raised, a backend answered `success = False`, or it was done. -/
inductive Outcome where
  | raised
  | refused
  | done
  deriving Repr, DecidableEq

/-- The requests that are to leave their cartridge in an element. -/
def TapeOpType.places : TapeOpType → Bool
  | .eject => true
  | opType => opType.movesMedia

namespace Op

/-- Calls of the hardware. -/
def isHardware : Op → Bool
  | .library _ | .ltfs _ => true
  | _ => false

/-- What a backend answers about an operation it was asked for. -/
def result? : (o : Op) → o.Ans → Option OperationResult
  | .library (.load _ _), (result : OperationResult) => some result
  | .library (.unload _ _), (result : OperationResult) => some result
  | .library (.move _ _), (result : OperationResult) => some result
  | .library (.importCartridge _ _), (result : OperationResult) => some result
  | .library (.exportCartridgeToIe _ _), (result : OperationResult) => some result
  | .ltfs (.unmount _), (result : OperationResult) => some result
  | .ltfs (.readFile _ _ _), (result : OperationResult) => some result
  | .ltfs (.format _ _), (result : OperationResult) => some result
  | _, _ => none

def outcome (o : Op) : Except Exn o.Ans → Outcome
  | .error _ => .raised
  | .ok a => if (o.result? a).all OperationResult.success then .done else .refused

/-- The call stores a completed row. -/
def completes : Op → Bool
  | .catalog (.updateTapeOp _ (.completed _)) => true
  | _ => false

/-- The call writes a row of a cartridge. -/
def writesCartridges : Op → Bool
  | .catalog (.addCartridge _ _) | .catalog (.setCartridgeState _ _) => true
  | _ => false

/-- The call takes a cartridge in or out. -/
def passesStation : Op → Bool
  | .library (.importCartridge _ _) | .library (.exportCartridgeToIe _ _) => true
  | _ => false

end Op

/-- What the catalog says of where a cartridge is. -/
def Catalog.stateOf (cat : Catalog) (barcode : Barcode) : Option String := (cat.getCartridge barcode).map Cartridge.state

/-- The element a valid request names holds another cartridge, and the library can move it; an eject is an unload. -/
def Library.TakesAnother (lib : Library) (request : TapeOpRequest) : Prop :=
  lib.MovesAnother request ∨ request.opType = .eject ∧ lib.MovesAnother { request with opType := .unload }

/-- A step of a request. -/
abbrev RequestStep : Type := Step World Op fun o => Except Exn o.Ans

/-- No call was refused. -/
def Unrefused (hist : List RequestStep) : Prop := ∀ st ∈ hist, st.op.outcome st.ans ≠ .refused

/-- Every call of the hardware was done. -/
def AllDone (hist : List RequestStep) : Prop := ∀ st ∈ hist, st.op.isHardware = true → st.op.outcome st.ans = .done

/-- A cartridge was taken in or out. -/
def PassedStation (hist : List RequestStep) : Prop := ∃ st ∈ hist, st.op.passesStation = true ∧ st.op.outcome st.ans = .done

/-- What is stored of a request is so: a row it has completed, in whatever state the run has reached, means that every call of the
hardware was done; what the catalog says of a cartridge has changed only after one was taken in or out. -/
structure StoredTruly (w w' : World) (trace : List RequestStep) : Prop where
  completed : ∀ row ∈ w'.catalog.tapeOps, row.status = .completed → row ∉ w.catalog.tapeOps → AllDone trace
  recorded : ∀ barcode, w'.catalog.stateOf barcode ≠ w.catalog.stateOf barcode → PassedStation trace

/-- The cartridge of the request is where the request asked for it. -/
def InPlace (request : TapeOpRequest) (lib : Library) : Prop :=
  request.opType.places = true → ∃ dst, Destination request dst ∧ lib.contents dst = some request.barcode

namespace OutcomeAux

variable {L : Type} {request : TapeOpRequest} {hist : List RequestStep} {st : RequestStep}

/-! ### What is asked of each step -/

/-- No row has been completed. -/
def Uncompleted (hist : List RequestStep) : Prop := ∀ st ∈ hist, st.op.completes = false

/-- A row is completed where every call of the hardware was done, if none was refused, and none follows it; a cartridge is written
after it was taken in or out. -/
structure Truthful (hist : List RequestStep) (st : RequestStep) : Prop where
  completes : st.op.completes = true → Unrefused hist → AllDone hist
  writes : st.op.writesCartridges = true → Unrefused hist → PassedStation hist
  hardware : st.op.isHardware = true → Uncompleted hist

theorem unrefused_concat : Unrefused (hist ++ [st]) ↔ Unrefused hist ∧ st.op.outcome st.ans ≠ .refused := by
  simp [Unrefused, or_imp, forall_and]

theorem allDone_concat : AllDone (hist ++ [st]) ↔ AllDone hist ∧ (st.op.isHardware = true → st.op.outcome st.ans = .done) := by
  simp [AllDone, or_imp, forall_and]

theorem uncompleted_concat : Uncompleted (hist ++ [st]) ↔ Uncompleted hist ∧ st.op.completes = false := by
  simp [Uncompleted, or_imp, forall_and]

theorem passedStation_concat :
    PassedStation (hist ++ [st]) ↔ PassedStation hist ∨ st.op.passesStation = true ∧ st.op.outcome st.ans = .done := by
  simp [PassedStation, or_and_right, exists_or]

/-- A call that answers was refused or done. -/
theorem done_of_answer (st : RequestStep) {a : st.op.Ans} (hans : st.ans = .ok a) (h : st.op.outcome st.ans ≠ .refused) : st.op.outcome st.ans = .done := by
  rw [hans] at h ⊢
  by_cases hall : (st.op.result? a).all OperationResult.success = true
  · exact if_pos hall
  · exact absurd (if_neg hall) h

/-- So far every call of the hardware was done, if none was refused, and no row is completed. -/
structure Well (s : World × List RequestStep) : Prop where
  uncompleted : Uncompleted s.2
  done : Unrefused s.2 → AllDone s.2

/-- Calls that neither complete a row nor write a cartridge. -/
def isPlain (o : Op) : Bool := !o.completes && !o.writesCartridges

section steps

variable (sha256 : Bytes → String) {l : L} {s : World × List RequestStep}

/-- The contract of a request that runs alone. -/
abbrev told : Contract (World × List RequestStep) Op fun o => Except Exn o.Ans := .history Truthful

theorem truthful_of_plain (ho : isPlain st.op = true) (h : Uncompleted hist) : Truthful hist st := by
  simp only [isPlain, Bool.and_eq_true, Bool.not_eq_true'] at ho
  constructor
  · intro hc
    rw [ho.1] at hc
    cases hc
  · intro hw
    rw [ho.2] at hw
    cases hw
  · exact fun _ => h

theorem uncompleted_plain (ho : isPlain st.op = true) (h : Uncompleted hist) : Uncompleted (hist ++ [st]) := by
  simp only [isPlain, Bool.and_eq_true, Bool.not_eq_true'] at ho
  exact uncompleted_concat.2 ⟨h, ho.1⟩

/-- A plain call that answers leaves all well. -/
theorem carries_perform {o : Op} (ho : isPlain o = true) :
    Carries (machine sha256).recorded told Well (fun s => Uncompleted s.2) (perform o : JobM L o.Ans) := by
  constructor
  · rintro l ⟨w, hist⟩ ⟨hopen, hdone⟩
    refine wp_recorded fun c => ⟨truthful_of_plain ho hopen, fun a hans => ⟨uncompleted_plain ho hopen, fun h => ?_⟩, fun e _ =>
      uncompleted_plain ho hopen⟩
    obtain ⟨hhist, hst⟩ := unrefused_concat.1 h
    exact allDone_concat.2 ⟨hdone hhist, fun _ => done_of_answer ((machine sha256).step w o c) hans hst⟩
  · rintro l ⟨w, hist⟩ hopen
    exact wp_recorded fun c => ⟨truthful_of_plain ho hopen, fun a _ => uncompleted_plain ho hopen, fun e _ => uncompleted_plain ho hopen⟩

theorem uncompleted_of_well : ∀ s : World × List RequestStep, Well s → Uncompleted s.2 := fun _ h => h.uncompleted

/-- Calls that reach no hardware leave things as well as they were. -/
theorem carries_reads {α : Type} {m : JobM L α} (hm : Reads (fun o => isPlain o = true ∧ o.isHardware = false) m) :
    Carries (machine sha256).recorded told Well (fun s => Uncompleted s.2) m := by
  refine hm.carries uncompleted_of_well ?_ ?_
  · rintro o ⟨ho, hsoft⟩ ⟨w, hist⟩ s₁ c ⟨hopen, hdone⟩ hr -
    obtain rfl : (w, hist) = s₁ := hr
    refine ⟨truthful_of_plain ho hopen, uncompleted_plain ho hopen, fun h => allDone_concat.2 ⟨hdone (unrefused_concat.1 h).1, ?_⟩⟩
    intro hhard
    rw [show ((machine sha256).step w o c).op = o from rfl, hsoft] at hhard
    cases hhard
  · rintro o ⟨ho, -⟩ ⟨w, hist⟩ s₁ c hopen hr -
    obtain rfl : (w, hist) = s₁ := hr
    exact ⟨truthful_of_plain ho hopen, uncompleted_plain ho hopen⟩

abbrev Carried {α : Type} (m : JobM L α) : Prop := Carries (machine sha256).recorded told Well (fun s => Uncompleted s.2) m

theorem carried_givenOr {α : Type} (named : Option α) {search : JobM L α} (h : Carried sha256 search) :
    Carried sha256 (givenOr named search) := by
  cases named with
  | some a => exact carries_pure a
  | none => exact h

theorem carried_raise {α : Type} (e : Exn) : Carried sha256 (raise e : JobM L α) := carries_raise uncompleted_of_well e

theorem carried_load : Carried sha256 (orchestratorLoad request : JobM L JsonObject) := by
  refine carries_bind (carried_givenOr sha256 _ (carries_perform sha256 rfl)) fun slot => ?_
  cases slot with
  | none => exact carried_raise sha256 _
  | some slotId => exact carries_bind (carries_perform sha256 rfl) fun _ => carries_pure _

theorem carried_findEmptySlot : Carried sha256 (findEmptySlot : JobM L Nat) := by
  refine carries_bind (carries_perform sha256 rfl) fun inv => ?_
  split
  · exact carried_raise sha256 _
  · exact carries_pure _

theorem carried_unload : Carried sha256 (orchestratorUnload request : JobM L JsonObject) := by
  refine carries_bind (carried_givenOr sha256 _ (carries_perform sha256 rfl)) fun drive => ?_
  cases drive with
  | none => exact carried_raise sha256 _
  | some driveId =>
    refine carries_bind (carried_givenOr sha256 _ (carried_findEmptySlot sha256)) fun slotId => carries_bind ?_ fun _ => ?_
    · refine carries_bind (carries_perform sha256 rfl) fun leases => ?_
      split
      · exact carries_pure ()
      · exact carried_raise sha256 _
    · exact carries_bind (carries_perform sha256 rfl) fun _ => carries_pure _

theorem carried_ensureLoaded (barcode : Barcode) (driveId : Option Int) :
    Carried sha256 (orchestratorEnsureLoaded barcode driveId : JobM L (Int × Option Nat)) := by
  refine carries_bind (carries_perform sha256 rfl) fun loaded => ?_
  cases loaded with
  | some driveId => exact carries_pure _
  | none =>
    refine carries_bind (carries_perform sha256 rfl) fun slot => ?_
    cases slot with
    | none => exact carried_raise sha256 _
    | some slotId => exact carries_bind (carries_perform sha256 rfl) fun _ => carries_pure _

theorem carried_unloadIfLoaded (driveId : Int) (slot : Option Nat) : Carried sha256 (unloadIfLoaded driveId slot : JobM L Unit) := by
  cases slot with
  | none => exact carries_pure ()
  | some slotId => exact carries_bind (carries_perform sha256 rfl) fun _ => carries_pure ()

theorem carried_resolveDrive : Carried sha256 (resolveDriveForWrite request : JobM L Int) := by
  unfold resolveDriveForWrite
  cases request.driveId with
  | some driveId => exact carries_pure driveId
  | none => exact carries_bind (carries_perform sha256 rfl) fun _ => carries_pure _

theorem carried_format : Carried sha256 (orchestratorFormat request : JobM L JsonObject) := by
  unfold orchestratorFormat
  cases request.formatConfirmation with
  | none => exact carried_raise sha256 _
  | some confirmation =>
    refine carries_bind (carries_perform sha256 rfl) fun now => carries_bind (carries_ofExcept uncompleted_of_well _) fun _ => ?_
    refine carries_bind (carried_ensureLoaded sha256 _ _) fun loaded => carries_bind ?_ fun _ => carries_pure _
    exact carries_ensure (carries_perform sha256 rfl) fun _ => carried_unloadIfLoaded sha256 _ _

theorem carried_write : Carried sha256 (orchestratorWrite request : JobM L JsonObject) := by
  refine carries_bind (carried_ensureLoaded sha256 _ _) fun loaded => carries_bind (carries_perform sha256 rfl) fun handle => ?_
  refine carries_ensure ?_ fun _ => carries_bind (carries_perform sha256 rfl) fun _ => carried_unloadIfLoaded sha256 _ _
  exact carries_bind (carries_perform sha256 rfl) fun _ => carries_bind (carries_perform sha256 rfl) fun _ => carries_pure _

theorem carried_readTapePath : Carried sha256 (readTapePath request : JobM L (Bytes × String)) := by
  refine carries_bind (carries_perform sha256 rfl) fun found => ?_
  cases found with
  | none => exact carried_raise sha256 _
  | some found => exact carries_pure found

theorem carried_sourceSlot : Carried sha256 (sourceSlot request : JobM L Int) := by
  unfold sourceSlot
  split
  · refine carries_bind (carries_perform sha256 rfl) fun slot => ?_
    cases slot with
    | none => exact carried_raise sha256 _
    | some slotId => exact carries_pure _
  · exact carries_ofExcept uncompleted_of_well _

theorem carried_destSlot : Carried sha256 (destSlot request : JobM L Int) := by
  unfold destSlot
  split
  · exact carried_raise sha256 _
  · refine carries_bind (carries_ofExcept uncompleted_of_well _) fun dest => carries_bind (carries_perform sha256 rfl) fun inv => ?_
    exact carries_ite (fun _ => carries_pure _) fun _ => carried_raise sha256 _

theorem carried_move : Carried sha256 (orchestratorMove request : JobM L JsonObject) :=
  carries_bind (carried_sourceSlot sha256) fun _ => carries_bind (carried_destSlot sha256) fun _ =>
    carries_bind (carries_perform sha256 rfl) fun _ => carries_pure _

theorem carried_validateMove : Carried sha256 (validateMove request : JobM L Unit) := by
  unfold validateMove
  split
  · refine carries_bind (carried_sourceSlot sha256) fun _ => carries_bind (carried_destSlot sha256) fun _ => ?_
    exact carries_ite (fun _ => carried_raise sha256 _) fun _ => carries_pure ()
  · exact carries_pure ()

theorem carried_requireMailslot : Carried sha256 (requireMailslot : JobM L Unit) :=
  carries_bind (carries_perform sha256 rfl) fun _ => carries_ite (fun _ => carries_pure ()) fun _ => carried_raise sha256 _

theorem carried_requireIeElement (ieSlot : Int) : Carried sha256 (requireIeElement ieSlot : JobM L (Option Barcode)) := by
  refine carries_bind (carries_perform sha256 rfl) fun elements => ?_
  split
  · exact carried_raise sha256 _
  · exact carries_pure _

theorem carried_requireStorageSlot (slotId : Nat) : Carried sha256 (requireStorageSlot slotId : JobM L (Option Barcode)) := by
  refine carries_bind (carries_perform sha256 rfl) fun inv => ?_
  split
  · exact carried_raise sha256 _
  · exact carries_pure _

/-- What is left when a cartridge has been taken in or out, and none of it refused. -/
structure Passed (s : World × List RequestStep) : Prop where
  well : Well s
  passed : Unrefused s.2 → PassedStation s.2

/-- Taking a cartridge in or out, where all is well. -/
theorem wp_passes {o : Op} (ho : o.passesStation = true) (hplain : isPlain o = true) (h : Well s) :
    wp (machine sha256).recorded told (perform o : JobM L o.Ans) (fun _ _ s' => Passed s') (fun _ _ s' => Uncompleted s'.2) l s := by
  obtain ⟨w, hist⟩ := s
  refine wp_recorded fun c => ⟨truthful_of_plain hplain h.uncompleted, fun a hans => ?_, fun e _ => uncompleted_plain hplain h.uncompleted⟩
  have hdone : ∀ hnot : Unrefused (hist ++ [(machine sha256).step w o c]),
      o.outcome ((machine sha256).exec w o c).1 = .done := fun hnot =>
    done_of_answer ((machine sha256).step w o c) hans (unrefused_concat.1 hnot).2
  refine ⟨⟨uncompleted_plain hplain h.uncompleted, fun hnot => ?_⟩, fun hnot => passedStation_concat.2 (.inr ⟨ho, hdone hnot⟩)⟩
  exact allDone_concat.2 ⟨h.done (unrefused_concat.1 hnot).1, fun _ => hdone hnot⟩

/-- The rows of a cartridge that has been taken in or out. -/
theorem wp_recordCartridgeState (barcode : Barcode) (state : String) (h : Passed s) :
    wp (machine sha256).recorded told (recordCartridgeState barcode state : JobM L Unit) (fun _ _ s' => Well s')
      (fun _ _ s' => Uncompleted s'.2) l s := by
  have hreads : Reads (fun o => o.writesCartridges = true) (recordCartridgeState barcode state : JobM L Unit) :=
    reads_recordCartridgeState (fun _ _ => rfl) (fun _ _ => rfl) barcode state
  have hstable : Stable (machine sha256).recorded told (fun o => o.writesCartridges = true) Passed := by
    rintro o ho ⟨w, hist⟩ s₁ c ⟨⟨hopen, hdone⟩, hpassed⟩ hr -
    obtain rfl : (w, hist) = s₁ := hr
    have hsoft : o.completes = false ∧ o.isHardware = false := by
      unfold Op.writesCartridges at ho
      split at ho
      · exact ⟨rfl, rfl⟩
      · exact ⟨rfl, rfl⟩
      · cases ho
    have hop : ((machine sha256).step w o c).op = o := rfl
    refine ⟨⟨?_, fun _ => hpassed, ?_⟩, ⟨uncompleted_concat.2 ⟨hopen, hsoft.1⟩, fun hnot => ?_⟩, fun hnot => ?_⟩
    · intro hcompletes
      exact absurd (hsoft.1.symm.trans hcompletes) Bool.false_ne_true
    · intro hhard
      exact absurd (hsoft.2.symm.trans hhard) Bool.false_ne_true
    · refine allDone_concat.2 ⟨hdone (unrefused_concat.1 hnot).1, fun hhard => ?_⟩
      exact absurd (hsoft.2.symm.trans hhard) Bool.false_ne_true
    · exact passedStation_concat.2 (.inl (hpassed (unrefused_concat.1 hnot).1))
  refine wp_mono (hreads.keeps hstable h) ?_ ?_
  · exact fun _ _ _ h' => h'.2.well
  · exact fun _ _ _ h' => h'.2.well.uncompleted

theorem wp_import (h : Well s) :
    wp (machine sha256).recorded told (orchestratorImport request : JobM L JsonObject) (fun _ _ s' => Well s')
      (fun _ _ s' => Uncompleted s'.2) l s := by
  unfold orchestratorImport
  rw [wp_bind]
  refine wp_mono ((carried_requireMailslot sha256).well l s h) ?_ fun _ _ _ h => h
  intro _ l' s' h
  rw [wp_bind, wp_ofExcept]
  cases requiredInt request "ie_slot" "import" with
  | error e => exact h.uncompleted
  | ok ieSlot =>
    simp only []
    rw [wp_bind]
    refine wp_mono ((carried_requireIeElement sha256 ieSlot).well l' s' h) ?_ fun _ _ _ h => h
    intro content l' s' h
    cases content with
    | none => exact h.uncompleted
    | some source =>
      simp only []
      split
      · exact h.uncompleted
      cases request.slotId with
      | none => exact h.uncompleted
      | some targetSlot =>
        simp only []
        rw [wp_bind]
        refine wp_mono ((carried_requireStorageSlot sha256 targetSlot).well l' s' h) ?_ fun _ _ _ h => h
        intro occupant l' s' h
        cases occupant with
        | some occupant => exact h.uncompleted
        | none =>
          simp only []
          rw [wp_bind]
          refine wp_mono (wp_passes sha256 (o := .library (.importCartridge ieSlot targetSlot)) rfl rfl h) ?_ fun _ _ _ h => h
          intro result l' s' h
          rw [wp_bind]
          exact wp_recordCartridgeState sha256 _ _ h

theorem wp_export (h : Well s) :
    wp (machine sha256).recorded told (orchestratorExport request : JobM L JsonObject) (fun _ _ s' => Well s')
      (fun _ _ s' => Uncompleted s'.2) l s := by
  unfold orchestratorExport
  rw [wp_bind]
  refine wp_mono ((carried_requireMailslot sha256).well l s h) ?_ fun _ _ _ h => h
  intro _ l' s' h
  rw [wp_bind]
  refine wp_mono ((carries_perform sha256 (o := .library (.findSlotByBarcode request.barcode)) rfl).well l' s' h) ?_ fun _ _ _ h => h
  intro found l' s' h
  cases found with
  | none => exact h.uncompleted
  | some source =>
    simp only []
    split
    · exact h.uncompleted
    have hguard : Reads (fun o => isPlain o = true ∧ o.isHardware = false) (guardExport request : JobM L Unit) := by
      refine reads_guardExport ?_ request
      rintro o ⟨⟨o, rfl⟩, hread⟩
      cases o <;> first | exact ⟨rfl, rfl⟩ | cases hread
    rw [wp_bind]
    refine wp_mono ((carries_reads sha256 hguard).well l' s' h) ?_ fun _ _ _ h => h
    intro _ l' s' h
    rw [wp_bind, wp_ofExcept]
    cases requiredInt request "ie_slot" "export" with
    | error e => exact h.uncompleted
    | ok ieSlot =>
      simp only []
      rw [wp_bind]
      refine wp_mono ((carried_requireIeElement sha256 ieSlot).well l' s' h) ?_ fun _ _ _ h => h
      intro content l' s' h
      cases content with
      | some occupant => exact h.uncompleted
      | none =>
        simp only []
        rw [wp_bind]
        refine wp_mono (wp_passes sha256 (o := .library (.exportCartridgeToIe source ieSlot)) rfl rfl h) ?_ fun _ _ _ h => h
        intro result l' s' h
        rw [wp_bind]
        exact wp_recordCartridgeState sha256 _ _ h

/-- An operation that returns has had every call of the hardware done. -/
theorem wp_dispatch (h : Well s) :
    wp (machine sha256).recorded told (dispatch request : JobM L JsonObject) (fun _ _ s' => Well s') (fun _ _ s' => Uncompleted s'.2)
      l s := by
  unfold dispatch
  cases request.opType with
  | load => exact (carried_load sha256).well l s h
  | unload => exact (carried_unload sha256).well l s h
  | format => exact (carries_bind (carried_resolveDrive sha256) fun _ => carried_format sha256).well l s h
  | write => exact (carries_bind (carried_resolveDrive sha256) fun _ => carried_write sha256).well l s h
  | move => exact (carried_move sha256).well l s h
  | importMedia => exact wp_import sha256 h
  | exportMedia => exact wp_export sha256 h
  | read => exact (carries_bind (carried_readTapePath sha256) fun _ => carries_pure _).well l s h
  | verify =>
    refine (carries_bind (carried_readTapePath sha256) fun found => ?_).well l s h
    exact carries_ite (fun _ => carried_raise sha256 _) fun _ => carries_pure _
  | eject => exact (carried_unload sha256).well l s h

/-- A step that completes a row, where all is well. -/
theorem wp_completes (opId : Nat) (result : JsonObject) (h : Well s) :
    wp (machine sha256).recorded told (updateTapeOp opId (.completed result) : JobM L _) (fun _ _ _ => True) (fun _ _ _ => True) l s := by
  obtain ⟨w, hist⟩ := s
  refine wp_recorded fun c => ⟨⟨fun _ => h.done, ?_, ?_⟩, fun _ _ => trivial, fun _ _ => trivial⟩
  · intro hwrites
    cases hwrites
  · intro hhard
    cases hhard

/-- Failing a row is allowed anywhere. -/
theorem wp_recordFailedOp (opId : Nat) (opType : TapeOpType) (exc : Exn) :
    wp (machine sha256).recorded told (recordFailedOp opId opType exc : JobM L TapeOpRecord) (fun _ _ _ => True) (fun _ _ _ => True)
      l s := by
  obtain ⟨w, hist⟩ := s
  unfold recordFailedOp
  rw [wp_bind]
  refine wp_recorded fun c => ⟨⟨nofun, nofun, nofun⟩, fun row _ => ?_, fun _ _ => trivial⟩
  rw [wp_bind]
  cases row with
  | none => trivial
  | some row =>
    show wp _ _ (ite _ _ _) _ _ _ _
    split <;> trivial

theorem wp_request (raiseOnFailed : Bool) (w : World) :
    wp (machine sha256).recorded told (executeTapeRequest request raiseOnFailed : JobM L TapeOpRecord) (fun _ _ _ => True)
      (fun _ _ _ => True) l (w, []) := by
  have hstart : Well (w, []) := ⟨fun _ h => absurd h List.not_mem_nil, fun _ _ h => absurd h List.not_mem_nil⟩
  unfold executeTapeRequest
  rw [wp_bind]
  have hop : wp (machine sha256).recorded told (executeTapeOp request : JobM L TapeOpRecord) (fun _ _ _ => True) (fun _ _ _ => True) l
      (w, []) := by
    have htrue : ∀ (e : Exn) (l' : L) (s' : World × List RequestStep), Uncompleted s'.2 → True := fun _ _ _ _ => trivial
    unfold executeTapeOp
    rw [wp_bind]
    refine wp_mono ((carries_ofExcept uncompleted_of_well _).well l _ hstart) ?_ htrue
    intro _ l' s' h
    rw [wp_bind]
    refine wp_mono ((carried_validateMove sha256).well l' s' h) ?_ htrue
    intro _ l' s' h
    rw [wp_bind]
    refine wp_mono ((carries_perform sha256 (o := .catalog (.createTapeOp request)) rfl).well l' s' h) ?_ htrue
    intro row l' s' h
    rw [wp_bind]
    refine wp_mono ((carries_perform sha256 (o := .catalog (.updateTapeOp _ .running)) rfl).well l' s' h) ?_ htrue
    intro _ l' s' h
    rw [wp_handle, wp_bind]
    refine wp_mono (wp_dispatch sha256 h) ?_ fun exc l' s' _ => wp_recordFailedOp sha256 _ _ exc
    intro result l' s' h
    rw [wp_bind]
    refine wp_mono (wp_completes sha256 _ result h) ?_ fun exc l' s' _ => wp_recordFailedOp sha256 _ _ exc
    intro persisted l' s' _
    cases persisted with
    | none => exact wp_recordFailedOp sha256 _ _ _
    | some row => trivial
  refine wp_mono hop ?_ fun _ _ _ h => h
  intro record l' s' _
  split <;> trivial

end steps

/-! ### What is stored -/

section stored

variable (sha256 : Bytes → String) {w : World} {c : Choice} {o : Op}

/-- A call of the orchestrator that is no completion leaves no new completed row. -/
theorem exec_completed (ho : o.ofOrchestrator = true) (hcompletes : o.completes = false) {row : TapeOpRecord}
    (hrow : row ∈ (w.exec sha256 o c).2.catalog.tapeOps) (hstatus : row.status = .completed) : row ∈ w.catalog.tapeOps := by
  revert hrow
  refine World.exec_post sha256 (fun w' => row ∈ w'.catalog.tapeOps → row ∈ w.catalog.tapeOps) (fun h => h) ?_
  cases o with
  | lease o => exact fun h => h
  | library o => exact fun h => h
  | ltfs o => exact fun h => h
  | host o =>
    obtain ⟨host, draws, hh⟩ := World.attempt_host sha256 (w := w.elapse c) (c := c) o
    rw [hh]
    exact fun h => h
  | catalog o =>
    cases o with
    | createTapeOp request =>
      intro h
      rcases List.mem_append.1 (show row ∈ w.catalog.tapeOps ++ [_] from h) with h | h
      · exact h
      · rw [List.mem_singleton.1 h] at hstatus
        cases hstatus
    | updateTapeOp opId update =>
      intro h
      simp only [World.attempt, World.execCatalog, Catalog.updateTapeOp] at h
      split at h
      · exact h
      · obtain ⟨entry, hentry, rfl⟩ := List.mem_map.1 h
        split at hstatus
        · cases update with
          | completed result => cases hcompletes
          | running => cases hstatus
          | failed error => cases hstatus
        · rename_i hid
          rwa [if_neg hid]
    | addCartridge barcode group =>
      simp only [World.attempt, World.execCatalog, Catalog.addCartridge]
      split
      · exact fun h => h
      · split <;> exact fun h => h
    | setCartridgeState barcode state =>
      simp only [World.attempt, World.execCatalog, Catalog.setCartridgeState]
      split <;> exact fun h => h
    | _ => first | exact fun h => h | cases ho

/-- A call of the orchestrator that writes no cartridge leaves what the catalog says of each. -/
theorem exec_stateOf (ho : o.ofOrchestrator = true) (hwrites : o.writesCartridges = false) (barcode : Barcode) :
    (w.exec sha256 o c).2.catalog.stateOf barcode = w.catalog.stateOf barcode := by
  refine World.exec_post sha256 (fun w' => w'.catalog.stateOf barcode = w.catalog.stateOf barcode) rfl ?_
  cases o with
  | lease o => rfl
  | library o => rfl
  | ltfs o => rfl
  | host o =>
    obtain ⟨host, draws, hh⟩ := World.attempt_host sha256 (w := w.elapse c) (c := c) o
    rw [hh]
    rfl
  | catalog o =>
    cases o with
    | updateTapeOp opId update =>
      simp only [World.attempt, World.execCatalog, Catalog.updateTapeOp]
      split <;> rfl
    | addCartridge barcode group => cases hwrites
    | setCartridgeState barcode state => cases hwrites
    | _ => first | rfl | cases ho

end stored

theorem storedTruly_of_truthful {L : Type} (sha256 : Bytes → String) {request : TapeOpRequest} {raiseOnFailed : Bool} {l : L} {w : World}
    {cs : List Choice}
    (h : Throughout Truthful ((machine sha256).trace cs (executeTapeRequest request raiseOnFailed l) w))
    (hclean : Unrefused ((machine sha256).trace cs (executeTapeRequest request raiseOnFailed l) w)) :
    StoredTruly w ((machine sha256).run cs (executeTapeRequest request raiseOnFailed l) w).2
      ((machine sha256).trace cs (executeTapeRequest request raiseOnFailed l) w) := by
  have hcalls : ∀ st ∈ (machine sha256).trace cs (executeTapeRequest request raiseOnFailed l) w, st.op.ofOrchestrator = true :=
    Prog.Only.trace (reads_executeTapeRequest request raiseOnFailed l)
  constructor
  · intro row hrow hstatus hnew
    obtain ⟨st, hst, ⟨c, hstep⟩, hpre, hpost⟩ := Machine.exists_step_of_run (J := fun w' : World => row ∈ w'.catalog.tapeOps) hnew hrow
    have hcompletes : st.op.completes = true := by
      by_contra hnot
      rw [hstep] at hpost
      exact hpre (exec_completed sha256 (hcalls st hst) (Bool.not_eq_true _ ▸ hnot) hpost hstatus)
    obtain ⟨pre, post, hsplit⟩ := List.append_of_mem hst
    have hbefore : AllDone pre := (h pre st post hsplit).completes hcompletes fun y hy =>
      hclean y (hsplit ▸ List.mem_append_left _ hy)
    -- no call of the hardware follows the completion
    intro y hy hhard
    rw [hsplit] at hy
    rcases List.mem_append.1 hy with hpre | hpost
    · exact hbefore y hpre hhard
    rcases List.mem_cons.1 hpost with rfl | hpost
    · unfold Op.completes at hcompletes
      split at hcompletes
      · rename_i hop
        rw [hop] at hhard
        cases hhard
      · cases hcompletes
    · obtain ⟨mid, rest, rfl⟩ := List.append_of_mem hpost
      have hopen := (h (pre ++ st :: mid) y rest (by simp [hsplit])).hardware hhard st (by simp)
      exact absurd (hopen.symm.trans hcompletes) Bool.false_ne_true
  · intro barcode hchange
    obtain ⟨st, hst, ⟨c, hstep⟩, hpre, hpost⟩ := Machine.exists_step_of_run
      (J := fun w' : World => w'.catalog.stateOf barcode ≠ w.catalog.stateOf barcode) (fun h => h rfl) hchange
    have hwrites : st.op.writesCartridges = true := by
      by_contra hnot
      rw [hstep] at hpost
      exact hpost ((exec_stateOf sha256 (hcalls st hst) (Bool.not_eq_true _ ▸ hnot) barcode).trans (not_not.1 hpre))
    obtain ⟨pre, post, hsplit⟩ := List.append_of_mem hst
    obtain ⟨y, hy, hpassed⟩ := (h pre st post hsplit).writes hwrites fun y hy => hclean y (hsplit ▸ List.mem_append_left _ hy)
    exact ⟨y, hsplit ▸ List.mem_append_left _ hy, hpassed⟩

/-! ### Where the cartridge is -/

/-- A call that moves a cartridge and is done has moved it. -/
theorem saysMoved_of_done {o : LibraryOp} {route : Element × Element} (ho : o.route = some route) {a : Except Exn o.Ans}
    (h : (Op.library o).outcome a = .done) : o.saysMoved a = true := by
  cases a with
  | error e => cases h
  | ok result =>
    have hall : ((Op.library o).result? result).all OperationResult.success = true := by
      by_contra hnot
      exact absurd ((if_neg hnot).symm.trans h) nofun
    cases o <;> first | exact hall | cases ho

theorem delivers_contents (sha256 : Bytes → String) (lib : Library) (barcode : Barcode) :
    NamedAux.Delivers sha256 (fun st => st.op.outcome st.ans ≠ .refused) lib barcode fun dst lib' =>
      lib'.contents dst = some barcode := by
  intro s c o src dst a hlib ho hsrc hunrefused hans
  have hdone := done_of_answer ((machine sha256).step s (.library o) c) hans hunrefused
  have hsaid := saysMoved_of_done ho hdone
  have htook := World.exec_route (w := s) sha256 (c := c) ho
  rcases htook with ⟨-, hsilent⟩ | ⟨b, hcan, htransfer⟩
  · exact absurd (hsilent.symm.trans hsaid) Bool.false_ne_true
  · rw [hlib] at hcan htransfer
    rw [htransfer, Placement.transfer, Function.update_self, hcan.source, hsrc b hcan]

theorem wp_dispatch_places (sha256 : Bytes → String) {L : Type} {l : L} {s : World} {lib : Library} {request : TapeOpRequest}
    (hplaces : request.opType.places = true) (hvalid : validateRequest request = .ok ()) (h : ¬lib.TakesAnother request)
    (hlib : s.library = lib) :
    wp (machine sha256) (NamedAux.alone fun st => st.op.outcome st.ans ≠ .refused) (dispatch request : JobM L JsonObject)
      (fun _ l' s' => l' = l ∧ NamedAux.Reached request (fun dst lib' => lib'.contents dst = some request.barcode) s'.library)
      (fun _ l' _ => l' = l ∧ True) l s := by
  by_cases heject : request.opType = .eject
  · unfold dispatch
    rw [heject]
    refine NamedAux.wp_unload sha256 (delivers_contents sha256 lib request.barcode) (.inr heject) (fun driveId slotId b hdrive hslot hcan => ?_) hlib
    by_contra hne
    refine h (.inr ⟨heject, ?_, _, _, b, ?_, hcan, hne⟩)
    · rw [← hvalid]
      unfold validateRequest
      simp [heject]
    · simp only [Library.namedRoute, hdrive, Option.bind_some, hslot, Option.map_some]
  · refine NamedAux.wp_dispatch sha256 (delivers_contents sha256 lib request.barcode) ?_ hvalid (fun hmoves => h (.inl hmoves)) hlib
    unfold TapeOpType.places at hplaces
    split at hplaces
    · exact absurd ‹_› heject
    · exact hplaces

end OutcomeAux

namespace OutcomeExample

/-- A cartridge in a slot, and an empty import/export element. -/
def world : World := { library := { slots := [(1, some "A")], drives := [(0, {})], ieSlots := some [(10, none)] } }

def exporting : TapeOpRequest := { opType := .exportMedia, barcode := "A", extras := [("ie_slot", .int 10)] }

def lookup : TapeOpRequest := { opType := .load, barcode := "A" }

/-- The library refuses whatever it is asked to move. -/
def refusals : List Choice := List.replicate 14 { refuses := true }

end OutcomeExample

end OpenBlade
