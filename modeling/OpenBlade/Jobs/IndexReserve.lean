import OpenBlade.Effects.Keeps
import OpenBlade.Frames
import OpenBlade.Jobs.ArchivedRecords
import OpenBlade.Jobs.GroupIsolation

/-!
# The reserve of the index

Before a job writes to a tape it asks how much room there is, less the reserve that the index of the tape needs. Between the question
and the write other lanes of the batch may write. Here a tape answers with what is really used of it, and every write is to leave the
reserve.
-/

namespace OpenBlade

open Effects Proc

/-- What is used of each tape after a call: a write adds its bytes at most; it may break off, or give back what it replaces. -/
def usedAfter (used : Barcode → Nat) (left : Nat) : Op → Barcode → Nat
  | .ltfs (.writeFile mountHandle content _) =>
    Function.update used mountHandle.barcode (min left (used mountHandle.barcode + content.length))
  | _ => used

/-- `ensure_tape` answers with the capacity of the tape and what is used of it. -/
def Choice.measured (capacity : Barcode → Int) (used : Barcode → Nat) (c : Choice) : Op → Choice
  | .ltfs (.ensureTape barcode) => { c with room := { c.room with capacityBytes := capacity barcode, usedBytes := used barcode } }
  | _ => c

/-- The world with tapes that are measured. -/
def meteredMachine (sha256 : Bytes → String) (capacity : Barcode → Int) :
    Machine (World × (Barcode → Nat)) Op (fun o => Except Exn o.Ans) (Choice × Nat) where
  exec s o c :=
    let (answer, w) := s.1.exec sha256 o (c.1.measured capacity s.2 o)
    (answer, w, usedAfter s.2 c.2 o)

/-- A write leaves the reserve of its tape free. -/
def LeavesReserve (capacity : Barcode → Int) (st : Step (World × (Barcode → Nat)) Op fun o => Except Exn o.Ans) : Prop :=
  ∀ mountHandle content path, st.op = .ltfs (.writeFile mountHandle content path) →
    (st.post.2 mountHandle.barcode : Int) + capacityReserveBytes (capacity mountHandle.barcode) ≤ capacity mountHandle.barcode

/-- No two files of a batch that go to one tape have bytes. -/
def ShardedArchiveRequest.LanesApart (request : ShardedArchiveRequest) : Prop :=
  request.dryRun = false → request.usesBlockStripe = false → ∀ batch ∈ stripeBatches request.laneBarcodes 0 [] request.files,
    batch.Pairwise fun a b => a.2 = b.2 → a.1.content = [] ∨ b.1.content = []

/-- Calls that write to a tape. -/
def Op.writesTape : Op → Bool
  | .ltfs (.writeFile _ _ _) => true
  | _ => false

namespace ReserveAux

theorem writesTape_of_isNeutral {o : Op} (h : o.isNeutral = true) : o.writesTape = false := by
  cases o with
  | ltfs o => cases o <;> first | rfl | cases h
  | _ => rfl

theorem writesTape_of_isRead {o : Op} (h : o.isRead = true) : o.writesTape = false :=
  writesTape_of_isNeutral (Op.isNeutral_of_isPlumbing (Op.isPlumbing_of_isRead h))

/-- The file fits, and the reserve is left. -/
def Fits (capacity : Barcode → Int) (used : Barcode → Nat) (barcode : Barcode) (sizeBytes : Nat) : Prop :=
  (used barcode : Int) + sizeBytes + capacityReserveBytes (capacity barcode) ≤ capacity barcode

theorem fits_of_hasRoomFor {capacityBytes usedBytes : Int} {sizeBytes : Nat} (h : hasRoomFor capacityBytes usedBytes sizeBytes = true) :
    usedBytes + sizeBytes + capacityReserveBytes capacityBytes ≤ capacityBytes := by
  unfold hasRoomFor usableRemainingBytes at h
  generalize capacityReserveBytes capacityBytes = reserve at h ⊢
  obtain ⟨hfree, hsize⟩ := Bool.and_eq_true_iff.1 h
  have hfree := of_decide_eq_true hfree
  have hsize := of_decide_eq_true hsize
  omega

section rules

variable {sha256 : Bytes → String} {capacity : Barcode → Int} {s : World × (Barcode → Nat)} {L α : Type} {l : L} {used : Barcode → Nat}

/-- Nothing is assumed of the environment; every write has to leave the reserve. -/
abbrev reserving (capacity : Barcode → Int) : Contract (World × (Barcode → Nat)) Op fun o => Except Exn o.Ans :=
  .alone (fun _ => True) (LeavesReserve capacity)

/-- Other calls use nothing. -/
theorem usedAfter_eq {o : Op} (ho : o.writesTape = false) (left : Nat) : usedAfter used left o = used := by
  cases o with
  | ltfs o => cases o <;> first | rfl | cases ho
  | _ => rfl

theorem leavesReserve_of_not_write {o : Op} (ho : o.writesTape = false) (c : Choice × Nat) :
    LeavesReserve capacity ((meteredMachine sha256 capacity).step s o c) := by
  intro mountHandle content path hop
  have hsame : o = .ltfs (.writeFile mountHandle content path) := hop
  rw [hsame] at ho
  cases ho

theorem stable_used : Stable (meteredMachine sha256 capacity) (reserving capacity) (fun o => o.writesTape = false) fun s => s.2 = used := by
  rintro o ho s _ c hs rfl -
  exact ⟨leavesReserve_of_not_write ho c, (usedAfter_eq ho c.2).trans hs⟩

/-- A procedure that writes to no tape. -/
theorem wp_still {m : JobM L α} {R : L → L → Prop} (hm : Only (fun o => o.writesTape = false) R m) {N : α → L → World × (Barcode → Nat) → Prop}
    {E : Exn → L → World × (Barcode → Nat) → Prop} (hN : ∀ a l' s', R l l' → s'.2 = s.2 → N a l' s')
    (hE : ∀ e l' s', R l l' → s'.2 = s.2 → E e l' s') : wp (meteredMachine sha256 capacity) (reserving capacity) m N E l s :=
  wp_mono (hm.keeps stable_used rfl) (fun a l' s' h => hN a l' s' h.1 h.2) fun e l' s' h => hE e l' s' h.1 h.2

/-- A call that writes to no tape, with its answer. -/
theorem wp_quietCall {o : Op} (ho : o.writesTape = false) {N : o.Ans → L → World × (Barcode → Nat) → Prop}
    {E : Exn → L → World × (Barcode → Nat) → Prop}
    (hN : ∀ a c s', (s.1.exec sha256 o c).1 = .ok a → c.measured capacity s.2 o = c → s'.2 = s.2 → N a l s')
    (hE : ∀ e s', s'.2 = s.2 → E e l s') :
    wp (meteredMachine sha256 capacity) (reserving capacity) (perform o : JobM L o.Ans) N E l s := by
  refine wp_call fun s₁ hr c _ => ?_
  obtain rfl : s = s₁ := hr
  have hmeasured : (c.1.measured capacity s.2 o).measured capacity s.2 o = c.1.measured capacity s.2 o := by
    cases o with
    | ltfs o => cases o <;> rfl
    | _ => rfl
  exact ⟨leavesReserve_of_not_write ho c, fun a ha => hN a _ _ ha hmeasured (usedAfter_eq ho c.2), fun e _ => hE e _ (usedAfter_eq ho c.2)⟩

/-- `ensure_tape`. -/
theorem wp_ensureTape {barcode : Barcode} {N : TapeContents → L → World × (Barcode → Nat) → Prop}
    {E : Exn → L → World × (Barcode → Nat) → Prop}
    (hN : ∀ tape s', tape.capacityBytes = capacity barcode → tape.usedBytes = (s.2 barcode : Int) → s'.2 = s.2 → N tape l s')
    (hE : ∀ e s', s'.2 = s.2 → E e l s') :
    wp (meteredMachine sha256 capacity) (reserving capacity) (ensureTape barcode : JobM L TapeContents) N E l s := by
  refine wp_quietCall (o := .ltfs (.ensureTape barcode)) rfl (fun tape c s' hans hmeasured hs' => ?_) hE
  have htape : tape = c.room := (Except.ok.inj (World.exec_ok sha256 hans).1).symm
  have hroom : (c.measured capacity s.2 (.ltfs (.ensureTape barcode))).room = c.room := congrArg Choice.room hmeasured
  rw [← htape] at hroom
  exact hN tape s' (by rw [← hroom]; rfl) (by rw [← hroom]; rfl) hs'

/-- A write to a tape where it fits. -/
theorem wp_write {mountHandle : MountHandle} {content : Bytes} {path : String} {N : Unit → L → World × (Barcode → Nat) → Prop}
    {E : Exn → L → World × (Barcode → Nat) → Prop} (hfits : Fits capacity s.2 mountHandle.barcode content.length)
    (hN : ∀ s' left, s'.2 = usedAfter s.2 left (.ltfs (.writeFile mountHandle content path)) → N () l s')
    (hE : ∀ e s' left, s'.2 = usedAfter s.2 left (.ltfs (.writeFile mountHandle content path)) → E e l s') :
    wp (meteredMachine sha256 capacity) (reserving capacity) (writeFile mountHandle content path : JobM L Unit) N E l s := by
  refine wp_call fun s₁ hr c _ => ?_
  obtain rfl : s = s₁ := hr
  refine ⟨fun handle bytes place hop => ?_, fun _ _ => hN _ c.2 rfl, fun e _ => hE e _ c.2 rfl⟩
  cases hop
  show ((usedAfter s.2 c.2 (.ltfs (.writeFile mountHandle content path)) mountHandle.barcode : Nat) : Int) + _ ≤ _
  unfold Fits at hfits
  rw [usedAfter, Function.update_self]
  omega

end rules

/-! ### The lanes of a batch -/

section lanes

variable {sha256 : Bytes → String} {capacity : Barcode → Int} {s : World × (Barcode → Nat)} {l : LaneLocals} {used : Barcode → Nat}

/-- The books have each mount under its cartridge. -/
def Booked (l : LaneLocals) : Prop := ∀ entry ∈ l.mounts, entry.2.barcode = entry.1

theorem Booked.shrink {l' : LaneLocals} (h : Booked l) (hl : l.Shrinks l') : Booked l' := fun entry hentry => h entry (hl.1 entry hentry)

/-- What is written is what is measured. -/
def PlannedWrite.Measured (x : PlannedWrite) : Prop := ∀ file ∈ x.source, x.content = file.content

/-- Two writes of which one is empty, if they are to one tape. -/
def Beside (a b : PlannedWrite) : Prop := a.barcode = b.barcode → a.content = [] ∨ b.content = []

theorem Beside.symm {a b : PlannedWrite} (h : Beside a b) : Beside b a := fun heq => (h heq.symm).symm

/-- A lane that has asked for room and not written yet has it. -/
def HasRoom (capacity : Barcode → Int) (used : Barcode → Nat) (lane : Lane PlannedWrite LanePhase Exn) : Prop :=
  lane.todo = [.room, .write, .check] ∨ lane.todo = [.write, .check] ∧ Fits capacity used lane.item.barcode lane.item.content.length ∨
    lane.todo = [.check] ∨ lane.todo = []

/-- The lanes of a batch, as far as they are. -/
structure Writing (capacity : Barcode → Int) (writes : List PlannedWrite) (lanes : List (Lane PlannedWrite LanePhase Exn)) (l : LaneLocals)
    (s : World × (Barcode → Nat)) : Prop where
  booked : Booked l
  items : lanes.map Lane.item = writes
  room : ∀ lane ∈ lanes, HasRoom capacity s.2 lane

variable {writes : List PlannedWrite} {pre post : List (Lane PlannedWrite LanePhase Exn)} {lane : Lane PlannedWrite LanePhase Exn}

/-- A lane goes on, and nothing is used. -/
theorem Writing.advance {s' : World × (Barcode → Nat)} (h : Writing capacity writes (pre ++ lane :: post) l s) (hs : s'.2 = s.2)
    {lane' : Lane PlannedWrite LanePhase Exn} (hitem : lane'.item = lane.item) (hroom : HasRoom capacity s.2 lane') :
    Writing capacity writes (pre ++ lane' :: post) l s' := by
  refine ⟨h.booked, ?_, fun other hother => ?_⟩
  · rw [← h.items, List.map_append, List.map_append, List.map_cons, List.map_cons, hitem]
  · rw [hs]
    rcases List.mem_append.1 hother with hbefore | hafter
    · exact h.room other (List.mem_append_left _ hbefore)
    · rcases List.mem_cons.1 hafter with rfl | hlater
      · exact hroom
      · exact h.room other (List.mem_append_right _ (List.mem_cons_of_mem _ hlater))

/-- A lane writes what fits: the others keep their room, since they go elsewhere or one of the two has nothing to write. -/
theorem Writing.write {s' : World × (Barcode → Nat)} (h : Writing capacity writes (pre ++ lane :: post) l s)
    (happart : writes.Pairwise Beside) (hfits : Fits capacity s.2 lane.item.barcode lane.item.content.length)
    {mountHandle : MountHandle} (hmount : mountHandle.barcode = lane.item.barcode) {left : Nat} {path : String}
    (hs : s'.2 = usedAfter s.2 left (.ltfs (.writeFile mountHandle lane.item.content path))) {lane' : Lane PlannedWrite LanePhase Exn}
    (hitem : lane'.item = lane.item) (hdone : lane'.todo = [.check] ∨ lane'.todo = []) :
    Writing capacity writes (pre ++ lane' :: post) l s' := by
  have hbeside : ∀ other, other ∈ pre ∨ other ∈ post → Beside other.item lane.item := by
    rw [← h.items, List.map_append, List.map_cons, List.pairwise_append, List.pairwise_cons] at happart
    rintro other (hbefore | hafter)
    · exact happart.2.2 _ (List.mem_map_of_mem hbefore) _ List.mem_cons_self
    · exact (happart.2.1.1 _ (List.mem_map_of_mem hafter)).symm
  have hkeeps : ∀ other, other ∈ pre ∨ other ∈ post → HasRoom capacity s.2 other → HasRoom capacity s'.2 other := by
    rintro other hother (hstart | ⟨htodo, hroom⟩ | hdone)
    · exact .inl hstart
    · refine .inr (.inl ⟨htodo, ?_⟩)
      unfold Fits at hfits hroom ⊢
      rw [hs, usedAfter]
      by_cases hsame : other.item.barcode = lane.item.barcode
      · rw [hmount, ← hsame, Function.update_self]
        rw [← hsame] at hfits
        rcases hbeside other hother hsame with hempty | hempty
        · rw [hempty] at hroom ⊢
          simp only [List.length_nil] at hroom ⊢
          omega
        · rw [hempty] at hfits ⊢
          simp only [List.length_nil] at hfits ⊢
          omega
      · rw [Function.update_of_ne (hmount ▸ hsame)]
        exact hroom
    · exact .inr (.inr hdone)
  refine ⟨h.booked, ?_, fun other hother => ?_⟩
  · rw [← h.items, List.map_append, List.map_append, List.map_cons, List.map_cons, hitem]
  · rcases List.mem_append.1 hother with hbefore | hafter
    · exact hkeeps other (.inl hbefore) (h.room other (List.mem_append_left _ hbefore))
    · rcases List.mem_cons.1 hafter with rfl | hlater
      · exact .inr (.inr hdone)
      · exact hkeeps other (.inr hlater) (h.room other (List.mem_append_right _ (List.mem_cons_of_mem _ hlater)))

/-- A procedure of the lanes that writes to no tape keeps the books. -/
theorem keeps_booked {α : Type} {m : JobM LaneLocals α} (hm : Only (fun o => o.writesTape = false) LaneLocals.Shrinks m) :
    Keeps (meteredMachine sha256 capacity) (reserving capacity) (fun l _ => Booked l) m :=
  fun _ _ hl => wp_still hm (fun _ _ _ h _ => hl.shrink h) fun _ _ _ h _ => hl.shrink h

/-- One step of a lane. -/
theorem stepKeeps_writing (happart : writes.Pairwise Beside) (hmeasured : ∀ x ∈ writes, PlannedWrite.Measured x) :
    StepKeeps (meteredMachine sha256 capacity) (reserving capacity) laneStep (Writing capacity writes) := by
  intro pre lane k rest post l s htodo hw
  have hlane := hw.room lane (List.mem_append_right _ List.mem_cons_self)
  have hstop : ∀ (e : Exn) (s' : World × (Barcode → Nat)), s'.2 = s.2 →
      Writing capacity writes (pre ++ { lane with todo := [], error := some e } :: post) l s' :=
    fun e s' hs' => hw.advance hs' rfl (.inr (.inr (.inr rfl)))
  rcases hlane with hstart | ⟨hready, hfits⟩ | hcheck | hend
  · obtain ⟨rfl, rfl⟩ := List.cons.inj (htodo.symm.trans hstart)
    -- the size of what is to be written, and the room for it
    have hsize : lane.item.content.length = (lane.item.source.elim lane.item.content SourceFile.content).length := by
      cases hsource : lane.item.source with
      | none => rfl
      | some file =>
        have hmem : lane.item ∈ writes := hw.items ▸ List.mem_map_of_mem (List.mem_append_right _ List.mem_cons_self)
        rw [Option.elim_some, hmeasured _ hmem file hsource]
    have hroom : ∀ (s₁ : World × (Barcode → Nat)), s₁.2 = s.2 → wp (meteredMachine sha256 capacity) (reserving capacity)
        (requireLaneRoom lane.item.barcode (lane.item.source.elim lane.item.content SourceFile.content).length)
        (fun _ => Writing capacity writes (pre ++ { lane with todo := [.write, .check] } :: post))
        (fun e => Writing capacity writes (pre ++ { lane with todo := [], error := some e } :: post)) l s₁ := by
      intro s₁ hs₁
      unfold requireLaneRoom
      rw [wp_bind]
      refine wp_ensureTape (fun tape s₂ hcapacity hused hs₂ => ?_) fun e s₂ hs₂ => hstop e s₂ (hs₂.trans hs₁)
      split
      · rename_i hfree
        refine hw.advance (hs₂.trans hs₁) rfl (.inr (.inl ⟨rfl, ?_⟩))
        have hfits := fits_of_hasRoomFor hfree
        rw [hcapacity, hused, hs₁, ← hsize] at hfits
        exact hfits
      · exact hstop _ s₂ (hs₂.trans hs₁)
    unfold laneStep
    rw [wp_bind]
    unfold PlannedWrite.size
    cases hsource : lane.item.source with
    | none =>
      rw [hsource] at hroom
      exact hroom s rfl
    | some file =>
      rw [hsource] at hroom
      unfold sourceSize
      rw [wp_bind]
      refine wp_quietCall (o := .host (.readSource file)) rfl (fun content c s₁ hans _ hs₁ => ?_) fun e s₁ hs₁ => hstop e s₁ hs₁
      obtain rfl : file.content = content := Except.ok.inj (World.exec_ok sha256 hans).1
      exact hroom s₁ hs₁
  · obtain ⟨rfl, rfl⟩ := List.cons.inj (htodo.symm.trans hready)
    unfold laneStep
    rw [wp_bind, wp_locals]
    cases hget : l.mounts.get? lane.item.barcode with
    | none => exact hstop _ s rfl
    | some mountHandle =>
      have hmount : mountHandle.barcode = lane.item.barcode := hw.booked _ (Dict.mem_of_get? hget)
      refine wp_write (hmount ▸ hfits) (fun s' left hs' => ?_) fun e s' left hs' => ?_
      · exact hw.write happart hfits hmount hs' rfl (.inl rfl)
      · exact hw.write happart hfits hmount hs' rfl (.inr rfl)
  · obtain ⟨rfl, rfl⟩ := List.cons.inj (htodo.symm.trans hcheck)
    have hstat : Only (fun o => o.writesTape = false) Eq (laneStep .check lane.item) := by
      refine only_bind only_locals fun l => ?_
      cases l.mounts.get? lane.item.barcode with
      | none => exact only_raise _
      | some mountHandle => exact only_bind (only_perform rfl) fun st => only_ite (fun _ => only_raise _) fun _ => only_pure ()
    refine wp_still hstat (fun _ l' s' hl hs' => ?_) fun e l' s' hl hs' => ?_
    · exact hl ▸ hw.advance hs' rfl (.inr (.inr (.inr rfl)))
    · exact hl ▸ hstop e s' hs'
  · rw [hend] at htodo
    cases htodo

/-- The lanes write what fits, however they are interleaved. -/
theorem wp_writeLanes (happart : writes.Pairwise Beside) (hmeasured : ∀ x ∈ writes, PlannedWrite.Measured x) (hl : Booked l) :
    wp (meteredMachine sha256 capacity) (reserving capacity) (writeLanes writes) (fun _ l' _ => Booked l') (fun _ l' _ => Booked l') l s := by
  refine wp_inLanes (Writing capacity writes) (fun n lanes l s hw => ?_) (stepKeeps_writing happart hmeasured) ⟨hl, ?_, fun lane hlane => ?_⟩
    (fun lanes l s _ hw => hw.booked) fun lanes e l s hw _ => hw.booked
  · refine wp_still (R := Eq) (only_perform rfl) (fun _ l' s' hl hs' => ?_) fun _ l' s' hl hs' => ?_
    · subst hl
      exact ⟨hw.booked, hw.items, fun lane hlane => hs' ▸ hw.room lane hlane⟩
    · exact hl ▸ hw.booked
  · rw [List.map_map]
    exact List.map_id writes
  · obtain ⟨x, -, rfl⟩ := List.mem_map.1 hlane
    exact .inl rfl

end lanes

/-! ### The sharded job -/

section sharded

variable {sha256 : Bytes → String} {capacity : Barcode → Int} {s : World × (Barcode → Nat)} {l : LaneLocals} {α : Type}

/-- A procedure that keeps the books, with what it may write. -/
abbrev KeepsBooks (sha256 : Bytes → String) (capacity : Barcode → Int) (m : JobM LaneLocals α) : Prop :=
  Keeps (meteredMachine sha256 capacity) (reserving capacity) (fun l _ => Booked l) m

theorem keepsBooks_plumbing {m : JobM LaneLocals α} (hm : Plumbing m) : KeepsBooks sha256 capacity m :=
  keeps_booked (hm.weaken fun _ ho => writesTape_of_isNeutral (Op.isNeutral_of_isPlumbing ho))

theorem keepsBooks_looks {m : JobM LaneLocals α} (hm : Looks m) : KeepsBooks sha256 capacity m := keepsBooks_plumbing (plumbing_looks hm)

theorem keepsBooks_call {o : Op} (ho : o.writesTape = false) : KeepsBooks sha256 capacity (perform o : JobM LaneLocals o.Ans) :=
  keeps_booked (only_perform ho)

theorem keepsBooks_assign {f : LaneLocals → LaneLocals} (hm : ∀ l, (f l).mounts = l.mounts) : KeepsBooks sha256 capacity (assign f) :=
  keeps_assign fun l _ hl entry hentry => hl entry (hm l ▸ hentry)

/-- Tapes are mounted under their own barcodes. -/
theorem keepsBooks_loadAndMount (jobId : JobId) (mode : MountMode) : KeepsBooks sha256 capacity (loadAndMount jobId mode) := by
  have hmount : ∀ lane : DriveHandle, KeepsBooks sha256 capacity (do
      verifyHandle lane
      let mountHandle ← mount lane.barcode mode
      assign fun l : LaneLocals => { l with mounts := l.mounts.set lane.barcode mountHandle }) := by
    refine fun lane => keeps_bind (keepsBooks_looks (looks_verifyHandle lane)) fun _ l s hl => ?_
    rw [wp_bind]
    refine wp_quietCall (o := .ltfs (.mount lane.barcode mode)) rfl (fun mountHandle c s' hans _ _ => ?_) fun _ _ _ => hl
    intro entry hentry
    rcases Dict.mem_set hentry with hold | rfl
    · exact hl entry hold
    · rcases World.exec_mount sha256 (w := s.1) (c := c) lane.barcode mode with ⟨e, he, -⟩ | ⟨added, hbarcode, -, hadded⟩
      · rw [he] at hans
        cases hans
      · exact hadded mountHandle hans ▸ hbarcode
  refine keeps_bind keeps_locals fun l => keeps_bind (keeps_forEach fun lane _ => ?_) fun _ => keeps_bind keeps_locals fun l => ?_
  · exact keeps_bind (keepsBooks_plumbing (plumbing_loadBarcode jobId lane)) fun _ => keepsBooks_assign fun _ => rfl
  · refine keeps_bind (keepsBooks_plumbing (plumbing_reads (reads_recordPhysicalDrives (fun _ _ => rfl) l.handles))) fun _ => ?_
    exact keeps_forEach fun lane _ => hmount lane

/-- What is planned for a file of a batch. -/
def PlannedOf (item : SourceFile × Barcode) (x : PlannedWrite) : Prop :=
  x.barcode = item.2 ∧ x.content = item.1.content ∧ x.source = some item.1

theorem yields_stageStripe (request : ShardedArchiveRequest) (vgId : Nat) (jobId : JobId) (item : SourceFile × Barcode) :
    Yields (fun o => o.writesTape = false) (fun staged => PlannedOf item staged.1) (stageStripe sha256 request vgId jobId item) := by
  obtain ⟨file, barcode⟩ := item
  have hlook : ∀ {β : Type} {m : JobM LaneLocals β}, Looks m → Yields (fun o => o.writesTape = false) (fun _ => True) m :=
    fun hm => (hm.weaken fun _ ho => writesTape_of_isRead ho).yields
  have hcall : ∀ o : Op, o.writesTape = false → Yields (fun o => o.writesTape = false) (fun _ => True) (perform o : JobM LaneLocals o.Ans) :=
    fun o ho => Only.yields (R := Eq) (only_perform ho)
  refine yields_bind (hlook (looks_computeChecksum sha256 file)) fun checksum _ => yields_bind (hlook (looks_sourceSize file)) fun size _ => ?_
  refine yields_bind (hcall _ rfl) fun record _ => yields_bind (hcall _ rfl) fun row _ => yields_bind (hcall _ rfl) fun shard _ => ?_
  refine yields_bind (hcall _ rfl) fun shardRow _ => yields_bind (hcall _ rfl) fun groupId _ => ?_
  refine yields_bind (Only.yields (R := fun _ _ => True) (only_assign fun _ => trivial)) fun _ _ => yields_pure ⟨rfl, rfl, rfl⟩

theorem keepsBooks_stageStripe (request : ShardedArchiveRequest) (vgId : Nat) (jobId : JobId) (item : SourceFile × Barcode) :
    KeepsBooks sha256 capacity (stageStripe sha256 request vgId jobId item) := by
  obtain ⟨file, barcode⟩ := item
  refine keeps_bind (keepsBooks_looks (looks_computeChecksum sha256 file)) fun checksum => ?_
  refine keeps_bind (keepsBooks_looks (looks_sourceSize file)) fun sizeBytes => keeps_bind (keepsBooks_call rfl) fun record => ?_
  refine keeps_bind (keepsBooks_call rfl) fun row => keeps_bind (keepsBooks_call rfl) fun shard => keeps_bind (keepsBooks_call rfl) fun _ => ?_
  exact keeps_bind (keepsBooks_call rfl) fun _ => keeps_bind (keepsBooks_assign fun _ => rfl) fun _ => keeps_pure _

theorem keepsBooks_finishBatch (scheduler : DriveScheduler) (jobId : JobId) (stagedIds : List Nat) :
    KeepsBooks sha256 capacity (finishBatch scheduler jobId stagedIds) := by
  have hmark : KeepsBooks sha256 capacity (markVerifying jobId stagedIds) :=
    keeps_bind (keepsBooks_call rfl) fun _ => keeps_bind (keepsBooks_call rfl) fun _ => keepsBooks_call rfl
  have hcommit : KeepsBooks sha256 capacity (commitStaged jobId stagedIds) := by
    refine keeps_bind keeps_locals fun l => keeps_bind (keepsBooks_call rfl) fun inv => keeps_ite (fun _ => keeps_raise _) fun _ => ?_
    exact keeps_bind (keepsBooks_call rfl) fun _ => keepsBooks_call rfl
  refine keeps_bind hmark fun _ => keeps_bind keeps_locals fun l => keeps_bind (keepsBooks_call rfl) fun _ => ?_
  refine keeps_bind (keepsBooks_plumbing plumbing_verifyHandles) fun _ => ?_
  exact keeps_bind (keepsBooks_plumbing (plumbing_cleanUnmountAndUnload jobId)) fun _ => hcommit

/-- What one loop has collected came from its elements. -/
theorem exists_of_forall₂ {β γ : Type} {R : β → γ → Prop} {xs : List β} {ys : List γ} (h : List.Forall₂ R xs ys) {y : γ} (hy : y ∈ ys) :
    ∃ x ∈ xs, R x y := by
  obtain ⟨hlength, hget⟩ := List.forall₂_iff_get.1 h
  obtain ⟨n, rfl⟩ := List.mem_iff_get.1 hy
  have hn : n.1 < xs.length := lt_of_lt_of_eq n.isLt hlength.symm
  exact ⟨xs.get ⟨n, hn⟩, List.get_mem _ _, hget n hn n.isLt⟩

/-- The writes that are staged go where the files of the batch do. -/
theorem beside_of_planned {batch : List (SourceFile × Barcode)} {staged : List (PlannedWrite × List Nat)}
    (hplanned : List.Forall₂ (fun item x => PlannedOf item x.1) batch staged)
    (happart : batch.Pairwise fun a b => a.2 = b.2 → a.1.content = [] ∨ b.1.content = []) : (staged.map Prod.fst).Pairwise Beside := by
  induction hplanned with
  | nil => exact List.Pairwise.nil
  | @cons item x batch staged hitem hrest ih =>
    obtain ⟨hhead, htail⟩ := List.pairwise_cons.1 happart
    refine List.pairwise_cons.2 ⟨fun other hother => ?_, ih htail⟩
    obtain ⟨y, hy, rfl⟩ := List.mem_map.1 hother
    obtain ⟨item', hitem', hplan⟩ := exists_of_forall₂ hrest hy
    intro hsame
    have hempty := hhead item' hitem' (hitem.1.symm.trans (hsame.trans hplan.1))
    rw [hitem.2.1, hplan.2.1]
    exact hempty

theorem keepsBooks_writeLanes {writes : List PlannedWrite} (happart : writes.Pairwise Beside)
    (hmeasured : ∀ x ∈ writes, PlannedWrite.Measured x) : KeepsBooks sha256 capacity (writeLanes writes) :=
  fun _ _ hl => wp_writeLanes happart hmeasured hl

/-- The leases of a batch are for barcodes that are all different. -/
theorem yields_acquireDrives {L : Type} (scheduler : DriveScheduler) (barcodes : List Barcode) :
    Yields (fun o => o.writesTape = false) (fun _ => barcodes.Nodup) (acquireDrives scheduler barcodes : JobM L (List DriveHandle)) := by
  by_cases hnodup : barcodes.Nodup
  · have hreads : Reads (fun o => o.writesTape = false) (acquireDrives scheduler barcodes : JobM L (List DriveHandle)) := RecordsAux.reads_acquireDrives (fun _ ho => writesTape_of_isRead ho)
      (fun _ _ _ _ _ => rfl) scheduler barcodes
    exact hreads.yields.mono (fun _ ho => ho) fun _ _ => hnodup
  · unfold acquireDrives
    refine yields_ite (fun _ => yields_raise _) fun _ => ?_
    rw [if_pos hnodup]
    exact yields_raise _

theorem keepsBooks_acquireDrives (scheduler : DriveScheduler) (barcodes : List Barcode) :
    KeepsBooks sha256 capacity (acquireDrives scheduler barcodes) :=
  keeps_booked ((RecordsAux.reads_acquireDrives (fun _ ho => writesTape_of_isRead ho) (fun _ _ _ _ _ => rfl) scheduler barcodes).mono
    (fun _ ho => ho) fun _ _ h => h ▸ refl_of LaneLocals.Shrinks _)

/-- A batch starts with nothing mounted. -/
theorem keepsBooks_startBatch (handles : List DriveHandle) : KeepsBooks sha256 capacity (assign fun l => l.startBatch handles) :=
  keeps_assign fun _ _ _ _ hentry => nomatch hentry

/-- A batch of whole files, if it is apart. -/
theorem keepsBooks_stripeBatch (request : ShardedArchiveRequest) (scheduler : DriveScheduler) (vgId : Nat) (jobId : JobId)
    {batch : List (SourceFile × Barcode)} (happart : batch.Pairwise fun a b => a.2 = b.2 → a.1.content = [] ∨ b.1.content = []) :
    KeepsBooks sha256 capacity (stripeBatch sha256 request scheduler vgId jobId batch) := by
  refine keeps_bind (keepsBooks_acquireDrives scheduler _) fun handles => keeps_bind (keepsBooks_call rfl) fun _ => ?_
  refine keeps_bind (keepsBooks_startBatch handles) fun _ => keeps_ensure (keeps_handle ?_ fun exc => ?_) fun original => ?_
  · refine keeps_bind (keepsBooks_loadAndMount jobId .readWrite) fun _ => ?_
    refine keeps_bind_yields (yields_mapEach_forall₂ fun item _ => yields_stageStripe request vgId jobId item)
      (keeps_mapEach fun item _ => keepsBooks_stageStripe request vgId jobId item) fun staged hstaged => ?_
    have hmeasured : ∀ x ∈ staged.map Prod.fst, PlannedWrite.Measured x := by
      intro x hx file hsource
      obtain ⟨y, hy, rfl⟩ := List.mem_map.1 hx
      obtain ⟨item, -, hplan⟩ := exists_of_forall₂ hstaged hy
      rw [hplan.2.2] at hsource
      rw [hplan.2.1, Option.some.inj hsource]
    refine keeps_bind (keepsBooks_plumbing plumbing_verifyHandles) fun _ => ?_
    refine keeps_bind (keepsBooks_writeLanes (beside_of_planned hstaged happart) hmeasured) fun _ => ?_
    exact keeps_bind (keepsBooks_finishBatch scheduler jobId _) fun _ => keepsBooks_assign fun _ => rfl
  · exact keepsBooks_plumbing (plumbing_stripeExcept jobId _ exc)
  · exact keepsBooks_plumbing (plumbing_stripeFinally jobId original)

/-- The shards of a plan are on the lanes of the request, in turn. -/
theorem yields_planBlockStripe (file : SourceFile) (barcodes : List Barcode) (basePath : String) (blockSize : Nat) :
    Yields (fun o => o.writesTape = false) (fun plan => plan.shards.map ShardSpec.barcode = barcodes)
      (planBlockStripe sha256 file barcodes basePath blockSize : JobM LaneLocals ShardPlan) := by
  have hlook : ∀ {β : Type} {m : JobM LaneLocals β}, Looks m → Yields (fun o => o.writesTape = false) (fun _ => True) m :=
    fun hm => (hm.weaken fun _ ho => writesTape_of_isRead ho).yields
  have huuid : Looks (uuid4 : JobM LaneLocals String) := only_perform rfl
  refine yields_ite (fun _ => yields_raise _) fun _ => yields_bind (hlook (looks_sourceSize file)) fun size _ => ?_
  refine yields_bind (hlook (looks_computeChecksum sha256 file)) fun checksum _ => yields_bind (hlook huuid) fun groupId _ => ?_
  refine yields_ite (fun _ => yields_raise _) fun _ => yields_pure ?_
  show (planShards file barcodes basePath groupId _).map ShardSpec.barcode = barcodes
  unfold planShards
  rw [List.map_map]
  exact List.zipIdx_map_fst 0 barcodes

theorem yields_stageShard (request : ShardedArchiveRequest) (vgId : Nat) (jobId : JobId) (plan : ShardPlan) (fileRecordId : Nat)
    (shard : ShardSpec × Bytes) :
    Yields (fun o => o.writesTape = false) (fun staged => staged.1.barcode = shard.1.barcode ∧ staged.1.source = none)
      (stageShard sha256 request vgId jobId plan fileRecordId shard) := by
  obtain ⟨spec, bytes⟩ := shard
  have hcall : ∀ o : Op, o.writesTape = false → Yields (fun o => o.writesTape = false) (fun _ => True) (perform o : JobM LaneLocals o.Ans) :=
    fun o ho => Only.yields (R := Eq) (only_perform ho)
  refine yields_bind (hcall _ rfl) fun row _ => yields_bind (hcall _ rfl) fun shard _ => yields_bind (hcall _ rfl) fun shardRow _ => ?_
  exact yields_pure ⟨rfl, rfl⟩

theorem keepsBooks_archiveBlockStripe (request : ShardedArchiveRequest) (scheduler : DriveScheduler) (vgId : Nat) (jobId : JobId)
    (file : SourceFile) : KeepsBooks sha256 capacity (archiveBlockStripe sha256 request scheduler vgId jobId file) := by
  refine keeps_bind_yields (yields_planBlockStripe file _ _ _) (keepsBooks_looks (looks_planBlockStripe sha256 file _ _ _)) fun plan hplan => ?_
  refine keeps_bind (keepsBooks_assign fun _ => rfl) fun _ => ?_
  refine keeps_bind_yields (yields_acquireDrives scheduler _) (keepsBooks_acquireDrives scheduler _) fun handles hnodup => ?_
  refine keeps_bind (keepsBooks_call rfl) fun _ => keeps_bind (keepsBooks_startBatch handles) fun _ => keeps_bind (keepsBooks_call rfl) fun _ => ?_
  refine keeps_ensure (keeps_handle ?_ fun exc => ?_) fun original => ?_
  · refine keeps_bind (keepsBooks_loadAndMount jobId .readWrite) fun _ => keeps_bind (keepsBooks_looks ?_) fun _ => ?_
    · exact only_inLanes (fun n => (only_perform rfl : Looks (pick n)))
        (fun _ spec => only_bind (looks_writeShardToTempfile _ _ _ _) fun _ => only_pure ()) _
    refine keeps_bind (keepsBooks_call rfl) fun _ => keeps_bind (keepsBooks_call rfl) fun record => ?_
    refine keeps_bind_yields (yields_mapEach_forall₂ fun shard _ => yields_stageShard request vgId jobId plan record.id shard)
      (keeps_mapEach fun shard _ => ?_) fun staged hstaged => ?_
    · exact keeps_bind (keepsBooks_call rfl) fun _ => keeps_bind (keepsBooks_call rfl) fun _ => keeps_bind (keepsBooks_call rfl) fun _ =>
        keeps_pure _
    have hbarcodes : (staged.map Prod.fst).map PlannedWrite.barcode = request.laneBarcodes := by
      have hsame : List.Forall₂ Eq (plan.shards.map ShardSpec.barcode) (staged.map fun x => x.1.barcode) := by
        rw [List.forall₂_map_left_iff, List.forall₂_map_right_iff]
        exact (List.forall₂_map_left_iff.1 hstaged).imp fun spec x h => h.1.symm
      rw [List.map_map, ← hplan]
      exact (List.forall₂_eq_eq_eq ▸ hsame : _ = _).symm
    have happart : (staged.map Prod.fst).Pairwise Beside := by
      rw [← hbarcodes] at hnodup
      exact (List.pairwise_map.1 hnodup).imp fun hne hsame => absurd hsame hne
    have hmeasured : ∀ x ∈ staged.map Prod.fst, PlannedWrite.Measured x := by
      intro x hx file hsource
      obtain ⟨y, hy, rfl⟩ := List.mem_map.1 hx
      obtain ⟨shard, -, -, hnone⟩ := exists_of_forall₂ hstaged hy
      rw [hnone] at hsource
      cases hsource
    refine keeps_bind (keepsBooks_plumbing plumbing_verifyHandles) fun _ => keeps_bind (keepsBooks_writeLanes happart hmeasured) fun _ => ?_
    exact keepsBooks_finishBatch scheduler jobId _
  · exact keepsBooks_plumbing (plumbing_blockStripeExcept jobId _ exc)
  · exact keepsBooks_plumbing (plumbing_blockStripeFinally jobId original)

theorem quiet_ensureVolumeGroup {L : Type} (name : String) :
    Reads (fun o => o.writesTape = false) (ensureVolumeGroup name : JobM L VolumeGroup) := by
  refine only_bind (only_perform rfl) fun group => ?_
  cases group with
  | some group => exact only_pure group
  | none => exact only_perform rfl

theorem keepsBooks_reads {m : JobM LaneLocals α} (hm : Reads (fun o => o.writesTape = false) m) : KeepsBooks sha256 capacity m :=
  keeps_booked (hm.mono (fun _ ho => ho) fun _ _ h => h ▸ refl_of LaneLocals.Shrinks _)

/-- The whole job, if its batches are apart. -/
theorem keepsBooks_runShardedArchive {request : ShardedArchiveRequest} (happart : request.LanesApart) (scheduler : DriveScheduler)
    (jobId : JobId) : KeepsBooks sha256 capacity (runShardedArchive sha256 request scheduler jobId) := by
  have hcartridge : ∀ vgId barcode, Reads (fun o => o.writesTape = false) (ensureCartridge vgId barcode : JobM LaneLocals Unit) := by
    intro vgId barcode
    refine only_bind (only_perform rfl) fun found => ?_
    cases found with
    | some cartridge => exact only_pure ()
    | none => exact only_bind (only_perform rfl) fun _ => only_pure ()
  refine keeps_bind (keepsBooks_call rfl) fun _ => ?_
  by_cases hdry : request.dryRun ∨ request.files = []
  · rw [if_pos hdry]
    refine keeps_bind (keepsBooks_looks (only_mapEach (fun file => looks_sourceSize file) _)) fun sizes => ?_
    exact keeps_bind (keepsBooks_call rfl) fun _ => keeps_pure _
  rw [if_neg hdry]
  refine keeps_bind (keepsBooks_reads (quiet_ensureVolumeGroup _)) fun group => ?_
  refine keeps_bind (keeps_forEach fun barcode _ => keepsBooks_reads (hcartridge group.id barcode)) fun _ => ?_
  refine keeps_bind (keepsBooks_call rfl) fun _ => ?_
  have hend : KeepsBooks sha256 capacity (do
      let l ← locals
      updateJobState jobId (if l.errors = [] then "completed" else "failed_recoverable") (summarizeErrors l.errors)
      pure ({ jobId := jobId, filesArchived := l.filesArchived, bytesArchived := l.bytesArchived
              tapesUsed := request.laneBarcodes, shardGroupIds := l.shardGroupIds, errors := l.errors } : ShardedArchiveResult)) :=
    keeps_bind keeps_locals fun l => keeps_bind (keepsBooks_call rfl) fun _ => keeps_pure _
  by_cases hblock : request.usesBlockStripe = true
  · rw [if_pos hblock]
    refine keeps_bind (keeps_forEach fun file _ => keeps_handle ?_ fun exc => keepsBooks_assign fun _ => rfl) fun _ => hend
    refine keeps_bind (keepsBooks_archiveBlockStripe request scheduler group.id jobId file) fun _ => ?_
    exact keeps_bind (keepsBooks_looks (looks_sourceSize file)) fun size => keepsBooks_assign fun _ => rfl
  · rw [if_neg hblock]
    refine keeps_bind (keeps_ite (fun _ => keeps_raise _) fun _ => keeps_forEach fun batch hbatch => ?_) fun _ => hend
    have hreal : request.dryRun = false := by
      simpa using (not_or.1 hdry).1
    exact keepsBooks_stripeBatch request scheduler group.id jobId (happart hreal (Bool.eq_false_iff.2 hblock) batch hbatch)

end sharded

/-! ### The archive job -/

section choice

variable {sha256 : Bytes → String} {capacity : Barcode → Int} {s : World × (Barcode → Nat)} {L : Type} {l : L}

theorem wp_tapeHasRoom {barcode : Barcode} {sizeBytes : Nat} {N : Bool → L → World × (Barcode → Nat) → Prop}
    {E : Exn → L → World × (Barcode → Nat) → Prop}
    (hN : ∀ room s', (room = true → Fits capacity s.2 barcode sizeBytes) → s'.2 = s.2 → N room l s')
    (hE : ∀ e s', s'.2 = s.2 → E e l s') :
    wp (meteredMachine sha256 capacity) (reserving capacity) (tapeHasRoom barcode sizeBytes : JobM L Bool) N E l s := by
  unfold tapeHasRoom
  rw [wp_bind]
  refine wp_ensureTape (fun tape s' hcapacity hused hs' => hN _ s' (fun hroom => ?_) hs') hE
  have hfits := fits_of_hasRoomFor hroom
  rw [hcapacity, hused] at hfits
  exact hfits

theorem wp_chooseAssigned (sizeBytes : Nat) (cartridges : List Cartridge) :
    wp (meteredMachine sha256 capacity) (reserving capacity) (chooseAssigned sizeBytes cartridges : JobM L (Option Barcode))
      (fun found l' s' => l' = l ∧ s'.2 = s.2 ∧ ∀ barcode ∈ found, Fits capacity s.2 barcode sizeBytes)
      (fun _ l' s' => l' = l ∧ s'.2 = s.2) l s := by
  induction cartridges generalizing s with
  | nil => exact ⟨rfl, rfl, nofun⟩
  | cons cartridge rest ih =>
    unfold chooseAssigned
    split
    · exact ih
    rw [wp_bind]
    refine wp_tapeHasRoom (fun room s₁ hfits hs₁ => ?_) fun e s₁ hs₁ => ⟨rfl, hs₁⟩
    cases room with
    | true =>
      refine ⟨rfl, hs₁, fun barcode hbarcode => ?_⟩
      rw [← Option.some.inj hbarcode]
      exact hfits rfl
    | false =>
      have hrest := ih (s := s₁)
      rw [hs₁] at hrest
      exact hrest

theorem wp_chooseScratch (vgId sizeBytes : Nat) (barcodes : List Barcode) :
    wp (meteredMachine sha256 capacity) (reserving capacity) (chooseScratch vgId sizeBytes barcodes : JobM L (Option Barcode))
      (fun found l' s' => l' = l ∧ s'.2 = s.2 ∧ ∀ barcode ∈ found, Fits capacity s.2 barcode sizeBytes)
      (fun _ l' s' => l' = l ∧ s'.2 = s.2) l s := by
  induction barcodes generalizing s with
  | nil => exact ⟨rfl, rfl, nofun⟩
  | cons barcode rest ih =>
    have hrest : ∀ s₁ : World × (Barcode → Nat), s₁.2 = s.2 → wp (meteredMachine sha256 capacity) (reserving capacity)
        (chooseScratch vgId sizeBytes rest : JobM L (Option Barcode))
        (fun found l' s' => l' = l ∧ s'.2 = s.2 ∧ ∀ barcode ∈ found, Fits capacity s.2 barcode sizeBytes)
        (fun _ l' s' => l' = l ∧ s'.2 = s.2) l s₁ := by
      intro s₁ hs₁
      have hrest := ih (s := s₁)
      rw [hs₁] at hrest
      exact hrest
    unfold chooseScratch
    split
    · exact ih
    rw [wp_bind]
    refine wp_quietCall (o := .catalog (.addCartridge barcode none)) rfl (fun cartridge c s₁ _ _ hs₁ => ?_) fun e s₁ hs₁ => ⟨rfl, hs₁⟩
    split
    · exact hrest s₁ hs₁
    rw [wp_bind]
    refine wp_tapeHasRoom (fun room s₂ hfits hs₂ => ?_) fun e s₂ hs₂ => ⟨rfl, hs₂.trans hs₁⟩
    cases room with
    | true =>
      rw [if_pos rfl, wp_bind]
      refine wp_quietCall (o := .catalog (.saveCartridge _)) rfl (fun _ c s₃ _ _ hs₃ => ⟨rfl, hs₃.trans (hs₂.trans hs₁), ?_⟩)
        fun e s₃ hs₃ => ⟨rfl, hs₃.trans (hs₂.trans hs₁)⟩
      intro other hother
      rw [← Option.some.inj hother, ← hs₁]
      exact hfits rfl
    | false => exact hrest s₂ (hs₂.trans hs₁)

/-- The tape that is chosen for a file has room for it. -/
theorem wp_chooseTape (vgId sizeBytes : Nat) :
    wp (meteredMachine sha256 capacity) (reserving capacity) (chooseTape vgId sizeBytes : JobM L Barcode)
      (fun barcode l' s' => l' = l ∧ s'.2 = s.2 ∧ Fits capacity s.2 barcode sizeBytes) (fun _ l' s' => l' = l ∧ s'.2 = s.2) l s := by
  unfold chooseTape
  rw [wp_bind]
  refine wp_quietCall (o := .catalog .listCartridges) rfl (fun cartridges c s₁ _ _ hs₁ => ?_) fun e s₁ hs₁ => ⟨rfl, hs₁⟩
  rw [wp_bind]
  refine wp_mono (wp_chooseAssigned sizeBytes _) ?_ fun e l' s₂ h => ⟨h.1, h.2.trans hs₁⟩
  rintro found l' s₂ ⟨rfl, hs₂, hfits⟩
  cases found with
  | some barcode => exact ⟨rfl, hs₂.trans hs₁, hs₁ ▸ hfits barcode rfl⟩
  | none =>
    rw [wp_bind]
    refine wp_quietCall (o := .library .inventory) rfl (fun inv c s₃ _ _ hs₃ => ?_) fun e s₃ hs₃ => ⟨rfl, hs₃.trans (hs₂.trans hs₁)⟩
    have hs := hs₃.trans (hs₂.trans hs₁)
    rw [wp_bind]
    refine wp_mono (wp_chooseScratch vgId sizeBytes _) ?_ fun e l' s₄ h => ⟨h.1, h.2.trans hs⟩
    rintro found l' s₄ ⟨rfl, hs₄, hfits⟩
    cases found with
    | some barcode => exact ⟨rfl, hs₄.trans hs, hs ▸ hfits barcode rfl⟩
    | none => exact ⟨rfl, hs₄.trans hs⟩

end choice

section classic

open IsolationAux

variable {sha256 : Bytes → String} {capacity : Barcode → Int} {s : World × (Barcode → Nat)} {l : ArchiveLocals} {used : Barcode → Nat}
  {α : Type}

/-- The current mount is of the current tape. -/
def AtHand (l : ArchiveLocals) : Prop :=
  ∀ barcode ∈ l.currentBarcode, ∀ mountHandle ∈ l.currentHandle, mountHandle.barcode = barcode

theorem AtHand.drop {l' : ArchiveLocals} (h : AtHand l) (hl : ArchiveLocals.Drops l l') : AtHand l' :=
  fun barcode hbarcode mountHandle hmount => h barcode (hl.2 barcode hbarcode) mountHandle (hl.1 mountHandle hmount)

/-- Nothing is used up, and the current mount stays that of the current tape. -/
abbrev Stays (sha256 : Bytes → String) (capacity : Barcode → Int) (used : Barcode → Nat) (m : JobM ArchiveLocals α) : Prop :=
  Keeps (meteredMachine sha256 capacity) (reserving capacity) (fun l s => AtHand l ∧ s.2 = used) m

theorem stays_only {m : JobM ArchiveLocals α} (hm : Only (fun o => o.writesTape = false) ArchiveLocals.Drops m) :
    Stays sha256 capacity used m :=
  fun _ _ hl => wp_still hm (fun _ _ _ h hs => ⟨hl.1.drop h, hs.trans hl.2⟩) fun _ _ _ h hs => ⟨hl.1.drop h, hs.trans hl.2⟩

theorem still_neutral {m : JobM ArchiveLocals α} (hm : Only (fun o => o.isNeutral = true) ArchiveLocals.Drops m) :
    Only (fun o => o.writesTape = false) ArchiveLocals.Drops m := hm.weaken fun _ ho => writesTape_of_isNeutral ho

theorem still_finalizeCurrentMount (jobId : JobId) (vgId : Nat) :
    Only (fun o => o.writesTape = false) ArchiveLocals.Drops (finalizeCurrentMount jobId vgId) := by
  refine only_bind only_locals fun l => ?_
  split
  · refine only_bind (still_neutral (drops_requireLease _)) fun lease => ?_
    have hverify : Only (fun o => o.writesTape = false) ArchiveLocals.Drops (verifyHandle lease) :=
      still_neutral (drops_looks (looks_verifyHandle lease))
    refine only_bind hverify fun _ => only_bind (only_perform rfl) fun _ => ?_
    have hmark : ∀ id, Only (fun o => o.writesTape = false) ArchiveLocals.Drops (markInstanceArchived id true) := fun id => only_perform rfl
    refine only_bind (only_forEach hmark _) fun _ => ?_
    refine only_bind (only_assign fun l => ⟨fun _ h => h, fun _ h => h⟩) fun _ => only_bind hverify fun _ => ?_
    refine only_bind (still_neutral (drops_putBack _ _ _ _)) fun _ => only_bind (only_perform rfl) fun _ => ?_
    refine only_bind (only_perform rfl) fun cartridge => only_bind (only_perform rfl) fun tape => only_bind (only_perform rfl) fun _ => ?_
    exact only_bind (only_assign fun l => ⟨nofun, nofun⟩) fun _ => still_neutral (drops_releaseCurrentLease jobId none)
  · exact only_pure ()

/-- What comes after a procedure that uses nothing up. -/
theorem wp_then {β : Type} {m : JobM ArchiveLocals β} {f : β → JobM ArchiveLocals α} {N : α → ArchiveLocals → World × (Barcode → Nat) → Prop}
    {E : Exn → ArchiveLocals → World × (Barcode → Nat) → Prop} (hm : Only (fun o => o.writesTape = false) ArchiveLocals.Drops m)
    (hl : AtHand l ∧ s.2 = used) (hf : ∀ b l s, AtHand l ∧ s.2 = used → wp (meteredMachine sha256 capacity) (reserving capacity) (f b) N E l s)
    (hE : ∀ e l s, AtHand l ∧ s.2 = used → E e l s) : wp (meteredMachine sha256 capacity) (reserving capacity) (m >>= f) N E l s := by
  rw [wp_bind]
  exact (stays_only hm).wp hl hf hE

/-- The tape that is taken is the current tape then, and it is mounted. -/
theorem wp_takeTape (scheduler : DriveScheduler) (jobId : JobId) (barcode : Barcode) (hl : AtHand l) (hs : s.2 = used) :
    wp (meteredMachine sha256 capacity) (reserving capacity) (takeTape scheduler jobId barcode)
      (fun _ l' s' => AtHand l' ∧ s'.2 = used ∧ l'.currentBarcode = some barcode) (fun _ l' _ => AtHand l') l s := by
  have hmount : ∀ l s, AtHand l ∧ s.2 = used → wp (meteredMachine sha256 capacity) (reserving capacity) (do
      let mountHandle ← mount barcode .readWrite
      assign fun l : ArchiveLocals => { l with
        currentHandle := some mountHandle, currentBarcode := some barcode, tapesUsed := l.tapesUsed ++ [barcode] })
      (fun _ l' s' => AtHand l' ∧ s'.2 = used ∧ l'.currentBarcode = some barcode) (fun _ l' _ => AtHand l') l s := by
    rintro l s ⟨hl, rfl⟩
    rw [wp_bind]
    refine wp_quietCall (o := .ltfs (.mount barcode .readWrite)) rfl (fun mountHandle c s' hans _ hs' => ?_) fun _ _ _ => hl
    refine ⟨fun other hother m hm => ?_, hs', rfl⟩
    rw [← Option.some.inj hother, ← Option.some.inj hm]
    rcases World.exec_mount sha256 (w := s.1) (c := c) barcode .readWrite with ⟨e, he, -⟩ | ⟨added, hbarcode, -, hadded⟩
    · rw [he] at hans
      cases hans
    · exact hadded mountHandle hans ▸ hbarcode
  have hE : ∀ (e : Exn) l (s : World × (Barcode → Nat)), AtHand l ∧ s.2 = used → AtHand l := fun _ _ _ h => h.1
  have hacquire : Reads (fun o => o.writesTape = false) (acquireDrives scheduler [barcode] : JobM ArchiveLocals (List DriveHandle)) :=
    RecordsAux.reads_acquireDrives (fun _ ho => writesTape_of_isRead ho) (fun _ _ _ _ _ => rfl) scheduler _
  have hfirst : ∀ handles, Only (fun o => o.writesTape = false) ArchiveLocals.Drops (firstHandle handles) := by
    intro handles
    cases handles with
    | nil => exact only_raise _
    | cons lane rest => exact only_pure lane
  refine wp_then (hacquire.mono (fun _ ho => ho) fun _ _ h => h ▸ refl_of ArchiveLocals.Drops _) ⟨hl, hs⟩ (fun handles l s h => ?_) hE
  refine wp_then (hfirst handles) h (fun lane l s h => ?_) hE
  refine wp_then (only_assign fun l => ⟨fun _ h => h, fun _ h => h⟩) h (fun _ l s h => wp_then (only_perform rfl) h (fun _ l s h => ?_) hE) hE
  refine wp_then (still_neutral (drops_archiveLoadIfNeeded jobId lane)) h (fun taken l s h => ?_) hE
  refine wp_then (only_assign fun l => ⟨fun _ h => h, fun _ h => h⟩) h (fun _ l s h => wp_then only_locals h (fun held l s h => ?_) hE) hE
  refine wp_then (still_neutral (drops_requireLease _)) h (fun lease l s h => ?_) hE
  refine wp_then (still_neutral (drops_reads (reads_recordPhysicalDrives (fun _ _ => rfl) _))) h (fun _ l s h => ?_) hE
  refine wp_then (only_perform rfl) h (fun _ l s h => ?_) hE
  exact wp_then (still_neutral (drops_looks (looks_verifyHandle lease))) h (fun _ l s h => hmount l s h) hE

/-- A file is written to the current tape, where it fits. -/
theorem wp_writeArchived (vgId : Nat) (file : SourceFile) (catalogPath checksum : String) (sizeBytes : Nat) {barcode : Barcode}
    (hl : AtHand l) (hbarcode : l.currentBarcode = some barcode) (hfits : Fits capacity s.2 barcode file.content.length) :
    wp (meteredMachine sha256 capacity) (reserving capacity) (writeArchived sha256 vgId file catalogPath barcode checksum sizeBytes)
      (fun _ l' _ => AtHand l') (fun _ l' _ => AtHand l') l s := by
  unfold writeArchived
  rw [wp_bind, wp_locals, wp_bind]
  cases hmount : l.currentHandle with
  | none => exact hl
  | some mountHandle =>
    have hhere : mountHandle.barcode = barcode := hl barcode hbarcode mountHandle hmount
    rw [requireMount, wp_pure, wp_bind]
    refine wp_quietCall (o := .host (.readSource file)) rfl (fun content c s₁ hans _ hs₁ => ?_) fun e s₁ _ => hl
    obtain rfl : file.content = content := Except.ok.inj (World.exec_ok sha256 hans).1
    have hfits₁ : Fits capacity s₁.2 mountHandle.barcode file.content.length := by
      rw [hs₁, hhere]
      exact hfits
    rw [wp_bind]
    refine wp_write hfits₁ (fun s₂ left _ => ?_) fun e s₂ left _ => hl
    have hrest : Only (fun o => o.writesTape = false) ArchiveLocals.Drops (do
        let record ← createFileRecord
          { path := catalogPath, sizeBytes := sizeBytes, checksum := checksum, vgId := vgId, shardCount := some 1, shardIndex := none
            blockSize := none, shardProfile := some "standard", parentId := none }
        let row ← createFileInstance record.id barcode (posix catalogPath)
        let st ← stat mountHandle (posix catalogPath)
        if st.checksumSha256 ≠ checksum ∨ st.sizeBytes ≠ sizeBytes then
          raise { cls := .checksumMismatch, message := "Verification failed for " ++ file.path }
        else
          assign fun l : ArchiveLocals => { l with
            pendingInstanceIds := l.pendingInstanceIds ++ [row.id], bytesArchived := l.bytesArchived + sizeBytes
            filesArchived := l.filesArchived + 1 }) := by
      refine only_bind (only_perform rfl) fun record => only_bind (only_perform rfl) fun row => only_bind (only_perform rfl) fun st => ?_
      exact only_ite (fun _ => only_raise _) fun _ => only_assign fun l => ⟨fun _ h => h, fun _ h => h⟩
    exact (stays_only hrest).wp ⟨hl, rfl⟩ (fun _ _ _ h => h.1) fun _ _ _ h => h.1

/-- A procedure that keeps the current mount that of the current tape, with what it may write. -/
abbrev KeepsHand (sha256 : Bytes → String) (capacity : Barcode → Int) (m : JobM ArchiveLocals α) : Prop :=
  Keeps (meteredMachine sha256 capacity) (reserving capacity) (fun l _ => AtHand l) m

theorem keepsHand_only {m : JobM ArchiveLocals α} (hm : Only (fun o => o.writesTape = false) ArchiveLocals.Drops m) :
    KeepsHand sha256 capacity m :=
  fun _ _ hl => (stays_only hm).wp ⟨hl, rfl⟩ (fun _ _ _ h => h.1) fun _ _ _ h => h.1

theorem keepsHand_looks {m : JobM ArchiveLocals α} (hm : Looks m) : KeepsHand sha256 capacity m :=
  keepsHand_only (still_neutral (drops_looks hm))

theorem keepsHand_call {o : Op} (ho : o.writesTape = false) : KeepsHand sha256 capacity (perform o : JobM ArchiveLocals o.Ans) :=
  keepsHand_only (only_perform ho)

/-- A file goes to the tape that was chosen for it, and nothing is written between the choice and the write. -/
theorem keepsHand_archiveFile (request : ArchiveRequest) (scheduler : DriveScheduler) (vgId : Nat) (jobId : JobId) (file : SourceFile) :
    KeepsHand sha256 capacity (archiveFile sha256 request scheduler vgId jobId file) := by
  refine keeps_bind (keeps_ofExcept _) fun catalogPath => ?_
  refine keeps_bind (keepsHand_looks (looks_computeChecksum sha256 file)) fun checksum l s hl => ?_
  unfold sourceSize
  rw [wp_bind, wp_bind]
  refine wp_quietCall (o := .host (.readSource file)) rfl (fun content c s₁ hans _ _ => ?_) fun e s₁ _ => hl
  obtain rfl : file.content = content := Except.ok.inj (World.exec_ok sha256 hans).1
  rw [wp_pure, wp_bind]
  refine wp_mono (wp_chooseTape vgId _) ?_ fun e l' s₂ h => h.1 ▸ hl
  rintro barcode l' s₂ ⟨rfl, hs₂, hfits⟩
  rw [← hs₂] at hfits
  rw [wp_bind, wp_locals]
  split
  · rw [wp_bind]
    refine (stays_only (still_finalizeCurrentMount jobId vgId)).wp ⟨hl, rfl⟩ (fun _ l₃ s₃ h₃ => ?_) fun _ _ _ h => h.1
    rw [wp_bind]
    refine wp_mono (wp_takeTape scheduler jobId barcode h₃.1 h₃.2) ?_ fun _ _ _ h => h
    rintro _ l₄ s₄ ⟨hl₄, hs₄, hbarcode⟩
    exact wp_writeArchived vgId file catalogPath checksum _ hl₄ hbarcode (hs₄ ▸ hfits)
  · rename_i hsame
    exact wp_writeArchived vgId file catalogPath checksum _ hl (not_not.1 hsame).symm hfits

theorem keepsHand_runArchiveJob (request : ArchiveRequest) (scheduler : DriveScheduler) (jobId : JobId) :
    KeepsHand sha256 capacity (runArchiveJob sha256 request scheduler jobId) := by
  refine keeps_bind (keepsHand_call rfl) fun _ => keeps_bind (keepsHand_only ?_) fun group => ?_
  · exact (quiet_ensureVolumeGroup _).mono (fun _ ho => ho) fun _ _ h => h ▸ refl_of ArchiveLocals.Drops _
  refine keeps_ite (fun _ => ?_) fun _ => ?_
  · refine keeps_bind (keepsHand_looks (only_mapEach (fun file => looks_sourceSize file) _)) fun sizes => ?_
    exact keeps_bind (keepsHand_call rfl) fun _ => keeps_pure _
  · refine keeps_bind (keeps_ensure (keeps_handle ?_ fun exc => ?_) fun original => ?_) fun _ => ?_
    · refine keeps_bind (keeps_forEach fun file _ => keepsHand_archiveFile request scheduler group.id jobId file) fun _ => ?_
      exact keepsHand_only (still_finalizeCurrentMount jobId group.id)
    · have hend : KeepsHand sha256 capacity (do
          updateJobState jobId "failed" (some (safeJobError exc))
          raise exc : JobM ArchiveLocals Unit) := keeps_bind (keepsHand_call rfl) fun _ => keeps_raise _
      exact keeps_ite (fun _ => hend) fun _ => keeps_bind (keepsHand_only (still_neutral (drops_archiveCleanup jobId))) fun _ => hend
    · exact keepsHand_only (still_neutral (drops_releaseCurrentLease jobId original))
    · exact keeps_bind keeps_locals fun l => keeps_bind (keepsHand_call rfl) fun _ => keeps_pure _

end classic

end ReserveAux

open ReserveAux

namespace OneTapeTwice

/-- Two files, and one tape for both of them. -/
def request (second : Bytes) : ShardedArchiveRequest :=
  { sourcePath := "/src", files := [{ path := "/src/a", content := [1] }, { path := "/src/b", content := second }], volumeGroupName := "vg"
    laneBarcodes := ["T1", "T1"] }

/-- Of the hundred bytes of the tape ninety-eight are used, and one is the reserve. -/
def start : World × (Barcode → Nat) := (TwoGroups.world, fun _ => 98)

/-- Both lanes ask for room before one of them writes. -/
def bothAsk : List (Choice × Nat) :=
  (List.replicate 42 0 ++ 1 :: List.replicate 20 0).map fun lane => ({ pick := lane }, 1000)

def mounted : MountHandle := { handleId := 0, barcode := "T1", driveId := 0, mode := .readWrite }

end OneTapeTwice

end OpenBlade
