import OpenBlade.Effects.Keeps
import OpenBlade.Jobs.Batch
import OpenBlade.Jobs.LaneFootprint

/-!
# The commit gate of the sharded archive

A monitor watches a job and keeps the books of its current batch: what is mounted, what was loaded, what was staged, written and
read back. The gate is open when every mount of the batch was taken down, every tape it loaded was put back, and every staged
location was written and read back with the right checksum. Instances are archived through the open gate only, all of a batch
together, as long as no unmount and no unload of a batch that has not failed answers `success = False`: that answer is taken for
a success.
-/

namespace OpenBlade

open Effects Proc

/-- A write of the current batch. -/
structure WrittenShard where
  barcode : Barcode
  tapePath : String
  content : Bytes
  deriving Repr, DecidableEq

/-- The books of the current batch. -/
structure BatchMonitor where
  /-- Instances staged by earlier batches. -/
  past : List Nat := []
  mounted : List MountHandle := []
  /-- Drives the batch loaded and did not unload. -/
  loaded : List Int := []
  staged : List FileInstance := []
  written : List WrittenShard := []
  /-- Writes that were read back with their checksum. -/
  verified : List WrittenShard := []
  /-- The failure of the batch has been journaled. -/
  failing : Bool := false
  deriving Repr, DecidableEq

/-- The writes that a read-back confirms: those at its place with its checksum. -/
def BatchMonitor.readBack (sha256 : Bytes → String) (mon : BatchMonitor) (handle : MountHandle) (path : String)
    (st : LTFSFileStat) : List WrittenShard :=
  mon.written.filter fun x => x.barcode = handle.barcode ∧ x.tapePath = path ∧ sha256 x.content = st.checksumSha256

/-- A step of a job. -/
abbrev JobStep (σ : Type) : Type := Step σ Op (fun o => Except Exn o.Ans)

/-- What the monitor notes of a step. Asking for leases starts a batch; mounts, loads and staged instances count by their
effect, unmounts and unloads by their answer. -/
def BatchMonitor.watch (sha256 : Bytes → String) (mon : BatchMonitor) : JobStep World → BatchMonitor
  | ⟨_, .lease (.acquire _ _ _ _ _), _, _⟩ => { past := mon.past ++ mon.staged.map FileInstance.id }
  | ⟨pre, .ltfs (.mount _ _), _, post⟩ =>
    { mon with mounted := mon.mounted ++ post.ltfs.mounts.drop pre.ltfs.mounts.length }
  | ⟨_, .ltfs (.unmount handle), .ok (result : OperationResult), _⟩ =>
    if result.success then { mon with mounted := mon.mounted.filter fun mount => mount ≠ handle } else mon
  | ⟨pre, .library (.load _ driveId), _, post⟩ =>
    if pre.library.holds driveId = post.library.holds driveId then mon
    else { mon with loaded := mon.loaded ++ [driveId] }
  | ⟨_, .library (.unload driveId _), .ok (result : OperationResult), _⟩ =>
    if result.success then { mon with loaded := mon.loaded.filter fun d => d ≠ driveId } else mon
  | ⟨pre, .catalog (.createStagedInstance _ _ _ _), _, post⟩ =>
    { mon with staged := mon.staged ++ post.catalog.instances.drop pre.catalog.instances.length }
  | ⟨_, .ltfs (.writeFile handle content path), .ok _, _⟩ =>
    { mon with written := mon.written ++ [{ barcode := handle.barcode, tapePath := path, content := content }] }
  | ⟨_, .ltfs (.stat handle path), .ok (st : LTFSFileStat), _⟩ =>
    { mon with verified := mon.verified ++ mon.readBack sha256 handle path st }
  | ⟨_, .catalog (.journal _ event _), _, _⟩ => if event = "failed" then { mon with failing := true } else mon
  | _ => mon

/-- The gate: all is unmounted, unloaded, written and read back. -/
def BatchMonitor.GateOpen (mon : BatchMonitor) : Prop :=
  mon.mounted = [] ∧ mon.loaded = [] ∧
    (∀ row ∈ mon.staged, ∃ x ∈ mon.verified, x.barcode = row.barcode ∧ x.tapePath = row.tapePath) ∧
    ∀ x ∈ mon.written, x ∈ mon.verified

instance (mon : BatchMonitor) : Decidable mon.GateOpen := inferInstanceAs (Decidable (_ ∧ _ ∧ _ ∧ _))

/-- The machine of the jobs, watched. -/
def watched (sha256 : Bytes → String) : Machine (World × BatchMonitor) Op (fun o => Except Exn o.Ans) Choice :=
  (machine sha256).observed (BatchMonitor.watch sha256)

/-- An unmount or an unload that answers `success = False`. -/
def silentFailure {σ : Type} : JobStep σ → Bool
  | ⟨_, .ltfs (.unmount _), .ok (result : OperationResult), _⟩ => !result.success
  | ⟨_, .library (.unload _ _), .ok (result : OperationResult), _⟩ => !result.success
  | _ => false

/-- Until the failure of the batch is journaled, every unmount and unload that fails raises. -/
def FailuresRaise (st : JobStep (World × BatchMonitor)) : Prop :=
  st.pre.2.failing = false → silentFailure st = false

instance (st : JobStep (World × BatchMonitor)) : Decidable (FailuresRaise st) := inferInstanceAs (Decidable (_ = _ → _ = _))

/-- What a step archives is staged by the current batch and by none before; it goes through the open gate, and all that the
batch has staged goes with it. -/
def CommitsThroughGate (st : JobStep (World × BatchMonitor)) : Prop :=
  ∀ id, st.post.1.catalog.Archived id → ¬st.pre.1.catalog.Archived id →
    st.pre.2.GateOpen ∧ id ∈ st.pre.2.staged.map FileInstance.id ∧ id ∉ st.pre.2.past ∧
      ∀ row ∈ st.pre.2.staged, st.post.1.catalog.Archived row.id

namespace CommitGateAux

/-- The terms of the gate. -/
def gateContract : Contract (World × BatchMonitor) Op (fun o => Except Exn o.Ans) :=
  .alone FailuresRaise CommitsThroughGate

variable (sha256 : Bytes → String)

@[simp] theorem watched_exec (s : World × BatchMonitor) (o : Op) (c : Choice) :
    (watched sha256).exec s o c =
      ((s.1.exec sha256 o c).1, (s.1.exec sha256 o c).2, s.2.watch sha256 ((machine sha256).step s.1 o c)) := rfl

/-- Keys noted are keys drawn, and no batch has staged what an earlier one did. -/
def Numbered (s : World × BatchMonitor) : Prop :=
  (∀ id ∈ s.2.past, id < s.1.catalog.nextId) ∧
    ∀ row ∈ s.2.staged, row.id < s.1.catalog.nextId ∧ row.id ∉ s.2.past

/-- The monitor's instances change only when a batch starts and when an instance is staged. -/
theorem watch_staged (mon : BatchMonitor) (st : JobStep World) :
    ((mon.watch sha256 st).past = mon.past ∧ (mon.watch sha256 st).staged = mon.staged) ∨
    ((mon.watch sha256 st).past = mon.past ++ mon.staged.map FileInstance.id ∧ (mon.watch sha256 st).staged = []) ∨
    ∃ jobId recordId barcode path, st.op = .catalog (.createStagedInstance jobId recordId barcode path) ∧
      (mon.watch sha256 st).past = mon.past ∧
      (mon.watch sha256 st).staged = mon.staged ++ st.post.catalog.instances.drop st.pre.catalog.instances.length := by
  unfold BatchMonitor.watch
  split
  · exact .inr (.inl ⟨rfl, rfl⟩)
  · exact .inl ⟨rfl, rfl⟩
  · split <;> exact .inl ⟨rfl, rfl⟩
  · split <;> exact .inl ⟨rfl, rfl⟩
  · split <;> exact .inl ⟨rfl, rfl⟩
  · exact .inr (.inr ⟨_, _, _, _, rfl, rfl, rfl⟩)
  · exact .inl ⟨rfl, rfl⟩
  · exact .inl ⟨rfl, rfl⟩
  · split <;> exact .inl ⟨rfl, rfl⟩
  · exact .inl ⟨rfl, rfl⟩

/-- What staging adds has a key that was not drawn before. -/
theorem staged_fresh (w : World) (c : Choice) (jobId : JobId) (r : Nat) (b : Barcode) (p : String) :
    let post := (w.exec sha256 (.catalog (.createStagedInstance jobId r b p)) c).2
    ∀ row ∈ post.catalog.instances.drop w.catalog.instances.length,
      row.id = w.catalog.nextId ∧ row.id < post.catalog.nextId := by
  intro post row hrow
  rcases World.exec_stage sha256 (w := w) (c := c) jobId r b p with ⟨e, -, hi⟩ | ⟨new, hid, -, -, hi, hlt, -⟩
  · rw [hi, List.drop_length] at hrow
    cases hrow
  · rw [hi, List.drop_left, List.mem_singleton] at hrow
    rw [hrow, hid]
    exact ⟨rfl, hlt⟩

/-- Every call keeps the numbering. -/
theorem numbered_exec {s : World × BatchMonitor} (hs : Numbered s) (o : Op) (c : Choice) :
    Numbered ((watched sha256).exec s o c).2 := by
  obtain ⟨hpast, hstaged⟩ := hs
  have hn : s.1.catalog.nextId ≤ (s.1.exec sha256 o c).2.catalog.nextId := World.exec_nextId_le sha256 o
  unfold Numbered
  simp only [watched_exec]
  rcases watch_staged sha256 s.2 ((machine sha256).step s.1 o c) with ⟨hp, hst⟩ | ⟨hp, hst⟩ | ⟨jobId, r, b, p, ho, hp, hst⟩
  · rw [hp, hst]
    exact ⟨fun id hid => Nat.lt_of_lt_of_le (hpast id hid) hn,
      fun row hrow => ⟨Nat.lt_of_lt_of_le (hstaged row hrow).1 hn, (hstaged row hrow).2⟩⟩
  · rw [hp, hst]
    refine ⟨fun id hid => Nat.lt_of_lt_of_le ?_ hn, by simp⟩
    rcases List.mem_append.1 hid with hid | hid
    · exact hpast id hid
    · obtain ⟨row, hrow, rfl⟩ := List.mem_map.1 hid
      exact (hstaged row hrow).1
  · have hop : o = .catalog (.createStagedInstance jobId r b p) := ho
    subst hop
    rw [hp, hst]
    refine ⟨fun id hid => Nat.lt_of_lt_of_le (hpast id hid) hn, fun row hrow => ?_⟩
    rcases List.mem_append.1 hrow with hrow | hrow
    · exact ⟨Nat.lt_of_lt_of_le (hstaged row hrow).1 hn, (hstaged row hrow).2⟩
    · obtain ⟨hid, hlt⟩ := staged_fresh sha256 s.1 c jobId r b p row hrow
      refine ⟨hlt, fun hmem => ?_⟩
      have hdrawn : row.id < s.1.catalog.nextId := hpast row.id hmem
      omega

/-- A call that does not archive goes through any gate. -/
theorem through_of_not_archives {o : Op} (h : o.archives = false) (s : World × BatchMonitor) (c : Choice) :
    CommitsThroughGate ((watched sha256).step s o c) :=
  fun _ ha hn => absurd (World.exec_archived sha256 h ha) hn

/-- Calls that do not archive keep the numbering. -/
theorem stable_numbered :
    Stable (watched sha256) gateContract (fun o => o.archives = false) Numbered := by
  intro o ho s s₁ c hs hr _
  have hs₁ : s = s₁ := hr
  subst hs₁
  exact ⟨through_of_not_archives sha256 ho s c, numbered_exec sha256 hs o c⟩

/-! ### Calls the monitor takes no note of -/

/-- Calls that leave the monitor and the library as they are. -/
def unwatched : Op → Bool
  | .catalog (.createStagedInstance _ _ _ _) | .catalog (.markInstanceArchived _ _)
  | .catalog (.markInstancesArchived _ _) => false
  | .catalog (.journal _ event _) => event ≠ "failed"
  | .catalog _ => true
  | .lease (.acquire _ _ _ _ _) => false
  | .lease _ => true
  | .library (.load _ _) | .library (.unload _ _) | .library (.move _ _) | .library (.importCartridge _ _)
  | .library (.exportCartridgeToIe _ _) => false
  | .library _ => true
  | .ltfs (.ensureTape _) => true
  | .ltfs _ => false
  | .host _ => true

theorem unwatched_of_isRead {o : Op} (h : o.isRead = true) : unwatched o = true := by
  cases o <;> rename_i o <;> cases o <;> first | rfl | cases h

theorem unwatched_of_row {request : TapeOpRequest} {o : Op} (h : o.isRowOf request = true) : unwatched o = true := by
  cases o <;> rename_i o <;> cases o <;> first | rfl | cases h

theorem unwatched_spec {o : Op} (h : unwatched o = true) (s : World × BatchMonitor) (c : Choice) :
    o.archives = false ∧ ((watched sha256).exec s o c).2.2 = s.2 ∧
      ((watched sha256).exec s o c).2.1.library = s.1.library := by
  cases o with
  | catalog o =>
    cases o with
    | journal jobId event detail =>
      refine ⟨rfl, ?_, World.exec_library sha256 rfl⟩
      have hne : event ≠ "failed" := of_decide_eq_true h
      exact if_neg hne
    | createStagedInstance jobId id barcode path => cases h
    | markInstanceArchived id verified => cases h
    | markInstancesArchived ids verified => cases h
    | _ => exact ⟨rfl, rfl, World.exec_library sha256 rfl⟩
  | lease o =>
    cases o with
    | acquire jobId barcodes n ttl exclude => cases h
    | _ => exact ⟨rfl, rfl, World.exec_library sha256 rfl⟩
  | library o =>
    cases o with
    | load slot drive => cases h
    | unload drive slot => cases h
    | move source target => cases h
    | importCartridge source target => cases h
    | exportCartridgeToIe source target => cases h
    | _ => exact ⟨rfl, rfl, World.exec_library sha256 rfl⟩
  | ltfs o =>
    cases o with
    | ensureTape barcode => exact ⟨rfl, rfl, World.exec_library sha256 rfl⟩
    | _ => cases h
  | host o => exact ⟨rfl, rfl, World.exec_library sha256 rfl⟩

/-- Unwatched calls keep the monitor, the library and the numbering. -/
theorem stable_unwatched (mon : BatchMonitor) (lib : Library) :
    Stable (watched sha256) gateContract (fun o => unwatched o = true)
      (fun s => s.2 = mon ∧ s.1.library = lib ∧ Numbered s) := by
  intro o ho s s₁ c hs hr _
  have hs₁ : s = s₁ := hr
  subst hs₁
  obtain ⟨hmon, hlib, hn⟩ := hs
  obtain ⟨ha, hm, hl⟩ := unwatched_spec sha256 ho s c
  exact ⟨through_of_not_archives sha256 ha s c, hm.trans hmon, hl.trans hlib, numbered_exec sha256 hn o c⟩

/-- What is said of monitor and library is kept by unwatched calls. -/
theorem stable_of_books (P : BatchMonitor → Library → Prop) :
    Stable (watched sha256) gateContract (fun o => unwatched o = true) (fun s => P s.2 s.1.library ∧ Numbered s) := by
  intro o ho s s₁ c hs hr ha
  obtain ⟨hP, hn⟩ := hs
  obtain ⟨hg, hm, hl, hn'⟩ := stable_unwatched sha256 s.2 s.1.library o ho s s₁ c ⟨rfl, rfl, hn⟩ hr ha
  exact ⟨hg, by rw [hm, hl]; exact hP, hn'⟩

/-- A phase of a batch: whatever happens the numbering is kept, and `N` holds if the phase ends normally. -/
abbrev Phase {L α : Type} (m : JobM L α) (N : α → L → World × BatchMonitor → Prop) (l : L) (s : World × BatchMonitor) : Prop :=
  wp (watched sha256) gateContract m N (fun _ _ s' => Numbered s') l s

variable {sha256} {L α : Type} {l : L} {s : World × BatchMonitor}

/-- A procedure of unwatched calls leaves monitor and library as they are. -/
theorem phase_unwatched {m : JobM L α} (hm : Reads (fun o => unwatched o = true) m) {N : α → L → World × BatchMonitor → Prop}
    (hs : Numbered s) (hN : ∀ a s', s'.2 = s.2 → s'.1.library = s.1.library → Numbered s' → N a l s') :
    Phase sha256 m N l s := by
  refine wp_mono (hm.keeps (stable_unwatched sha256 s.2 s.1.library) ⟨rfl, rfl, hs⟩) ?_ (fun _ _ _ h => h.2.2.2)
  intro a l' s' h
  obtain ⟨rfl, hm, hl, hn⟩ := h
  exact hN a s' hm hl hn

/-- So does one that only looks. -/
theorem phase_looks {m : JobM L α} (hm : Looks m) {N : α → L → World × BatchMonitor → Prop} (hs : Numbered s)
    (hN : ∀ a s', s'.2 = s.2 → s'.1.library = s.1.library → Numbered s' → N a l s') : Phase sha256 m N l s :=
  phase_unwatched (hm.weaken fun _ h => unwatched_of_isRead h) hs hN

/-- A procedure that does not archive keeps the numbering, whatever else it does. -/
theorem phase_spares {m : JobM L α} (hm : Calls (fun o => o.archives = false) m) (hs : Numbered s) :
    Phase sha256 m (fun _ _ s' => Numbered s') l s :=
  wp_mono (hm.keeps (stable_numbered sha256) hs) (fun _ _ _ h => h.2) (fun _ _ _ h => h.2)

/-- One call that does not archive: what its answer and its effect make true. -/
theorem phase_call {o : Op} (ho : o.archives = false) {N : o.Ans → L → World × BatchMonitor → Prop} (hs : Numbered s)
    (hN : ∀ c a, (s.1.exec sha256 o c).1 = .ok a → FailuresRaise ((watched sha256).step s o c) →
      Numbered ((watched sha256).exec s o c).2 → N a l ((watched sha256).exec s o c).2) :
    Phase sha256 (perform o : JobM L o.Ans) N l s := by
  refine wp_call fun s₁ hr c ha => ?_
  have hs₁ : s = s₁ := hr
  subst hs₁
  have hn := numbered_exec sha256 hs o c
  exact ⟨through_of_not_archives sha256 ho s c, fun a hans => hN c a hans ha hn, fun e _ => hn⟩

/-! ### Calls the monitor takes note of -/

theorem phase_mount (barcode : Barcode) (mode : MountMode) {N : MountHandle → L → World × BatchMonitor → Prop} (hs : Numbered s)
    (hN : ∀ (handle : MountHandle) s', handle.barcode = barcode →
      s'.2 = { s.2 with mounted := s.2.mounted ++ [handle] } → Numbered s' → N handle l s') :
    Phase sha256 (mount barcode mode) N l s := by
  refine phase_call rfl hs fun c handle hans _ hn => ?_
  rcases World.exec_mount sha256 (w := s.1) (c := c) barcode mode with ⟨e, he, -⟩ | ⟨added, hb, hm, ha⟩
  · rw [he] at hans
    cases hans
  · obtain rfl := ha handle hans
    refine hN handle _ hb ?_ hn
    simp [BatchMonitor.watch, Machine.step, machine, hm]

/-- One call that, if it raises, is not noted. -/
theorem wp_noted {o : Op} (ho : o.archives = false) {N : o.Ans → L → World × BatchMonitor → Prop} (hs : Numbered s)
    (hraise : ∀ c e, (s.1.exec sha256 o c).1 = .error e → s.2.watch sha256 ((machine sha256).step s.1 o c) = s.2)
    (hN : ∀ c a, (s.1.exec sha256 o c).1 = .ok a → FailuresRaise ((watched sha256).step s o c) →
      Numbered ((watched sha256).exec s o c).2 → N a l ((watched sha256).exec s o c).2) :
    wp (watched sha256) gateContract (perform o : JobM L o.Ans) N (fun _ l' s' => l' = l ∧ s'.2 = s.2 ∧ Numbered s') l s := by
  refine wp_call fun s₁ hr c ha => ?_
  have hs₁ : s = s₁ := hr
  subst hs₁
  have hn := numbered_exec sha256 hs o c
  exact ⟨through_of_not_archives sha256 ho s c, fun a hans => hN c a hans ha hn, fun e hans => ⟨rfl, hraise c e hans, hn⟩⟩

/-- What a call ends with that raises and is not noted. -/
def Unnoted (l : L) (s : World × BatchMonitor) (_ : Exn) (l' : L) (s' : World × BatchMonitor) : Prop :=
  l' = l ∧ s'.2 = s.2 ∧ Numbered s'

theorem wp_unmount (handle : MountHandle) (hs : Numbered s) (hf : s.2.failing = false) :
    wp (watched sha256) gateContract (unmount handle : JobM L OperationResult)
      (fun _ l' s' => l' = l ∧ s'.2 = { s.2 with mounted := s.2.mounted.filter fun mount => mount ≠ handle } ∧ Numbered s')
      (Unnoted l s) l s := by
  refine wp_noted rfl hs (fun c e hans => ?_) fun c result hans hsilent hn => ⟨rfl, ?_, hn⟩
  · simp [BatchMonitor.watch, Machine.step, machine, hans]
  · have hans' : (s.1.exec sha256 (.ltfs (.unmount handle)) c).1 = .ok result := hans
    have hok : result.success = true := by
      have h := hsilent hf
      simpa [silentFailure, Machine.step, hans'] using h
    simp [BatchMonitor.watch, Machine.step, machine, hans', hok]

theorem wp_unload (driveId : Int) (slotId : Nat) (hs : Numbered s) (hf : s.2.failing = false) :
    wp (watched sha256) gateContract (libraryUnload driveId slotId : JobM L OperationResult)
      (fun _ l' s' => l' = l ∧ s'.2 = { s.2 with loaded := s.2.loaded.filter fun d => d ≠ driveId } ∧ Numbered s')
      (Unnoted l s) l s := by
  refine wp_noted rfl hs (fun c e hans => ?_) fun c result hans hsilent hn => ⟨rfl, ?_, hn⟩
  · simp [BatchMonitor.watch, Machine.step, machine, hans]
  · have hans' : (s.1.exec sha256 (.library (.unload driveId slotId)) c).1 = .ok result := hans
    have hok : result.success = true := by
      have h := hsilent hf
      simpa [silentFailure, Machine.step, hans'] using h
    simp [BatchMonitor.watch, Machine.step, machine, hans', hok]

/-- What a load does: nothing, or it is noted, and the cartridge of the slot is in the drive, which was empty. -/
def LoadEffect (slotId : Nat) (driveId : Int) (mon : BatchMonitor) (lib : Library) (mon' : BatchMonitor) (lib' : Library) :
    Prop :=
  (mon' = mon ∧ ∀ d, lib'.holds d = lib.holds d) ∨
  (mon' = { mon with loaded := mon.loaded ++ [driveId] } ∧ lib.holds driveId = none ∧
    ∀ d, lib'.holds d = if driveId = d then lib.stores slotId else lib.holds d)

/-- A load that is noted put the cartridge of the slot into the drive. -/
theorem phase_load (slotId : Nat) (driveId : Int) {N : OperationResult → L → World × BatchMonitor → Prop} (hs : Numbered s)
    (hN : ∀ result s', LoadEffect slotId driveId s.2 s.1.library s'.2 s'.1.library → Numbered s' → N result l s') : Phase sha256 (libraryLoad slotId driveId) N l s := by
  refine phase_call rfl hs fun c result _ _ hn => hN result _ ?_ hn
  rcases World.exec_load sha256 (w := s.1) (c := c) slotId driveId with h | ⟨barcode, hst, hh, h⟩
  · refine .inl ⟨?_, h⟩
    simp [BatchMonitor.watch, Machine.step, machine, h driveId]
  · refine .inr ⟨?_, hh, by rw [hst]; exact h⟩
    have hd : (s.1.exec sha256 (.library (.load slotId driveId)) c).2.library.holds driveId = some barcode := by
      rw [h driveId, if_pos rfl]
    simp [BatchMonitor.watch, Machine.step, machine, hd, hh]

theorem phase_stage (jobId : JobId) (recordId : Nat) (barcode : Barcode) (path : String)
    {N : FileInstance → L → World × BatchMonitor → Prop} (hs : Numbered s)
    (hN : ∀ (row : FileInstance) s', row.barcode = barcode → row.tapePath = posix path →
      s'.2 = { s.2 with staged := s.2.staged ++ [row] } → Numbered s' → N row l s') :
    Phase sha256 (createStagedInstance jobId recordId barcode path) N l s := by
  refine phase_call rfl hs fun c row hans _ hn => ?_
  rcases World.exec_stage sha256 (w := s.1) (c := c) jobId recordId barcode path with
    ⟨e, he, -⟩ | ⟨added, -, hb, hp, hi, -, ha⟩
  · rw [he] at hans
    cases hans
  · obtain rfl := ha row hans
    refine hN row _ hb hp ?_ hn
    simp [BatchMonitor.watch, Machine.step, machine, hi]

/-! ### Loading -/

/-- Nothing is staged, written or verified yet, and nothing has failed. -/
structure Unstaged (mon : BatchMonitor) : Prop where
  staged : mon.staged = []
  written : mon.written = []
  verified : mon.verified = []
  failing : mon.failing = false

/-- A lane the batch loaded: its handle is as it was granted, its drive holds its cartridge, and the slot is remembered. -/
structure LoadedLane (l : LaneLocals) (lib : Library) (lane : DriveHandle) : Prop where
  mem : lane ∈ l.handles
  unplaced : lane.physicalDriveId = none
  holds : lib.holds lane.driveId = some lane.barcode
  slot : ∃ slot, l.loadedSlots.get? lane.driveId = some (some slot)

/-- While cartridges are loaded: the lanes `pre` have been through, the others have their handles as granted. -/
structure Loading (lanes pre : List DriveHandle) (l : LaneLocals) (s : World × BatchMonitor) : Prop where
  numbered : Numbered s
  unstaged : Unstaged s.2
  mounted : s.2.mounted = []
  mounts : l.mounts = []
  barcodes : l.handles.map DriveHandle.barcode = lanes.map DriveHandle.barcode
  waiting : ∀ lane ∈ lanes, lane ∉ pre → lane ∈ l.handles
  loaded : ∀ d ∈ s.2.loaded, ∃ lane ∈ pre, lane.driveId = d ∧ LoadedLane l s.1.library lane

/-- Loading goes on where nothing was noted and no cartridge moved. -/
theorem Loading.of_same {lanes pre : List DriveHandle} {l : LaneLocals} {s s' : World × BatchMonitor}
    (h : Loading lanes pre l s) (hm : s'.2 = s.2) (hl : ∀ d, s'.1.library.holds d = s.1.library.holds d) (hn : Numbered s') :
    Loading lanes pre l s' := by
  refine ⟨hn, hm ▸ h.unstaged, hm ▸ h.mounted, h.mounts, h.barcodes, h.waiting, fun d hd => ?_⟩
  obtain ⟨lane, hmem, hdrive, hlane⟩ := h.loaded d (hm ▸ hd)
  exact ⟨lane, hmem, hdrive, hlane.mem, hlane.unplaced, (hl _).trans hlane.holds, hlane.slot⟩

/-- A cartridge that was found in a drive is none that another lane loaded. -/
theorem Loading.found {lanes pre post : List DriveHandle} {x : DriveHandle} {l l' : LaneLocals} {s : World × BatchMonitor}
    {driveId : Int} (hg : Granted lanes) (hx : lanes = pre ++ x :: post) (h : Loading lanes pre l s)
    (hfound : s.1.library.holds driveId = some x.barcode)
    (hl : l' = l ∨ l' = l.updateHandle x.leaseId fun handle => { handle with physicalDriveId := some driveId }) :
    Loading lanes (pre ++ [x]) { l' with loadedSlots := l'.loadedSlots.set driveId none } s := by
  have hxmem : x ∈ lanes := by simp [hx]
  have hkeep : ∀ lane ∈ l.handles, lane.leaseId ≠ x.leaseId → lane ∈ l'.handles := by
    intro lane hmem hne
    rcases hl with rfl | rfl
    · exact hmem
    · exact mem_updateHandle hmem hne
  have hslots : l'.loadedSlots = l.loadedSlots := by rcases hl with rfl | rfl <;> rfl
  refine ⟨h.numbered, h.unstaged, h.mounted, ?_, ?_, ?_, ?_⟩
  · rcases hl with rfl | rfl <;> exact h.mounts
  · rcases hl with rfl | rfl
    · exact h.barcodes
    · exact (barcodes_updateHandle l x.leaseId driveId).trans h.barcodes
  · intro lane hlane hpre
    rw [List.mem_append, List.mem_singleton, not_or] at hpre
    exact hkeep lane (h.waiting lane hlane hpre.1) (hg.lease_ne hlane hxmem hpre.2)
  · intro d hd
    obtain ⟨lane, hmem, hdrive, hlane⟩ := h.loaded d hd
    obtain ⟨hlease, hbarcode⟩ := hg.ne hx hmem
    refine ⟨lane, List.mem_append_left _ hmem, hdrive, hkeep lane hlane.mem hlease, hlane.unplaced, hlane.holds, ?_⟩
    obtain ⟨slot, hslot⟩ := hlane.slot
    have hne : driveId ≠ lane.driveId := by
      intro he
      rw [he, hlane.holds] at hfound
      exact hbarcode (Option.some.inj hfound)
    refine ⟨slot, ?_⟩
    rw [hslots, Dict.get?_set, if_neg hne]
    exact hslot

/-- A lane whose cartridge was taken from a slot: the load was noted, or nothing moved. -/
theorem Loading.taken {lanes pre post : List DriveHandle} {x : DriveHandle} {l : LaneLocals} {s s' : World × BatchMonitor}
    {slotId : Nat} (hg : Granted lanes) (hx : lanes = pre ++ x :: post) (h : Loading lanes pre l s) (hn : Numbered s')
    (hstores : s.1.library.stores slotId = some x.barcode)
    (heffect : LoadEffect slotId x.driveId s.2 s.1.library s'.2 s'.1.library) :
    Loading lanes (pre ++ [x]) { l with loadedSlots := l.loadedSlots.set x.driveId (some slotId) } s' := by
  have hxmem : x ∈ lanes := by simp [hx]
  have hslot : ∀ lane : DriveHandle, (∃ slot, l.loadedSlots.get? lane.driveId = some (some slot)) →
      ∃ slot, (l.loadedSlots.set x.driveId (some slotId)).get? lane.driveId = some (some slot) := by
    intro lane hlane
    rw [Dict.get?_set]
    by_cases he : x.driveId = lane.driveId
    · exact ⟨slotId, if_pos he⟩
    · rw [if_neg he]
      exact hlane
  have hwaiting : ∀ lane ∈ lanes, lane ∉ pre ++ [x] → lane ∈ l.handles := by
    intro lane hlane hpre
    rw [List.mem_append, List.mem_singleton, not_or] at hpre
    exact h.waiting lane hlane hpre.1
  rcases heffect with ⟨hm, hh⟩ | ⟨hm, hnone, hh⟩
  · refine ⟨hn, hm ▸ h.unstaged, hm ▸ h.mounted, h.mounts, h.barcodes, hwaiting, fun d hd => ?_⟩
    obtain ⟨lane, hmem, hdrive, hlane⟩ := h.loaded d (hm ▸ hd)
    exact ⟨lane, List.mem_append_left _ hmem, hdrive, hlane.mem, hlane.unplaced, (hh _).trans hlane.holds,
      hslot lane hlane.slot⟩
  · have hunstaged : Unstaged s'.2 := by
      rw [hm]
      exact ⟨h.unstaged.staged, h.unstaged.written, h.unstaged.verified, h.unstaged.failing⟩
    refine ⟨hn, hunstaged, by rw [hm]; exact h.mounted, h.mounts, h.barcodes, hwaiting, fun d hd => ?_⟩
    rw [hm] at hd
    rcases List.mem_append.1 hd with hd | hd
    · obtain ⟨lane, hmem, hdrive, hlane⟩ := h.loaded d hd
      have hne : x.driveId ≠ lane.driveId := by
        intro he
        rw [he, hlane.holds] at hnone
        cases hnone
      refine ⟨lane, List.mem_append_left _ hmem, hdrive, hlane.mem, hlane.unplaced, ?_, hslot lane hlane.slot⟩
      rw [hh, if_neg hne]
      exact hlane.holds
    · -- the lane itself: the others were loaded before it, so its handle is as granted
      have hxpre : x ∉ pre := fun hmem => (hg.ne hx hmem).1 rfl
      refine ⟨x, by simp, (List.mem_singleton.1 hd).symm, h.waiting x hxmem hxpre, hg.unplaced x hxmem, ?_, ?_⟩
      · rw [hh, if_pos rfl]
        exact hstores
      · exact ⟨slotId, by rw [Dict.get?_set, if_pos rfl]⟩

/-- Audit rows are written unwatched. -/
theorem stable_rows {request : TapeOpRequest} (P : BatchMonitor → Library → Prop) :
    Stable (watched sha256) gateContract (fun o => o.isRowOf request = true) (fun s => P s.2 s.1.library ∧ Numbered s) :=
  fun o ho => stable_of_books sha256 P o (unwatched_of_row ho)

/-- The load of a lane, asked of the orchestrator. -/
theorem phase_loadRequest (jobId : JobId) (barcode : Barcode) (driveId : Int) (slotId : Nat) (hs : Numbered s)
    {N : TapeOpRecord → L → World × BatchMonitor → Prop}
    (hN : ∀ record s', LoadEffect slotId driveId s.2 s.1.library s'.2 s'.1.library → Numbered s' → N record l s') :
    Phase sha256 (executeTapeRequest (loadRequest "sharded-archive" jobId barcode driveId slotId) true) N l s := by
  refine wp_mono (wp_executeTapeRequest_raising ((honest_machine sha256).observed _) (fun h => nomatch h)
    (stable_rows fun mon lib => mon = s.2 ∧ lib = s.1.library)
    (stable_rows fun mon lib => LoadEffect slotId driveId s.2 s.1.library mon lib)
    (stable_rows fun _ _ => True) ⟨⟨rfl, rfl⟩, hs⟩ ?_) ?_ ?_
  · intro s₁ h₁
    obtain ⟨⟨hm, hl⟩, hn⟩ := h₁
    have hcall : Reads (fun _ => True) (libraryLoad slotId driveId : JobM L OperationResult) := only_perform trivial
    have hload : Phase sha256 (libraryLoad slotId driveId)
        (fun _ _ s' => LoadEffect slotId driveId s.2 s.1.library s'.2 s'.1.library ∧ Numbered s') l s₁ :=
      phase_load slotId driveId hn fun _ s' he hn' => ⟨by rw [← hm, ← hl]; exact he, hn'⟩
    refine wp_dispatch_load rfl rfl (wp_mono (hcall.wp_and hload) ?_ ?_)
    · exact fun _ _ _ h => ⟨h.1.symm, h.2⟩
    · exact fun _ _ _ h => ⟨h.1.symm, trivial, h.2⟩
  · exact fun record l' s' h => h.1 ▸ hN record s' h.2.1 h.2.2
  · intro e l' s' h
    rcases h.2 with h | h | h
    · exact h.2
    · exact h.2
    · exact h.2

/-- One lane of the loading loop. -/
theorem phase_loadLane {lanes pre post : List DriveHandle} {x : DriveHandle} {l : LaneLocals} {s : World × BatchMonitor}
    (jobId : JobId) (hg : Granted lanes) (hx : lanes = pre ++ x :: post) (h : Loading lanes pre l s) :
    Phase sha256 (do
      let (driveId, slotId) ← loadBarcode jobId x
      assign fun l => { l with loadedSlots := l.loadedSlots.set driveId slotId })
      (fun _ => Loading lanes (pre ++ [x])) l s := by
  unfold loadBarcode Phase
  rw [wp_bind, wp_bind]
  refine phase_call rfl h.numbered fun c loaded hans _ hn => ?_
  have hfind := World.exec_findDrive sha256 hans
  generalize hs' : ((watched sha256).exec s (.library (.findDriveByBarcode x.barcode)) c).2 = s'
  have hmon : s'.2 = s.2 := by rw [← hs']; rfl
  have hlib : s'.1.library = s.1.library := by rw [← hs']; exact World.exec_library sha256 rfl
  rw [hs'] at hn
  have hL : Loading lanes pre l s' := h.of_same hmon (fun d => by rw [hlib]) hn
  cases loaded with
  | some driveId =>
    rw [wp_bind]
    refine phase_looks (looks_ensureDriveReconciled driveId x.barcode) hn fun _ s'' hm hl hn' => ?_
    have hL' : Loading lanes pre l s'' := hL.of_same hm (fun d => by rw [hl]) hn'
    have hholds : s''.1.library.holds driveId = some x.barcode := by
      rw [hl, hlib]
      exact Library.holds_of_find hfind
    split
    · exact hL'.found hg hx hholds (.inr rfl)
    · exact hL'.found hg hx hholds (.inl rfl)
  | none =>
    rw [wp_bind]
    refine phase_call rfl hn fun c inv hans _ hn' => ?_
    have hinv := World.exec_inventory sha256 hans
    generalize hs'' : ((watched sha256).exec s' (.library .inventory) c).2 = s''
    have hmon' : s''.2 = s'.2 := by rw [← hs'']; rfl
    have hlib' : s''.1.library = s'.1.library := by rw [← hs'']; exact World.exec_library sha256 rfl
    rw [hs''] at hn'
    have hL' : Loading lanes pre l s'' := hL.of_same hmon' (fun d => by rw [hlib']) hn'
    simp only
    split
    · exact hn'
    · rename_i slot hslot
      rw [← hinv] at hslot
      have hstores := Library.stores_of_inventory hslot
      rw [wp_bind]
      refine phase_looks (looks_ensureDriveReconciled x.driveId x.barcode) hn' fun _ s₁ hm hl hn₁ => ?_
      have hL₁ : Loading lanes pre l s₁ := hL'.of_same hm (fun d => by rw [hl]) hn₁
      rw [wp_bind]
      refine phase_loadRequest jobId x.barcode x.driveId slot.1 hn₁ fun _ s₂ heffect hn₂ => ?_
      have hstores₁ : s₁.1.library.stores slot.1 = some x.barcode := by
        rw [hl, hlib']
        exact hstores
      exact hL₁.taken hg hx hn₂ hstores₁ heffect

/-! ### Mounting -/

/-- What the monitor holds mounted and loaded, the lanes know of. -/
structure Held (l : LaneLocals) (mon : BatchMonitor) : Prop where
  mounted : ∀ handle ∈ mon.mounted, l.mounts.get? handle.barcode = some handle
  keyed : ∀ barcode handle, l.mounts.get? barcode = some handle → handle.barcode = barcode
  loaded : ∀ d ∈ mon.loaded, ∃ lane ∈ l.handles, lane.physical = d ∧ (l.slotOf lane).isSome = true

/-- What is known only of the lanes' locals and of mounts and loads. -/
theorem Held.of_same {l l' : LaneLocals} {mon mon' : BatchMonitor} (h : Held l mon) (hh : l'.handles = l.handles)
    (hm : l'.mounts = l.mounts) (hs : l'.loadedSlots = l.loadedSlots) (hmm : mon'.mounted = mon.mounted)
    (hml : mon'.loaded = mon.loaded) : Held l' mon' := by
  refine ⟨?_, ?_, ?_⟩
  · rw [hm, hmm]
    exact h.mounted
  · rw [hm]
    exact h.keyed
  · unfold LaneLocals.slotOf
    rw [hml, hh, hs]
    exact h.loaded

/-- A batch whose lanes are ready: nothing is staged yet. -/
structure Ready (l : LaneLocals) (s : World × BatchMonitor) : Prop where
  numbered : Numbered s
  unstaged : Unstaged s.2
  held : Held l s.2

theorem Ready.of_same {l : LaneLocals} {s s' : World × BatchMonitor} (h : Ready l s) (hm : s'.2 = s.2) (hn : Numbered s') :
    Ready l s' := ⟨hn, hm ▸ h.unstaged, hm ▸ h.held⟩

/-- One lane of the mounting loop, for a cartridge that has not been mounted. -/
theorem phase_mountLane {l : LaneLocals} {s : World × BatchMonitor} (lane : DriveHandle) (mode : MountMode) (h : Ready l s)
    (hfree : l.mounts.get? lane.barcode = none) :
    Phase sha256 (do
      verifyHandle lane
      let mountHandle ← mount lane.barcode mode
      assign fun l => { l with mounts := l.mounts.set lane.barcode mountHandle })
      (fun _ l' s' => Ready l' s' ∧ l'.handles = l.handles ∧
        ∀ barcode, lane.barcode ≠ barcode → l'.mounts.get? barcode = l.mounts.get? barcode) l s := by
  unfold Phase
  rw [wp_bind]
  refine phase_looks (looks_verifyHandle lane) h.numbered fun _ s' hm _ hn => ?_
  have h' : Ready l s' := h.of_same hm hn
  rw [wp_bind]
  refine phase_mount lane.barcode mode hn fun handle s'' hb hm' hn' => ?_
  rw [wp_assign]
  have hunstaged : Unstaged s''.2 := by
    rw [hm']
    exact ⟨h'.unstaged.staged, h'.unstaged.written, h'.unstaged.verified, h'.unstaged.failing⟩
  refine ⟨⟨hn', hunstaged, ?_, ?_, ?_⟩, rfl, fun barcode hne => ?_⟩
  · intro mounted hmem
    rw [hm'] at hmem
    rw [Dict.get?_set]
    rcases List.mem_append.1 hmem with hmem | hmem
    · have hget := h'.held.mounted mounted hmem
      have hne : lane.barcode ≠ mounted.barcode := by
        intro he
        rw [he, hget] at hfree
        cases hfree
      rw [if_neg hne]
      exact hget
    · rw [List.mem_singleton.1 hmem, if_pos hb.symm]
  · intro barcode mounted hget
    rw [Dict.get?_set] at hget
    by_cases he : lane.barcode = barcode
    · rw [if_pos he, Option.some.injEq] at hget
      rw [← hget, hb, he]
    · rw [if_neg he] at hget
      exact h'.held.keyed barcode mounted hget
  · intro d hd
    rw [hm'] at hd
    exact h'.held.loaded d hd
  · rw [Dict.get?_set, if_neg hne]

/-- Loading and mounting leave lanes that are ready. -/
theorem phase_loadAndMount {l : LaneLocals} {s : World × BatchMonitor} (jobId : JobId) (mode : MountMode)
    (hg : Granted l.handles) (hn : Numbered s) (hu : Unstaged s.2) (hmounted : s.2.mounted = []) (hloaded : s.2.loaded = [])
    (hmounts : l.mounts = []) :
    Phase sha256 (loadAndMount jobId mode) (fun _ => Ready) l s := by
  unfold loadAndMount Phase
  rw [wp_bind, wp_locals, wp_bind]
  have hstart : Loading l.handles [] l s :=
    ⟨hn, hu, hmounted, hmounts, rfl, fun _ h _ => h, by rw [hloaded]; simp⟩
  refine wp_forEach _ _ (Loading l.handles) hstart ?_ ?_
  · exact fun pre x post l' s' hx h => phase_loadLane jobId hg hx h
  intro l₁ s₁ h₁
  rw [wp_bind, wp_locals, wp_bind]
  have hrecord : Reads (fun o => unwatched o = true) (recordPhysicalDrives l₁.handles : JobM LaneLocals Unit) :=
    reads_recordPhysicalDrives (fun _ _ => rfl) _
  refine phase_unwatched hrecord h₁.numbered fun _ s₂ hm hl hn₂ => ?_
  have h₂ := h₁.of_same hm (fun d => by rw [hl]) hn₂
  have hready : Ready l₁ s₂ := by
    refine ⟨hn₂, h₂.unstaged, by rw [h₂.mounted]; simp, by rw [h₂.mounts]; simp, fun d hd => ?_⟩
    obtain ⟨lane, -, hdrive, hlane⟩ := h₂.loaded d hd
    have hphys : lane.physical = lane.driveId := by
      unfold DriveHandle.physical
      rw [hlane.unplaced]
      rfl
    obtain ⟨slot, hslot⟩ := hlane.slot
    refine ⟨lane, hlane.mem, hphys.trans hdrive, ?_⟩
    unfold LaneLocals.slotOf
    rw [hphys, hslot]
    rfl
  have hnodup : (l₁.handles.map DriveHandle.barcode).Nodup := h₂.barcodes ▸ hg.barcodes
  refine wp_forEach _ _
    (fun pre l' s' => Ready l' s' ∧ ∀ lane ∈ l₁.handles, lane.barcode ∉ pre.map DriveHandle.barcode →
      l'.mounts.get? lane.barcode = none) ?_ ?_ ?_
  · exact ⟨hready, fun lane _ _ => by rw [h₂.mounts]; rfl⟩
  · intro pre x post l' s' hx h
    have hxpre : x.barcode ∉ pre.map DriveHandle.barcode := by
      rw [hx, List.map_append, List.map_cons] at hnodup
      intro hmem
      exact (List.nodup_append.1 hnodup).2.2 _ hmem _ List.mem_cons_self rfl
    refine wp_mono (phase_mountLane x mode h.1 (h.2 x (by simp [hx]) hxpre)) ?_ (fun _ _ _ h => h)
    intro _ l'' s'' h'
    refine ⟨h'.1, fun lane hlane hpre => ?_⟩
    rw [List.map_append, List.mem_append, not_or, List.map_singleton, List.mem_singleton] at hpre
    rw [h'.2.2 lane.barcode (fun he => hpre.2 he.symm)]
    exact h.2 lane hlane hpre.1
  · exact fun l' s' h => h.1

/-! ### Staging -/

/-- The instances staged are those of the planned writes, each at the location of its write. -/
structure Planned (sha256 : Bytes → String) (writes : List PlannedWrite) (ids : List Nat) (l : LaneLocals)
    (s : World × BatchMonitor) : Prop where
  numbered : Numbered s
  held : Held l s.2
  failing : s.2.failing = false
  ids : ∀ id, id ∈ ids ↔ id ∈ s.2.staged.map FileInstance.id
  planned : ∀ row ∈ s.2.staged, ∃ x ∈ writes, x.barcode = row.barcode ∧ posix x.tapePath = row.tapePath
  checksums : ∀ x ∈ writes, x.checksum = sha256 x.content

/-- While instances are staged, nothing is written. -/
structure Staging (sha256 : Bytes → String) (writes : List PlannedWrite) (ids : List Nat) (l : LaneLocals)
    (s : World × BatchMonitor) : Prop extends Planned sha256 writes ids l s where
  written : s.2.written = []
  verified : s.2.verified = []

theorem Ready.staging {l : LaneLocals} {s : World × BatchMonitor} (h : Ready l s) : Staging sha256 [] [] l s := by
  obtain ⟨hst, hw, hv, hf⟩ := h.unstaged
  refine ⟨⟨h.numbered, h.held, hf, ?_, ?_, ?_⟩, hw, hv⟩
  · simp [hst]
  · simp [hst]
  · simp

theorem Planned.of_same {writes : List PlannedWrite} {ids : List Nat} {l : LaneLocals} {s s' : World × BatchMonitor}
    (h : Planned sha256 writes ids l s) (hm : s'.2 = s.2) (hn : Numbered s') : Planned sha256 writes ids l s' :=
  ⟨hn, hm ▸ h.held, hm ▸ h.failing, hm ▸ h.ids, hm ▸ h.planned, h.checksums⟩

theorem Staging.of_same {writes : List PlannedWrite} {ids : List Nat} {l : LaneLocals} {s s' : World × BatchMonitor}
    (h : Staging sha256 writes ids l s) (hm : s'.2 = s.2) (hn : Numbered s') : Staging sha256 writes ids l s' :=
  ⟨h.toPlanned.of_same hm hn, hm ▸ h.written, hm ▸ h.verified⟩

/-- One more write is planned. -/
theorem Staging.plan {writes : List PlannedWrite} {ids : List Nat} {l : LaneLocals} {s : World × BatchMonitor}
    (h : Staging sha256 writes ids l s) (x : PlannedWrite) (hx : x.checksum = sha256 x.content) :
    Staging sha256 (writes ++ [x]) ids l s := by
  refine ⟨⟨h.numbered, h.held, h.failing, h.ids, fun row hrow => ?_, fun y hy => ?_⟩, h.written, h.verified⟩
  · obtain ⟨y, hy, hloc⟩ := h.planned row hrow
    exact ⟨y, List.mem_append_left _ hy, hloc⟩
  · rcases List.mem_append.1 hy with hy | hy
    · exact h.checksums y hy
    · rw [List.mem_singleton.1 hy]
      exact hx

/-- An instance is staged for a planned write. -/
theorem phase_stageFor {writes : List PlannedWrite} {ids : List Nat} {l : LaneLocals} {s : World × BatchMonitor} (jobId : JobId)
    (recordId : Nat) {x : PlannedWrite} (hx : x ∈ writes) (h : Staging sha256 writes ids l s) :
    Phase sha256 (createStagedInstance jobId recordId x.barcode x.tapePath)
      (fun row l' s' => l' = l ∧ Staging sha256 writes (ids ++ [row.id]) l s') l s := by
  refine phase_stage jobId recordId x.barcode x.tapePath h.numbered fun row s' hb hp hm hn => ⟨rfl, ?_⟩
  have hheld : Held l s'.2 := h.held.of_same rfl rfl rfl (by rw [hm]) (by rw [hm])
  refine ⟨⟨hn, hheld, by rw [hm]; exact h.failing, ?_, ?_, h.checksums⟩, by rw [hm]; exact h.written,
    by rw [hm]; exact h.verified⟩
  · intro id
    rw [hm, List.map_append, List.mem_append, List.mem_append, h.ids id]
    rfl
  · intro r hr
    rw [hm] at hr
    rcases List.mem_append.1 hr with hr | hr
    · exact h.planned r hr
    · rw [List.mem_singleton.1 hr]
      exact ⟨x, hx, hb.symm, hp.symm⟩

/-- Staging one file of a stripe, or one shard: what the procedure answers has been planned and staged. -/
def StagesOne (sha256 : Bytes → String) (m : JobM LaneLocals (PlannedWrite × List Nat)) : Prop :=
  ∀ writes ids l s, Staging sha256 writes ids l s →
    Phase sha256 m (fun y => Staging sha256 (writes ++ [y.1]) (ids ++ y.2)) l s

/-- The checksum that is computed is that of the file. -/
theorem phase_computeChecksum (file : SourceFile) (hs : Numbered s) {N : String → L → World × BatchMonitor → Prop}
    (hN : ∀ s', s'.2 = s.2 → Numbered s' → N (sha256 file.content) l s') : Phase sha256 (computeChecksum sha256 file) N l s := by
  unfold computeChecksum Phase
  rw [wp_bind]
  refine phase_call rfl hs fun c content hans _ hn => ?_
  rw [wp_pure, ← World.exec_readSource sha256 hans]
  exact hN _ rfl hn

/-- A file of a stripe: a record and an instance of it, and those of its only shard, at one location. -/
theorem stagesOne_stripe (request : ShardedArchiveRequest) (vgId : Nat) (jobId : JobId) (item : SourceFile × Barcode) :
    StagesOne sha256 (stageStripe sha256 request vgId jobId item) := by
  intro writes ids l s h
  obtain ⟨file, barcode⟩ := item
  unfold stageStripe Phase
  simp only
  generalize stripeTapePath file.path request.sourcePath = tapePath
  rw [wp_bind]
  refine phase_computeChecksum file h.numbered fun s₁ hm₁ hn₁ => ?_
  rw [wp_bind]
  refine phase_looks (looks_sourceSize file) hn₁ fun size s₂ hm₂ _ hn₂ => ?_
  rw [wp_bind]
  refine phase_unwatched (only_perform rfl) hn₂ fun record s₃ hm₃ _ hn₃ => ?_
  have h₃ := h.of_same (hm₃.trans (hm₂.trans hm₁)) hn₃
  have hplan := h₃.plan { barcode := barcode, tapePath := tapePath, content := file.content, checksum := sha256 file.content
                          mismatch := "Checksum mismatch: " ++ file.name, source := some file } rfl
  rw [wp_bind]
  refine wp_mono (phase_stageFor jobId record.id (List.mem_append_right _ List.mem_cons_self) hplan) ?_ (fun _ _ _ h => h)
  intro row l₄ s₄ h₄
  obtain ⟨rfl, h₄⟩ := h₄
  rw [wp_bind]
  refine phase_unwatched (only_perform rfl) h₄.numbered fun shardRecord s₅ hm₅ _ hn₅ => ?_
  rw [wp_bind]
  refine wp_mono (phase_stageFor jobId shardRecord.id (List.mem_append_right _ List.mem_cons_self) (h₄.of_same hm₅ hn₅)) ?_
    (fun _ _ _ h => h)
  intro shardRow l₆ s₆ h₆
  obtain ⟨rfl, h₆⟩ := h₆
  rw [wp_bind]
  refine phase_looks (only_perform rfl) h₆.numbered fun groupId s₇ hm₇ _ hn₇ => ?_
  rw [wp_bind, wp_assign, wp_pure]
  have h₇ := h₆.of_same hm₇ hn₇
  rw [List.append_assoc] at h₇
  exact { h₇ with held := h₇.held.of_same rfl rfl rfl rfl rfl }

/-- A shard: an instance of the file, and the record and instance of the shard, at one location. -/
theorem stagesOne_shard (request : ShardedArchiveRequest) (vgId : Nat) (jobId : JobId) (plan : ShardPlan) (recordId : Nat)
    (shard : ShardSpec × Bytes) : StagesOne sha256 (stageShard sha256 request vgId jobId plan recordId shard) := by
  intro writes ids l s h
  obtain ⟨spec, content⟩ := shard
  unfold stageShard Phase
  simp only
  have hplan := h.plan { barcode := spec.barcode, tapePath := spec.tapePath, content := content, checksum := sha256 content
                         mismatch := "Shard " ++ toString spec.shardIndex ++ " checksum mismatch" } rfl
  rw [wp_bind]
  refine wp_mono (phase_stageFor jobId recordId (List.mem_append_right _ List.mem_cons_self) hplan) ?_ (fun _ _ _ h => h)
  intro row l₁ s₁ h₁
  obtain ⟨rfl, h₁⟩ := h₁
  rw [wp_bind]
  refine phase_unwatched (only_perform rfl) h₁.numbered fun shardRecord s₂ hm₂ _ hn₂ => ?_
  rw [wp_bind]
  refine wp_mono (phase_stageFor jobId shardRecord.id (List.mem_append_right _ List.mem_cons_self) (h₁.of_same hm₂ hn₂)) ?_
    (fun _ _ _ h => h)
  intro shardRow l₃ s₃ h₃
  obtain ⟨rfl, h₃⟩ := h₃
  rw [wp_pure]
  rw [List.append_assoc] at h₃
  exact h₃

/-- Staging a whole batch. -/
theorem phase_stageAll {γ : Type} {f : γ → JobM LaneLocals (PlannedWrite × List Nat)} (hf : ∀ x, StagesOne sha256 (f x))
    (xs : List γ) {l : LaneLocals} {s : World × BatchMonitor} (h : Ready l s) :
    Phase sha256 (mapEach f xs) (fun ys => Staging sha256 (ys.map Prod.fst) (ys.flatMap Prod.snd)) l s := by
  refine wp_mapEach f xs (fun _ ys => Staging sha256 (ys.map Prod.fst) (ys.flatMap Prod.snd)) h.staging ?_ (fun _ _ _ h => h)
  intro pre ys x post l' s' _ h'
  refine wp_mono (hf x _ _ l' s' h') ?_ (fun _ _ _ h => h)
  intro y l'' s'' h''
  simpa using h''

/-! ### Writing and reading back -/

/-- A planned write, as the monitor notes it. -/
def shardOf (x : PlannedWrite) : WrittenShard := { barcode := x.barcode, tapePath := posix x.tapePath, content := x.content }

/-- How far a lane is, and what the monitor has of it. -/
structure LaneDone (mon : BatchMonitor) (lane : Lane PlannedWrite LanePhase Exn) : Prop where
  shape : lane.todo = [.room, .write, .check] ∨ lane.todo = [.write, .check] ∨ lane.todo = [.check] ∨ lane.todo = []
  stopped : lane.error ≠ none → lane.todo = []
  written : lane.error = none → lane.todo = [.check] → shardOf lane.item ∈ mon.written
  verified : lane.error = none → lane.todo = [] → shardOf lane.item ∈ mon.verified

/-- While lanes write: every lane is as far as its books say, and only planned writes were made. -/
structure Writing (sha256 : Bytes → String) (writes : List PlannedWrite) (ids : List Nat)
    (lanes : List (Lane PlannedWrite LanePhase Exn)) (l : LaneLocals) (s : World × BatchMonitor) : Prop
    extends Planned sha256 writes ids l s where
  items : lanes.map Lane.item = writes
  lanes : ∀ lane ∈ lanes, LaneDone s.2 lane
  written : ∀ y ∈ s.2.written, ∃ x ∈ writes, y = shardOf x

/-- A lane that stopped owes nothing. -/
theorem laneDone_failed (mon : BatchMonitor) (lane : Lane PlannedWrite LanePhase Exn) (e : Exn) :
    LaneDone mon { lane with todo := [], error := some e } :=
  ⟨.inr (.inr (.inr rfl)), fun _ => rfl, fun h => (nomatch h), fun h => (nomatch h)⟩

/-- The books only grow. -/
theorem LaneDone.mono {mon mon' : BatchMonitor} {lane : Lane PlannedWrite LanePhase Exn} (h : LaneDone mon lane)
    (hw : ∀ y ∈ mon.written, y ∈ mon'.written) (hv : ∀ y ∈ mon.verified, y ∈ mon'.verified) : LaneDone mon' lane :=
  ⟨h.shape, h.stopped, fun he ht => hw _ (h.written he ht), fun he ht => hv _ (h.verified he ht)⟩

/-- One lane goes on, the others stay. -/
theorem Writing.step {writes : List PlannedWrite} {ids : List Nat} {pre post : List (Lane PlannedWrite LanePhase Exn)}
    {lane lane' : Lane PlannedWrite LanePhase Exn} {l : LaneLocals} {s s' : World × BatchMonitor}
    (h : Writing sha256 writes ids (pre ++ lane :: post) l s) (hn : Numbered s')
    (hm : ∃ written verified, s'.2 = { s.2 with written := s.2.written ++ written, verified := s.2.verified ++ verified } ∧
      ∀ y ∈ written, y = shardOf lane.item)
    (hitem : lane'.item = lane.item) (hlane : LaneDone s'.2 lane') : Writing sha256 writes ids (pre ++ lane' :: post) l s' := by
  obtain ⟨written, verified, hm, hnew⟩ := hm
  have hitems : (pre ++ lane' :: post).map Lane.item = writes := by
    rw [← h.items]
    simp [hitem]
  have hheld : Held l s'.2 := h.held.of_same rfl rfl rfl (by rw [hm]) (by rw [hm])
  refine ⟨⟨hn, hheld, by rw [hm]; exact h.failing, by rw [hm]; exact h.ids, by rw [hm]; exact h.planned, h.checksums⟩,
    hitems, ?_, ?_⟩
  · have hother : ∀ other ∈ pre ++ lane :: post, LaneDone s'.2 other := by
      intro other hmem
      refine (h.lanes other hmem).mono ?_ ?_
      · rw [hm]
        exact fun y hy => List.mem_append_left _ hy
      · rw [hm]
        exact fun y hy => List.mem_append_left _ hy
    intro other hmem
    rcases List.mem_append.1 hmem with hmem | hmem
    · exact hother other (List.mem_append_left _ hmem)
    · rcases List.mem_cons.1 hmem with rfl | hmem
      · exact hlane
      · exact hother other (List.mem_append_right _ (List.mem_cons_of_mem _ hmem))
  · intro y hy
    rw [hm] at hy
    rcases List.mem_append.1 hy with hy | hy
    · exact h.written y hy
    · refine ⟨lane.item, ?_, hnew y hy⟩
      rw [← h.items]
      exact List.mem_map_of_mem (by simp)

/-- A step of a lane after which the books are as they were. -/
theorem Writing.step_same {writes : List PlannedWrite} {ids : List Nat} {pre post : List (Lane PlannedWrite LanePhase Exn)}
    {lane lane' : Lane PlannedWrite LanePhase Exn} {l : LaneLocals} {s s' : World × BatchMonitor}
    (h : Writing sha256 writes ids (pre ++ lane :: post) l s) (hn : Numbered s') (hm : s'.2 = s.2)
    (hitem : lane'.item = lane.item) (hlane : LaneDone s'.2 lane') : Writing sha256 writes ids (pre ++ lane' :: post) l s' :=
  h.step hn ⟨[], [], by simp [hm], by simp⟩ hitem hlane

/-- The room of a lane is looked up. -/
theorem wp_laneRoom {l : LaneLocals} {s : World × BatchMonitor} (x : PlannedWrite) (hs : Numbered s) :
    wp (watched sha256) gateContract (laneStep .room x) (fun _ l' s' => l' = l ∧ s'.2 = s.2 ∧ Numbered s') (Unnoted l s) l s := by
  have hlooks : Reads (fun o => unwatched o = true) (laneStep .room x) :=
    (looks_laneRoom x).weaken fun _ h => unwatched_of_isRead h
  refine wp_mono (hlooks.keeps (stable_unwatched sha256 s.2 s.1.library) ⟨rfl, rfl, hs⟩) ?_ ?_
  · exact fun _ l' s' h => ⟨h.1.symm, h.2.1, h.2.2.2⟩
  · exact fun _ l' s' h => ⟨h.1.symm, h.2.1, h.2.2.2⟩

/-- A lane writes what was planned, where it was planned. -/
theorem wp_laneWrite {l : LaneLocals} {s : World × BatchMonitor} (x : PlannedWrite) (hs : Numbered s) (hh : Held l s.2) :
    wp (watched sha256) gateContract (laneStep .write x)
      (fun _ l' s' => l' = l ∧ s'.2 = { s.2 with written := s.2.written ++ [shardOf x] } ∧ Numbered s') (Unnoted l s) l s := by
  unfold laneStep
  rw [wp_bind, wp_locals]
  cases hget : l.mounts.get? x.barcode with
  | none => exact ⟨rfl, rfl, hs⟩
  | some handle =>
    refine wp_noted rfl hs (fun c e hans => ?_) fun c a hans _ hn => ⟨rfl, ?_, hn⟩
    · simp [BatchMonitor.watch, Machine.step, machine, hans]
    · have hans' : (s.1.exec sha256 (.ltfs (.writeFile handle x.content (posix x.tapePath))) c).1 = .ok () := hans
      have hb : handle.barcode = x.barcode := hh.keyed _ _ hget
      simp [BatchMonitor.watch, Machine.step, machine, hans', shardOf, hb]

/-- A lane reads back what it wrote: if the checksum is right, every write at the place with that checksum is verified. -/
theorem wp_laneCheck {l : LaneLocals} {s : World × BatchMonitor} (x : PlannedWrite) (hs : Numbered s) (hh : Held l s.2)
    (hx : x.checksum = sha256 x.content) (hw : shardOf x ∈ s.2.written) :
    wp (watched sha256) gateContract (laneStep .check x)
      (fun _ l' s' => l' = l ∧ (∃ verified, s'.2 = { s.2 with verified := s.2.verified ++ verified } ∧ shardOf x ∈ verified) ∧
        Numbered s')
      (fun _ l' s' => l' = l ∧ (∃ verified, s'.2 = { s.2 with verified := s.2.verified ++ verified }) ∧ Numbered s') l s := by
  unfold laneStep
  rw [wp_bind, wp_locals]
  cases hget : l.mounts.get? x.barcode with
  | none => exact ⟨rfl, ⟨[], by simp⟩, hs⟩
  | some handle =>
    simp only
    rw [wp_bind]
    have hb : handle.barcode = x.barcode := hh.keyed _ _ hget
    refine wp_mono (wp_noted
      (o := .ltfs (.stat handle (posix x.tapePath)))
      (N := fun (st : LTFSFileStat) l' s' => l' = l ∧
        s'.2 = { s.2 with verified := s.2.verified ++ s.2.readBack sha256 handle (posix x.tapePath) st } ∧ Numbered s')
      rfl hs (fun c e hans => ?_) fun c st hans _ hn => ⟨rfl, ?_, hn⟩) ?_ ?_
    · simp [BatchMonitor.watch, Machine.step, machine, hans]
    · have hans' : (s.1.exec sha256 (.ltfs (.stat handle (posix x.tapePath))) c).1 = .ok st := hans
      simp [BatchMonitor.watch, Machine.step, machine, hans']
    · intro st l' s' h
      obtain ⟨rfl, hm, hn⟩ := h
      split
      · exact ⟨rfl, ⟨_, hm⟩, hn⟩
      · rename_i heq
        refine ⟨rfl, ⟨_, hm, List.mem_filter.2 ⟨hw, ?_⟩⟩, hn⟩
        have hsum : sha256 x.content = st.checksumSha256 := by
          rw [← hx]
          exact (not_not.1 heq).symm
        simp [shardOf, hb, hsum]
    · exact fun e l' s' h => ⟨h.1, ⟨[], by simp [h.2.1]⟩, h.2.2⟩

/-- Every step of every lane keeps the books of all lanes. -/
theorem stepKeeps_lanes (writes : List PlannedWrite) (ids : List Nat) :
    StepKeeps (watched sha256) gateContract laneStep (Writing sha256 writes ids) := by
  intro pre lane k rest post l s htodo h
  have hlane := h.lanes lane (by simp)
  have hfail : ∀ e l' s', Unnoted l s e l' s' → Writing sha256 writes ids (pre ++ { lane with todo := [], error := some e } :: post) l' s' := by
    intro e l' s' h'
    obtain ⟨rfl, hm, hn⟩ := h'
    exact h.step_same hn hm rfl (laneDone_failed _ _ _)
  have hx : lane.item ∈ writes := by
    rw [← h.items]
    exact List.mem_map_of_mem (by simp)
  have herr : lane.error = none := by
    by_contra herr
    rw [hlane.stopped herr] at htodo
    cases htodo
  cases k with
  | room =>
    have hrest : rest = [.write, .check] := by
      rcases hlane.shape with hs | hs | hs | hs <;> rw [htodo] at hs <;> cases hs
      rfl
    refine wp_mono (wp_laneRoom lane.item h.numbered) ?_ hfail
    intro _ l' s' h'
    obtain ⟨rfl, hm, hn⟩ := h'
    refine h.step_same hn hm rfl ⟨.inr (.inl hrest), fun he => absurd herr he, ?_, ?_⟩ <;> simp [hrest]
  | write =>
    have hrest : rest = [.check] := by
      rcases hlane.shape with hs | hs | hs | hs <;> rw [htodo] at hs <;> cases hs
      rfl
    refine wp_mono (wp_laneWrite lane.item h.numbered h.held) ?_ hfail
    intro _ l' s' h'
    obtain ⟨rfl, hm, hn⟩ := h'
    refine h.step hn ⟨[shardOf lane.item], [], by simp [hm], by simp⟩ rfl
      ⟨.inr (.inr (.inl hrest)), fun he => absurd herr he, ?_, ?_⟩
    · simp [hm]
    · simp [hrest]
  | check =>
    have hrest : rest = [] := by
      rcases hlane.shape with hs | hs | hs | hs <;> rw [htodo] at hs <;> cases hs
      rfl
    have hw : shardOf lane.item ∈ s.2.written := hlane.written herr (by rw [htodo, hrest])
    refine wp_mono (wp_laneCheck lane.item h.numbered h.held (h.checksums _ hx) hw) ?_ ?_
    · intro _ l' s' h'
      obtain ⟨rfl, ⟨verified, hm, hmem⟩, hn⟩ := h'
      refine h.step hn ⟨[], verified, by simp [hm], by simp⟩ rfl
        ⟨.inr (.inr (.inr hrest)), fun he => absurd herr he, ?_, ?_⟩
      · simp [hrest]
      · simp [hm, hmem]
    · intro e l' s' h'
      obtain ⟨rfl, ⟨verified, hm⟩, hn⟩ := h'
      exact h.step hn ⟨[], verified, by simp [hm], by simp⟩ rfl (laneDone_failed _ _ _)

/-- The files of the batch are on tape: what was staged and what was written has been read back. -/
structure Verified (mon : BatchMonitor) : Prop where
  staged : ∀ row ∈ mon.staged, ∃ x ∈ mon.verified, x.barcode = row.barcode ∧ x.tapePath = row.tapePath
  written : ∀ x ∈ mon.written, x ∈ mon.verified

/-- When all lanes have ended well, every write was read back. -/
theorem phase_writeLanes {writes : List PlannedWrite} {ids : List Nat} {l : LaneLocals} {s : World × BatchMonitor}
    (h : Staging sha256 writes ids l s) :
    Phase sha256 (writeLanes writes) (fun _ l' s' => Planned sha256 writes ids l' s' ∧ Verified s'.2) l s := by
  unfold writeLanes Phase
  refine wp_inLanes (Writing sha256 writes ids) ?_ (stepKeeps_lanes writes ids) ?_ ?_ ?_
  · intro n lanes l' s' h'
    refine phase_looks (only_perform rfl) h'.numbered fun _ s'' hm _ hn => ?_
    exact ⟨h'.toPlanned.of_same hm hn, h'.items, hm ▸ h'.lanes, hm ▸ h'.written⟩
  · refine ⟨h.toPlanned, by simp [Function.comp_def], ?_, by simp [h.written]⟩
    intro lane hlane
    obtain ⟨x, -, rfl⟩ := List.mem_map.1 hlane
    exact ⟨.inl rfl, fun he => absurd rfl he, fun _ ht => (nomatch ht), fun _ ht => (nomatch ht)⟩
  · intro lanes l' s' hdone h'
    have hall : ∀ x ∈ writes, shardOf x ∈ s'.2.verified := by
      intro x hx
      rw [← h'.items] at hx
      obtain ⟨lane, hlane, rfl⟩ := List.mem_map.1 hx
      obtain ⟨htodo, herr⟩ := hdone lane hlane
      exact (h'.lanes lane hlane).verified herr htodo
    refine ⟨h'.toPlanned, fun row hrow => ?_, fun y hy => ?_⟩
    · obtain ⟨x, hx, hb, hp⟩ := h'.planned row hrow
      exact ⟨shardOf x, hall x hx, hb, hp⟩
    · obtain ⟨x, hx, rfl⟩ := h'.written y hy
      exact hall x hx
  · exact fun lanes e l' s' h' _ => h'.numbered

/-! ### Unmounting and unloading -/

/-- While mounts are taken down: without a failure so far, those of the entries `pre` are gone. -/
structure Unmounting (mon : BatchMonitor) (l₀ : LaneLocals) (pre : List (Barcode × MountHandle))
    (results : List (Option (Barcode × String))) (l : LaneLocals) (s : World × BatchMonitor) : Prop where
  numbered : Numbered s
  mounted : ∃ mounted, s.2 = { mon with mounted := mounted } ∧ (∀ handle ∈ mounted, handle ∈ mon.mounted) ∧
    (results.filterMap id = [] → ∀ handle ∈ mounted, handle ∉ pre.map Prod.snd)
  handles : l.handles = l₀.handles
  slots : l.loadedSlots = l₀.loadedSlots

theorem wp_cleanUnmount {mon : BatchMonitor} {l₀ l : LaneLocals} {s : World × BatchMonitor}
    {pre : List (Barcode × MountHandle)} {results : List (Option (Barcode × String))} (entry : Barcode × MountHandle)
    (hf : mon.failing = false) (h : Unmounting mon l₀ pre results l s) :
    Phase sha256 (cleanUnmount entry) (fun r => Unmounting mon l₀ (pre ++ [entry]) (results ++ [r])) l s := by
  obtain ⟨mounted, hm, hsub, hgone⟩ := h.mounted
  unfold cleanUnmount Phase
  rw [wp_handle, wp_bind]
  refine wp_mono (wp_unmount entry.2 h.numbered (by rw [hm]; exact hf)) ?_ ?_
  · intro _ l' s' h'
    obtain ⟨rfl, hm', hn⟩ := h'
    rw [wp_bind, wp_assign, wp_pure]
    refine ⟨hn, ⟨mounted.filter fun mount => mount ≠ entry.2, by rw [hm', hm], ?_, ?_⟩, h.handles, h.slots⟩
    · exact fun handle hh => hsub handle (List.mem_filter.1 hh).1
    · intro hres handle hh hmem
      obtain ⟨hh, hne⟩ := List.mem_filter.1 hh
      have hres' : results.filterMap id = [] := by simpa using hres
      rw [List.map_append, List.mem_append, List.map_singleton, List.mem_singleton] at hmem
      rcases hmem with hmem | hmem
      · exact hgone hres' handle hh hmem
      · exact absurd hmem (of_decide_eq_true hne)
  · intro e l' s' h'
    obtain ⟨rfl, hm', hn⟩ := h'
    rw [wp_pure]
    refine ⟨hn, ⟨mounted, hm'.trans hm, hsub, fun hres => ?_⟩, h.handles, h.slots⟩
    simp at hres

/-- While drives are unloaded: without a failure so far, those of the lanes `pre` are empty. -/
structure Unloading (mon : BatchMonitor) (l₀ : LaneLocals) (pre : List DriveHandle) (results : List (Option String))
    (l : LaneLocals) (s : World × BatchMonitor) : Prop where
  numbered : Numbered s
  loaded : ∃ loaded, s.2 = { mon with loaded := loaded } ∧
    (∀ d ∈ loaded, d ∈ mon.loaded ∧ l.loadedSlots.get? d = l₀.loadedSlots.get? d) ∧
    (results.filterMap id = [] → ∀ d ∈ loaded, d ∉ pre.map DriveHandle.physical)
  handles : l.handles = l₀.handles

/-- The unload of a lane, asked of the orchestrator: when it raises, the drive may be empty all the same. -/
theorem phase_unloadRequest {l : LaneLocals} (jobId : JobId) (barcode : Barcode) (driveId : Int) (slotId : Nat)
    (hs : Numbered s) (hf : s.2.failing = false) :
    wp (watched sha256) gateContract (executeTapeRequest (unloadRequest "sharded-archive" jobId barcode driveId slotId) true)
      (fun _ l' s' => l' = l ∧ s'.2 = { s.2 with loaded := s.2.loaded.filter fun d => d ≠ driveId } ∧ Numbered s')
      (fun _ l' s' => l' = l ∧ (s'.2 = s.2 ∨ s'.2 = { s.2 with loaded := s.2.loaded.filter fun d => d ≠ driveId }) ∧
        Numbered s') l s := by
  refine wp_mono (wp_executeTapeRequest_raising ((honest_machine sha256).observed _) (fun h => nomatch h) (stable_rows fun mon _ => mon = s.2)
    (stable_rows fun mon _ => mon = { s.2 with loaded := s.2.loaded.filter fun d => d ≠ driveId })
    (stable_rows fun mon _ => mon = s.2) ⟨rfl, hs⟩ ?_) (fun _ _ _ h => h) ?_
  · intro s₁ h₁
    have hlook : Stable (watched sha256) gateContract (fun o => o.isRead = true) (fun s' => s'.2 = s.2 ∧ Numbered s') :=
      fun o ho => stable_of_books sha256 (fun mon _ => mon = s.2) o (unwatched_of_isRead ho)
    refine wp_dispatch_unload rfl rfl rfl hlook h₁ (fun _ h => h) fun s₂ h₂ => ?_
    refine wp_mono (wp_unload driveId slotId h₂.2 (by rw [h₂.1]; exact hf)) ?_ ?_
    · intro _ l' s' h
      rw [h₂.1] at h
      exact h
    · exact fun _ l' s' h => ⟨h.1, h.2.1.trans h₂.1, h.2.2⟩
  · intro _ l' s' h
    obtain ⟨hl, h | h | h⟩ := h
    · exact ⟨hl, .inl h.1, h.2⟩
    · exact ⟨hl, .inr h.1, h.2⟩
    · exact ⟨hl, .inl h.1, h.2⟩

theorem wp_cleanUnload {mon : BatchMonitor} {l₀ l : LaneLocals} {s : World × BatchMonitor} {pre : List DriveHandle}
    {results : List (Option String)} (jobId : JobId) (stillMounted : List Barcode) (lane : DriveHandle)
    (hf : mon.failing = false) (hslots : ∀ d ∈ mon.loaded, ((l₀.loadedSlots.get? d).join).isSome = true)
    (h : Unloading mon l₀ pre results l s) :
    Phase sha256 (cleanUnload jobId stillMounted lane)
      (fun r => Unloading mon l₀ (pre ++ [lane]) (results ++ [r])) l s := by
  obtain ⟨loaded, hm, hsub, hgone⟩ := h.loaded
  unfold cleanUnload Phase
  rw [wp_bind, wp_locals]
  cases hslot : l.slotOf lane with
  | none =>
    refine ⟨h.numbered, ⟨loaded, hm, hsub, fun hres d hd hmem => ?_⟩, h.handles⟩
    have hres' : results.filterMap id = [] := by simpa using hres
    rw [List.map_append, List.mem_append, List.map_singleton, List.mem_singleton] at hmem
    rcases hmem with hmem | rfl
    · exact hgone hres' d hd hmem
    · -- a loaded drive has its slot remembered
      obtain ⟨hd, hsame⟩ := hsub _ hd
      have hsome := hslots _ hd
      unfold LaneLocals.slotOf at hslot
      rw [← hsame, hslot] at hsome
      cases hsome
  | some slotId =>
    simp only
    by_cases hstill : lane.barcode ∈ stillMounted
    · rw [if_pos hstill, wp_pure]
      refine ⟨h.numbered, ⟨loaded, hm, hsub, fun hres => ?_⟩, h.handles⟩
      simp at hres
    · rw [if_neg hstill, wp_handle, wp_bind]
      refine wp_mono (phase_unloadRequest jobId lane.barcode lane.physical slotId h.numbered (by rw [hm]; exact hf)) ?_ ?_
      · intro _ l' s' h'
        obtain ⟨rfl, hm', hn⟩ := h'
        rw [wp_bind, wp_assign, wp_pure]
        refine ⟨hn, ⟨loaded.filter fun d => d ≠ lane.physical, by rw [hm', hm], ?_, ?_⟩, h.handles⟩
        · intro d hd
          obtain ⟨hd, hne⟩ := List.mem_filter.1 hd
          refine ⟨(hsub d hd).1, ?_⟩
          have hne' : lane.physical ≠ d := fun he => of_decide_eq_true hne he.symm
          rw [Dict.get?_erase, if_neg hne']
          exact (hsub d hd).2
        · intro hres d hd hmem
          obtain ⟨hd, hne⟩ := List.mem_filter.1 hd
          have hres' : results.filterMap id = [] := by simpa using hres
          rw [List.map_append, List.mem_append, List.map_singleton, List.mem_singleton] at hmem
          rcases hmem with hmem | hmem
          · exact hgone hres' d hd hmem
          · exact absurd hmem (of_decide_eq_true hne)
      · intro e l' s' h'
        obtain ⟨rfl, hm', hn⟩ := h'
        rw [wp_pure]
        rcases hm' with hm' | hm'
        · refine ⟨hn, ⟨loaded, hm'.trans hm, hsub, fun hres => ?_⟩, h.handles⟩
          simp at hres
        · refine ⟨hn, ⟨loaded.filter fun d => d ≠ lane.physical, by rw [hm', hm], ?_, fun hres => ?_⟩, h.handles⟩
          · exact fun d hd => hsub d (List.mem_filter.1 hd).1
          · simp at hres

/-- When all is unmounted and unloaded without a failure, the gate is open. -/
theorem phase_cleanUnmountAndUnload {writes : List PlannedWrite} {ids : List Nat} {l : LaneLocals} {s : World × BatchMonitor}
    (jobId : JobId) (h : Planned sha256 writes ids l s) (hv : Verified s.2) :
    Phase sha256 (cleanUnmountAndUnload jobId)
      (fun _ _ s' => Numbered s' ∧ s'.2.GateOpen ∧ s'.2.staged = s.2.staged) l s := by
  unfold cleanUnmountAndUnload Phase
  rw [wp_bind, wp_locals, wp_bind]
  refine wp_mapEach cleanUnmount l.mounts (Unmounting s.2 l)
    ⟨h.numbered, ⟨s.2.mounted, rfl, fun _ hh => hh, by simp⟩, rfl, rfl⟩ ?_ ?_
  · exact fun pre ys x post l' s' _ h' => wp_cleanUnmount x h.failing h'
  intro unmounts l₁ s₁ h₁
  obtain ⟨mounted, hm₁, hsub, hgone⟩ := h₁.mounted
  rw [wp_bind]
  have hslots : ∀ d ∈ s₁.2.loaded, ((l₁.loadedSlots.get? d).join).isSome = true := by
    intro d hd
    rw [hm₁] at hd
    obtain ⟨lane, -, rfl, hsome⟩ := h.held.loaded d hd
    rw [h₁.slots]
    exact hsome
  refine wp_mapEach _ l.handles (Unloading s₁.2 l₁)
    ⟨h₁.numbered, ⟨s₁.2.loaded, rfl, fun d hd => ⟨hd, rfl⟩, by simp⟩, rfl⟩ ?_ ?_
  · exact fun pre ys x post l' s' _ h' => wp_cleanUnload jobId _ x (by rw [hm₁]; exact h.failing) hslots h'
  intro unloads l₂ s₂ h₂
  obtain ⟨loaded, hm₂, hsub₂, hgone₂⟩ := h₂.loaded
  simp only
  split
  · exact h₂.numbered
  · rename_i hfailures
    obtain ⟨hfailed, hunloads⟩ := List.append_eq_nil_iff.1 (not_not.1 hfailures)
    have hmounted : mounted = [] := by
      refine List.eq_nil_iff_forall_not_mem.2 fun handle hh => ?_
      have hget := h.held.mounted handle (hsub handle hh)
      exact hgone (List.map_eq_nil_iff.1 hfailed) handle hh (List.mem_map_of_mem (Dict.mem_of_get? hget))
    have hloaded : loaded = [] := by
      refine List.eq_nil_iff_forall_not_mem.2 fun d hd => ?_
      have hd' : d ∈ s.2.loaded := by
        have := (hsub₂ d hd).1
        rw [hm₁] at this
        exact this
      obtain ⟨lane, hlane, rfl, -⟩ := h.held.loaded d hd'
      exact hgone₂ hunloads _ hd (List.mem_map_of_mem hlane)
    have hmon : s₂.2 = { s.2 with mounted := [], loaded := [] } := by rw [hm₂, hm₁, hmounted, hloaded]
    rw [wp_pure, hmon]
    exact ⟨h₂.numbered, ⟨rfl, rfl, hv.staged, hv.written⟩, rfl⟩

/-! ### The commit -/

/-- Through the open gate the staged instances of the batch are archived, all together. -/
theorem phase_commitStaged {l : LaneLocals} {s : World × BatchMonitor} (jobId : JobId) (ids : List Nat) (hs : Numbered s)
    (hg : s.2.GateOpen) (hids : ∀ id, id ∈ ids ↔ id ∈ s.2.staged.map FileInstance.id) :
    Phase sha256 (commitStaged jobId ids) (fun _ _ s' => Numbered s') l s := by
  unfold commitStaged Phase
  rw [wp_bind, wp_locals, wp_bind]
  refine phase_looks (only_perform rfl) hs fun inv s₁ hm _ hn => ?_
  simp only
  split
  · exact hn
  rw [wp_bind]
  refine wp_call fun s₂ hr c _ => ?_
  have hs₂ : s₁ = s₂ := hr
  subst hs₂
  have hn' := numbered_exec sha256 hn (.catalog (.markInstancesArchived ids true)) c
  refine ⟨fun id ha hna => ?_, fun _ _ => ?_, fun _ _ => hn'⟩
  · obtain ⟨hid, hall⟩ := World.exec_commit sha256 ha hna
    have hmem : id ∈ s₁.2.staged.map FileInstance.id := by
      rw [hm]
      exact (hids id).1 hid
    refine ⟨show s₁.2.GateOpen by rw [hm]; exact hg, hmem, ?_, fun row hrow => ?_⟩
    · obtain ⟨row, hrow, rfl⟩ := List.mem_map.1 hmem
      exact (hn.2 row hrow).2
    · have hrow' : row ∈ s.2.staged := by
        rw [← hm]
        exact hrow
      exact hall row.id ((hids row.id).2 (List.mem_map_of_mem hrow'))
  · have hjournal : Reads (fun o => unwatched o = true)
        (journal jobId "committed" [("instances", .int ids.length)] : JobM LaneLocals Unit) := only_perform rfl
    exact phase_unwatched hjournal hn' fun _ s' _ _ hn => hn

/-- What follows when every lane has written and read back. -/
theorem phase_finishBatch {writes : List PlannedWrite} {ids : List Nat} {l : LaneLocals} {s : World × BatchMonitor}
    (scheduler : DriveScheduler) (jobId : JobId) (h : Planned sha256 writes ids l s) (hv : Verified s.2) :
    Phase sha256 (finishBatch scheduler jobId ids) (fun _ _ s' => Numbered s') l s := by
  unfold finishBatch Phase
  rw [wp_bind]
  have hmark : Reads (fun o => unwatched o = true) (markVerifying jobId ids : JobM LaneLocals Unit) :=
    only_bind (only_perform rfl) fun _ => only_bind (only_perform rfl) fun _ => only_perform rfl
  refine phase_unwatched hmark h.numbered fun _ s₁ hm₁ _ hn₁ => ?_
  rw [wp_bind, wp_locals, wp_bind]
  have hbeat : Reads (fun o => unwatched o = true) (heartbeat scheduler l.handles : JobM LaneLocals Unit) := only_perform rfl
  refine phase_unwatched hbeat hn₁ fun _ s₂ hm₂ _ hn₂ => ?_
  rw [wp_bind]
  have hverify : Looks verifyHandles := only_bind only_locals fun l => only_forEach looks_verifyHandle l.handles
  refine phase_looks hverify hn₂ fun _ s₃ hm₃ _ hn₃ => ?_
  have hm : s₃.2 = s.2 := hm₃.trans (hm₂.trans hm₁)
  have h₃ := h.of_same hm hn₃
  rw [wp_bind]
  refine wp_mono (phase_cleanUnmountAndUnload jobId h₃ (hm ▸ hv)) ?_ (fun _ _ _ h => h)
  intro _ l' s' h'
  obtain ⟨hn, hg, hst⟩ := h'
  exact phase_commitStaged jobId ids hn hg (by rw [hst]; exact h₃.ids)

/-! ### What never archives -/

/-- A procedure that archives nothing. -/
abbrev Spares {L α : Type} (m : JobM L α) : Prop := Calls (fun o => o.archives = false) m

theorem archives_of_isRead {o : Op} (h : o.isRead = true) : o.archives = false := by
  cases o <;> rename_i o <;> cases o <;> first | rfl | cases h

theorem spares_of_plumbing {m : JobM LaneLocals α} (h : Plumbing m) : Spares m := by
  refine h.calls fun o ho => ?_
  cases o <;> rename_i o <;> cases o <;> first | rfl | cases ho

/-! ### Batches -/

/-- A batch starts with new books and with leases on different cartridges. -/
theorem phase_acquireDrives (scheduler : DriveScheduler) (barcodes : List Barcode) (hs : Numbered s) :
    Phase sha256 (acquireDrives scheduler barcodes)
      (fun handles l' s' => l' = l ∧ Granted handles ∧ Numbered s' ∧ Unstaged s'.2 ∧ s'.2.mounted = [] ∧ s'.2.loaded = [])
      l s := by
  have hlook : Stable (watched sha256) gateContract (fun o => o.isRead = true) Numbered :=
    fun o ho => stable_numbered sha256 o (archives_of_isRead ho)
  refine wp_mono (wp_acquireDrives (J := Numbered) (E := fun _ _ s' => Numbered s')
    (Q := fun leases s' => (barcodes.Nodup → Granted (leases.map DriveHandle.ofLease)) ∧ Numbered s' ∧ Unstaged s'.2 ∧
      s'.2.mounted = [] ∧ s'.2.loaded = [])
    hlook (learns_nothing hlook) hs (fun _ _ h => h) fun pending s' _ hs' => ?_) ?_ (fun _ _ _ h => h)
  · refine phase_call rfl hs' fun c leases hans _ hn => ⟨rfl, ?_⟩
    cases leases with
    | none => exact hn
    | some leases => exact ⟨fun hb => (World.exec_acquire_some sha256 hans).handles hb, hn, ⟨rfl, rfl, rfl, rfl⟩, rfl, rfl⟩
  · intro handles l' s' h
    obtain ⟨hl, hb, leases, rfl, hgranted, hrest⟩ := h
    exact ⟨hl, hgranted hb, hrest⟩

/-- The body of a batch, once it has its leases. -/
theorem phase_stripeBody {l : LaneLocals} (request : ShardedArchiveRequest) (scheduler : DriveScheduler) (vgId : Nat)
    (jobId : JobId) (batch : List (SourceFile × Barcode)) (hg : Granted l.handles) (hn : Numbered s) (hu : Unstaged s.2)
    (hmounted : s.2.mounted = []) (hloaded : s.2.loaded = []) (hmounts : l.mounts = []) :
    Phase sha256 (stripeBody sha256 request scheduler vgId jobId batch) (fun _ _ s' => Numbered s') l s := by
  unfold stripeBody Phase
  rw [wp_bind]
  refine wp_mono (phase_loadAndMount jobId .readWrite hg hn hu hmounted hloaded hmounts) ?_ (fun _ _ _ h => h)
  intro _ l₁ s₁ h₁
  rw [wp_bind]
  refine wp_mono (phase_stageAll (stagesOne_stripe request vgId jobId) batch h₁) ?_ (fun _ _ _ h => h)
  intro staged l₂ s₂ h₂
  rw [wp_bind]
  have hverify : Looks verifyHandles := only_bind only_locals fun l => only_forEach looks_verifyHandle l.handles
  refine phase_looks hverify h₂.numbered fun _ s₃ hm₃ _ hn₃ => ?_
  rw [wp_bind]
  refine wp_mono (phase_writeLanes (h₂.of_same hm₃ hn₃)) ?_ (fun _ _ _ h => h)
  intro _ l₄ s₄ h₄
  rw [wp_bind]
  refine wp_mono (phase_finishBatch scheduler jobId h₄.1 h₄.2) ?_ (fun _ _ _ h => h)
  exact fun _ _ _ h => h

theorem phase_blockStripeBody {l : LaneLocals} (request : ShardedArchiveRequest) (scheduler : DriveScheduler) (vgId : Nat)
    (jobId : JobId) (plan : ShardPlan) (hg : Granted l.handles) (hn : Numbered s) (hu : Unstaged s.2)
    (hmounted : s.2.mounted = []) (hloaded : s.2.loaded = []) (hmounts : l.mounts = []) :
    Phase sha256 (blockStripeBody sha256 request scheduler vgId jobId plan) (fun _ _ s' => Numbered s') l s := by
  unfold blockStripeBody Phase
  rw [wp_bind]
  refine wp_mono (phase_loadAndMount jobId .readWrite hg hn hu hmounted hloaded hmounts) ?_ (fun _ _ _ h => h)
  intro _ l₁ s₁ h₁
  have hextract : Looks (inLanes pick [()] (extractShard request plan) plan.shards) :=
    only_inLanes (fun n => (only_perform rfl : Looks (pick n)))
      (fun _ spec => only_bind (looks_writeShardToTempfile _ _ _ _) fun _ => only_pure ()) _
  rw [wp_bind]
  refine phase_looks hextract h₁.numbered fun _ s₂ hm₂ _ hn₂ => ?_
  rw [wp_bind]
  refine phase_looks (only_perform rfl) hn₂ fun _ s₃ hm₃ _ hn₃ => ?_
  rw [wp_bind]
  refine phase_unwatched (only_perform rfl) hn₃ fun record s₄ hm₄ _ hn₄ => ?_
  have h₄ := h₁.of_same (hm₄.trans (hm₃.trans hm₂)) hn₄
  rw [wp_bind]
  refine wp_mono (phase_stageAll (stagesOne_shard request vgId jobId plan record.id) _ h₄) ?_ (fun _ _ _ h => h)
  intro staged l₅ s₅ h₅
  rw [wp_bind]
  have hverify : Looks verifyHandles := only_bind only_locals fun l => only_forEach looks_verifyHandle l.handles
  refine phase_looks hverify h₅.numbered fun _ s₆ hm₆ _ hn₆ => ?_
  rw [wp_bind]
  refine wp_mono (phase_writeLanes (h₅.of_same hm₆ hn₆)) ?_ (fun _ _ _ h => h)
  exact fun _ l₇ s₇ h₇ => phase_finishBatch scheduler jobId h₇.1 h₇.2

/-- A procedure that keeps to the gate wherever it starts. -/
abbrev KeepsGate (sha256 : Bytes → String) {L α : Type} (m : JobM L α) : Prop :=
  Keeps (watched sha256) gateContract (fun _ => Numbered) m

theorem keepsGate_of_spares {m : JobM L α} (hm : Spares m) : KeepsGate sha256 m := fun _ _ hs => phase_spares hm hs

/-- A batch under leases: whatever its body does, nothing is archived afterwards. -/
theorem keepsGate_ensure {body : JobM LaneLocals Unit} {catch_ : Exn → JobM LaneLocals Unit}
    {finally_ : Option Exn → JobM LaneLocals Unit} {l : LaneLocals}
    (hbody : Phase sha256 body (fun _ _ s' => Numbered s') l s) (hcatch : ∀ e, Spares (catch_ e))
    (hfinally : ∀ e, Spares (finally_ e)) : Phase sha256 (ensure (handle body catch_) finally_) (fun _ _ s' => Numbered s') l s := by
  unfold Phase
  rw [wp_ensure, wp_handle]
  refine wp_mono hbody ?_ ?_
  · exact fun _ l' s' h => phase_spares (hfinally none) h
  · intro e l' s' h
    refine wp_mono (phase_spares (hcatch e) h) ?_ ?_
    · exact fun _ l'' s'' h => phase_spares (hfinally none) h
    · exact fun e' l'' s'' h => phase_spares (hfinally (some e')) h

theorem keepsGate_stripeBatch (request : ShardedArchiveRequest) (scheduler : DriveScheduler) (vgId : Nat) (jobId : JobId)
    (batch : List (SourceFile × Barcode)) : KeepsGate sha256 (stripeBatch sha256 request scheduler vgId jobId batch) := by
  intro l s hs
  unfold stripeBatch
  simp only
  rw [wp_bind]
  refine wp_mono (phase_acquireDrives scheduler _ hs) ?_ (fun _ _ _ h => h)
  intro handles l₁ s₁ h₁
  obtain ⟨rfl, hg, hn₁, hu, hmounted, hloaded⟩ := h₁
  rw [wp_bind]
  refine phase_unwatched (only_perform rfl) hn₁ fun _ s₂ hm₂ _ hn₂ => ?_
  rw [wp_bind, wp_assign]
  refine keepsGate_ensure ?_ (fun exc => spares_of_plumbing (plumbing_stripeExcept jobId _ exc))
    fun original => spares_of_plumbing (plumbing_stripeFinally jobId original)
  exact phase_stripeBody request scheduler vgId jobId batch hg hn₂ (hm₂ ▸ hu) (hm₂ ▸ hmounted) (hm₂ ▸ hloaded) rfl

theorem keepsGate_archiveBlockStripe (request : ShardedArchiveRequest) (scheduler : DriveScheduler) (vgId : Nat) (jobId : JobId)
    (file : SourceFile) : KeepsGate sha256 (archiveBlockStripe sha256 request scheduler vgId jobId file) := by
  intro l s hs
  unfold archiveBlockStripe
  rw [wp_bind]
  refine phase_looks (looks_planBlockStripe _ _ _ _ _) hs fun plan s₁ hm₁ _ hn₁ => ?_
  rw [wp_bind, wp_assign, wp_bind]
  refine wp_mono (phase_acquireDrives scheduler _ hn₁) ?_ (fun _ _ _ h => h)
  intro handles l₂ s₂ h₂
  obtain ⟨rfl, hg, hn₂, hu, hmounted, hloaded⟩ := h₂
  rw [wp_bind]
  refine phase_unwatched (only_perform rfl) hn₂ fun _ s₃ hm₃ _ hn₃ => ?_
  rw [wp_bind, wp_assign, wp_bind]
  refine phase_looks (only_perform rfl) hn₃ fun _ s₄ hm₄ _ hn₄ => ?_
  have hm : s₄.2 = s₂.2 := hm₄.trans hm₃
  refine keepsGate_ensure ?_ (fun exc => spares_of_plumbing (plumbing_blockStripeExcept jobId _ exc))
    fun original => spares_of_plumbing (plumbing_blockStripeFinally jobId original)
  exact phase_blockStripeBody request scheduler vgId jobId plan hg hn₄ (hm ▸ hu) (hm ▸ hmounted) (hm ▸ hloaded) rfl

/-- The whole job keeps to the gate. -/
theorem keepsGate_runShardedArchive (request : ShardedArchiveRequest) (scheduler : DriveScheduler) (jobId : JobId) :
    KeepsGate sha256 (runShardedArchive sha256 request scheduler jobId) := by
  have hcall : ∀ {α : Type} {m : JobM LaneLocals α}, Spares m → KeepsGate sha256 m := fun h => keepsGate_of_spares h
  refine keeps_bind (hcall (only_perform rfl)) fun _ => keeps_ite (fun _ => ?_) fun _ => ?_
  · have hsize : ∀ file, Spares (sourceSize file : JobM LaneLocals Nat) :=
      fun file => (looks_sourceSize file).calls fun _ h => archives_of_isRead h
    exact keeps_bind (hcall (only_mapEach hsize _)) fun _ => keeps_bind (hcall (only_perform rfl)) fun _ => keeps_pure _
  have hgroup : Spares (ensureVolumeGroup request.volumeGroupName : JobM LaneLocals VolumeGroup) := by
    refine only_bind (only_perform rfl) fun group => ?_
    cases group with
    | some group => exact only_pure group
    | none => exact only_perform rfl
  have hcartridge : ∀ vgId barcode, Spares (ensureCartridge vgId barcode : JobM LaneLocals Unit) := by
    intro vgId barcode
    refine only_bind (only_perform rfl) fun cartridge => ?_
    cases cartridge with
    | some cartridge => exact only_pure ()
    | none => exact only_bind (only_perform rfl) fun _ => only_pure ()
  refine keeps_bind (hcall hgroup) fun group => keeps_bind (hcall (only_forEach (hcartridge _) _)) fun _ => ?_
  refine keeps_bind (hcall (only_perform rfl)) fun _ => ?_
  have hend : KeepsGate sha256 (do
      let l ← locals
      updateJobState jobId (if l.errors = [] then "completed" else "failed_recoverable") (summarizeErrors l.errors)
      pure
        { jobId := jobId, filesArchived := l.filesArchived, bytesArchived := l.bytesArchived
          tapesUsed := request.laneBarcodes, shardGroupIds := l.shardGroupIds, errors := l.errors } :
        JobM LaneLocals ShardedArchiveResult) :=
    keeps_bind keeps_locals fun l => keeps_bind (hcall (only_perform rfl)) fun _ => keeps_pure _
  refine keeps_ite (fun _ => keeps_bind (keeps_forEach fun file _ => ?_) fun _ => hend) fun _ => keeps_bind ?_ fun _ => hend
  · refine keeps_handle ?_ fun exc => hcall (only_assign fun _ => trivial)
    refine keeps_bind (keepsGate_archiveBlockStripe request scheduler _ jobId file) fun _ => ?_
    exact keeps_bind (hcall ((looks_sourceSize file).calls fun _ h => archives_of_isRead h)) fun _ =>
      hcall (only_assign fun _ => trivial)
  · refine keeps_ite (fun _ => keeps_raise _) fun _ => keeps_forEach fun batch _ => ?_
    exact keepsGate_stripeBatch request scheduler _ jobId batch

end CommitGateAux

open CommitGateAux in
/-- The commit gate: in every run of a sharded archive, finished or cut anywhere, and whatever the backends answer, as long as
no unmount and no unload of a batch that has not failed answers `success = False`, every step that archives an instance archives
all that its batch has staged and nothing else, after everything of the batch was written, read back, unmounted and unloaded. -/
theorem runShardedArchive_commits_through_gate (sha256 : Bytes → String) (request : ShardedArchiveRequest)
    (scheduler : DriveScheduler) (jobId : JobId) (w : World) (cs : List Choice)
    (h : ∀ st ∈ (watched sha256).trace cs (runShardedArchive sha256 request scheduler jobId {}) (w, {}), FailuresRaise st) :
    ∀ st ∈ (watched sha256).trace cs (runShardedArchive sha256 request scheduler jobId {}) (w, {}), CommitsThroughGate st := by
  have hstart : Numbered (w, {}) := ⟨by simp, by simp⟩
  exact (run_of_wp (keepsGate_runShardedArchive request scheduler jobId {} (w, {}) hstart) cs h).1

namespace SilentUnmount

/-- A checksum that shows the bytes themselves. -/
def plainSum (bytes : Bytes) : String := String.ofList (bytes.map fun byte => Char.ofNat byte.toNat)

/-- One file for one lane. -/
def request : ShardedArchiveRequest :=
  { sourcePath := "/src", files := [{ path := "/src/a", content := [1, 2, 3] }], volumeGroupName := "vg", laneBarcodes := ["T1"] }

def scheduler : DriveScheduler := { numDrives := 1, jobId := "J" }

/-- The lane's tape is already in the drive. -/
def world : World :=
  { catalog := { jobs := [{ id := "J" }] }
    library := { slots := [(1, none)], drives := [(0, { barcode := some "T1" })] } }

/-- All goes well, but the unmount, the call of number 43, answers `success = False`. -/
def choices : List Choice := List.replicate 43 ({} : Choice) ++ [{ refuses := true }] ++ List.replicate 5 ({} : Choice)

end SilentUnmount

open SilentUnmount in
/-- The gate is real: a run in which all goes well archives through it. -/
theorem runShardedArchive_commits_through_gate_one_file :
    (∃ st ∈ (watched plainSum).trace (List.replicate 49 ({} : Choice)) (runShardedArchive plainSum SilentUnmount.request scheduler "J" {})
        (world, {}), st.post.1.catalog.Archived 2 ∧ ¬st.pre.1.catalog.Archived 2) ∧
    ∀ st ∈ (watched plainSum).trace (List.replicate 49 ({} : Choice)) (runShardedArchive plainSum SilentUnmount.request scheduler "J" {})
        (world, {}), CommitsThroughGate st :=
  ⟨by decide +kernel, runShardedArchive_commits_through_gate plainSum SilentUnmount.request scheduler "J" world _ (by decide +kernel)⟩

open SilentUnmount in
/-- A tape that answers its unmount with `success = False` is committed while it is mounted. -/
theorem silent_unmount_commits :
    ¬∀ (sha256 : Bytes → String) (request : ShardedArchiveRequest) (scheduler : DriveScheduler) (jobId : JobId) (w : World)
      (cs : List Choice), ∀ st ∈ (watched sha256).trace cs (runShardedArchive sha256 request scheduler jobId {}) (w, {}),
        CommitsThroughGate st := by
  intro h
  have hcommit : ∃ st ∈ (watched plainSum).trace choices (runShardedArchive plainSum SilentUnmount.request scheduler "J" {}) (world, {}),
      st.post.1.catalog.Archived 2 ∧ ¬st.pre.1.catalog.Archived 2 ∧ ¬st.pre.2.GateOpen := by decide +kernel
  obtain ⟨st, hst, hpost, hpre, hclosed⟩ := hcommit
  exact hclosed (h plainSum SilentUnmount.request scheduler "J" world choices st hst 2 hpost hpre).1

end OpenBlade
