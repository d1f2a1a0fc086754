import OpenBlade.Effects.Raises
import OpenBlade.Hardware.Elements
import OpenBlade.Jobs.Archive
import OpenBlade.Nas.Ingest

/-!
# What a failed operation leaves in the drives

The archive job, a WRITE of the orchestrator and the ingest of an assignment load a cartridge themselves and put it back when they
fail later on. A monitor notes the cartridges that are loaded. As long as every unmount and unload succeeds, they are all back in their
slots when the operation has ended, unless it failed before a loaded cartridge was mounted, or lost its lease while one was in a drive.
-/

namespace OpenBlade

open Effects Proc Storage

/-- An operation that loads cartridges. -/
inductive LoadingOperation where
  | archive (request : ArchiveRequest) (scheduler : DriveScheduler) (jobId : JobId)
  /-- A request, as a WRITE. -/
  | write (request : TapeOpRequest) (raiseOnFailed : Bool)
  /-- An assignment of an ingest, with what the ingest has kept so far. -/
  | ingest (job : Ingest) (assignment : TapeAssignment) (kept : IngestLocals)

def LoadingOperation.run (sha256 : Bytes → String) : LoadingOperation → JobM Unit Unit
  | archive request scheduler jobId =>
    scope ({} : ArchiveLocals) do
      let _ ← runArchiveJob sha256 request scheduler jobId
      pure ()
  | write request raiseOnFailed => do
    let _ ← executeTapeRequest { request with opType := .write } raiseOnFailed
    pure ()
  | ingest job assignment kept => scope kept (job.writeAssignment assignment)

/-- What is noted of the cartridges an operation loads. -/
structure LoadMonitor where
  /-- The cartridges that were loaded, and the drives they were loaded into. -/
  loaded : List (Barcode × Int) := []
  /-- The cartridge loaded last has not been mounted yet. -/
  exposed : Bool := false
  /-- A lease was found gone while a loaded cartridge was in its drive. -/
  fenced : Bool := false
  /-- The UNLOAD request that has not reached the library yet. -/
  unloading : Option TapeOpRequest := none
  deriving Repr, DecidableEq

/-- The cartridge that has come into an empty drive. -/
def cameInto (driveId : Int) (before after : World) : Option Barcode :=
  match before.library.holds driveId, after.library.holds driveId with
  | none, some barcode => some barcode
  | _, _ => none

/-- A cartridge that was loaded is in its drive. -/
def LoadMonitor.holdsLoaded (mon : LoadMonitor) (w : World) : Bool :=
  mon.loaded.any fun entry => w.library.holds entry.2 = some entry.1

/-- What the monitor notes of a step. A load counts if it took effect, whatever was answered. -/
def LoadMonitor.watch (mon : LoadMonitor) : Step World Op (fun o => Except Exn o.Ans) → LoadMonitor
  | ⟨before, .library (.load _ driveId), _, after⟩ =>
    match cameInto driveId before after with
    | some barcode => { mon with loaded := mon.loaded ++ [(barcode, driveId)], exposed := true }
    | none => mon
  | ⟨_, .library (.unload _ _), _, _⟩ => { mon with unloading := none }
  | ⟨_, .ltfs (.mount _ _), .ok _, _⟩ => { mon with exposed := false }
  | ⟨before, .lease (.isLive _ _), .ok (live : Bool), _⟩ =>
    if live then mon else { mon with fenced := mon.fenced || mon.holdsLoaded before }
  | ⟨_, .catalog (.createTapeOp request), _, _⟩ =>
    { mon with unloading := if request.opType = .unload then some request else none }
  | _ => mon

/-- The machine of the jobs, with the loads noted. -/
def loadsNoted (sha256 : Bytes → String) : Machine (World × LoadMonitor) Op (fun o => Except Exn o.Ans) Choice :=
  (machine sha256).observed LoadMonitor.watch

/-- The drive of an UNLOAD request is empty already. -/
def hasNothingToUnload (w : World) (request : TapeOpRequest) : Bool := (w.library.holds (request.driveId.getD 0)).isNone

def answered {α : Type} : Except Exn α → Bool
  | .ok _ => true
  | .error _ => false

/-- A look at the leases that lets an UNLOAD request go on. -/
def letsGoOn (request : TapeOpRequest) : Except Exn (List DriveLease) → Bool
  | .ok leases => (leasedByAnotherJob leases (request.driveId.getD 0) request.jobId).isNone
  | .error _ => false

/-- The compensating step succeeds: an unmount of what is mounted, an unload of a drive that holds something, and all that an UNLOAD
request of such a drive does before it reaches the library. -/
def compensates : Step (World × LoadMonitor) Op (fun o => Except Exn o.Ans) → Bool
  | ⟨s, .ltfs (.unmount handle), answer, _⟩ => succeeded answer || handle ∉ s.1.ltfs.mounts
  | ⟨s, .library (.unload driveId _), answer, _⟩ => succeeded answer || (s.1.library.holds driveId).isNone
  | ⟨s, .catalog (.createTapeOp request), answer, _⟩ =>
    request.opType ≠ .unload || hasNothingToUnload s.1 request || answered answer
  | ⟨s, .catalog (.updateTapeOp _ _), answer, _⟩ =>
    s.2.unloading.all fun request => hasNothingToUnload s.1 request || answered answer
  | ⟨s, .lease .liveLeases, answer, _⟩ =>
    s.2.unloading.all fun request => hasNothingToUnload s.1 request || letsGoOn request answer
  | _ => true

/-- The cartridge is in a slot, in no drive, and not mounted. -/
structure Home (contents : Placement Element Barcode) (mounts : List MountHandle) (barcode : Barcode) : Prop where
  stored : ∃ slotId, contents (.slot slotId) = some barcode
  unloaded : ∀ driveId, contents (.drive driveId) ≠ some barcode
  unmounted : ∀ mount ∈ mounts, mount.barcode ≠ barcode

/-- Every cartridge that was loaded is home, and the drive it was loaded into is empty. -/
def AllPutBack (s : World × LoadMonitor) : Prop :=
  ∀ entry ∈ s.2.loaded, Home s.1.library.contents s.1.ltfs.mounts entry.1 ∧ s.1.library.contents (.drive entry.2) = none

namespace CompensationAux

/-- What the operations are judged by: where the cartridges are, what is mounted, and what was noted of the loads. -/
@[ext]
structure Scene where
  contents : Placement Element Barcode
  mounts : List MountHandle
  loaded : List (Barcode × Int)
  exposed : Bool
  fenced : Bool

def sceneOf (s : World × LoadMonitor) : Scene :=
  { contents := s.1.library.contents, mounts := s.1.ltfs.mounts, loaded := s.2.loaded, exposed := s.2.exposed, fenced := s.2.fenced }

namespace Scene

variable {v : Scene} {barcode : Barcode} {driveId : Int} {slot : Option Nat} {cur : Option (Barcode × Int)} {mountHandle : MountHandle}

/-- Every cartridge that was loaded is accounted for: one may be in the drive it was loaded into, the others are home, and their
drives are empty. -/
structure Accounted (v : Scene) (cur : Option (Barcode × Int)) : Prop where
  home : ∀ entry ∈ v.loaded, (∀ x ∈ cur, x.1 ≠ entry.1) → Home v.contents v.mounts entry.1
  empty : ∀ entry ∈ v.loaded, (∀ x ∈ cur, x.2 ≠ entry.2) → v.contents (.drive entry.2) = none
  current : ∀ x ∈ cur, x ∈ v.loaded ∧ v.contents (.drive x.2) = some x.1 ∧ ∀ d, v.contents (.drive d) = some x.1 → d = x.2

/-- Nothing was noted that leaves a cartridge in a drive. -/
def Clear (v : Scene) : Prop := v.exposed = false ∧ v.fenced = false

/-- No loaded cartridge is in a drive. -/
def Idle (v : Scene) : Prop := v.Clear ∧ v.Accounted none

/-- The operation may end here: no loaded cartridge is in a drive, or one is and it was noted why. -/
def Ended (v : Scene) : Prop := v.Idle ∨ ∃ x, v.Accounted (some x) ∧ ¬v.Clear

/-- Between the load and the mount; `slot` is the slot the cartridge was taken from, if it was not found in a drive. -/
def Between (v : Scene) (barcode : Barcode) (driveId : Int) (slot : Option Nat) : Prop :=
  v.Idle ∧ (slot = none ∨ ∀ d, v.contents (.drive d) ≠ some barcode) ∨
    slot.isSome = true ∧ v.Accounted (some (barcode, driveId)) ∧ v.exposed = true ∧ v.fenced = false

/-- The cartridge is to be put back: it is in the drive, and mounted by no other handles than those of `mounts`, or it has been put back,
or was not taken out. -/
def Held (v : Scene) (barcode : Barcode) (driveId : Int) (slot : Option Nat) (mounts : MountHandle → Prop) : Prop :=
  v.Clear ∧ (v.Accounted none ∧ (slot = none ∨ (barcode, driveId) ∈ v.loaded) ∨
    slot.isSome = true ∧ v.Accounted (some (barcode, driveId)) ∧ ∀ mount ∈ v.mounts, mount.barcode = barcode → mounts mount)

theorem Idle.ended (h : v.Idle) : v.Ended := .inl h

theorem Between.ended (h : v.Between barcode driveId slot) : v.Ended := by
  rcases h with ⟨h, -⟩ | ⟨-, h, he, -⟩
  · exact .inl h
  · refine .inr ⟨_, h, fun hc => ?_⟩
    rw [hc.1] at he
    cases he

theorem Held.mono {mounts mounts' : MountHandle → Prop} (h : v.Held barcode driveId slot mounts) (hm : ∀ m, mounts m → mounts' m) :
    v.Held barcode driveId slot mounts' :=
  ⟨h.1, h.2.imp_right fun ⟨hs, ha, hall⟩ => ⟨hs, ha, fun m hmem hb => hm m (hall m hmem hb)⟩⟩

/-- Where a cartridge was loaded that is not in its drive, nothing is in a drive. -/
theorem Accounted.of_empty (h : v.Accounted (some (barcode, driveId))) : v.contents (.drive driveId) = some barcode :=
  (h.current _ rfl).2.1

/-- A loaded cartridge is in its drive. -/
def holdsLoaded (v : Scene) : Bool := v.loaded.any fun entry => v.contents (.drive entry.2) = some entry.1

theorem Idle.not_holdsLoaded (h : v.Idle) : v.holdsLoaded = false := by
  refine List.any_eq_false.2 fun entry he => ?_
  rw [h.2.empty entry he (by simp)]
  simp

/-- Finding the lease gone is noted, if a loaded cartridge is in its drive. -/
theorem Ended.stale (h : v.Idle ∨ ∃ x, v.Accounted (some x)) : Scene.Ended { v with fenced := v.fenced || v.holdsLoaded } := by
  rcases h with h | ⟨x, hx⟩
  · rw [h.not_holdsLoaded, Bool.or_false]
    exact .inl h
  · have hholds : v.holdsLoaded = true :=
      List.any_eq_true.2 ⟨x, (hx.current x rfl).1, decide_eq_true (hx.current x rfl).2.1⟩
    refine .inr ⟨x, ⟨hx.home, hx.empty, hx.current⟩, fun hc => ?_⟩
    have hfenced : (v.fenced || v.holdsLoaded) = false := hc.2
    rw [hholds, Bool.or_true] at hfenced
    cases hfenced

theorem Held.accounted {mounts : MountHandle → Prop} (h : v.Held barcode driveId slot mounts) :
    v.Idle ∨ ∃ x, v.Accounted (some x) := by
  rcases h with ⟨hc, ⟨ha, -⟩ | ⟨-, ha, -⟩⟩
  · exact .inl ⟨hc, ha⟩
  · exact .inr ⟨_, ha⟩

theorem Between.accounted (h : v.Between barcode driveId slot) : v.Idle ∨ ∃ x, v.Accounted (some x) :=
  h.imp And.left fun h => ⟨_, h.2.1⟩

/-! ### What a scene becomes -/

/-- A cartridge is loaded. -/
def load (v : Scene) (barcode : Barcode) (slotId : Nat) (driveId : Int) : Scene :=
  { v with
    contents := v.contents.transfer (.slot slotId) (.drive driveId), loaded := v.loaded ++ [(barcode, driveId)], exposed := true }

/-- A drive is unloaded. -/
def unload (v : Scene) (driveId : Int) (slotId : Nat) : Scene :=
  { v with contents := v.contents.transfer (.drive driveId) (.slot slotId) }

/-- A mount is added. -/
def addMount (v : Scene) (mountHandle : MountHandle) : Scene := { v with mounts := v.mounts ++ [mountHandle] }

/-- A mount ends. -/
def unmount (v : Scene) (mountHandle : MountHandle) : Scene :=
  { v with mounts := if mountHandle ∈ v.mounts then v.mounts.filter fun m => m.handleId ≠ mountHandle.handleId else v.mounts }

/-- Fewer mounts do no harm. -/
theorem Accounted.of_mounts {mounts : List MountHandle} (h : v.Accounted cur) (hm : ∀ m ∈ mounts, m ∈ v.mounts) :
    Scene.Accounted { v with mounts := mounts } cur :=
  ⟨fun entry he hc => ⟨(h.home entry he hc).stored, (h.home entry he hc).unloaded,
    fun m hmem => (h.home entry he hc).unmounted m (hm m hmem)⟩, h.empty, h.current⟩

/-- Nor does a mount of a cartridge that is in a drive. -/
theorem Accounted.addMount (h : v.Accounted cur) (hd : ∃ d, v.contents (.drive d) = some mountHandle.barcode) :
    (v.addMount mountHandle).Accounted cur := by
  refine ⟨fun entry he hc => ⟨(h.home entry he hc).stored, (h.home entry he hc).unloaded, fun m hmem => ?_⟩, h.empty, h.current⟩
  rcases List.mem_append.1 hmem with hmem | hmem
  · exact (h.home entry he hc).unmounted m hmem
  · obtain rfl := List.mem_singleton.1 hmem
    obtain ⟨d, hd⟩ := hd
    exact fun hb => (h.home entry he hc).unloaded d (hb ▸ hd)

/-- What is noted does not change where the cartridges are. -/
theorem Accounted.of_flags {exposed fenced : Bool} (h : v.Accounted cur) :
    Scene.Accounted { v with exposed := exposed, fenced := fenced } cur := ⟨h.home, h.empty, h.current⟩

theorem mem_unmount {m : MountHandle} (hm : m ∈ (v.unmount mountHandle).mounts) : m ∈ v.mounts := by
  unfold unmount at hm
  split at hm
  · exact List.mem_of_mem_filter hm
  · exact hm

/-- Loading takes the cartridge of the slot, which was in no drive, to the drive. -/
theorem Accounted.load {slotId : Nat} (h : v.Accounted none) (hslot : v.contents (.slot slotId) = some barcode)
    (hnone : ∀ d, v.contents (.drive d) ≠ some barcode) :
    (v.load barcode slotId driveId).Accounted (some (barcode, driveId)) := by
  have hkeep : ∀ x, x ≠ .drive driveId → x ≠ .slot slotId → (v.load barcode slotId driveId).contents x = v.contents x := by
    intro x hd hs
    exact (Placement.transfer_apply x).trans ((if_neg hd).trans (if_neg hs))
  have hto : (v.load barcode slotId driveId).contents (.drive driveId) = some barcode :=
    (Placement.transfer_apply _).trans ((if_pos rfl).trans hslot)
  have hother : ∀ d, d ≠ driveId → (v.load barcode slotId driveId).contents (.drive d) = v.contents (.drive d) :=
    fun d hd => hkeep _ (fun h => hd (Element.drive.inj h)) (by simp)
  have hold : ∀ entry ∈ (v.load barcode slotId driveId).loaded, entry ∈ v.loaded ∨ entry = (barcode, driveId) := by
    intro entry he
    exact (List.mem_append.1 he).imp_right List.mem_singleton.1
  refine ⟨fun entry he hc => ?_, fun entry he hc => ?_, ?_⟩
  · rcases hold entry he with he | rfl
    · obtain ⟨⟨j, hj⟩, hu, hm⟩ := h.home entry he (by simp)
      have hb : barcode ≠ entry.1 := hc _ rfl
      refine ⟨⟨j, ?_⟩, fun d hd => ?_, hm⟩
      · rw [hkeep _ (by simp) fun hjs => ?_]
        · exact hj
        · rw [Element.slot.inj hjs, hslot] at hj
          exact hb (Option.some.inj hj)
      · by_cases hdd : d = driveId
        · rw [hdd, hto] at hd
          exact hb (Option.some.inj hd)
        · rw [hother d hdd] at hd
          exact hu d hd
    · exact absurd rfl (hc _ rfl)
  · rcases hold entry he with he | rfl
    · have hd : driveId ≠ entry.2 := hc _ rfl
      rw [hother _ hd.symm]
      exact h.empty entry he (by simp)
    · exact absurd rfl (hc _ rfl)
  · rintro x ⟨⟩
    refine ⟨List.mem_append_right _ (List.mem_singleton.2 rfl), hto, fun d hd => ?_⟩
    by_contra hdd
    rw [hother d hdd] at hd
    exact hnone d hd

/-- Unloading the cartridge, which is not mounted, into a free slot puts it back. -/
theorem Accounted.unload {slotId : Nat} (h : v.Accounted (some (barcode, driveId))) (hslot : v.contents (.slot slotId) = none)
    (hm : ∀ m ∈ v.mounts, m.barcode ≠ barcode) : (v.unload driveId slotId).Accounted none := by
  obtain ⟨-, hdrive, honly⟩ := h.current _ rfl
  have hkeep : ∀ x, x ≠ .slot slotId → x ≠ .drive driveId → (v.unload driveId slotId).contents x = v.contents x := by
    intro x hs hd
    exact (Placement.transfer_apply x).trans ((if_neg hs).trans (if_neg hd))
  have hto : (v.unload driveId slotId).contents (.slot slotId) = some barcode :=
    (Placement.transfer_apply _).trans ((if_pos rfl).trans hdrive)
  have hfrom : (v.unload driveId slotId).contents (.drive driveId) = none := by
    show v.contents.transfer (.drive driveId) (.slot slotId) (.drive driveId) = none
    rw [Placement.transfer_apply, if_neg (by simp), if_pos rfl]
  have hother : ∀ d, d ≠ driveId → (v.unload driveId slotId).contents (.drive d) = v.contents (.drive d) :=
    fun d hd => hkeep _ (by simp) fun h => hd (Element.drive.inj h)
  refine ⟨fun entry he _ => ?_, fun entry he _ => ?_, by simp⟩
  · by_cases hb : barcode = entry.1
    · subst hb
      refine ⟨⟨slotId, hto⟩, fun d hd => ?_, hm⟩
      by_cases hdd : d = driveId
      · rw [hdd, hfrom] at hd
        cases hd
      · rw [hother d hdd] at hd
        exact hdd (honly d hd)
    · obtain ⟨⟨j, hj⟩, hu, hmounts⟩ := h.home entry he (by rintro x ⟨⟩; exact hb)
      refine ⟨⟨j, ?_⟩, fun d hd => ?_, hmounts⟩
      · rw [hkeep _ (fun hjs => ?_) (by simp)]
        · exact hj
        · rw [Element.slot.inj hjs, hslot] at hj
          cases hj
      · by_cases hdd : d = driveId
        · rw [hdd, hfrom] at hd
          cases hd
        · rw [hother d hdd] at hd
          exact hu d hd
  · by_cases hd : entry.2 = driveId
    · rw [hd, hfrom]
    · rw [hother _ hd]
      exact h.empty entry he (by rintro x ⟨⟩; exact Ne.symm hd)

/-- An unmount ends the mount of the cartridge. -/
theorem Held.unmount (h : v.Held barcode driveId slot (· = mountHandle)) :
    (v.unmount mountHandle).Held barcode driveId slot fun _ => False := by
  obtain ⟨hc, h⟩ := h
  refine ⟨hc, ?_⟩
  rcases h with ⟨ha, hs⟩ | ⟨hs, ha, hm⟩
  · exact .inl ⟨ha.of_mounts fun _ => mem_unmount, hs⟩
  · refine .inr ⟨hs, ha.of_mounts fun _ => mem_unmount, fun m hmem hb => ?_⟩
    have heq : m = mountHandle := hm m (mem_unmount hmem) hb
    subst heq
    unfold Scene.unmount at hmem
    split at hmem
    · simpa using (List.mem_filter.1 hmem).2
    · rename_i hnot
      exact hnot hmem

/-- Once the drive of a cartridge that is not mounted is empty, or has been unloaded, no loaded cartridge is in a drive. -/
theorem Held.idle_of_empty {slotId : Nat} {mounts : MountHandle → Prop} (h : v.Held barcode driveId (some slotId) mounts)
    (hd : v.contents (.drive driveId) = none) : v.Idle ∧ (barcode, driveId) ∈ v.loaded := by
  obtain ⟨hc, h⟩ := h
  rcases h with ⟨ha, hs⟩ | ⟨-, ha, -⟩
  · exact ⟨⟨hc, ha⟩, hs.resolve_left (by simp)⟩
  · rw [ha.of_empty] at hd
    cases hd

theorem Held.idle_of_unload {slotId : Nat} (h : v.Held barcode driveId (some slotId) fun _ => False)
    (hd : v.contents (.drive driveId) ≠ none) (hslot : v.contents (.slot slotId) = none) :
    (v.unload driveId slotId).Idle ∧ (barcode, driveId) ∈ (v.unload driveId slotId).loaded := by
  obtain ⟨hc, h⟩ := h
  rcases h with ⟨ha, hs⟩ | ⟨-, ha, hm⟩
  · exact absurd (ha.empty _ (hs.resolve_left (by simp)) (by simp)) hd
  · exact ⟨⟨hc, ha.unload hslot fun m hmem hb => hm m hmem hb⟩, (ha.current _ rfl).1⟩

/-- What is not to be put back, or has been, is put back. -/
theorem Held.of_idle {mounts : MountHandle → Prop} (h : v.Idle) (hs : slot = none ∨ (barcode, driveId) ∈ v.loaded) :
    v.Held barcode driveId slot mounts := ⟨h.1, .inl ⟨h.2, hs⟩⟩

theorem Held.idle_of_none {mounts : MountHandle → Prop} (h : v.Held barcode driveId none mounts) : v.Idle := by
  obtain ⟨hc, ⟨ha, -⟩ | ⟨hs, -⟩⟩ := h
  · exact ⟨hc, ha⟩
  · cases hs

/-- A mount that is answered ends the exposure; its handle is the only one of the cartridge. -/
theorem Between.mounted (h : v.Between barcode driveId slot) (hb : mountHandle.barcode = barcode)
    (hd : ∃ d, v.contents (.drive d) = some barcode) (halone : ∀ m ∈ v.mounts, m.barcode ≠ barcode) :
    Scene.Held { v.addMount mountHandle with exposed := false } barcode driveId slot (· = mountHandle) := by
  have hd' : ∃ d, v.contents (.drive d) = some mountHandle.barcode := hb ▸ hd
  rcases h with ⟨⟨hc, ha⟩, hs⟩ | ⟨hs, ha, -, hf⟩
  · obtain ⟨d, hd⟩ := hd
    exact ⟨⟨rfl, hc.2⟩, .inl ⟨(ha.addMount hd').of_flags, .inl (hs.resolve_right fun hno => hno d hd)⟩⟩
  · refine ⟨⟨rfl, hf⟩, .inr ⟨hs, (ha.addMount hd').of_flags, fun m hm hmb => ?_⟩⟩
    rcases List.mem_append.1 hm with hm | hm
    · exact absurd hmb (halone m hm)
    · exact List.mem_singleton.1 hm

/-- A mount that raises may have taken effect. -/
theorem Between.ended_addMount (h : v.Between barcode driveId slot) (hd : ∃ d, v.contents (.drive d) = some mountHandle.barcode) :
    (v.addMount mountHandle).Ended := by
  rcases h with ⟨⟨hc, ha⟩, -⟩ | ⟨-, ha, he, -⟩
  · exact .inl ⟨hc, ha.addMount hd⟩
  · refine .inr ⟨_, ha.addMount hd, fun hc => ?_⟩
    have hexposed : v.exposed = false := hc.1
    rw [he] at hexposed
    cases hexposed

/-- A tape may be formatted before it is mounted: that ends mounts. -/
theorem Between.of_mounts {mounts : List MountHandle} (h : v.Between barcode driveId slot) (hm : ∀ m ∈ mounts, m ∈ v.mounts) :
    Scene.Between { v with mounts := mounts } barcode driveId slot := by
  rcases h with ⟨⟨hc, ha⟩, hs⟩ | ⟨hs, ha, he, hf⟩
  · exact .inl ⟨⟨hc, ha.of_mounts hm⟩, hs⟩
  · exact .inr ⟨hs, ha.of_mounts hm, he, hf⟩

theorem Idle.between_load {slotId : Nat} (h : v.Idle) (hslot : v.contents (.slot slotId) = some barcode)
    (hnone : ∀ d, v.contents (.drive d) ≠ some barcode) : (v.load barcode slotId driveId).Between barcode driveId (some slotId) :=
  .inr ⟨rfl, h.2.load hslot hnone, rfl, h.1.2⟩

end Scene

/-! ### What a call makes of a scene -/

/-- The terms of an operation whose compensating steps succeed. -/
abbrev compensating : Contract (World × LoadMonitor) Op (fun o => Except Exn o.Ans) :=
  .alone (fun st => compensates st = true) fun _ => True

variable (sha256 : Bytes → String) {L : Type} {l : L} {s : World × LoadMonitor} {v : Scene} {c : Choice} {barcode : Barcode}
  {driveId : Int} {slotId : Nat} {mountHandle : MountHandle}

@[simp] theorem loadsNoted_exec (s : World × LoadMonitor) (o : Op) (c : Choice) :
    (loadsNoted sha256).exec s o c =
      ((s.1.exec sha256 o c).1, (s.1.exec sha256 o c).2, s.2.watch ((machine sha256).step s.1 o c)) := rfl

/-- A call that spares the tapes leaves the scene as it is. -/
theorem scene_spares {o : Op} (h : World.sparesTapes o = true) : sceneOf ((loadsNoted sha256).exec s o c).2 = sceneOf s := by
  have ht := World.touchesLibrary_of_sparesTapes h
  have hlib := World.exec_library sha256 (w := s.1) (c := c) ht
  have hm := World.exec_mounts sha256 (w := s.1) (c := c) ht
  refine Scene.ext (congrArg Library.contents hlib) hm ?_ ?_ ?_ <;> cases o <;> rename_i o <;> cases o <;> first | rfl | cases h

theorem stable_spares {J : Scene → Prop} :
    Stable (loadsNoted sha256) compensating (fun o => World.sparesTapes o = true) fun s => J (sceneOf s) := by
  intro o ho s s₁ c hs hr _
  have hs₁ : s = s₁ := hr
  subst hs₁
  have hscene := scene_spares sha256 (s := s) (c := c) ho
  exact ⟨trivial, show J (sceneOf _) from hscene ▸ hs⟩

/-- So does a procedure that makes only such calls. -/
theorem wp_spares {α : Type} {R : L → L → Prop} {m : JobM L α} (hm : Only (fun o => World.sparesTapes o = true) R m)
    (J : Scene → Prop) (hs : J (sceneOf s)) :
    wp (loadsNoted sha256) compensating m (fun _ l' s' => R l l' ∧ J (sceneOf s')) (fun _ l' s' => R l l' ∧ J (sceneOf s')) l s :=
  hm.keeps (stable_spares sha256) hs

/-- A lease that is not live is noted if a loaded cartridge is in its drive. -/
theorem scene_isLive (id token : Nat) :
    let step := (loadsNoted sha256).exec s (.lease (.isLive id token)) c
    step.1 ≠ .ok false ∧ sceneOf step.2 = sceneOf s ∨
      step.1 = .ok false ∧
        sceneOf step.2 = { sceneOf s with fenced := (sceneOf s).fenced || (sceneOf s).holdsLoaded } := by
  intro step
  have hlib := World.exec_library sha256 (w := s.1) (c := c) (o := .lease (.isLive id token)) rfl
  have hm := World.exec_mounts sha256 (w := s.1) (c := c) (o := .lease (.isLive id token)) rfl
  have hfirst : step.1 = (s.1.exec sha256 (.lease (.isLive id token)) c).1 := rfl
  have hwatch : step.2.2 = s.2.watch ((machine sha256).step s.1 (.lease (.isLive id token)) c) := rfl
  cases hans : (s.1.exec sha256 (.lease (.isLive id token)) c).1 with
  | error e =>
    refine .inl ⟨?_, Scene.ext (congrArg Library.contents hlib) hm ?_ ?_ ?_⟩
    · rw [hfirst, hans]
      intro h
      cases h
    all_goals simp [sceneOf, hwatch, LoadMonitor.watch, Machine.step, machine, hans]
  | ok live =>
    cases live with
    | true =>
      refine .inl ⟨?_, Scene.ext (congrArg Library.contents hlib) hm ?_ ?_ ?_⟩
      · rw [hfirst, hans]
        intro h
        cases h
      all_goals simp [sceneOf, hwatch, LoadMonitor.watch, Machine.step, machine, hans]
    | false =>
      refine .inr ⟨hans, Scene.ext (congrArg Library.contents hlib) hm ?_ ?_ ?_⟩
      · simp [sceneOf, hwatch, LoadMonitor.watch, Machine.step, machine, hans]
      · simp [sceneOf, hwatch, LoadMonitor.watch, Machine.step, machine, hans]
      · simp only [sceneOf, hwatch, LoadMonitor.watch, Machine.step, machine, hans]
        rfl

/-- A library call leaves the mounts alone. -/
theorem mounts_library (o : LibraryOp) : (s.1.exec sha256 (.library o) c).2.ltfs.mounts = s.1.ltfs.mounts :=
  World.exec_post sha256 (fun w => w.ltfs.mounts = s.1.ltfs.mounts) rfl rfl

/-- A load does nothing, or loads the cartridge of the slot; what counts is whether it took effect. -/
theorem scene_load (driveId : Int) (hslot : (sceneOf s).contents (.slot slotId) = some barcode) :
    let step := (loadsNoted sha256).exec s (.library (.load slotId driveId)) c
    sceneOf step.2 = sceneOf s ∨ sceneOf step.2 = (sceneOf s).load barcode slotId driveId := by
  intro step
  have hm := mounts_library sha256 (s := s) (c := c) (.load slotId driveId)
  have hwatch : step.2.2 = s.2.watch ((machine sha256).step s.1 (.library (.load slotId driveId)) c) := rfl
  have hroute := World.exec_route sha256 (w := s.1) (c := c) (o := .load slotId driveId) rfl
  rcases hroute with ⟨hsame, -⟩ | ⟨b, hcan, hto⟩
  · have hcame : cameInto driveId s.1 (s.1.exec sha256 (.library (.load slotId driveId)) c).2 = none := by
      have hd : (s.1.exec sha256 (.library (.load slotId driveId)) c).2.library.holds driveId = s.1.library.holds driveId :=
        congrFun hsame (.drive driveId)
      unfold cameInto
      rw [hd]
      cases s.1.library.holds driveId <;> rfl
    refine .inl (Scene.ext hsame hm ?_ ?_ ?_) <;>
      simp [sceneOf, hwatch, LoadMonitor.watch, Machine.step, machine, hcame]
  · have hb : b = barcode := Option.some.inj (hcan.source.symm.trans hslot)
    subst hb
    have hcame : cameInto driveId s.1 (s.1.exec sha256 (.library (.load slotId driveId)) c).2 = some b := by
      have hbefore : s.1.library.holds driveId = none := Library.contents_of_free hcan.free
      have hafter : (s.1.exec sha256 (.library (.load slotId driveId)) c).2.library.holds driveId = some b := by
        have hd := congrFun hto (.drive driveId)
        rw [Placement.transfer_apply, if_pos rfl, hcan.source] at hd
        exact hd
      unfold cameInto
      rw [hbefore, hafter]
    refine .inr (Scene.ext hto hm ?_ ?_ ?_) <;>
      simp [sceneOf, Scene.load, hwatch, LoadMonitor.watch, Machine.step, machine, hcame]

/-- An unload that compensates finds the drive empty, or answers and has unloaded it. -/
theorem scene_unload (ha : compensates ((loadsNoted sha256).step s (.library (.unload driveId slotId)) c) = true) :
    let step := (loadsNoted sha256).exec s (.library (.unload driveId slotId)) c
    (sceneOf s).contents (.drive driveId) = none ∧ sceneOf step.2 = sceneOf s ∨
      (∃ result, step.1 = .ok result ∧ result.success = true) ∧ (sceneOf s).contents (.drive driveId) ≠ none ∧
        (sceneOf s).contents (.slot slotId) = none ∧ sceneOf step.2 = (sceneOf s).unload driveId slotId := by
  intro step
  have hm := mounts_library sha256 (s := s) (c := c) (.unload driveId slotId)
  have hroute := World.exec_route sha256 (w := s.1) (c := c) (o := .unload driveId slotId) rfl
  have hstep : (succeeded (s.1.exec sha256 (.library (.unload driveId slotId)) c).1 ||
    (s.1.library.holds driveId).isNone) = true := ha
  rcases hroute with ⟨hsame, hsaid⟩ | ⟨b, hcan, hto⟩
  · have hsaid' : succeeded (s.1.exec sha256 (.library (.unload driveId slotId)) c).1 = false := hsaid
    rw [hsaid', Bool.false_or, Option.isNone_iff_eq_none] at hstep
    exact .inl ⟨hstep, Scene.ext hsame hm rfl rfl rfl⟩
  · have hholds : s.1.library.holds driveId = some b := hcan.source
    rw [hholds, Option.isNone_some, Bool.or_false] at hstep
    refine .inr ⟨?_, ?_, Library.contents_of_free hcan.free, Scene.ext hto hm rfl rfl rfl⟩
    · show ∃ result, (s.1.exec sha256 (.library (.unload driveId slotId)) c).1 = .ok result ∧ result.success = true
      cases hans : (s.1.exec sha256 (.library (.unload driveId slotId)) c).1 with
      | error e =>
        rw [hans] at hstep
        cases hstep
      | ok result =>
        rw [hans] at hstep
        exact ⟨result, rfl, hstep⟩
    · show s.1.library.holds driveId ≠ none
      rw [hholds]
      exact Option.some_ne_none b

/-- An unmount that compensates ends the mount, and it answers if there was one. -/
theorem scene_unmount (ha : compensates ((loadsNoted sha256).step s (.ltfs (.unmount mountHandle)) c) = true) :
    let step := (loadsNoted sha256).exec s (.ltfs (.unmount mountHandle)) c
    sceneOf step.2 = (sceneOf s).unmount mountHandle ∧ ∀ e, step.1 = .error e → mountHandle ∉ (sceneOf s).mounts := by
  intro step
  have hcontents := World.exec_contents sha256 (w := s.1) (c := c) (o := .ltfs (.unmount mountHandle)) nofun
  have hstep : (succeeded (s.1.exec sha256 (.ltfs (.unmount mountHandle)) c).1 || decide (mountHandle ∉ s.1.ltfs.mounts)) = true := ha
  by_cases hmem : mountHandle ∈ s.1.ltfs.mounts
  · simp only [hmem, not_true_eq_false, decide_false, Bool.or_false] at hstep
    cases hans : (s.1.exec sha256 (.ltfs (.unmount mountHandle)) c).1 with
    | error e =>
      rw [hans] at hstep
      cases hstep
    | ok result =>
      rw [hans] at hstep
      have hsuccess : result.success = true := hstep
      obtain ⟨hattempt, hpost⟩ := World.exec_ok sha256 hans
      have hrefused : (World.refused c "unmount failed" ((s.1.elapse c).ltfs, (s.1.elapse c).library)
          ((s.1.elapse c).ltfs.unmount (s.1.elapse c).library mountHandle c.dirty)).1 = .ok result := hattempt
      have hmounts : (s.1.exec sha256 (.ltfs (.unmount mountHandle)) c).2.ltfs.mounts =
          s.1.ltfs.mounts.filter fun m => m.handleId ≠ mountHandle.handleId := by
        rw [hpost]
        show (World.refused c "unmount failed" ((s.1.elapse c).ltfs, (s.1.elapse c).library)
          ((s.1.elapse c).ltfs.unmount (s.1.elapse c).library mountHandle c.dirty)).2.1.mounts = _
        unfold World.refused at hrefused ⊢
        split at hrefused
        · rw [← Except.ok.inj hrefused] at hsuccess
          cases hsuccess
        · rename_i hr
          rw [if_neg hr]
          unfold Ltfs.unmount
          rw [if_pos (show mountHandle ∈ (s.1.elapse c).ltfs.mounts from hmem)]
          rfl
      refine ⟨Scene.ext hcontents ?_ rfl rfl rfl, fun e he => ?_⟩
      · show (s.1.exec sha256 (.ltfs (.unmount mountHandle)) c).2.ltfs.mounts = ((sceneOf s).unmount mountHandle).mounts
        rw [hmounts]
        exact (if_pos hmem).symm
      · have he' : (s.1.exec sha256 (.ltfs (.unmount mountHandle)) c).1 = .error e := he
        rw [hans] at he'
        cases he'
  · have hmounts : (s.1.exec sha256 (.ltfs (.unmount mountHandle)) c).2.ltfs.mounts = s.1.ltfs.mounts := by
      refine World.exec_post sha256 (fun w => w.ltfs.mounts = s.1.ltfs.mounts) rfl ?_
      refine World.refused_post (fun x : Ltfs × Library => x.1.mounts = s.1.ltfs.mounts) rfl ?_
      unfold Ltfs.unmount
      rw [if_neg (show mountHandle ∉ (s.1.elapse c).ltfs.mounts from hmem)]
      rfl
    refine ⟨Scene.ext hcontents ?_ rfl rfl rfl, fun _ _ => hmem⟩
    show (s.1.exec sha256 (.ltfs (.unmount mountHandle)) c).2.ltfs.mounts = ((sceneOf s).unmount mountHandle).mounts
    rw [hmounts]
    exact (if_neg hmem).symm

/-- A mount does nothing but raise, or adds a mount of the cartridge, which is in a drive; it is the only one if it is read-write. -/
theorem scene_mount (barcode : Barcode) (mode : MountMode) :
    let step := (loadsNoted sha256).exec s (.ltfs (.mount barcode mode)) c
    (∃ e, step.1 = .error e ∧ sceneOf step.2 = sceneOf s) ∨
    ∃ added : MountHandle, added.barcode = barcode ∧ (∃ d, (sceneOf s).contents (.drive d) = some barcode) ∧
      (mode = .readWrite → ∀ m ∈ (sceneOf s).mounts, m.barcode ≠ barcode) ∧
      (step.1 = .ok added ∧ sceneOf step.2 = { (sceneOf s).addMount added with exposed := false } ∨
        ∃ e, step.1 = .error e ∧ sceneOf step.2 = (sceneOf s).addMount added) := by
  intro step
  have hcontents := World.exec_contents sha256 (w := s.1) (c := c) (o := .ltfs (.mount barcode mode)) nofun
  have hwatch : step.2.2 = s.2.watch ((machine sha256).step s.1 (.ltfs (.mount barcode mode)) c) := rfl
  have hattempt : (∃ e, (s.1.elapse c).attempt sha256 c (.ltfs (.mount barcode mode)) = (.error e, s.1.elapse c)) ∨
      ∃ w' : World, ∃ added : MountHandle, (s.1.elapse c).attempt sha256 c (.ltfs (.mount barcode mode)) = (.ok added, w') ∧
        added.barcode = barcode ∧ (∃ d, (sceneOf s).contents (.drive d) = some barcode) ∧
        (mode = .readWrite → ∀ m ∈ (sceneOf s).mounts, m.barcode ≠ barcode) ∧ w'.ltfs.mounts = s.1.ltfs.mounts ++ [added] := by
    rcases (s.1.elapse c).ltfs.mount_cases (s.1.elapse c).library barcode mode with ⟨e, he⟩ | ⟨d, lib', hfind, he, -⟩
    · refine .inl ⟨e, ?_⟩
      unfold World.attempt World.execLtfs
      simp only [he]
      rfl
    · refine .inr ⟨{ s.1.elapse c with
        ltfs := ((s.1.elapse c).ltfs.mount (s.1.elapse c).library barcode mode).2.1, library := lib' },
        { handleId := (s.1.elapse c).ltfs.nextHandle, barcode := barcode, driveId := d, mode := mode }, ?_, rfl,
        ⟨d, Library.holds_of_find hfind⟩, fun hmode m hm hb => ?_, ?_⟩
      · unfold World.attempt World.execLtfs
        simp only [he]
        rfl
      · subst hmode
        obtain ⟨e, herr⟩ := Ltfs.mount_beside (s.1.elapse c).ltfs (s.1.elapse c).library ⟨m, hm, hb⟩
        rw [he] at herr
        cases herr
      · simp only [he]
        rfl
  rcases World.exec_cases sha256 (w := s.1) (c := c) (.ltfs (.mount barcode mode)) with ⟨e, h⟩ | ⟨e, h⟩ | h
  · refine .inl ⟨e, congrArg Prod.fst h, Scene.ext hcontents (congrArg (fun x => x.2.ltfs.mounts) h) ?_ ?_ ?_⟩ <;>
      simp [sceneOf, hwatch, LoadMonitor.watch, Machine.step, machine, h]
  · rcases hattempt with ⟨e', ha⟩ | ⟨w', added, ha, hb, hd, halone, hm⟩
    · refine .inl ⟨e, congrArg Prod.fst h, Scene.ext hcontents ?_ ?_ ?_ ?_⟩
      · show (s.1.exec sha256 (.ltfs (.mount barcode mode)) c).2.ltfs.mounts = s.1.ltfs.mounts
        rw [h, ha]
        rfl
      all_goals simp [sceneOf, hwatch, LoadMonitor.watch, Machine.step, machine, h]
    · refine .inr ⟨added, hb, hd, halone, .inr ⟨e, congrArg Prod.fst h, Scene.ext hcontents ?_ ?_ ?_ ?_⟩⟩
      · show (s.1.exec sha256 (.ltfs (.mount barcode mode)) c).2.ltfs.mounts = s.1.ltfs.mounts ++ [added]
        rw [h, ha]
        exact hm
      all_goals simp [sceneOf, Scene.addMount, hwatch, LoadMonitor.watch, Machine.step, machine, h]
  · rcases hattempt with ⟨e', ha⟩ | ⟨w', added, ha, hb, hd, halone, hm⟩
    · refine .inl ⟨e', ?_, Scene.ext hcontents ?_ ?_ ?_ ?_⟩
      · show (s.1.exec sha256 (.ltfs (.mount barcode mode)) c).1 = .error e'
        rw [h, ha]
      · show (s.1.exec sha256 (.ltfs (.mount barcode mode)) c).2.ltfs.mounts = s.1.ltfs.mounts
        rw [h, ha]
        rfl
      all_goals simp [sceneOf, hwatch, LoadMonitor.watch, Machine.step, machine, h, ha]
    · refine .inr ⟨added, hb, hd, halone, .inl ⟨?_, Scene.ext hcontents ?_ ?_ ?_ ?_⟩⟩
      · show (s.1.exec sha256 (.ltfs (.mount barcode mode)) c).1 = .ok added
        rw [h, ha]
      · show (s.1.exec sha256 (.ltfs (.mount barcode mode)) c).2.ltfs.mounts = s.1.ltfs.mounts ++ [added]
        rw [h, ha]
        exact hm
      all_goals simp [sceneOf, Scene.addMount, hwatch, LoadMonitor.watch, Machine.step, machine, h, ha]

/-- A format ends mounts. -/
theorem scene_format (barcode : Barcode) (confirmation : FormatConfirmation) :
    let step := (loadsNoted sha256).exec s (.ltfs (.format barcode confirmation)) c
    ∃ mounts, (∀ m ∈ mounts, m ∈ (sceneOf s).mounts) ∧ sceneOf step.2 = { sceneOf s with mounts := mounts } := by
  intro step
  have hcontents := World.exec_contents sha256 (w := s.1) (c := c) (o := .ltfs (.format barcode confirmation)) nofun
  have hm : ∀ m ∈ (s.1.exec sha256 (.ltfs (.format barcode confirmation)) c).2.ltfs.mounts, m ∈ s.1.ltfs.mounts := by
    refine World.exec_post sha256 (fun w => ∀ m ∈ w.ltfs.mounts, m ∈ s.1.ltfs.mounts) (fun _ h => h) ?_
    unfold World.attempt World.execLtfs
    simp only
    split
    · exact fun _ h => h
    · refine World.refused_post (fun x : Ltfs × Library => ∀ m ∈ x.1.mounts, m ∈ s.1.ltfs.mounts) (fun _ h => h) ?_
      exact fun m h => List.mem_of_mem_filter h
  exact ⟨_, hm, Scene.ext hcontents rfl rfl rfl rfl⟩

/-! ### Loading, mounting and putting back -/

variable {slot : Option Nat}

/-- A search for the drive of a cartridge. -/
theorem wp_findDrive (hs : sceneOf s = v) :
    wp (loadsNoted sha256) compensating (findDriveByBarcode barcode : JobM L (Option Int))
      (fun found l' s' => l' = l ∧ sceneOf s' = v ∧ (found = none → ∀ d, v.contents (.drive d) ≠ some barcode))
      (fun _ l' s' => l' = l ∧ sceneOf s' = v) l s := by
  refine wp_call fun s₁ hr c _ => ?_
  have hs₁ : s = s₁ := hr
  subst hs₁
  have hscene := (scene_spares sha256 (s := s) (c := c) (o := .library (.findDriveByBarcode barcode)) rfl).trans hs
  refine ⟨trivial, fun found hans => ⟨rfl, hscene, fun hnone d => ?_⟩, fun e _ => ⟨rfl, hscene⟩⟩
  have hfind := World.exec_findDrive sha256 (w := s.1) hans
  rw [← hs]
  exact Library.holds_of_find_none (hfind.trans hnone) d

/-- A search for the slot of a cartridge. -/
theorem wp_findSlot (hs : sceneOf s = v) :
    wp (loadsNoted sha256) compensating (findSlotByBarcode barcode : JobM L (Option Nat))
      (fun found l' s' => l' = l ∧ sceneOf s' = v ∧ ∀ slotId : Nat, found = some slotId → v.contents (.slot slotId) = some barcode)
      (fun _ l' s' => l' = l ∧ sceneOf s' = v) l s := by
  refine wp_call fun s₁ hr c _ => ?_
  have hs₁ : s = s₁ := hr
  subst hs₁
  have hscene := (scene_spares sha256 (s := s) (c := c) (o := .library (.findSlotByBarcode barcode)) rfl).trans hs
  refine ⟨trivial, fun found hans => ⟨rfl, hscene, fun slotId hfound => ?_⟩, fun e _ => ⟨rfl, hscene⟩⟩
  have hfind := World.exec_findSlot sha256 (w := s.1) hans
  have hstores := Library.stores_of_findSlot (hfind.trans hfound)
  rw [← hs]
  show (s.1.library.slotEntry slotId).join = some barcode
  rw [Library.slotEntry_natCast]
  exact hstores

/-- A load of a cartridge that is in no drive. -/
theorem wp_loadTaken (hidle : (sceneOf s).Idle) (hslot : (sceneOf s).contents (.slot slotId) = some barcode)
    (hnone : ∀ d, (sceneOf s).contents (.drive d) ≠ some barcode) :
    wp (loadsNoted sha256) compensating (libraryLoad slotId driveId : JobM L OperationResult)
      (fun _ l' s' => l' = l ∧ (sceneOf s').Between barcode driveId (some slotId))
      (fun _ l' s' => l' = l ∧ (sceneOf s').Between barcode driveId (some slotId)) l s := by
  refine wp_call fun s₁ hr c _ => ?_
  have hs₁ : s = s₁ := hr
  subst hs₁
  have hbetween : (sceneOf ((loadsNoted sha256).exec s (.library (.load slotId driveId)) c).2).Between barcode driveId (some slotId) := by
    rcases scene_load sha256 (c := c) driveId hslot with h | h <;> rw [h]
    · exact .inl ⟨hidle, .inr hnone⟩
    · exact hidle.between_load hslot hnone
  exact ⟨trivial, fun _ _ => ⟨rfl, hbetween⟩, fun _ _ => ⟨rfl, hbetween⟩⟩

/-- The first mount of a cartridge that was loaded, or found in a drive. -/
theorem wp_mountTaken (h : (sceneOf s).Between barcode driveId slot) :
    wp (loadsNoted sha256) compensating (mount barcode .readWrite : JobM L MountHandle)
      (fun added l' s' => l' = l ∧ (sceneOf s').Held barcode driveId slot (· = added) ∧ added ∈ (sceneOf s').mounts)
      (fun _ l' s' => l' = l ∧ (sceneOf s').Ended) l s := by
  refine wp_call fun s₁ hr c _ => ?_
  have hs₁ : s = s₁ := hr
  subst hs₁
  rcases scene_mount sha256 (s := s) (c := c) barcode .readWrite with
    ⟨e, herr, hscene⟩ | ⟨added, hb, hd, halone, ⟨hok, hscene⟩ | ⟨e, herr, hscene⟩⟩
  · refine ⟨trivial, fun a hans => ?_, fun _ _ => ⟨rfl, hscene ▸ h.ended⟩⟩
    rw [herr] at hans
    cases hans
  · refine ⟨trivial, fun a hans => ?_, fun e hans => ?_⟩
    · rw [hok] at hans
      cases hans
      rw [hscene]
      exact ⟨rfl, h.mounted hb hd (halone rfl), List.mem_append_right _ (List.mem_singleton.2 rfl)⟩
    · rw [hok] at hans
      cases hans
  · refine ⟨trivial, fun a hans => ?_, fun _ _ => ⟨rfl, hscene ▸ h.ended_addMount (hb ▸ hd)⟩⟩
    rw [herr] at hans
    cases hans

/-- An unmount; it raises only if nothing was mounted under the handle. -/
theorem wp_unmountHeld (h : (sceneOf s).Held barcode driveId slot (· = mountHandle)) :
    wp (loadsNoted sha256) compensating (unmount mountHandle : JobM L OperationResult)
      (fun _ l' s' => l' = l ∧ (sceneOf s').Held barcode driveId slot fun _ => False)
      (fun _ l' s' => l' = l ∧ (sceneOf s').Held barcode driveId slot (fun _ => False) ∧ mountHandle ∉ (sceneOf s).mounts) l s := by
  refine wp_call fun s₁ hr c ha => ?_
  have hs₁ : s = s₁ := hr
  subst hs₁
  obtain ⟨hscene, herr⟩ := scene_unmount sha256 ha
  exact ⟨trivial, fun _ _ => ⟨rfl, hscene ▸ h.unmount⟩, fun e hans => ⟨rfl, hscene ▸ h.unmount, herr e hans⟩⟩

/-- An unload of a drive whose cartridge is to be put back. -/
theorem wp_unloadHeld (h : (sceneOf s).Held barcode driveId (some slotId) fun _ => False) :
    wp (loadsNoted sha256) compensating (libraryUnload driveId slotId : JobM L OperationResult)
      (fun _ l' s' => l' = l ∧ (sceneOf s').Idle ∧ (barcode, driveId) ∈ (sceneOf s').loaded)
      (fun _ l' s' => l' = l ∧ (sceneOf s').Idle ∧ (barcode, driveId) ∈ (sceneOf s').loaded) l s := by
  refine wp_call fun s₁ hr c ha => ?_
  have hs₁ : s = s₁ := hr
  subst hs₁
  have hidle : (sceneOf ((loadsNoted sha256).exec s (.library (.unload driveId slotId)) c).2).Idle ∧
      (barcode, driveId) ∈ (sceneOf ((loadsNoted sha256).exec s (.library (.unload driveId slotId)) c).2).loaded := by
    rcases scene_unload sha256 ha with ⟨hempty, hscene⟩ | ⟨-, hfull, hslot, hscene⟩ <;> rw [hscene]
    · exact h.idle_of_empty hempty
    · exact h.idle_of_unload hfull hslot
  exact ⟨trivial, fun _ _ => ⟨rfl, hidle⟩, fun _ _ => ⟨rfl, hidle⟩⟩

theorem wp_unloadIfLoaded (h : (sceneOf s).Held barcode driveId slot fun _ => False) :
    wp (loadsNoted sha256) compensating (unloadIfLoaded driveId slot : JobM L Unit)
      (fun _ l' s' => l' = l ∧ (sceneOf s').Idle) (fun _ l' s' => l' = l ∧ (sceneOf s').Idle) l s := by
  cases slot with
  | none => exact ⟨rfl, h.idle_of_none⟩
  | some slotId =>
    unfold unloadIfLoaded
    rw [wp_bind]
    refine wp_mono (wp_unloadHeld sha256 h) ?_ ?_
    · exact fun _ l' s' h => ⟨h.1, h.2.1⟩
    · exact fun _ l' s' h => ⟨h.1, h.2.1⟩

/-- What runs while the cartridge is mounted may fail anywhere: the cartridge is unmounted and put back. -/
theorem wp_ensureUnloaded {α : Type} {body : JobM L α} (hbody : Calls (fun o => World.sparesTapes o = true) body)
    (h : (sceneOf s).Held barcode driveId slot (· = mountHandle)) (hm : mountHandle ∈ (sceneOf s).mounts) :
    wp (loadsNoted sha256) compensating
      (ensure body fun _ => do
        let _ ← unmount mountHandle
        unloadIfLoaded driveId slot)
      (fun _ _ s' => (sceneOf s').Idle) (fun _ _ s' => (sceneOf s').Idle) l s := by
  have hfinally : ∀ l s, (sceneOf s).Held barcode driveId slot (· = mountHandle) ∧ mountHandle ∈ (sceneOf s).mounts →
      wp (loadsNoted sha256) compensating
        (do
          let _ ← unmount mountHandle
          unloadIfLoaded driveId slot : JobM L Unit)
        (fun _ _ s' => (sceneOf s').Idle) (fun _ _ s' => (sceneOf s').Idle) l s := by
    intro l s h
    rw [wp_bind]
    refine wp_mono (wp_unmountHeld sha256 h.1) ?_ ?_
    · intro _ l' s' h'
      exact wp_mono (wp_unloadIfLoaded sha256 h'.2) (fun _ _ _ h => h.2) (fun _ _ _ h => h.2)
    · exact fun _ l' s' h' => absurd h.2 h'.2.2
  rw [wp_ensure]
  refine wp_mono (wp_spares sha256 hbody (fun v => v.Held barcode driveId slot (· = mountHandle) ∧ mountHandle ∈ v.mounts) ⟨h, hm⟩) ?_ ?_
  · exact fun _ l' s' h => hfinally l' s' h.2
  · exact fun _ l' s' h => hfinally l' s' h.2

/-! ### The orchestrator and the ingest -/

/-- `_ensure_loaded` of the orchestrator. -/
theorem wp_orchestratorEnsureLoaded (drive : Option Int) (h : (sceneOf s).Idle) :
    wp (loadsNoted sha256) compensating (orchestratorEnsureLoaded barcode drive : JobM L (Int × Option Nat))
      (fun taken l' s' => l' = l ∧ (sceneOf s').Between barcode taken.1 taken.2) (fun _ l' s' => l' = l ∧ (sceneOf s').Ended) l s := by
  unfold orchestratorEnsureLoaded
  rw [wp_bind]
  refine wp_mono (wp_findDrive sha256 rfl) ?_ (fun _ l' s' h' => ⟨h'.1, h'.2 ▸ h.ended⟩)
  intro found l' s₁ h₁
  obtain ⟨rfl, hscene₁, hnone⟩ := h₁
  cases found with
  | some driveId => exact ⟨rfl, hscene₁ ▸ .inl ⟨h, .inl rfl⟩⟩
  | none =>
    rw [wp_bind]
    refine wp_mono (wp_findSlot sha256 hscene₁) ?_ (fun _ l' s' h' => ⟨h'.1, h'.2 ▸ h.ended⟩)
    intro found l' s₂ h₂
    obtain ⟨rfl, hscene₂, hslot⟩ := h₂
    cases found with
    | none => exact ⟨rfl, hscene₂ ▸ h.ended⟩
    | some slotId =>
      rw [wp_bind]
      refine wp_mono (wp_loadTaken sha256 (hscene₂ ▸ h) (hscene₂ ▸ hslot slotId rfl) (hscene₂ ▸ hnone rfl)) ?_ ?_
      · exact fun _ l' s' h => h
      · exact fun _ l' s' h => ⟨h.1, h.2.ended⟩

/-- `_load_if_needed` of the ingest. -/
theorem wp_ingestLoadIfNeeded (h : (sceneOf s).Idle) :
    wp (loadsNoted sha256) compensating (ingestLoadIfNeeded barcode : JobM L (Int × Option Nat))
      (fun taken l' s' => l' = l ∧ (sceneOf s').Between barcode taken.1 taken.2) (fun _ l' s' => l' = l ∧ (sceneOf s').Ended) l s := by
  unfold ingestLoadIfNeeded
  rw [wp_bind]
  refine wp_mono (wp_findDrive sha256 rfl) ?_ (fun _ l' s' h' => ⟨h'.1, h'.2 ▸ h.ended⟩)
  intro found l' s₁ h₁
  obtain ⟨rfl, hscene₁, hnone⟩ := h₁
  cases found with
  | some driveId => exact ⟨rfl, hscene₁ ▸ .inl ⟨h, .inl rfl⟩⟩
  | none =>
    rw [wp_bind]
    refine wp_mono (wp_findSlot sha256 hscene₁) ?_ (fun _ l' s' h' => ⟨h'.1, h'.2 ▸ h.ended⟩)
    intro found l' s₂ h₂
    obtain ⟨rfl, hscene₂, hslot⟩ := h₂
    cases found with
    | none => exact ⟨rfl, hscene₂ ▸ h.ended⟩
    | some slotId =>
      rw [wp_bind]
      have hinv : Reads (fun o => World.sparesTapes o = true) (inventory : JobM L LibraryInventory) := only_perform rfl
      refine wp_mono (wp_spares sha256 hinv (· = sceneOf s) hscene₂) ?_ (fun _ l' s' h' => ⟨h'.1.symm, h'.2 ▸ h.ended⟩)
      intro inv l' s₃ h₃
      obtain ⟨rfl, hscene₃⟩ := h₃
      cases inv.firstEmptyDrive with
      | none => exact ⟨rfl, hscene₃ ▸ h.ended⟩
      | some driveId =>
        rw [wp_bind]
        refine wp_mono (wp_loadTaken sha256 (hscene₃ ▸ h) (hscene₃ ▸ hslot slotId rfl) (hscene₃ ▸ hnone rfl)) ?_ ?_
        · exact fun _ l' s' h => h
        · exact fun _ l' s' h => ⟨h.1, h.2.ended⟩

/-- `_write` leaves nothing in a drive once it has mounted the cartridge. -/
theorem wp_orchestratorWrite (request : TapeOpRequest) (h : (sceneOf s).Idle) :
    wp (loadsNoted sha256) compensating (orchestratorWrite request : JobM L JsonObject)
      (fun _ _ s' => (sceneOf s').Idle) (fun _ _ s' => (sceneOf s').Ended) l s := by
  unfold orchestratorWrite
  rw [wp_bind]
  refine wp_mono (wp_orchestratorEnsureLoaded sha256 request.driveId h) ?_ (fun _ _ _ h => h.2)
  intro taken l' s₁ h₁
  rw [wp_bind]
  refine wp_mono (wp_mountTaken sha256 h₁.2) ?_ (fun _ _ _ h => h.2)
  intro mountHandle l' s₂ h₂
  refine wp_mono (wp_ensureUnloaded sha256 ?_ h₂.2.1 h₂.2.2) (fun _ _ _ h => h) (fun _ _ _ h => h.ended)
  exact only_bind (only_perform rfl) fun _ => only_bind (only_perform rfl) fun _ => only_pure _

/-- A WRITE request. -/
theorem wp_writeRequest (request : TapeOpRequest) (raiseOnFailed : Bool) (hop : request.opType = .write) (h : (sceneOf s).Idle) :
    wp (loadsNoted sha256) compensating (executeTapeRequest request raiseOnFailed : JobM L TapeOpRecord)
      (fun _ _ s' => (sceneOf s').Ended) (fun _ _ s' => (sceneOf s').Ended) l s := by
  have hrows : ∀ {J : Scene → Prop},
      Stable (loadsNoted sha256) compensating (fun o => o.isRowOf request = true) fun s => J (sceneOf s) := by
    intro J o ho
    refine stable_spares sha256 o ?_
    cases o <;> rename_i o <;> cases o <;> first | rfl | cases ho
  have hmove : request.opType ≠ .move := by
    rw [hop]
    nofun
  have hdispatch : ∀ s, (sceneOf s).Idle → wp (loadsNoted sha256) compensating (dispatch request : JobM L JsonObject)
      (fun _ l' s' => l' = l ∧ (sceneOf s').Ended) (fun _ l' s' => l' = l ∧ (sceneOf s').Ended) l s := by
    intro s h
    have hreads : Reads (fun o => o.ofOrchestrator = true) (dispatch request : JobM L JsonObject) := by
      unfold dispatch
      rw [hop]
      exact only_bind (reads_resolveDriveForWrite (fun _ => rfl) request) fun _ => reads_orchestratorWrite request
    have hwrite : wp (loadsNoted sha256) compensating (dispatch request : JobM L JsonObject)
        (fun _ _ s' => (sceneOf s').Ended) (fun _ _ s' => (sceneOf s').Ended) l s := by
      unfold dispatch
      rw [hop, wp_bind]
      have hresolve : Reads (fun o => World.sparesTapes o = true) (resolveDriveForWrite request : JobM L Int) := by
        unfold resolveDriveForWrite
        cases request.driveId with
        | some d => exact only_pure d
        | none => exact only_bind (only_perform rfl) fun _ => only_pure _
      refine wp_mono (wp_spares sha256 hresolve Scene.Idle h) ?_ (fun _ _ _ h => h.2.ended)
      intro _ l' s' h'
      exact wp_mono (wp_orchestratorWrite sha256 request h'.2) (fun _ _ _ h => h.ended) (fun _ _ _ h => h)
    exact wp_mono (hreads.wp_and hwrite) (fun _ _ _ h => ⟨h.1.symm, h.2⟩) (fun _ _ _ h => ⟨h.1.symm, h.2⟩)
  refine wp_mono (wp_executeTapeRequest_ends (I := fun s => (sceneOf s).Idle) (J := fun s => (sceneOf s).Ended) raiseOnFailed hmove
    hrows hrows h hdispatch) ?_ ?_
  · exact fun _ _ _ h => h.2
  · exact fun _ _ _ h => h.2.elim Scene.Idle.ended id

/-- `_ensure_formatted` of the ingest. -/
theorem wp_ensureFormatted (job : Ingest) (h : (sceneOf s).Between barcode driveId slot) :
    wp (loadsNoted sha256) compensating (job.ensureFormatted barcode : JobM L Unit)
      (fun _ _ s' => (sceneOf s').Between barcode driveId slot) (fun _ _ s' => (sceneOf s').Between barcode driveId slot) l s := by
  have hspares : ∀ {α : Type} {m : JobM L α} {N : α → L → World × LoadMonitor → Prop} {l s},
      Reads (fun o => World.sparesTapes o = true) m → (sceneOf s).Between barcode driveId slot →
      (∀ a l' s', (sceneOf s').Between barcode driveId slot → N a l' s') →
      wp (loadsNoted sha256) compensating m N (fun _ _ s' => (sceneOf s').Between barcode driveId slot) l s := by
    intro α m N l s hm h hN
    refine wp_mono (wp_spares sha256 hm (fun v => v.Between barcode driveId slot) h) ?_ (fun _ _ _ h => h.2)
    exact fun a l' s' h => hN a l' s' h.2
  unfold Ingest.ensureFormatted
  rw [wp_bind]
  refine hspares (only_perform rfl) h fun tape l₁ s₁ h₁ => ?_
  split
  · exact h₁
  · split
    · exact h₁
    · rw [wp_bind]
      refine hspares (only_bind (only_perform rfl) fun _ => only_bind (only_perform rfl) fun _ => only_pure _) h₁ fun token l₂ s₂ h₂ => ?_
      rw [wp_bind]
      refine wp_call fun s₃ hr c _ => ?_
      have hs₃ : s₂ = s₃ := hr
      subst hs₃
      obtain ⟨mounts, hm, hscene⟩ := scene_format sha256 (s := s₂) (c := c) barcode
        { expectedBarcode := barcode, safetyToken := token }
      have h₃ := hscene ▸ h₂.of_mounts hm
      refine ⟨trivial, fun _ _ => ?_, fun _ _ => h₃⟩
      exact hspares (only_bind (only_perform rfl) fun _ => only_perform rfl) h₃ fun _ _ _ h => h

/-- Writing the files of an assignment spares the tapes. -/
theorem spares_ingestFile (job : Ingest) (assignment : TapeAssignment) (mountHandle : MountHandle) (relativePath : String) :
    Calls (fun o => World.sparesTapes o = true) (job.ingestFile assignment mountHandle relativePath) := by
  have hwrite : ∀ prepared, Calls (fun o => World.sparesTapes o = true)
      (job.writeIngestFile mountHandle assignment.barcode prepared) := by
    intro prepared
    refine only_bind (job.steps.spares_beforeWriteFile prepared) fun _ => only_bind ?_ fun path => only_bind ?_ fun _ => ?_
    · refine only_bind (job.steps.spares_readSourceBytes prepared) fun content => only_bind (only_perform rfl) fun _ => ?_
      refine only_bind (only_perform rfl) fun tape => only_bind ?_ fun _ => only_pure _
      exact only_bind (only_perform rfl) fun _ => only_perform rfl
    · refine only_ite (fun _ => only_pure ()) fun _ => only_bind (only_perform rfl) fun st => ?_
      exact only_ite (fun _ => only_raise _) fun _ => only_pure ()
    · refine only_bind (job.steps.spares_upsertFileRecord _ _ _) fun id => only_bind (job.steps.spares_runLifecycleForFile _ _ _) fun result => ?_
      exact only_ite (fun _ => only_raise _) fun _ => only_assign fun _ => trivial
  have hfail : ∀ prepared exc, Calls (fun o => World.sparesTapes o = true)
      (job.failIngestFile assignment.barcode prepared exc) := by
    intro prepared exc
    refine only_bind (only_assign fun _ => trivial) fun _ => only_bind (job.steps.spares_upsertFileRecord _ _ _) fun _ => ?_
    exact only_ite (fun _ => only_raise _) fun _ => only_pure ()
  refine only_bind ?_ fun _ => only_bind ?_ fun prepared => only_handle (hwrite prepared) (hfail prepared)
  · exact only_bind job.steps.spares_cancelRequested fun _ => only_ite (fun _ => only_raise _) fun _ => only_pure ()
  · refine only_bind only_locals fun l => ?_
    simp only
    split
    · exact only_pure _
    · exact only_bind (job.steps.spares_prepareSingleFile _ _) fun prepared => only_bind (only_assign fun _ => trivial) fun _ => only_pure _

/-- `_write_assignment`. -/
theorem wp_writeAssignment (job : Ingest) (assignment : TapeAssignment) {l : IngestLocals} (h : (sceneOf s).Idle) :
    wp (loadsNoted sha256) compensating (job.writeAssignment assignment)
      (fun _ _ s' => (sceneOf s').Ended) (fun _ _ s' => (sceneOf s').Ended) l s := by
  unfold Ingest.writeAssignment
  rw [wp_bind, wp_assign, wp_bind]
  refine wp_mono (wp_ingestLoadIfNeeded sha256 h) ?_ (fun _ _ _ h => h.2)
  intro taken l₁ s₁ h₁
  rw [wp_bind]
  refine wp_mono (wp_ensureFormatted sha256 job h₁.2) ?_ (fun _ _ _ h => h.ended)
  intro _ l₂ s₂ h₂
  rw [wp_bind]
  refine wp_mono (wp_mountTaken sha256 h₂) ?_ (fun _ _ _ h => h.2)
  intro mountHandle l₃ s₃ h₃
  refine wp_mono (wp_ensureUnloaded sha256 ?_ h₃.2.1 h₃.2.2) (fun _ _ _ h => h.ended) (fun _ _ _ h => h.ended)
  exact only_forEach (spares_ingestFile job assignment mountHandle) _

end CompensationAux

end OpenBlade
