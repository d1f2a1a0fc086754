import OpenBlade.Effects.Keeps
import OpenBlade.Frames
import OpenBlade.Jobs.LaneFootprint
import OpenBlade.Jobs.Segregation

/-!
# A sharded archive keeps to the tapes of its volume group

Every write of a job is to a tape of its group, and every instance it places is of a file of the group. A sharded job does so when
its lanes are new or the group's.
-/

namespace OpenBlade

open Effects Proc

/-- What a write to a tape is to find: the tape is the group's, and in use. -/
def WritesOwn (name : String) (st : Step World Op fun o => Except Exn o.Ans) : Prop :=
  ∀ handle content path, st.op = .ltfs (.writeFile handle content path) → ∃ group,
    st.pre.catalog.getVolumeGroup name = some group ∧ st.pre.catalog.Ours group.id handle.barcode

/-- The record a call writes. -/
def Op.writtenRecord : Op → Option Catalog.FileRecordFields
  | .catalog (.createFileRecord fields) => some fields
  | _ => none

/-- A file is archived under a path of its own group: the record that is there, if there is one, belongs to the group, or no
instance is of it. -/
def KeepsRecords (st : Step World Op fun o => Except Exn o.Ans) : Prop :=
  ∀ fields ∈ st.op.writtenRecord, ∀ record ∈ st.pre.catalog.getFileRecord fields.path,
    record.volumeGroupId = fields.vgId ∨ ∀ row ∈ st.pre.catalog.instances, row.fileRecordId ≠ record.id

instance (st : Step World Op fun o => Except Exn o.Ans) : Decidable (KeepsRecords st) :=
  inferInstanceAs (Decidable (∀ fields ∈ st.op.writtenRecord, ∀ record ∈ st.pre.catalog.getFileRecord fields.path,
    record.volumeGroupId = fields.vgId ∨ ∀ row ∈ st.pre.catalog.instances, row.fileRecordId ≠ record.id))

namespace IsolationAux

open Catalog

/-! ## Calls -/

section calls

variable {sha256 : Bytes → String} {name : String} {group : VolumeGroup} {w : World} {c : Choice}

theorem samePlaces_elapse : SamePlaces w.catalog (w.elapse c).catalog := SamePlaces.of_rows rfl rfl rfl rfl (Nat.le_refl _)

/-- An update of instances that leaves them where they are. -/
theorem samePlaces_updateInstances (cat : Catalog) (ids : List Nat) {f : FileInstance → FileInstance}
    (hf : ∀ row, (f row).fileRecordId = row.fileRecordId ∧ (f row).barcode = row.barcode) :
    SamePlaces cat (cat.updateInstances ids f) := by
  refine ⟨rfl, rfl, rfl, fun row hrow => ?_, Nat.le_refl _⟩
  obtain ⟨old, hold, rfl⟩ := mem_updateInstances cat |>.1 hrow
  refine ⟨old, hold, ?_⟩
  by_cases h : old.id ∈ ids
  · rw [if_pos h]
    exact ⟨(hf old).1.symm, (hf old).2.symm⟩
  · rw [if_neg h]
    exact ⟨rfl, rfl⟩

theorem execCatalog_neutral {o : CatalogOp} (h : (Op.catalog o).isNeutral = true) : SamePlaces w.catalog (w.execCatalog c o).2 := by
  cases o with
  | createVolumeGroup | addCartridge | saveCartridge | setCartridgeState | createFileRecord | createFileInstance
  | createStagedInstance => cases h
  | markInstanceArchived id verified =>
    simp only [World.execCatalog, Catalog.markInstanceArchived]
    split
    · exact .refl _
    · exact samePlaces_updateInstances _ _ fun _ => ⟨rfl, rfl⟩
  | markInstancesVerifying ids =>
    simp only [World.execCatalog, Catalog.markInstancesVerifying]
    split
    · exact .refl _
    · exact samePlaces_updateInstances _ _ fun _ => ⟨rfl, rfl⟩
  | markInstancesArchived ids verified =>
    simp only [World.execCatalog, Catalog.markInstancesArchived]
    split
    · exact .refl _
    · exact samePlaces_updateInstances _ _ fun _ => ⟨rfl, rfl⟩
  | updateJobState jobId state error =>
    simp only [World.execCatalog, Catalog.updateJobState]
    split
    · exact SamePlaces.of_rows rfl rfl rfl rfl (Nat.le_refl _)
    · exact .refl _
  | createTapeOp request => exact SamePlaces.of_rows rfl rfl rfl rfl (Nat.le_succ _)
  | updateTapeOp opId update =>
    simp only [World.execCatalog, Catalog.updateTapeOp]
    split
    · exact .refl _
    · exact SamePlaces.of_rows rfl rfl rfl rfl (Nat.le_refl _)
  | _ => exact SamePlaces.of_rows rfl rfl rfl rfl (Nat.le_refl _)

theorem exec_neutral {o : Op} (h : o.isNeutral = true) : SamePlaces w.catalog (w.exec sha256 o c).2.catalog := by
  refine World.exec_post sha256 (fun w' => SamePlaces w.catalog w'.catalog) samePlaces_elapse ?_
  cases o with
  | catalog o =>
    have hdone := execCatalog_neutral (w := w.elapse c) (c := c) h
    exact ⟨hdone.cartridges, hdone.volumeGroups, hdone.records, hdone.instances, hdone.nextId_le⟩
  | host o =>
    obtain ⟨host, draws, hhost⟩ := World.attempt_host sha256 (w := w.elapse c) (c := c) o
    rw [hhost]
    exact samePlaces_elapse
  | lease o => exact SamePlaces.of_rows rfl rfl rfl rfl (Nat.le_refl _)
  | _ => exact samePlaces_elapse

theorem exec_ltfs (o : LtfsOp) : SamePlaces w.catalog (w.exec sha256 (.ltfs o) c).2.catalog :=
  World.exec_post sha256 (fun w' => SamePlaces w.catalog w'.catalog) samePlaces_elapse samePlaces_elapse

/-- What a catalog call does to the tables, as the clock stands. -/
theorem exec_catalog {o : CatalogOp} (hseg : w.catalog.Segregated)
    (h : (w.elapse c).catalog.Segregated → ((w.elapse c).execCatalog c o).2.Segregated ∧
      Advances name group (w.elapse c).catalog ((w.elapse c).execCatalog c o).2) :
    (w.exec sha256 (.catalog o) c).2.catalog.Segregated ∧ Advances name group w.catalog (w.exec sha256 (.catalog o) c).2.catalog := by
  have hsame : SamePlaces w.catalog (w.elapse c).catalog := samePlaces_elapse
  have helapsed : (w.elapse c).catalog.Segregated := hsame.segregated hseg
  refine World.exec_post sha256 (fun w' => w'.catalog.Segregated ∧ Advances name group w.catalog w'.catalog)
    ⟨helapsed, hsame.advances⟩ ?_
  exact ⟨(h helapsed).1, hsame.advances.trans (h helapsed).2⟩

/-- Ours, by the cartridges. -/
theorem ours_of_cartridges {cat cat' : Catalog} (h : cat'.cartridges = cat.cartridges) {vgId : Nat} {barcode : Barcode} :
    cat'.Ours vgId barcode ↔ cat.Ours vgId barcode := by
  rw [Ours, Ours, Catalog.getCartridge, Catalog.getCartridge, h]

end calls

/-! ## The terms of a job -/

/-- Every write is to a tape of the group, and every instance stays on a tape of the group of its file. -/
def isolating (name : String) : Contract World Op fun o => Except Exn o.Ans :=
  .alone KeepsRecords fun st => WritesOwn name st ∧ st.post.catalog.Segregated

/-- The tables are in order, the group has its name, and what was found in `w₀` is still so. -/
structure Sound (name : String) (group : VolumeGroup) (w₀ w : World) : Prop where
  segregated : w.catalog.Segregated
  named : w.catalog.getVolumeGroup name = some group
  advances : Advances name group w₀.catalog w.catalog

section sound

variable {sha256 : Bytes → String} {name : String} {group : VolumeGroup} {w₀ w w' s : World} {L : Type} {l : L}

theorem Sound.here (h : Sound name group w₀ w) : Sound name group w w := ⟨h.segregated, h.named, .refl _⟩

theorem Sound.trans (h : Sound name group w₀ w) (h' : Sound name group w w') : Sound name group w₀ w' :=
  ⟨h'.segregated, h'.named, h.advances.trans h'.advances⟩

theorem Sound.id_lt (h : Sound name group w₀ w) : group.id < w.catalog.nextId :=
  h.segregated.named group (List.mem_of_find?_eq_some h.named)

/-- A call of a job of the group. -/
theorem wp_sound {o : Op} {N : o.Ans → L → World → Prop} {E : Exn → L → World → Prop} (hs : Sound name group w₀ s)
    (hown : ∀ handle content path, o = .ltfs (.writeFile handle content path) → s.catalog.Ours group.id handle.barcode)
    (hpost : ∀ c, KeepsRecords ((machine sha256).step s o c) → (s.exec sha256 o c).2.catalog.Segregated ∧
      Advances name group s.catalog (s.exec sha256 o c).2.catalog)
    (hN : ∀ c a, (s.exec sha256 o c).1 = .ok a → Sound name group s (s.exec sha256 o c).2 → N a l (s.exec sha256 o c).2)
    (hE : ∀ e s', Sound name group s s' → E e l s') :
    wp (machine sha256) (isolating name) (perform o : JobM L o.Ans) N E l s := by
  refine wp_call fun s₁ hr c ha => ?_
  obtain rfl : s = s₁ := hr
  obtain ⟨hseg, hadv⟩ := hpost c ha
  have hsound : Sound name group s (s.exec sha256 o c).2 := ⟨hseg, hadv.named hs.named, hadv⟩
  refine ⟨⟨fun handle content path ho => ⟨group, hs.named, hown handle content path ho⟩, hseg⟩, fun a hans => hN c a hans hsound,
    fun e _ => hE e _ hsound⟩

theorem post_neutral {o : Op} (ho : o.isNeutral = true) (hseg : s.catalog.Segregated) (c : Choice) :
    (s.exec sha256 o c).2.catalog.Segregated ∧ Advances name group s.catalog (s.exec sha256 o c).2.catalog :=
  ⟨(exec_neutral ho).segregated hseg, (exec_neutral ho).advances⟩

/-- A neutral call. -/
theorem wp_neutral {o : Op} (ho : o.isNeutral = true) {N : o.Ans → L → World → Prop} {E : Exn → L → World → Prop}
    (hs : Sound name group w₀ s)
    (hN : ∀ c a, (s.exec sha256 o c).1 = .ok a → Sound name group s (s.exec sha256 o c).2 → N a l (s.exec sha256 o c).2)
    (hE : ∀ e s', Sound name group s s' → E e l s') :
    wp (machine sha256) (isolating name) (perform o : JobM L o.Ans) N E l s := by
  refine wp_sound hs (fun handle content path h => ?_) (fun c _ => post_neutral ho hs.segregated c) hN hE
  rw [h] at ho
  cases ho

/-- Neutral calls keep the tables in order, and leave the rows of cartridges as they are. -/
theorem stable_sound : Stable (machine sha256) (isolating name) (fun o => o.isNeutral = true) fun w =>
    Sound name group w₀ w ∧ w.catalog.cartridges = w₀.catalog.cartridges := by
  intro o ho s s₁ c hs hr ha
  obtain rfl : s = s₁ := hr
  obtain ⟨hs, hrows⟩ := hs
  have hpost : (s.exec sha256 o c).2.catalog.Segregated ∧ Advances name group s.catalog (s.exec sha256 o c).2.catalog :=
    post_neutral ho hs.segregated c
  obtain ⟨hseg, hadv⟩ := hpost
  refine ⟨⟨fun handle content path h => ?_, hseg⟩, ⟨hseg, hadv.named hs.named, hs.advances.trans hadv⟩, ?_⟩
  · have hop : o = .ltfs (.writeFile handle content path) := h
    rw [hop] at ho
    cases ho
  · exact (exec_neutral ho).cartridges.trans hrows

/-- A procedure that makes neutral calls only. -/
theorem wp_only {α : Type} {m : JobM L α} {R : L → L → Prop} (hm : Only (fun o => o.isNeutral = true) R m) (hs : Sound name group w₀ s) :
    wp (machine sha256) (isolating name) m
      (fun _ l' s' => R l l' ∧ Sound name group s s' ∧ s'.catalog.cartridges = s.catalog.cartridges)
      (fun _ l' s' => R l l' ∧ Sound name group s s' ∧ s'.catalog.cartridges = s.catalog.cartridges) l s :=
  hm.keeps stable_sound ⟨hs.here, rfl⟩

/-- A record of the group is written. -/
theorem wp_record {fields : Catalog.FileRecordFields} (hvg : fields.vgId = group.id) {N : FileRecord → L → World → Prop}
    {E : Exn → L → World → Prop} (hs : Sound name group w₀ s)
    (hN : ∀ record s', Sound name group s s' → s'.catalog.RecordOf group.id record.id → N record l s')
    (hE : ∀ e s', Sound name group s s' → E e l s') :
    wp (machine sha256) (isolating name) (createFileRecord fields : JobM L FileRecord) N E l s := by
  have hdone : ∀ c, KeepsRecords ((machine sha256).step s (.catalog (.createFileRecord fields)) c) →
      (s.elapse c).catalog.Segregated →
      ((s.elapse c).catalog.createFileRecord (s.elapse c).clock fields).2.Segregated ∧
        Advances name group (s.elapse c).catalog ((s.elapse c).catalog.createFileRecord (s.elapse c).clock fields).2 ∧
        ((s.elapse c).catalog.createFileRecord (s.elapse c).clock fields).2.RecordOf group.id
          ((s.elapse c).catalog.createFileRecord (s.elapse c).clock fields).1.id :=
    fun c hkeeps hseg => createFileRecord_group hseg hvg fun record hrecord => hkeeps fields rfl record hrecord
  refine wp_call fun s₁ hr c ha => ?_
  obtain rfl : s = s₁ := hr
  have hpost : (s.exec sha256 (.catalog (.createFileRecord fields)) c).2.catalog.Segregated ∧
      Advances name group s.catalog (s.exec sha256 (.catalog (.createFileRecord fields)) c).2.catalog :=
    exec_catalog hs.segregated fun h => ⟨(hdone c ha h).1, (hdone c ha h).2.1⟩
  obtain ⟨hseg, hadv⟩ := hpost
  have hsound : Sound name group s (s.exec sha256 (.catalog (.createFileRecord fields)) c).2 := ⟨hseg, hadv.named hs.named, hadv⟩
  refine ⟨⟨nofun, hseg⟩, fun record hans => hN record _ hsound ?_, fun e _ => hE e _ hsound⟩
  obtain ⟨hanswer, hstate⟩ := World.exec_ok sha256 hans
  have hrecord : ((s.elapse c).catalog.createFileRecord (s.elapse c).clock fields).1 = record := Except.ok.inj hanswer
  show (s.exec sha256 (.catalog (.createFileRecord fields)) c).2.catalog.RecordOf group.id (show FileRecord from record).id
  rw [hstate, ← hrecord]
  exact (hdone c ha (samePlaces_elapse.segregated hs.segregated)).2.2

/-- An instance is staged on a tape of the group. -/
theorem wp_staged {jobId : JobId} {fileRecordId : Nat} {barcode : Barcode} {path : String} {N : FileInstance → L → World → Prop}
    {E : Exn → L → World → Prop} (hs : Sound name group w₀ s) (hrecord : s.catalog.RecordOf group.id fileRecordId)
    (hours : s.catalog.Ours group.id barcode) (hN : ∀ row s', Sound name group s s' → N row l s')
    (hE : ∀ e s', Sound name group s s' → E e l s') :
    wp (machine sha256) (isolating name) (createStagedInstance jobId fileRecordId barcode path : JobM L FileInstance) N E l s := by
  refine wp_sound hs nofun (fun c _ => exec_catalog hs.segregated fun hseg => ?_) (fun c row _ h => hN row _ h) hE
  exact createStagedInstance_group hseg hrecord hours

/-- A tape is mounted: the handle is of it. -/
theorem wp_mountTape {barcode : Barcode} {mode : MountMode} {N : MountHandle → L → World → Prop} {E : Exn → L → World → Prop}
    (hs : Sound name group w₀ s) (hN : ∀ handle s', handle.barcode = barcode → Sound name group s s' → N handle l s')
    (hE : ∀ e s', Sound name group s s' → E e l s') :
    wp (machine sha256) (isolating name) (mount barcode mode : JobM L MountHandle) N E l s := by
  refine wp_neutral (o := .ltfs (.mount barcode mode)) rfl hs (fun c handle hans hsound => hN handle _ ?_ hsound) hE
  rcases World.exec_mount sha256 (w := s) (c := c) barcode mode with ⟨e, he, -⟩ | ⟨added, hb, -, ha⟩
  · rw [he] at hans
    cases hans
  · exact ha handle hans ▸ hb

/-- Leases are of the cartridges that were asked for. -/
theorem wp_leases {scheduler : DriveScheduler} {barcodes : List Barcode} (hs : Sound name group w₀ s) :
    wp (machine sha256) (isolating name) (acquireDrives scheduler barcodes : JobM L (List DriveHandle))
      (fun handles l' s' => l' = l ∧ Sound name group s s' ∧ ∀ lane ∈ handles, lane.barcode ∈ barcodes ∧ lane.released = false)
      (fun _ l' s' => l' = l ∧ Sound name group s s') l s := by
  have hlook : Stable (machine sha256) (isolating name) (fun o => o.isRead = true) (Sound name group s) := by
    intro o ho s₁ s₂ c hs₁ hr ha
    have hstable : Stable (machine sha256) (isolating name) (fun o => o.isNeutral = true) fun w =>
        Sound name group s₁ w ∧ w.catalog.cartridges = s₁.catalog.cartridges := stable_sound
    have hkeep := hstable o (Op.isNeutral_of_isPlumbing (Op.isPlumbing_of_isRead ho)) s₁ s₂ c ⟨hs₁.here, rfl⟩ hr ha
    exact ⟨hkeep.1, hs₁.trans hkeep.2.1⟩
  refine wp_mono (wp_acquireDrives (J := Sound name group s) (E := fun _ l' s' => l' = l ∧ Sound name group s s')
    (Q := fun leases s' => Sound name group s s' ∧ leases.map DriveLease.barcode = barcodes)
    hlook (learns_nothing hlook) hs.here (fun _ _ h => ⟨rfl, h⟩) fun pending s' _ hs' => ?_) ?_ (fun _ _ _ h => h)
  · refine wp_neutral (o := .lease _) rfl hs' (fun c leases hans hsound => ⟨rfl, ?_⟩) fun e s'' h => ⟨rfl, hs'.trans h⟩
    cases leases with
    | none => exact hs'.trans hsound
    | some leases => exact ⟨hs'.trans hsound, (World.exec_acquire_some sha256 hans).barcodes⟩
  · intro handles l' s' h'
    obtain ⟨hl, -, leases, rfl, hsound, hbarcodes⟩ := h'
    refine ⟨hl, hsound, fun lane hlane => ?_⟩
    obtain ⟨lease, hmem, rfl⟩ := List.mem_map.1 hlane
    exact ⟨hbarcodes ▸ List.mem_map_of_mem hmem, rfl⟩

end sound

/-! ## The sharded job -/

/-- What a batch knows: the cartridges of its mounts and of its handles are the group's. -/
structure Lanes (name : String) (group : VolumeGroup) (w₀ : World) (l : LaneLocals) (w : World) : Prop where
  sound : Sound name group w₀ w
  mounts : ∀ entry ∈ l.mounts, w.catalog.Ours group.id entry.2.barcode
  handles : ∀ lane ∈ l.handles, w.catalog.Ours group.id lane.barcode

section lanes

variable {sha256 : Bytes → String} {name : String} {group : VolumeGroup} {w₀ w w' s : World} {l l' : LaneLocals} {α β : Type}

theorem Lanes.here (h : Lanes name group w₀ l w) : Lanes name group w l w := ⟨h.sound.here, h.mounts, h.handles⟩

theorem Lanes.rebase (h : Lanes name group w₀ l w) (h' : Lanes name group w l' w') : Lanes name group w₀ l' w' :=
  ⟨h.sound.trans h'.sound, h'.mounts, h'.handles⟩

/-- The books shrink. -/
theorem Lanes.shrink (h : Lanes name group w₀ l w) (hs : Sound name group w w') (hl : l.Shrinks l') :
    Lanes name group w₀ l' w' := by
  refine ⟨h.sound.trans hs, fun entry he => hs.advances.ours _ (h.mounts entry (hl.1 entry he)), fun lane hlane => ?_⟩
  obtain ⟨old, hold, hbarcode⟩ := List.mem_map.1 (hl.2 lane hlane)
  exact hs.advances.ours _ (hbarcode ▸ h.handles old hold)

/-- `m` keeps to the terms and to what a batch knows. -/
abbrev KeepsLanes (sha256 : Bytes → String) (name : String) (group : VolumeGroup) (w₀ : World) (m : JobM LaneLocals α) : Prop :=
  Keeps (machine sha256) (isolating name) (Lanes name group w₀) m

/-- It is enough to start from what is so now. -/
theorem keepsLanes_here {m : JobM LaneLocals α} (h : ∀ l s, Lanes name group s l s →
    wp (machine sha256) (isolating name) m (fun _ => Lanes name group s) (fun _ => Lanes name group s) l s) :
    KeepsLanes sha256 name group w₀ m := by
  intro l s hl
  exact wp_mono (h l s hl.here) (fun _ _ _ h' => hl.rebase h') (fun _ _ _ h' => hl.rebase h')

theorem keepsLanes_only {m : JobM LaneLocals α} (hm : Only (fun o => o.isNeutral = true) LaneLocals.Shrinks m) :
    KeepsLanes sha256 name group w₀ m := by
  intro l s hl
  refine wp_mono (wp_only hm hl.sound) ?_ ?_
  · exact fun _ l' s' h => hl.shrink h.2.1 h.1
  · exact fun _ l' s' h => hl.shrink h.2.1 h.1

theorem keepsLanes_plumbing {m : JobM LaneLocals α} (hm : Plumbing m) : KeepsLanes sha256 name group w₀ m :=
  keepsLanes_only (hm.weaken fun _ ho => Op.isNeutral_of_isPlumbing ho)

theorem keepsLanes_looks {m : JobM LaneLocals α} (hm : Looks m) : KeepsLanes sha256 name group w₀ m :=
  keepsLanes_plumbing (plumbing_looks hm)

/-- A neutral call. -/
theorem keepsLanes_call {o : Op} (ho : o.isNeutral = true) : KeepsLanes sha256 name group w₀ (perform o : JobM LaneLocals o.Ans) :=
  keepsLanes_only (only_perform ho)

/-! ### Loading -/

theorem keepsLanes_mountLane {lane : DriveHandle} (mode : MountMode) (hours : w₀.catalog.Ours group.id lane.barcode) :
    KeepsLanes sha256 name group w₀ (do
      verifyHandle lane
      let mountHandle ← mount lane.barcode mode
      assign fun l => { l with mounts := l.mounts.set lane.barcode mountHandle }) := by
  refine keeps_bind (keepsLanes_looks (looks_verifyHandle lane)) fun _ l s hl => ?_
  rw [wp_bind]
  refine wp_mountTape hl.sound (fun mountHandle s' hbarcode hs' => ?_) fun e s' hs' => hl.shrink hs' (refl_of LaneLocals.Shrinks l)
  have hl' := hl.shrink hs' (refl_of LaneLocals.Shrinks l)
  refine ⟨hl'.sound, fun entry he => ?_, hl'.handles⟩
  rcases Dict.mem_set he with he | rfl
  · exact hl'.mounts entry he
  · show s'.catalog.Ours group.id mountHandle.barcode
    rw [hbarcode]
    exact hl'.sound.advances.ours _ hours

theorem keepsLanes_loadAndMount (jobId : JobId) (mode : MountMode) : KeepsLanes sha256 name group w₀ (loadAndMount jobId mode) := by
  refine keeps_bind keeps_locals fun l₀ => keeps_bind (keeps_forEach fun lane _ => ?_) fun _ => ?_
  · refine keeps_bind (keepsLanes_plumbing (plumbing_loadBarcode jobId lane)) fun found => ?_
    exact keepsLanes_only (only_assign fun l => LaneLocals.shrinks_of_eq rfl rfl)
  · refine keepsLanes_here fun l s hl => ?_
    rw [wp_bind, wp_locals]
    refine keeps_bind (I := Lanes name group s) ?_ (fun _ => keeps_forEach fun lane hlane => keepsLanes_mountLane mode ?_) l s hl
    · exact keepsLanes_plumbing (plumbing_reads (reads_recordPhysicalDrives (fun _ _ => rfl) l.handles))
    · exact hl.handles lane hlane

/-! ### Writing -/

theorem keepsLanes_step (phase : LanePhase) (x : PlannedWrite) : KeepsLanes sha256 name group w₀ (laneStep phase x) := by
  cases phase with
  | room => exact keepsLanes_looks (looks_laneRoom x)
  | write =>
    intro l s hl
    unfold laneStep
    rw [wp_bind, wp_locals]
    cases hget : l.mounts.get? x.barcode with
    | none => exact hl
    | some mountHandle =>
      have hours := hl.mounts _ (Dict.mem_of_get? hget)
      have hsame := fun s' (hs' : Sound name group s s') => hl.shrink hs' (refl_of LaneLocals.Shrinks l)
      refine wp_sound hl.sound (fun handle content path h => ?_) (fun c _ => ?_) (fun c a _ hs' => hsame _ hs') fun e s' hs' => hsame _ hs'
      · cases h
        exact hours
      · exact ⟨(exec_ltfs _).segregated hl.sound.segregated, (exec_ltfs _).advances⟩
  | check =>
    refine keeps_bind keeps_locals fun l => ?_
    cases l.mounts.get? x.barcode with
    | none => exact keeps_raise _
    | some mountHandle => exact keeps_bind (keepsLanes_call rfl) fun st => keeps_ite (fun _ => keeps_raise _) fun _ => keeps_pure ()

theorem keepsLanes_writeLanes (writes : List PlannedWrite) : KeepsLanes sha256 name group w₀ (writeLanes writes) :=
  keeps_inLanes (fun _ => keepsLanes_call rfl) keepsLanes_step writes

/-! ### Staging and committing -/

/-- A record of the group is written, and it is known from then on. -/
theorem keepsLanes_record {fields : Catalog.FileRecordFields} (hvg : fields.vgId = group.id) {f : FileRecord → JobM LaneLocals β}
    (hf : ∀ record s, Sound name group w₀ s → s.catalog.RecordOf group.id record.id → KeepsLanes sha256 name group s (f record)) :
    KeepsLanes sha256 name group w₀ (createFileRecord fields >>= f) := by
  intro l s hl
  rw [wp_bind]
  refine wp_record hvg hl.sound (fun record s' hs' hrecord => ?_) fun e s' hs' => hl.shrink hs' (refl_of LaneLocals.Shrinks l)
  have hl' := hl.shrink hs' (refl_of LaneLocals.Shrinks l)
  exact (hf record s' hl'.sound hrecord).wp hl'.here (fun _ _ _ h => hl'.rebase h) fun _ _ _ h => hl'.rebase h

theorem keepsLanes_staged {jobId : JobId} {fileRecordId : Nat} {barcode : Barcode} {path : String}
    (hrecord : w₀.catalog.RecordOf group.id fileRecordId) (hours : w₀.catalog.Ours group.id barcode) :
    KeepsLanes sha256 name group w₀ (createStagedInstance jobId fileRecordId barcode path) := by
  intro l s hl
  refine wp_staged hl.sound (hl.sound.advances.records _ hrecord) (hl.sound.advances.ours _ hours) (fun row s' hs' => ?_) fun e s' hs' => ?_
  · exact hl.shrink hs' (refl_of LaneLocals.Shrinks l)
  · exact hl.shrink hs' (refl_of LaneLocals.Shrinks l)

theorem keepsLanes_stageStripe (request : ShardedArchiveRequest) (jobId : JobId) {item : SourceFile × Barcode}
    (hours : w₀.catalog.Ours group.id item.2) : KeepsLanes sha256 name group w₀ (stageStripe sha256 request group.id jobId item) := by
  obtain ⟨file, barcode⟩ := item
  refine keeps_bind (keepsLanes_looks (looks_computeChecksum sha256 file)) fun checksum => ?_
  refine keeps_bind (keepsLanes_looks (looks_sourceSize file)) fun sizeBytes => keepsLanes_record rfl fun record s hs hrecord => ?_
  have hours₁ := hs.advances.ours _ hours
  refine keeps_bind (keepsLanes_staged hrecord hours₁) fun _ => keepsLanes_record rfl fun shardRecord s' hs' hshard => ?_
  refine keeps_bind (keepsLanes_staged hshard (hs'.advances.ours _ hours₁)) fun _ => keeps_bind (keepsLanes_call rfl) fun _ => ?_
  exact keeps_bind (keepsLanes_only (only_assign fun l => LaneLocals.shrinks_of_eq rfl rfl)) fun _ => keeps_pure _

theorem keepsLanes_stageShard (request : ShardedArchiveRequest) (jobId : JobId) (plan : ShardPlan) {fileRecordId : Nat}
    {shard : ShardSpec × Bytes} (hrecord : w₀.catalog.RecordOf group.id fileRecordId)
    (hours : w₀.catalog.Ours group.id shard.1.barcode) :
    KeepsLanes sha256 name group w₀ (stageShard sha256 request group.id jobId plan fileRecordId shard) := by
  obtain ⟨spec, content⟩ := shard
  refine keeps_bind (keepsLanes_staged hrecord hours) fun _ => keepsLanes_record rfl fun shardRecord s hs hshard => ?_
  exact keeps_bind (keepsLanes_staged hshard (hs.advances.ours _ hours)) fun _ => keeps_pure _

/-- What follows the writes places nothing. -/
theorem keepsLanes_finishBatch (scheduler : DriveScheduler) (jobId : JobId) (stagedIds : List Nat) :
    KeepsLanes sha256 name group w₀ (finishBatch scheduler jobId stagedIds) := by
  have hmark : KeepsLanes sha256 name group w₀ (markVerifying jobId stagedIds) :=
    keeps_bind (keepsLanes_call rfl) fun _ => keeps_bind (keepsLanes_call rfl) fun _ => keepsLanes_call rfl
  have hcommit : KeepsLanes sha256 name group w₀ (commitStaged jobId stagedIds) := by
    refine keeps_bind keeps_locals fun l => keeps_bind (keepsLanes_call rfl) fun inv => keeps_ite (fun _ => keeps_raise _) fun _ => ?_
    exact keeps_bind (keepsLanes_call rfl) fun _ => keepsLanes_call rfl
  refine keeps_bind hmark fun _ => keeps_bind keeps_locals fun l => keeps_bind (keepsLanes_call rfl) fun _ => ?_
  refine keeps_bind (keepsLanes_plumbing plumbing_verifyHandles) fun _ => ?_
  exact keeps_bind (keepsLanes_plumbing (plumbing_cleanUnmountAndUnload jobId)) fun _ => hcommit

/-! ### Batches -/

/-- Leases on cartridges of the group, and the batch that works with them. -/
theorem keepsLanes_withLeases {scheduler : DriveScheduler} {barcodes : List Barcode} {jobId : JobId} {detail : JsonObject}
    {rest : JobM LaneLocals Unit} (hours : ∀ barcode ∈ barcodes, w₀.catalog.Ours group.id barcode)
    (hrest : KeepsLanes sha256 name group w₀ rest) :
    KeepsLanes sha256 name group w₀ (acquireDrives scheduler barcodes >>= fun handles => do
      journal jobId "lease_acquired" detail
      assign fun l => l.startBatch handles
      rest) := by
  intro l s hl
  rw [wp_bind]
  refine wp_mono (wp_leases hl.sound) ?_ ?_
  · rintro handles l₁ s₁ ⟨rfl, hs₁, hhandles⟩
    rw [wp_bind]
    refine (keepsLanes_call (o := .catalog (.journal jobId "lease_acquired" detail)) rfl).wp (hl.shrink hs₁ (refl_of LaneLocals.Shrinks _))
      (fun _ l₂ s₂ h₂ => ?_) fun _ _ _ h => h
    rw [wp_bind, wp_assign]
    refine hrest _ s₂ ⟨h₂.sound, nofun, fun lane hlane => ?_⟩
    exact h₂.sound.advances.ours _ (hours _ (hhandles lane hlane).1)
  · rintro e l₁ s₁ ⟨rfl, hs₁⟩
    exact hl.shrink hs₁ (refl_of LaneLocals.Shrinks _)

theorem keepsLanes_stripeBatch (request : ShardedArchiveRequest) (scheduler : DriveScheduler) (jobId : JobId)
    {batch : List (SourceFile × Barcode)} (hours : ∀ item ∈ batch, w₀.catalog.Ours group.id item.2) :
    KeepsLanes sha256 name group w₀ (stripeBatch sha256 request scheduler group.id jobId batch) := by
  refine keepsLanes_withLeases (fun barcode hb => ?_) (keeps_ensure (keeps_handle ?_ fun exc => ?_) fun original => ?_)
  · obtain ⟨item, hitem, rfl⟩ := List.mem_map.1 (Dict.mem_of_mem_fromKeys hb)
    exact hours item hitem
  · refine keeps_bind (keepsLanes_loadAndMount jobId .readWrite) fun _ => ?_
    refine keeps_bind (keeps_mapEach fun item hitem => keepsLanes_stageStripe request jobId (hours item hitem)) fun staged => ?_
    refine keeps_bind (keepsLanes_plumbing plumbing_verifyHandles) fun _ => keeps_bind (keepsLanes_writeLanes _) fun _ => ?_
    refine keeps_bind (keepsLanes_finishBatch scheduler jobId _) fun _ => ?_
    exact keepsLanes_only (only_assign fun l => LaneLocals.shrinks_of_eq rfl rfl)
  · exact keepsLanes_plumbing (plumbing_stripeExcept jobId _ exc)
  · exact keepsLanes_plumbing (plumbing_stripeFinally jobId original)

/-- The shards of a plan are on the lanes of the request. -/
theorem keepsLanes_plan {file : SourceFile} {barcodes : List Barcode} {basePath : String} {blockSize : Nat}
    {f : ShardPlan → JobM LaneLocals Unit}
    (hf : ∀ plan, (∀ spec ∈ plan.shards, spec.barcode ∈ barcodes) → KeepsLanes sha256 name group w₀ (f plan)) :
    KeepsLanes sha256 name group w₀ (planBlockStripe sha256 file barcodes basePath blockSize >>= f) := by
  intro l s hl
  rw [wp_bind]
  unfold planBlockStripe
  split
  · exact hl
  · rw [wp_bind]
    refine (keepsLanes_looks (looks_sourceSize file)).wp hl (fun size l₁ s₁ h₁ => ?_) fun _ _ _ h => h
    rw [wp_bind]
    refine (keepsLanes_looks (looks_computeChecksum sha256 file)).wp h₁ (fun checksum l₂ s₂ h₂ => ?_) fun _ _ _ h => h
    rw [wp_bind]
    refine (keepsLanes_call rfl).wp h₂ (fun groupId l₃ s₃ h₃ => ?_) fun _ _ _ h => h
    split
    · exact h₃
    · refine hf _ (fun spec hspec => ?_) l₃ s₃ h₃
      obtain ⟨⟨barcode, laneIndex⟩, hlane, rfl⟩ := List.mem_map.1 hspec
      exact List.fst_mem_of_mem_zipIdx hlane

theorem keepsLanes_archiveBlockStripe (request : ShardedArchiveRequest) (scheduler : DriveScheduler) (jobId : JobId) (file : SourceFile)
    (hours : ∀ barcode ∈ request.laneBarcodes, w₀.catalog.Ours group.id barcode) :
    KeepsLanes sha256 name group w₀ (archiveBlockStripe sha256 request scheduler group.id jobId file) := by
  refine keepsLanes_plan fun plan hplan => ?_
  refine keeps_bind (keepsLanes_only (only_assign fun l => LaneLocals.shrinks_of_eq rfl rfl)) fun _ => keepsLanes_withLeases hours ?_
  refine keeps_bind (keepsLanes_call rfl) fun _ => keeps_ensure (keeps_handle ?_ fun exc => ?_) fun original => ?_
  · refine keeps_bind (keepsLanes_loadAndMount jobId .readWrite) fun _ => keeps_bind (keepsLanes_looks ?_) fun _ => ?_
    · exact only_inLanes (fun n => (only_perform rfl : Looks (pick n)))
        (fun _ spec => only_bind (looks_writeShardToTempfile _ _ _ _) fun _ => only_pure ()) _
    refine keeps_bind (keepsLanes_call rfl) fun _ => keepsLanes_record rfl fun record s hs hrecord => ?_
    refine keeps_bind (keeps_mapEach fun shard hshard => keepsLanes_stageShard request jobId plan hrecord ?_) fun staged => ?_
    · obtain ⟨spec, hspec, rfl⟩ := List.mem_map.1 hshard
      exact hs.advances.ours _ (hours _ (hplan spec hspec))
    refine keeps_bind (keepsLanes_plumbing plumbing_verifyHandles) fun _ => keeps_bind (keepsLanes_writeLanes _) fun _ => ?_
    exact keepsLanes_finishBatch scheduler jobId _
  · exact keepsLanes_plumbing (plumbing_blockStripeExcept jobId _ exc)
  · exact keepsLanes_plumbing (plumbing_blockStripeFinally jobId original)

/-- A batch takes its lanes from the request. -/
theorem lane_of_stripeBatches {laneBarcodes : List Barcode} (h : laneBarcodes ≠ []) {index : Nat}
    {current batch : List (SourceFile × Barcode)} {files : List SourceFile} {item : SourceFile × Barcode}
    (hcurrent : ∀ item ∈ current, item.2 ∈ laneBarcodes) (hbatch : batch ∈ stripeBatches laneBarcodes index current files)
    (hitem : item ∈ batch) : item.2 ∈ laneBarcodes := by
  induction files generalizing index current with
  | nil =>
    unfold stripeBatches at hbatch
    split at hbatch
    · cases hbatch
    · exact hcurrent item (List.mem_singleton.1 hbatch ▸ hitem)
  | cons file files ih =>
    have hnext : ∀ item ∈ current ++ [(file, laneBarcodes.getD (index % laneBarcodes.length) "")], item.2 ∈ laneBarcodes := by
      intro item hmem
      rcases List.mem_append.1 hmem with hmem | hmem
      · exact hcurrent item hmem
      · have hlt : index % laneBarcodes.length < laneBarcodes.length := Nat.mod_lt _ (List.length_pos_iff.2 h)
        rw [List.mem_singleton.1 hmem]
        show laneBarcodes.getD _ "" ∈ laneBarcodes
        rw [List.getD_eq_getElem _ _ hlt]
        exact List.getElem_mem hlt
    rw [stripeBatches] at hbatch
    split at hbatch
    · rcases List.mem_cons.1 hbatch with rfl | hbatch
      · exact hnext item hitem
      · exact ih (fun _ h => absurd h List.not_mem_nil) hbatch
    · exact ih hnext hbatch

theorem keepsLanes_blockStriped (request : ShardedArchiveRequest) (scheduler : DriveScheduler) (jobId : JobId) (file : SourceFile)
    (hours : ∀ barcode ∈ request.laneBarcodes, w₀.catalog.Ours group.id barcode) :
    KeepsLanes sha256 name group w₀ (archiveBlockStriped sha256 request scheduler group.id jobId file) := by
  have hcount : ∀ f : LaneLocals → LaneLocals, (∀ l, (f l).mounts = l.mounts ∧ (f l).handles = l.handles) →
      KeepsLanes sha256 name group w₀ (assign f) :=
    fun f hf => keepsLanes_only (only_assign fun l => LaneLocals.shrinks_of_eq (hf l).1 (hf l).2)
  refine keeps_handle (keeps_bind (keepsLanes_archiveBlockStripe request scheduler jobId file hours) fun _ => ?_) fun exc =>
    hcount _ fun _ => ⟨rfl, rfl⟩
  exact keeps_bind (keepsLanes_looks (looks_sourceSize file)) fun _ => hcount _ fun _ => ⟨rfl, rfl⟩

theorem keepsLanes_archiveStripe (request : ShardedArchiveRequest) (scheduler : DriveScheduler) (jobId : JobId)
    (hours : ∀ barcode ∈ request.laneBarcodes, w₀.catalog.Ours group.id barcode) :
    KeepsLanes sha256 name group w₀ (archiveStripe sha256 request scheduler group.id jobId) := by
  refine keeps_ite (fun _ => keeps_raise _) fun hlanes => keeps_forEach fun batch hbatch => ?_
  exact keepsLanes_stripeBatch request scheduler jobId fun item hitem =>
    hours _ (lane_of_stripeBatches hlanes (fun _ h => absurd h List.not_mem_nil) hbatch hitem)

end lanes

/-! ### The volume group and the lanes -/

section start

variable {sha256 : Bytes → String} {name : String} {group : VolumeGroup} {w₀ w s : World} {L : Type} {l : L}

/-- Before a job knows its volume group: the tables are in order, and cartridges and groups are those of `w₀`. -/
structure Untouched (w₀ w : World) : Prop where
  segregated : w.catalog.Segregated
  cartridges : w.catalog.cartridges = w₀.catalog.cartridges
  volumeGroups : w.catalog.volumeGroups = w₀.catalog.volumeGroups

theorem stable_untouched : Stable (machine sha256) (isolating name) (fun o => o.isNeutral = true) (Untouched w₀) := by
  intro o ho s s₁ c hs hr ha
  obtain rfl : s = s₁ := hr
  have hsame : SamePlaces s.catalog (s.exec sha256 o c).2.catalog := exec_neutral ho
  refine ⟨⟨fun handle content path h => ?_, hsame.segregated hs.segregated⟩, hsame.segregated hs.segregated,
    hsame.cartridges.trans hs.cartridges, hsame.volumeGroups.trans hs.volumeGroups⟩
  have hop : o = .ltfs (.writeFile handle content path) := h
  rw [hop] at ho
  cases ho

/-- A job has its volume group: it was there, or it is new and no cartridge belongs to it. -/
structure Opened (name : String) (w₀ : World) (group : VolumeGroup) (w : World) : Prop where
  segregated : w.catalog.Segregated
  named : w.catalog.getVolumeGroup name = some group
  cartridges : w.catalog.cartridges = w₀.catalog.cartridges
  known : w₀.catalog.getVolumeGroup name = some group ∨ w₀.catalog.getVolumeGroup name = none ∧
    ∀ cartridge ∈ w₀.catalog.cartridges, cartridge.volumeGroupId ≠ some group.id

theorem wp_ensureVolumeGroup (hs : Untouched w₀ s) :
    wp (machine sha256) (isolating name) (ensureVolumeGroup name : JobM L VolumeGroup)
      (fun group l' s' => l' = l ∧ Opened name w₀ group s') (fun _ _ _ => True) l s := by
  unfold ensureVolumeGroup
  rw [wp_bind]
  refine wp_call fun s₁ hr c ha => ?_
  obtain rfl : s = s₁ := hr
  have hstable : Stable (machine sha256) (isolating name) (fun o => o.isNeutral = true) (Untouched w₀) := stable_untouched
  obtain ⟨hguar, hs₁⟩ := hstable (.catalog (.getVolumeGroup name)) rfl s s c hs rfl ha
  refine ⟨hguar, fun found hans => ?_, fun _ _ => trivial⟩
  have hfound : s.catalog.getVolumeGroup name = found := Except.ok.inj (World.exec_ok sha256 hans).1
  have hname : w₀.catalog.getVolumeGroup name = found := by
    rw [← hfound, Catalog.getVolumeGroup, Catalog.getVolumeGroup, hs.volumeGroups]
  generalize ((machine sha256).exec s (.catalog (.getVolumeGroup name)) c).2 = s₁ at hs₁ ⊢
  have hname₁ : s₁.catalog.getVolumeGroup name = found := by
    rw [← hname, Catalog.getVolumeGroup, Catalog.getVolumeGroup, hs₁.volumeGroups]
  cases found with
  | some group => exact ⟨rfl, hs₁.segregated, hname₁, hs₁.cartridges, .inl hname⟩
  | none =>
    refine wp_call fun s₂ hr c ha => ?_
    obtain rfl : s₁ = s₂ := hr
    have helapsed : (s₁.elapse c).catalog.Segregated := samePlaces_elapse.segregated hs₁.segregated
    obtain ⟨hseg, hrows, hnamed, hnew⟩ := createVolumeGroup_new helapsed hname₁
    have hafter : (s₁.exec sha256 (.catalog (.createVolumeGroup name)) c).2.catalog.Segregated :=
      World.exec_post sha256 (fun w => w.catalog.Segregated) helapsed hseg
    refine ⟨⟨by rintro _ _ _ ⟨⟩, hafter⟩, fun group hans => ?_, fun _ _ => trivial⟩
    obtain ⟨hanswer, hstate⟩ := World.exec_ok sha256 hans
    have hgroup : ((s₁.elapse c).catalog.createVolumeGroup name).1 = group := Except.ok.inj hanswer
    rw [hgroup] at hnamed hnew
    refine ⟨rfl, hafter, ?_, ?_, .inr ⟨hname, fun cartridge hcartridge => hnew cartridge ?_⟩⟩
    · exact (congrArg (fun w => w.catalog.getVolumeGroup name) hstate).trans hnamed
    · exact (congrArg (fun w => w.catalog.cartridges) hstate).trans (hrows.trans hs₁.cartridges)
    · exact hs₁.cartridges ▸ hcartridge

theorem Opened.sound (h : Opened name w₀ group w) : Sound name group w w := ⟨h.segregated, h.named, .refl _⟩

/-- A lane that is new, or the group's and in use. -/
def LaneFree (cat : Catalog) (vgId : Nat) (barcode : Barcode) : Prop := cat.getCartridge barcode = none ∨ cat.Ours vgId barcode

theorem wp_ensureCartridge {barcode : Barcode} (hs : Sound name group w₀ s) (hfree : LaneFree s.catalog group.id barcode) :
    wp (machine sha256) (isolating name) (ensureCartridge group.id barcode : JobM L Unit)
      (fun _ l' s' => l' = l ∧ Sound name group s s' ∧ s'.catalog.Ours group.id barcode ∧
        ∀ other, LaneFree s.catalog group.id other → LaneFree s'.catalog group.id other)
      (fun _ _ _ => True) l s := by
  unfold ensureCartridge
  rw [wp_bind]
  refine wp_neutral (o := .catalog (.getCartridge barcode)) rfl hs (fun c found hans hs₁ => ?_) fun _ _ _ => trivial
  have hfound : s.catalog.getCartridge barcode = found := Except.ok.inj (World.exec_ok sha256 hans).1
  have hsame : SamePlaces s.catalog (s.exec sha256 (.catalog (.getCartridge barcode)) c).2.catalog := exec_neutral rfl
  have hrows := hsame.cartridges
  generalize (s.exec sha256 (.catalog (.getCartridge barcode)) c).2 = s₁ at hs₁ hrows ⊢
  have hfree₁ : ∀ other, LaneFree s.catalog group.id other → LaneFree s₁.catalog group.id other := by
    refine fun other h => h.imp (fun h => ?_) (hs₁.advances.ours other)
    rwa [Catalog.getCartridge, hrows]
  cases found with
  | some cartridge =>
    refine ⟨rfl, hs₁, hs₁.advances.ours _ (hfree.resolve_left fun h => ?_), hfree₁⟩
    rw [hfound] at h
    cases h
  | none =>
    have hnone : s₁.catalog.getCartridge barcode = none := by rwa [Catalog.getCartridge, hrows]
    have hgroup : ∀ id, some group.id = some id → id < s₁.catalog.nextId := fun id h => Option.some.inj h ▸ hs₁.id_lt
    have hadd : ∀ c, ((s₁.elapse c).catalog.addCartridge barcode (some group.id)).2 = { (s₁.elapse c).catalog with
        cartridges := (s₁.elapse c).catalog.cartridges ++ [{ barcode := barcode, volumeGroupId := some group.id }] } := by
      intro c
      have hnone' : (s₁.elapse c).catalog.getCartridge barcode = none := hnone
      rw [Catalog.addCartridge, hnone']
    rw [wp_bind]
    refine wp_sound (o := .catalog (.addCartridge barcode (some group.id))) hs₁ (by rintro _ _ _ ⟨⟩)
      (fun c _ => exec_catalog hs₁.segregated fun hseg => ?_) (fun c cartridge hans hs₂ => ?_) fun _ _ _ => trivial
    · show ((s₁.elapse c).catalog.addCartridge barcode (some group.id)).2.Segregated ∧
        Advances name group (s₁.elapse c).catalog ((s₁.elapse c).catalog.addCartridge barcode (some group.id)).2
      rw [hadd]
      exact newCartridge_group hseg hnone hgroup
    · have hstate : (s₁.exec sha256 (.catalog (.addCartridge barcode (some group.id))) c).2.catalog.cartridges =
          s₁.catalog.cartridges ++ [{ barcode := barcode, volumeGroupId := some group.id }] := by
        rw [(World.exec_ok sha256 hans).2]
        exact congrArg Catalog.cartridges (hadd c)
      have hours : (s₁.exec sha256 (.catalog (.addCartridge barcode (some group.id))) c).2.catalog.Ours group.id barcode := by
        refine ⟨{ barcode := barcode, volumeGroupId := some group.id }, ?_, rfl, (by decide : "in_slot" ∉ outOfUse)⟩
        rw [Catalog.getCartridge, hstate, List.find?_append, show s₁.catalog.cartridges.find? _ = none from hnone]
        simp
      refine ⟨rfl, hs₁.trans hs₂, hours, fun other hother => ?_⟩
      rcases hfree₁ other hother with hother | hother
      · by_cases hb : barcode = other
        · exact .inr (hb ▸ hours)
        · refine .inl ?_
          rw [Catalog.getCartridge, hstate, List.find?_append, show s₁.catalog.cartridges.find? _ = none from hother]
          simp [hb]
      · exact .inr (hs₂.advances.ours _ hother)

/-- The lanes of a request get their rows. -/
theorem wp_ensureCartridges {barcodes : List Barcode} (hs : Sound name group w₀ s)
    (hfree : ∀ barcode ∈ barcodes, LaneFree s.catalog group.id barcode) :
    wp (machine sha256) (isolating name) (forEach (ensureCartridge group.id) barcodes : JobM L Unit)
      (fun _ l' s' => l' = l ∧ Sound name group s s' ∧ ∀ barcode ∈ barcodes, s'.catalog.Ours group.id barcode)
      (fun _ _ _ => True) l s := by
  refine wp_forEach _ _ (fun pre l' s' => l' = l ∧ Sound name group s s' ∧ (∀ barcode ∈ pre, s'.catalog.Ours group.id barcode) ∧
    ∀ barcode ∈ barcodes, LaneFree s'.catalog group.id barcode) ⟨rfl, hs.here, nofun, hfree⟩ ?_ ?_
  · rintro pre barcode post l' s₁ hbarcodes ⟨rfl, hs₁, hours, hfree₁⟩
    have hmem : barcode ∈ barcodes := hbarcodes ▸ List.mem_append_right _ List.mem_cons_self
    refine wp_mono (wp_ensureCartridge hs₁ (hfree₁ barcode hmem)) ?_ (fun _ _ _ h => h)
    rintro _ l₂ s₂ ⟨rfl, hs₂, hour, hkeep⟩
    refine ⟨rfl, hs₁.trans hs₂, fun other hother => ?_, fun other hother => hkeep other (hfree₁ other hother)⟩
    rcases List.mem_append.1 hother with hother | hother
    · exact hs₂.advances.ours _ (hours other hother)
    · exact List.mem_singleton.1 hother ▸ hour
  · exact fun l' s' h => ⟨h.1, h.2.1, h.2.2.1⟩

/-- A sharded job that may start keeps to the terms. -/
theorem wp_runShardedArchive (request : ShardedArchiveRequest) (scheduler : DriveScheduler) (jobId : JobId)
    (hseg : s.catalog.Segregated) (hstart : request.dryRun = false → request.files ≠ [] → ∀ barcode ∈ request.laneBarcodes,
      s.catalog.getCartridge barcode = none ∨
        ∃ group, s.catalog.getVolumeGroup request.volumeGroupName = some group ∧ s.catalog.Ours group.id barcode) :
    wp (machine sha256) (isolating request.volumeGroupName) (runShardedArchive sha256 request scheduler jobId)
      (fun _ _ _ => True) (fun _ _ _ => True) {} s := by
  have hrun : Only (fun o => o.isNeutral = true) Eq (updateJobState jobId "running" none : JobM LaneLocals Unit) := only_perform rfl
  unfold runShardedArchive
  rw [wp_bind]
  refine wp_mono (hrun.keeps stable_untouched (show Untouched s s from ⟨hseg, rfl, rfl⟩)) ?_ (fun _ _ _ _ => trivial)
  rintro _ l₁ s₁ ⟨rfl, hs₁⟩
  split
  · have hdry : Only (fun o => o.isNeutral = true) Eq (do
        let sizes ← mapEach sourceSize request.files
        updateJobState jobId "completed" none
        pure ({ jobId := jobId, filesArchived := request.files.length, bytesArchived := sizes.sum, tapesUsed := request.laneBarcodes
                shardGroupIds := [], errors := [] } : ShardedArchiveResult) : JobM LaneLocals ShardedArchiveResult) := by
      refine only_bind (only_mapEach (fun file => ?_) _) fun sizes => only_bind (only_perform rfl) fun _ => only_pure _
      exact (looks_sourceSize file).weaken fun _ ho => Op.isNeutral_of_isPlumbing (Op.isPlumbing_of_isRead ho)
    exact wp_mono (hdry.keeps stable_untouched hs₁) (fun _ _ _ _ => trivial) fun _ _ _ _ => trivial
  · rename_i hlive
    obtain ⟨hreal, hfiles⟩ := not_or.1 hlive
    rw [wp_bind]
    refine wp_mono (wp_ensureVolumeGroup hs₁) ?_ (fun _ _ _ h => h)
    rintro group l₂ s₂ ⟨rfl, hs₂⟩
    have hfree : ∀ barcode ∈ request.laneBarcodes, LaneFree s₂.catalog group.id barcode := by
      intro barcode hbarcode
      have hstart' := hstart (by simpa using hreal) hfiles barcode hbarcode
      rw [LaneFree, ours_of_cartridges hs₂.cartridges, Catalog.getCartridge, hs₂.cartridges]
      refine hstart'.imp (fun h => h) ?_
      rintro ⟨group', hgroup', hours⟩
      rcases hs₂.known with h | ⟨h, -⟩
      · rw [h] at hgroup'
        exact Option.some.inj hgroup' ▸ hours
      · rw [h] at hgroup'
        cases hgroup'
    rw [wp_bind]
    refine wp_mono (wp_ensureCartridges hs₂.sound hfree) ?_ (fun _ _ _ h => h)
    rintro _ l₃ s₃ ⟨rfl, hs₃, hours⟩
    have hend : KeepsLanes sha256 request.volumeGroupName group s₃ (do
        let l ← locals
        updateJobState jobId (if l.errors = [] then "completed" else "failed_recoverable") (summarizeErrors l.errors)
        pure ({ jobId := jobId, filesArchived := l.filesArchived, bytesArchived := l.bytesArchived
                tapesUsed := request.laneBarcodes, shardGroupIds := l.shardGroupIds, errors := l.errors } : ShardedArchiveResult)) :=
      keeps_bind keeps_locals fun l => keeps_bind (keepsLanes_call rfl) fun _ => keeps_pure _
    refine Keeps.wp (I := Lanes request.volumeGroupName group s₃) (keeps_bind (keepsLanes_call rfl) fun _ => keeps_ite (fun _ => ?_) fun _ => ?_)
      ⟨hs₃.here, by rintro _ ⟨⟩, by rintro _ ⟨⟩⟩ (fun _ _ _ _ => trivial) fun _ _ _ _ => trivial
    · exact keeps_bind (keeps_forEach fun file _ => keepsLanes_blockStriped request scheduler jobId file hours) fun _ => hend
    · exact keeps_bind (keepsLanes_archiveStripe request scheduler jobId hours) fun _ => hend

end start

end IsolationAux

end OpenBlade
