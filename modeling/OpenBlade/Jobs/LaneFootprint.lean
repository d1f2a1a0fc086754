import OpenBlade.Jobs.ShardedArchive

/-!
# What the lanes of a sharded archive call

Most procedures of a batch do not touch the rows of cartridges, volume groups and records, place no instance and write to no tape,
and of the books of the lanes they only strike out mounts and rewrite handles of the same cartridges.
-/

namespace OpenBlade

open Effects Proc

/-- Calls that write no row of a cartridge, a volume group or a record, place no instance and write to no tape. -/
def Op.isNeutral : Op → Bool
  | .catalog (.createVolumeGroup _) | .catalog (.addCartridge _ _) | .catalog (.saveCartridge _) | .catalog (.setCartridgeState _ _)
  | .catalog (.createFileRecord _) | .catalog (.createFileInstance _ _ _) | .catalog (.createStagedInstance _ _ _ _)
  | .ltfs (.writeFile _ _ _) => false
  | _ => true

/-- Neutral calls that archive nothing. -/
def Op.isPlumbing (o : Op) : Bool := o.isNeutral && !(match o with
  | .catalog (.markInstanceArchived _ _) | .catalog (.markInstancesArchived _ _) => true
  | _ => false)

theorem Op.isPlumbing_of_isRead {o : Op} (h : o.isRead = true) : o.isPlumbing = true := by
  cases o <;> rename_i o <;> cases o <;> first | rfl | cases h

theorem Op.isPlumbing_of_isRowOf {request : TapeOpRequest} {o : Op} (h : o.isRowOf request = true) : o.isPlumbing = true := by
  cases o <;> rename_i o <;> cases o <;> first | rfl | cases h

theorem Op.isNeutral_of_isPlumbing {o : Op} (h : o.isPlumbing = true) : o.isNeutral = true := (Bool.and_eq_true_iff.1 h).1

/-- Mounts are struck out only, and handles are of the same cartridges. -/
def LaneLocals.Shrinks (l l' : LaneLocals) : Prop :=
  (∀ entry ∈ l'.mounts, entry ∈ l.mounts) ∧ ∀ lane ∈ l'.handles, lane.barcode ∈ l.handles.map DriveHandle.barcode

instance : IsPreorder LaneLocals LaneLocals.Shrinks where
  refl _ := ⟨fun _ h => h, fun _ h => List.mem_map_of_mem h⟩
  trans l₁ l₂ l₃ h₁ h₂ := by
    refine ⟨fun entry h => h₁.1 entry (h₂.1 entry h), fun lane h => ?_⟩
    obtain ⟨lane', hlane', hbarcode⟩ := List.mem_map.1 (h₂.2 lane h)
    exact hbarcode ▸ h₁.2 lane' hlane'

/-- What is kept of the mounts and the handles, the other books aside. -/
theorem LaneLocals.shrinks_of_eq {l l' : LaneLocals} (hm : l'.mounts = l.mounts) (hh : l'.handles = l.handles) : l.Shrinks l' :=
  ⟨fun _ h => hm ▸ h, fun _ h => List.mem_map_of_mem (hh ▸ h)⟩

/-- Handles that are rewritten keep their cartridges. -/
theorem LaneLocals.shrinks_map {l l' : LaneLocals} {f : DriveHandle → DriveHandle} (hf : ∀ lane, (f lane).barcode = lane.barcode)
    (hm : l'.mounts = l.mounts) (hh : l'.handles = l.handles.map f) : l.Shrinks l' := by
  refine ⟨fun _ h => hm ▸ h, fun lane h => ?_⟩
  rw [hh] at h
  obtain ⟨old, hold, rfl⟩ := List.mem_map.1 h
  exact hf old ▸ List.mem_map_of_mem hold

/-- A procedure of the lanes that is plumbing only. -/
abbrev Plumbing {α : Type} (m : JobM LaneLocals α) : Prop := Only (fun o => o.isPlumbing = true) LaneLocals.Shrinks m

section footprint

variable {α : Type}

theorem plumbing_reads {m : JobM LaneLocals α} (h : Reads (fun o => o.isPlumbing = true) m) : Plumbing m :=
  h.mono (fun _ ho => ho) fun _ _ hl => hl ▸ refl_of LaneLocals.Shrinks _

theorem plumbing_looks {m : JobM LaneLocals α} (h : Looks m) : Plumbing m :=
  plumbing_reads (h.weaken fun _ ho => Op.isPlumbing_of_isRead ho)

theorem plumbing_request {request : TapeOpRequest} (h : request.opType = .load ∨ request.opType = .unload) (raiseOnFailed : Bool) :
    Plumbing (executeTapeRequest request raiseOnFailed) :=
  plumbing_reads (reads_tapeRequest h (fun _ ho => Op.isPlumbing_of_isRowOf ho) (fun o => by cases o <;> rfl) rfl raiseOnFailed)

theorem plumbing_releaseDrives (handles : List DriveHandle) (original : Option Exn) : Plumbing (releaseDrives handles original) :=
  plumbing_reads (reads_releaseDrives (fun _ => rfl) handles original)

theorem plumbing_journalFailure (jobId : JobId) (event : String) (detail : JsonObject) : Plumbing (journalFailure jobId event detail) :=
  only_handle (only_perform rfl) fun _ => only_pure ()

theorem plumbing_recordPhysicalStateUnknown (jobId : JobId) (op : String) (barcode : Barcode) (drive : Option Int) :
    Plumbing (recordPhysicalStateUnknown jobId op barcode drive) := by
  refine only_handle (only_perform rfl) fun _ => only_bind only_locals fun l => only_ite (fun _ => only_raise _) fun _ => ?_
  refine only_assign fun l' => LaneLocals.shrinks_map (fun lane => ?_) rfl rfl
  split <;> rfl

theorem plumbing_bestEffort (jobId : JobId) (collect : Bool) : Plumbing (bestEffortUnmountAndUnload jobId collect) := by
  have hunmount : ∀ entry, Plumbing (bestEffortUnmount jobId entry) := fun entry =>
    only_handle (only_bind (only_perform rfl) fun _ => only_pure _) fun _ =>
      only_bind only_locals fun l => only_bind (plumbing_recordPhysicalStateUnknown _ _ _ _) fun _ => only_pure _
  have hunload : ∀ still lane, Plumbing (bestEffortUnload jobId still lane) := by
    intro still lane
    refine only_bind only_locals fun l => ?_
    split
    · exact only_pure false
    · refine only_ite (fun _ => only_pure false) fun _ => only_handle ?_ fun _ => ?_
      · exact only_bind (plumbing_request (.inr rfl) _) fun _ => only_pure false
      · exact only_bind (plumbing_recordPhysicalStateUnknown _ _ _ _) fun _ => only_pure true
  refine only_bind only_locals fun l => only_bind (only_mapEach hunmount l.mounts) fun unmounts => ?_
  refine only_bind (only_mapEach (hunload _) l.handles) fun unloads => only_ite (fun _ => ?_) fun _ => only_pure ()
  refine only_assign fun l' => ?_
  split
  · exact LaneLocals.shrinks_of_eq rfl rfl
  · exact refl_of LaneLocals.Shrinks _

theorem plumbing_stripeExcept (jobId : JobId) (barcodes : List Barcode) (exc : Exn) : Plumbing (stripeExcept jobId barcodes exc) := by
  have hassign : ∀ f : LaneLocals → LaneLocals, (∀ l, (f l).mounts = l.mounts ∧ (f l).handles = l.handles) → Plumbing (assign f) :=
    fun f hf => only_assign fun l => LaneLocals.shrinks_of_eq (hf l).1 (hf l).2
  refine only_ite (fun _ => ?_) fun _ => ?_
  · exact only_bind (hassign _ fun _ => ⟨rfl, rfl⟩) fun _ => only_bind (plumbing_journalFailure _ _ _) fun _ => only_raise _
  · exact only_bind (plumbing_journalFailure _ _ _) fun _ => hassign _ fun _ => ⟨rfl, rfl⟩

theorem plumbing_stripeFinally (jobId : JobId) (original : Option Exn) : Plumbing (stripeFinally jobId original) := by
  have hrelease : ∀ l : LaneLocals, Plumbing (handle (releaseDrives l.handles original) fun releaseExc =>
      if releaseExc.cls = .journalWrite ∧ l.errors ≠ [] then
        raise { cls := .journalWrite
                message := releaseExc.message ++ "; original failure: " ++ (summarizeErrors l.errors).getD "None" }
      else raise releaseExc : JobM LaneLocals Unit) := fun l =>
    only_handle (plumbing_releaseDrives _ _) fun exc => only_ite (fun _ => only_raise _) fun _ => only_raise _
  refine only_bind only_locals fun l => only_ite (fun _ => ?_) fun _ => ?_
  · exact only_bind only_locals hrelease
  · exact only_bind (plumbing_bestEffort jobId true) fun _ => only_bind only_locals hrelease

theorem plumbing_blockStripeExcept (jobId : JobId) (barcodes : List Barcode) (exc : Exn) :
    Plumbing (blockStripeExcept jobId barcodes exc) := by
  refine only_ite (fun _ => ?_) fun _ => ?_
  · refine only_bind (only_assign fun l => LaneLocals.shrinks_of_eq rfl rfl) fun _ => ?_
    exact only_bind (plumbing_journalFailure _ _ _) fun _ => only_raise _
  · exact only_bind (plumbing_journalFailure _ _ _) fun _ => only_raise _

theorem plumbing_blockStripeFinally (jobId : JobId) (original : Option Exn) : Plumbing (blockStripeFinally jobId original) := by
  refine only_bind only_locals fun l => only_ite (fun _ => ?_) fun _ => ?_
  · exact only_bind only_locals fun l => plumbing_releaseDrives _ _
  · exact only_bind (plumbing_bestEffort jobId false) fun _ => only_bind only_locals fun l => plumbing_releaseDrives _ _

theorem plumbing_verifyHandles : Plumbing verifyHandles :=
  only_bind only_locals fun l => only_forEach (fun lane => plumbing_looks (looks_verifyHandle lane)) l.handles

theorem plumbing_loadBarcode (jobId : JobId) (lane : DriveHandle) : Plumbing (loadBarcode jobId lane) := by
  refine only_bind (only_perform rfl) fun found => ?_
  cases found with
  | some driveId =>
    refine only_bind (plumbing_looks (looks_ensureDriveReconciled _ _)) fun _ => ?_
    have hassign : Plumbing (assign fun l : LaneLocals =>
        l.updateHandle lane.leaseId fun handle => { handle with physicalDriveId := some driveId }) := by
      refine only_assign fun l => LaneLocals.shrinks_map
        (f := fun handle => if handle.leaseId = lane.leaseId then { handle with physicalDriveId := some driveId } else handle)
        (fun handle => ?_) rfl rfl
      split <;> rfl
    exact only_ite (fun _ => only_bind hassign fun _ => only_pure _) fun _ => only_pure _
  | none =>
    refine only_bind (only_perform rfl) fun inv => ?_
    split
    · exact only_raise _
    · refine only_bind (plumbing_looks (looks_ensureDriveReconciled _ _)) fun _ => ?_
      exact only_bind (plumbing_request (.inl rfl) _) fun _ => only_pure _

theorem plumbing_cleanUnmountAndUnload (jobId : JobId) : Plumbing (cleanUnmountAndUnload jobId) := by
  have hunmount : ∀ entry, Plumbing (cleanUnmount entry) := by
    refine fun entry => only_handle (only_bind (only_perform rfl) fun _ => only_bind (only_assign fun l => ?_) fun _ => only_pure _) fun _ =>
      only_pure _
    exact ⟨fun e he => (List.mem_filter.1 he).1, fun _ h => List.mem_map_of_mem h⟩
  have hunload : ∀ still lane, Plumbing (cleanUnload jobId still lane) := by
    intro still lane
    refine only_bind only_locals fun l => ?_
    split
    · exact only_pure _
    · refine only_ite (fun _ => only_pure _) fun _ => only_handle ?_ fun _ => only_pure _
      refine only_bind (plumbing_request (.inr rfl) _) fun _ => only_bind (only_assign fun l => ?_) fun _ => only_pure _
      exact LaneLocals.shrinks_of_eq rfl rfl
  refine only_bind only_locals fun l => only_bind (only_mapEach hunmount l.mounts) fun unmounts => ?_
  exact only_bind (only_mapEach (hunload _) l.handles) fun unloads => only_ite (fun _ => only_raise _) fun _ => only_pure ()

end footprint

end OpenBlade
