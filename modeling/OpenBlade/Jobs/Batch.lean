import OpenBlade.Frames
import OpenBlade.Jobs.Scheduler

/-!
# The lanes of a batch

What holds of the handles that one call of `acquire_drives` hands out, and of the handle of one lane when another's is updated.
-/

namespace OpenBlade

/-- The handles `acquire_drives` hands out: different leases for different cartridges, placed nowhere yet. -/
structure Granted (lanes : List DriveHandle) : Prop where
  leases : (lanes.map DriveHandle.leaseId).Nodup
  barcodes : (lanes.map DriveHandle.barcode).Nodup
  unplaced : ∀ lane ∈ lanes, lane.physicalDriveId = none

/-- A handle of another lease is not updated. -/
theorem mem_updateHandle {l : LaneLocals} {lane : DriveHandle} {leaseId : Nat} {f : DriveHandle → DriveHandle}
    (h : lane ∈ l.handles) (hne : lane.leaseId ≠ leaseId) : lane ∈ (l.updateHandle leaseId f).handles := by
  unfold LaneLocals.updateHandle
  refine List.mem_map.2 ⟨lane, h, ?_⟩
  rw [if_neg hne]

theorem barcodes_updateHandle (l : LaneLocals) (leaseId : Nat) (d : Int) :
    (l.updateHandle leaseId fun handle => { handle with physicalDriveId := some d }).handles.map DriveHandle.barcode =
      l.handles.map DriveHandle.barcode := by
  unfold LaneLocals.updateHandle
  rw [List.map_map]
  refine List.map_congr_left fun lane _ => ?_
  by_cases h : lane.leaseId = leaseId
  · simp [h]
  · simp [h]

/-- Two lanes of one grant with one lease, or with one cartridge, are the same. -/
theorem Granted.ne {lanes pre post : List DriveHandle} {lane x : DriveHandle} (h : Granted lanes)
    (hx : lanes = pre ++ x :: post) (hm : lane ∈ pre) : lane.leaseId ≠ x.leaseId ∧ lane.barcode ≠ x.barcode := by
  have hl := h.leases
  have hb := h.barcodes
  rw [hx, List.map_append, List.map_cons] at hl hb
  have hdisjl := (List.nodup_append.1 hl).2.2
  have hdisjb := (List.nodup_append.1 hb).2.2
  exact ⟨hdisjl _ (List.mem_map_of_mem hm) _ List.mem_cons_self, hdisjb _ (List.mem_map_of_mem hm) _ List.mem_cons_self⟩

/-- Another lane has another lease. -/
theorem Granted.lease_ne {lanes : List DriveHandle} {lane x : DriveHandle} (h : Granted lanes) (hl : lane ∈ lanes)
    (hx : x ∈ lanes) (hne : lane ≠ x) : lane.leaseId ≠ x.leaseId :=
  fun he => hne (List.inj_on_of_nodup_map h.leases hl hx he)

/-- The handles of a grant, for barcodes that are all different. -/
theorem World.Grant.handles {before after : World} {jobId : JobId} {barcodes : List Barcode} {n : Nat} {exclude : List Int}
    {leases : List DriveLease} (h : World.Grant before after jobId barcodes n exclude leases) (hb : barcodes.Nodup) :
    Granted (leases.map DriveHandle.ofLease) := by
  refine ⟨?_, ?_, ?_⟩
  · rw [List.map_map]
    exact h.ids
  · rw [List.map_map]
    exact h.barcodes ▸ hb
  · intro lane hlane
    obtain ⟨lease, -, rfl⟩ := List.mem_map.1 hlane
    rfl

end OpenBlade
