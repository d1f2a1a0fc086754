import OpenBlade.Jobs.LeaseSafety
import OpenBlade.Jobs.Reconcile

/-!
# The job queue

A job owns a drive, or the changer, by a live lease on its slot (`jobs/queue.py`). A claim looks for an owner, takes a lease, and
looks again when it gets none; other processes call the store in between.
-/

namespace OpenBlade

open LeaseStore LawfulLeaseStore

namespace CatalogLeaseStore

variable {s : CatalogLeaseStore} {now slot : Int} {jobId : JobId}

/-- `_owner`. -/
def owner (s : CatalogLeaseStore) (now slot : Int) : Option JobId :=
  ((s.liveLeases now).find? fun lease => lease.driveId = slot).map DriveLease.jobId

/-- The clock readings of a claim, and what others call before the second and before the third. -/
structure ClaimTimes where
  look : Int
  others : List (Int × LeaseCall) := []
  take : Int
  others' : List (Int × LeaseCall) := []
  again : Int

/-- `_claim_slot`, with the store it leaves and the reading of its last step. -/
def claimSlot (s : CatalogLeaseStore) (slot : Int) (jobId : JobId) (kind : String) (busy : String → Exn) (ttl : Int)
    (times : ClaimTimes) : Except Exn Unit × CatalogLeaseStore × Int :=
  match s.owner times.look slot with
  | some other => (if other = jobId then .ok () else .error (busy (textOr "another job" (some other))), s, times.look)
  | none =>
    match (applyAll s times.others).acquireDriveLeaseAt times.take jobId slot (kind ++ ":" ++ toString slot) ttl with
    | (some _, s) => (.ok (), s, times.take)
    | (none, s) =>
      let s := applyAll s times.others'
      let owner := s.owner times.again slot
      (if owner = some jobId then .ok () else .error (busy (textOr "another job" owner)), s, times.again)

/-- The job has a live lease of the slot, and no other job has. -/
def Owns (s : CatalogLeaseStore) (now slot : Int) (jobId : JobId) : Prop :=
  (∃ lease ∈ s.rows, lease.driveId = slot ∧ lease.jobId = jobId ∧ lease.live now) ∧
    ∀ lease ∈ s.rows, lease.driveId = slot → lease.live now → lease.jobId = jobId

theorem owns_of_owner (hs : leaseView.Sound now s.rows) (h : s.owner now slot = some jobId) : s.Owns now slot jobId := by
  obtain ⟨lease, hfind, rfl⟩ := Option.map_eq_some_iff.1 h
  obtain ⟨hmem, hlive⟩ := List.mem_filter.1 ((List.perm_insertionSort _ _).subset (List.mem_of_find?_eq_some hfind))
  have hslot : lease.driveId = slot := by simpa using List.find?_some hfind
  let Same : DriveLease → DriveLease → Prop := fun a b => a.live now → b.live now → a.driveId = b.driveId → a.jobId = b.jobId
  have hsymm : Std.Symm Same := ⟨fun _ _ hab hb ha heq => (hab ha hb heq.symm).symm⟩
  have hsame : s.rows.Pairwise Same := hs.imp fun ha hlive hlive' heq => absurd heq (ha.key hlive hlive')
  exact ⟨⟨lease, hmem, hslot, rfl, hlive⟩, fun lease' hmem' hslot' hlive' =>
    hsame.forall_of_forall (fun _ _ _ _ _ => rfl) hmem' hmem hlive' hlive (hslot'.trans hslot.symm)⟩

theorem owns_of_acquire {lease : DriveLease} {s' : CatalogLeaseStore} {barcode : Barcode} {ttl : Int} (httl : 0 < ttl)
    (h : s.acquireDriveLeaseAt now jobId slot barcode ttl = (some lease, s')) : s'.Owns now slot jobId := by
  unfold CatalogLeaseStore.acquireDriveLeaseAt at h
  split at h
  · cases h
  · rename_i hfree
    obtain ⟨-, rfl⟩ := Prod.mk.inj h
    refine ⟨⟨_, List.mem_append_right _ List.mem_cons_self, rfl, rfl, ?_⟩, fun lease' hmem hslot hlive => ?_⟩
    · simpa [DriveLease.live] using httl
    · rcases List.mem_append.1 hmem with hmem | hmem
      · exact absurd (List.any_eq_true.2 ⟨lease', hmem, by simp [hslot, hlive]⟩) hfree
      · rw [List.mem_singleton.1 hmem]

end CatalogLeaseStore

open CatalogLeaseStore

/-- A claim that returns owns its slot alone, whatever others call before it and between its steps. -/
theorem claim_excludes {t₀ : Int} {calls : List (Int × LeaseCall)} {times : ClaimTimes} (hcalls : Clocked t₀ calls times.look)
    (hothers : Clocked times.look times.others times.take) (hothers' : Clocked times.take times.others' times.again) {ttl : Int}
    (httl : 0 < ttl) (slot : Int) (jobId : JobId) (kind : String) (busy : String → Exn) :
    let claim := (applyAll (LeaseStore.empty : CatalogLeaseStore) calls).claimSlot slot jobId kind busy ttl times
    claim.1 = .ok () → claim.2.1.Owns claim.2.2 slot jobId := by
  have hsound := sound_of_clocked (S := CatalogLeaseStore) hcalls
  have hinv := (run_of_clocked (S := CatalogLeaseStore) inv_empty hcalls).2
  generalize applyAll (LeaseStore.empty : CatalogLeaseStore) calls = s at hsound hinv
  obtain ⟨hrun, hinv'⟩ := run_of_clocked hinv hothers
  have hsound' := (run_of_clocked hinv' hothers').1.sound (hrun.sound hsound)
  intro claim hok
  simp only [claim, claimSlot] at hok ⊢
  cases howner : s.owner times.look slot with
  | some other =>
    by_cases hmine : other = jobId
    · exact owns_of_owner hsound (howner.trans (congrArg some hmine))
    · simp [howner, hmine] at hok
  | none =>
    rw [howner] at hok
    cases htake : (applyAll s times.others).acquireDriveLeaseAt times.take jobId slot (kind ++ ":" ++ toString slot) ttl with
    | mk lease s' =>
      rw [htake] at hok
      cases lease with
      | some lease => exact owns_of_acquire httl htake
      | none =>
        obtain rfl : s' = applyAll s times.others := by
          unfold CatalogLeaseStore.acquireDriveLeaseAt at htake
          split at htake
          · exact (Prod.mk.inj htake).2.symm
          · cases htake
        by_cases hmine : (applyAll (applyAll s times.others) times.others').owner times.again slot = some jobId
        · exact owns_of_owner hsound' hmine
        · simp [hmine] at hok

/-- The changer is claimed once the lease that another job took has run out. -/
theorem changer_claim_excludes :
    let calls : List (Int × LeaseCall) := [(0, .acquireDriveLeaseAt "B" (-1) "CHANGER:-1" 3)]
    let claim := (applyAll (LeaseStore.empty : CatalogLeaseStore) calls).claimSlot (-1) "A" "CHANGER" valueError 9
      { look := 5, take := 6, again := 6 }
    claim.1 = .ok () ∧ claim.2.1.Owns claim.2.2 (-1) "A" :=
  ⟨by decide +kernel, claim_excludes (show Clocked 0 _ _ by decide) (by decide) (by decide) (by decide) _ _ _ _ (by decide +kernel)⟩

end OpenBlade
