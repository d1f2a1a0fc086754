import Mathlib
import OpenBlade.Jobs.LeaseSafety
import OpenBlade.Jobs.Recovery

/-!
# Recovery is safe and idempotent

A pass changes nothing but the state of running jobs whose lease expired and the leases it releases, and it never releases a live
lease of a job that may still need it. A second pass at the same moment finds nothing to do.
-/

namespace OpenBlade

open Effects LeaseAux

/-- A second pass at the moment of the first, whatever the library then shows. -/
abbrev secondPass (cat : Catalog) (snapshot snapshot' : LibraryInventory) (now : Int) : RecoveryReport × Catalog :=
  recoverAfterRestart (recoverAfterRestart cat snapshot (.at now)).2 snapshot' (.at now)

/-- The primary keys of `jobs` and `drive_leases`. -/
structure Catalog.Keyed (cat : Catalog) : Prop where
  jobs : (cat.jobs.map Job.id).Nodup
  leases : (cat.leases.rows.map DriveLease.id).Nodup

namespace RecoveryAux

/-- A job that recovery fails. -/
def interrupted (now : Int) (job : Job) : Job :=
  { job with state := "failed_recoverable", error := some interruptedError, updatedAt := now }

/-- What the loop makes of a job when it has interrupted the jobs `ids`. -/
def mark (now : Int) (ids : List JobId) (job : Job) : Job := if job.id ∈ ids then interrupted now job else job

@[simp] theorem id_mark (now : Int) (ids : List JobId) (job : Job) : (mark now ids job).id = job.id := by
  unfold mark
  split <;> rfl

/-- Searching a list of rows by a key that changes of the rows keep. -/
theorem find_map_id {jobs : List Job} {f : Job → Job} (hf : ∀ job, (f job).id = job.id) (jobId : JobId) :
    (jobs.map f).find? (fun job => job.id = jobId) = (jobs.find? fun job => job.id = jobId).map f := by
  rw [List.find?_map]
  congr 2
  funext job
  simp [hf]

/-- A row that is found has the key. -/
theorem getJob_id {cat : Catalog} {jobId : JobId} {job : Job} (h : cat.getJob jobId = some job) :
    job ∈ cat.jobs ∧ job.id = jobId :=
  ⟨List.mem_of_find?_eq_some h, by simpa using List.find?_some h⟩

/-- Under distinct keys, a key names one row. -/
theorem eq_of_id {α κ : Type} {rows : List α} {key : α → κ} (h : (rows.map key).Nodup) {a b : α} (ha : a ∈ rows) (hb : b ∈ rows)
    (hk : key a = key b) : a = b :=
  List.inj_on_of_nodup_map h ha hb hk

/-- Updating a job that exists. -/
theorem updateJobState_of_mem {cat : Catalog} {job : Job} (h : job ∈ cat.jobs) (now : Int) (state : String)
    (error : Option String) :
    (cat.updateJobState now job.id state error).2 =
      { cat with jobs := cat.jobs.map fun other =>
          if other.id = job.id then { other with state := state, error := error, updatedAt := now } else other } := by
  have hany : (cat.jobs.any fun other => other.id = job.id) = true := List.any_eq_true.2 ⟨job, h, by simp⟩
  unfold Catalog.updateJobState
  rw [if_pos hany]

/-- The loop over expired leases so far: which jobs it interrupted, and what it left as it was. -/
structure Marked (cat : Catalog) (now : Int) (due : List DriveLease) (pass : Catalog × List JobId) : Prop where
  leases : pass.1.leases = cat.leases
  jobs : pass.1.jobs = cat.jobs.map (mark now pass.2)
  /-- A job is interrupted for a lease of its own, and only when it was running. -/
  owner : ∀ id ∈ pass.2, (∃ lease ∈ due, lease.jobId = id) ∧ ∀ job ∈ cat.jobs, job.id = id → job.state = "running"

theorem Marked.nil (cat : Catalog) (now : Int) (due : List DriveLease) : Marked cat now due (cat, []) where
  leases := rfl
  jobs := by
    have hmark : mark now [] = id := funext fun job => by simp [mark]
    simp [hmark]
  owner := by simp

/-- One expired lease. -/
theorem Marked.step {cat : Catalog} (hk : cat.Keyed) {now : Int} {due : List DriveLease} {pass : Catalog × List JobId}
    (h : Marked cat now due pass) {lease : DriveLease} (hl : lease ∈ due) :
    Marked cat now due (interruptOwner now pass lease) := by
  unfold interruptOwner
  cases hget : pass.1.getJob lease.jobId with
  | none => exact h
  | some owner =>
    simp only
    split
    · rename_i hrun
      obtain ⟨hmem, hid⟩ := getJob_id hget
      rw [h.jobs] at hmem
      obtain ⟨job, hjob, rfl⟩ := List.mem_map.1 hmem
      -- the owner is still running, so it is as it was
      have hnot : job.id ∉ pass.2 := by simpa using hrun.2
      have hsame : mark now pass.2 job = job := if_neg hnot
      have hstate : job.state = "running" := hsame ▸ hrun.1
      have hjobs : ∀ other ∈ cat.jobs, other.id = job.id → other = job := fun other ho hid => eq_of_id hk.jobs ho hjob hid
      have hupdate := updateJobState_of_mem (getJob_id hget).1 now "failed_recoverable" (some interruptedError)
      refine ⟨?_, ?_, ?_⟩
      · rw [hupdate]
        exact h.leases
      · rw [hupdate]
        simp only [Catalog.appendJournal, h.jobs, List.map_map]
        refine List.map_congr_left fun other ho => ?_
        simp only [Function.comp_apply, id_mark]
        by_cases hid' : other.id = job.id
        · obtain rfl := hjobs other ho hid'
          simp [hnot, mark, interrupted]
        · simp [hid', mark]
      · intro id hm
        rcases List.mem_append.1 hm with hm | hm
        · exact h.owner id hm
        · obtain rfl : id = (mark now pass.2 job).id := List.mem_singleton.1 hm
          refine ⟨⟨lease, hl, hid.symm⟩, fun other ho hid' => ?_⟩
          rw [hjobs other ho (by simpa using hid')]
          exact hstate
    · exact h

/-- The loop over the expired leases. -/
theorem marked_interruptOwners {cat : Catalog} (hk : cat.Keyed) (t : RecoveryClock) :
    Marked cat t.marked (cat.leases.expiredLeases t.expired) (interruptOwners cat t) := by
  unfold interruptOwners
  suffices h : ∀ (post : List DriveLease) (pass : Catalog × List JobId), (∀ lease ∈ post, lease ∈ cat.leases.expiredLeases t.expired) →
      Marked cat t.marked (cat.leases.expiredLeases t.expired) pass →
      Marked cat t.marked (cat.leases.expiredLeases t.expired) (post.foldl (interruptOwner t.marked) pass) from
    h _ _ (fun _ hl => hl) (.nil cat t.marked _)
  intro post
  induction post with
  | nil => exact fun pass _ h => h
  | cons lease post ih =>
    intro pass hsub h
    exact ih _ (fun l hl => hsub l (List.mem_cons_of_mem _ hl)) (h.step hk (hsub lease List.mem_cons_self))

/-- The owner of a lease, as the loop left it. -/
theorem getJob_marked {cat : Catalog} (hk : cat.Keyed) (t : RecoveryClock) (jobId : JobId) :
    (interruptOwners cat t).1.getJob jobId = (cat.getJob jobId).map (mark t.marked (interruptOwners cat t).2) := by
  unfold Catalog.getJob
  rw [(marked_interruptOwners hk t).jobs]
  exact find_map_id (id_mark _ _) jobId

/-! ### The leases that are released -/

theorem mem_expiredLeases {s : CatalogLeaseStore} {now : Int} {lease : DriveLease} :
    lease ∈ s.expiredLeases now ↔ lease ∈ s.rows ∧ lease.releasedAt = none ∧ lease.expiresAt ≤ now := by
  simp [CatalogLeaseStore.expiredLeases, List.mem_insertionSort]

theorem mem_liveLeases {s : CatalogLeaseStore} {now : Int} {lease : DriveLease} :
    lease ∈ s.liveLeases now ↔ lease ∈ s.rows ∧ lease.live now = true := by
  simp [CatalogLeaseStore.liveLeases, List.mem_insertionSort]

theorem mem_orphanedLeases {cat : Catalog} (hk : cat.Keyed) {t : RecoveryClock} {lease : DriveLease} :
    lease ∈ orphanedLeases cat t ↔ lease ∈ cat.leases.rows ∧
      ((lease.releasedAt = none ∧ lease.expiresAt ≤ t.expired) ∨
        (lease.live t.live = true ∧ ownerGone (interruptOwners cat t).1 lease = true)) := by
  simp only [orphanedLeases, List.mem_append, List.mem_filter, mem_expiredLeases, mem_liveLeases,
    (marked_interruptOwners hk t).leases]
  grind

/-- A row is released exactly when it is orphaned. -/
theorem mem_orphaned_ids {cat : Catalog} (hk : cat.Keyed) {t : RecoveryClock} {row : DriveLease} (hr : row ∈ cat.leases.rows) :
    row.id ∈ (orphanedLeases cat t).map DriveLease.id ↔ row ∈ orphanedLeases cat t := by
  constructor
  · intro h
    obtain ⟨lease, hl, hid⟩ := List.mem_map.1 h
    rw [← eq_of_id hk.leases ((mem_orphanedLeases hk).1 hl).1 hr hid]
    exact hl
  · exact List.mem_map_of_mem

/-- The rows a pass leaves. -/
theorem rows_after {cat : Catalog} (hk : cat.Keyed) (snapshot : LibraryInventory) (t : RecoveryClock) :
    (recoverAfterRestart cat snapshot t).2.leases.rows =
      cat.leases.rows.map fun row => if row ∈ orphanedLeases cat t then row.release t.released else row := by
  simp only [recoverAfterRestart, LeaseStore.release, CatalogLeaseStore.release, (marked_interruptOwners hk t).leases]
  refine List.map_congr_left fun row hr => ?_
  by_cases hm : row ∈ orphanedLeases cat t
  · rw [if_pos ((mem_orphaned_ids hk hr).2 hm), if_pos hm]
  · rw [if_neg (fun h => hm ((mem_orphaned_ids hk hr).1 h)), if_neg hm]

/-- A job that may still need its live leases. -/
def Protected (job : Job) : Prop := job.state ∈ nonTerminalJobStates ++ failedJobStates

/-- A job in need stays in need when the loop interrupts it. -/
theorem not_ownerGone {cat : Catalog} (hk : cat.Keyed) {t : RecoveryClock} {lease : DriveLease} {job : Job}
    (hget : cat.getJob lease.jobId = some job) (hp : Protected job) :
    ownerGone (interruptOwners cat t).1 lease = false := by
  unfold ownerGone ownerFailed
  rw [getJob_marked hk t, hget]
  by_cases hm : job.id ∈ (interruptOwners cat t).2
  · simp [mark, hm, interrupted, failedJobStates]
  · simp only [Option.map_some, mark, hm, if_false, Option.any_some, Option.all_some]
    rcases List.mem_append.1 hp with h | h
    · simp [h]
    · simp [h]

/-! ### The second pass -/

/-- After a pass at one moment no lease is expired and unreleased. -/
theorem expired_after {cat : Catalog} (hk : cat.Keyed) (snapshot : LibraryInventory) (now : Int) :
    (recoverAfterRestart cat snapshot (.at now)).2.leases.expiredLeases now = [] := by
  rw [List.eq_nil_iff_forall_not_mem]
  intro lease hl
  obtain ⟨hrow, hunreleased, hexpired⟩ := mem_expiredLeases.1 hl
  rw [rows_after hk] at hrow
  obtain ⟨row, hr, rfl⟩ := List.mem_map.1 hrow
  by_cases hm : row ∈ orphanedLeases cat (.at now)
  · rw [if_pos hm] at hunreleased
    unfold DriveLease.release at hunreleased
    cases hrel : row.releasedAt <;> simp [hrel] at hunreleased
  · rw [if_neg hm] at hunreleased hexpired
    exact hm ((mem_orphanedLeases hk).2 ⟨hr, .inl ⟨hunreleased, hexpired⟩⟩)

/-- The leases that are live after a pass at one moment: those that were, and whose owner is not gone. -/
theorem mem_live_after {cat : Catalog} (hk : cat.Keyed) (snapshot : LibraryInventory) (now : Int) {lease : DriveLease} :
    lease ∈ (recoverAfterRestart cat snapshot (.at now)).2.leases.liveLeases now ↔
      lease ∈ (interruptOwners cat (.at now)).1.leases.liveLeases now ∧
        ownerGone (interruptOwners cat (.at now)).1 lease = false := by
  rw [mem_liveLeases, rows_after hk, mem_liveLeases, (marked_interruptOwners hk _).leases]
  constructor
  · intro h
    obtain ⟨hrow, hlive⟩ := h
    obtain ⟨row, hr, rfl⟩ := List.mem_map.1 hrow
    by_cases hm : row ∈ orphanedLeases cat (.at now)
    · rw [if_pos hm] at hlive
      unfold DriveLease.release DriveLease.live at hlive
      cases hrel : row.releasedAt <;> simp [hrel] at hlive
    · rw [if_neg hm] at hlive ⊢
      refine ⟨⟨hr, hlive⟩, ?_⟩
      by_contra hgone
      exact hm ((mem_orphanedLeases hk).2 ⟨hr, .inr ⟨hlive, by simpa using hgone⟩⟩)
  · intro h
    obtain ⟨⟨hr, hlive⟩, hgone⟩ := h
    have hm : lease ∉ orphanedLeases cat (.at now) := by
      intro hm
      rcases ((mem_orphanedLeases hk).1 hm).2 with hexp | hgone'
      · have hle : lease.expiresAt ≤ now := hexp.2
        simp [DriveLease.live, hexp.1] at hlive
        omega
      · rw [hgone] at hgone'
        exact absurd hgone'.2 (by simp)
    exact ⟨List.mem_map.2 ⟨lease, hr, if_neg hm⟩, hlive⟩

/-- A live lease of a job in need is live after a pass. -/
theorem live_kept {cat : Catalog} (hk : cat.Keyed) (snapshot : LibraryInventory) {t : RecoveryClock} (ht : t.Ordered)
    {lease : DriveLease} (hl : lease ∈ cat.leases.rows) (hlive : lease.live t.released = true) {job : Job}
    (hget : cat.getJob lease.jobId = some job) (hp : Protected job) :
    lease ∈ (recoverAfterRestart cat snapshot t).2.leases.rows := by
  have hnot : lease ∉ orphanedLeases cat t := by
    intro hm
    rcases ((mem_orphanedLeases hk).1 hm).2 with hexp | hgone
    · have hle : t.expired ≤ t.released := ht.marked.trans (ht.live.trans ht.released)
      simp [DriveLease.live, hexp.1] at hlive
      omega
    · rw [not_ownerGone hk hget hp] at hgone
      exact absurd hgone.2 (by simp)
  rw [rows_after hk]
  exact List.mem_map.2 ⟨lease, hl, if_neg hnot⟩

/-- The loop finds nothing when no lease is expired. -/
theorem interruptOwners_nil {cat : Catalog} {t : RecoveryClock} (h : cat.leases.expiredLeases t.expired = []) :
    interruptOwners cat t = (cat, []) := by
  unfold interruptOwners
  rw [h]
  rfl

/-- After a pass at one moment no lease is orphaned at that moment. -/
theorem orphaned_after {cat : Catalog} (hk : cat.Keyed) (snapshot : LibraryInventory) (now : Int) :
    orphanedLeases (recoverAfterRestart cat snapshot (.at now)).2 (.at now) = [] := by
  have hexp := expired_after hk snapshot now
  have hgone : ∀ lease ∈ (recoverAfterRestart cat snapshot (.at now)).2.leases.liveLeases now,
      ¬ownerGone (recoverAfterRestart cat snapshot (.at now)).2 lease = true := by
    intro lease hl
    -- the owners are as the loop left them
    have howner : ownerGone (recoverAfterRestart cat snapshot (.at now)).2 lease =
        ownerGone (interruptOwners cat (.at now)).1 lease := rfl
    simp [howner, ((mem_live_after hk snapshot now).1 hl).2]
  unfold orphanedLeases
  rw [interruptOwners_nil (t := .at now) hexp]
  exact List.append_eq_nil_iff.2 ⟨hexp, List.filter_eq_nil_iff.2 hgone⟩

/-- A pass that finds nothing expired and nothing orphaned changes nothing. -/
theorem after_nothing {cat : Catalog} {t : RecoveryClock} (snapshot : LibraryInventory)
    (hexp : cat.leases.expiredLeases t.expired = []) (horphan : orphanedLeases cat t = []) :
    (recoverAfterRestart cat snapshot t).2 = cat := by
  have hpass := interruptOwners_nil hexp
  simp only [recoverAfterRestart, horphan, hpass]
  simp [LeaseStore.release, CatalogLeaseStore.release]

end RecoveryAux

/-- One thing a report says. -/
inductive RecoveryItem where
  | interrupted (jobId : JobId)
  | released (leaseId : Nat)
  | mismatch (mismatch : DriveMismatch)
  | staged (jobId : JobId) (instances : List Catalog.StagedInstance)
  | stalePending (jobId : JobId)
  | pendingReconciliation (item : PendingReconciliation)
  | held (leaseId : Nat)
  deriving Repr, DecidableEq

/-- Everything a report says. -/
def RecoveryReport.items (report : RecoveryReport) : List RecoveryItem :=
  report.interruptedJobIds.map .interrupted ++ report.releasedLeaseIds.map .released ++ report.mismatches.map .mismatch ++
    (report.stagedInstances.map fun entry => .staged entry.1 entry.2) ++ report.stalePendingJobIds.map .stalePending ++
    report.pendingReconciliation.map .pendingReconciliation ++ report.heldFailedLeaseIds.map .held

open RecoveryAux

/-- What one pass of recovery may do, at any readings of a clock that never goes back. -/
structure RecoverySafe (cat : Catalog) (snapshot : LibraryInventory) (t : RecoveryClock) : Prop where
  /-- No lease that is still live and belongs to a pending, running or failed job is released. -/
  kept : ∀ lease ∈ cat.leases.rows, lease.live t.released = true → ∀ job, cat.getJob lease.jobId = some job →
    job.state ∈ nonTerminalJobStates ++ failedJobStates → lease ∈ (recoverAfterRestart cat snapshot t).2.leases.rows
  /-- A job keeps its state, or was running, owns an expired unreleased lease and is `failed_recoverable` now. -/
  jobs : List.Forall₂
    (fun job job' => job' = job ∨ (job.state = "running" ∧ job'.id = job.id ∧ job'.state = "failed_recoverable" ∧
      ∃ lease ∈ cat.leases.rows, lease.jobId = job.id ∧ lease.releasedAt = none ∧ lease.expiresAt ≤ t.expired))
    cat.jobs (recoverAfterRestart cat snapshot t).2.jobs

/-- What a second pass does, at the moment of the first, whatever the library then shows. -/
structure RecoveryIdempotent (cat : Catalog) (snapshot snapshot' : LibraryInventory) (now : Int) : Prop where
  /-- It changes nothing: no job, no lease, no journal entry. -/
  unchanged : (secondPass cat snapshot snapshot' now).2 = (recoverAfterRestart cat snapshot (.at now)).2
  /-- It reports nothing that the first did not. -/
  reports : ∀ item ∈ (secondPass cat snapshot snapshot' now).1.items,
    item ∈ (recoverAfterRestart cat snapshot (.at now)).1.items

namespace RecoveryAux

theorem recoverySafe {cat : Catalog} (hk : cat.Keyed) (snapshot : LibraryInventory) {t : RecoveryClock} (ht : t.Ordered) :
    RecoverySafe cat snapshot t where
  kept lease hl hlive job hget hp := live_kept hk snapshot ht hl hlive hget hp
  jobs := by
    have hm := marked_interruptOwners hk t
    have hjobs : (recoverAfterRestart cat snapshot t).2.jobs = cat.jobs.map (mark t.marked (interruptOwners cat t).2) := hm.jobs
    rw [hjobs, List.forall₂_map_right_iff, List.forall₂_same]
    intro job hjob
    unfold mark
    split
    · rename_i hid
      obtain ⟨⟨lease, hl, hlj⟩, hrun⟩ := hm.owner job.id hid
      obtain ⟨hrow, hunreleased, hexpired⟩ := mem_expiredLeases.1 hl
      exact .inr ⟨hrun job hjob rfl, rfl, rfl, lease, hrow, hlj, hunreleased, hexpired⟩
    · exact .inl rfl

/-- A job that is found by its id. -/
theorem getJob_of_mem {cat : Catalog} (h : (cat.jobs.map Job.id).Nodup) {job : Job} (hm : job ∈ cat.jobs) :
    cat.getJob job.id = some job := by
  have hsome : (cat.jobs.find? fun other => other.id = job.id).isSome :=
    List.find?_isSome.2 ⟨job, hm, by simp⟩
  obtain ⟨found, hf⟩ := Option.isSome_iff_exists.1 hsome
  have hget : cat.getJob job.id = some found := hf
  obtain ⟨hmem, hid⟩ := getJob_id hget
  rw [hget, eq_of_id h hmem hm hid]

/-- The loop keeps the keys of the jobs. -/
theorem nodup_jobs_marked {cat : Catalog} (hk : cat.Keyed) (t : RecoveryClock) :
    ((interruptOwners cat t).1.jobs.map Job.id).Nodup := by
  rw [(marked_interruptOwners hk t).jobs, List.map_map]
  have hid : Job.id ∘ mark t.marked (interruptOwners cat t).2 = Job.id := funext fun job => id_mark _ _ job
  rw [hid]
  exact hk.jobs

/-- A pending job that is stale for the second pass was stale for the first: its live leases are still there. -/
theorem stalePending_after {cat : Catalog} (hk : cat.Keyed) (snapshot snapshot' : LibraryInventory) (now : Int) {jobId : JobId}
    (h : jobId ∈ (secondPass cat snapshot snapshot' now).1.stalePendingJobIds) :
    jobId ∈ (recoverAfterRestart cat snapshot (.at now)).1.stalePendingJobIds := by
  have hexp := expired_after hk snapshot now
  have hpass := interruptOwners_nil (t := .at now) hexp
  have hsame := after_nothing snapshot' (t := .at now) hexp (orphaned_after hk snapshot now)
  obtain ⟨job, hjob, rfl⟩ := List.mem_map.1 h
  obtain ⟨hlist, hstale⟩ := List.mem_filter.1 hjob
  refine List.mem_map.2 ⟨job, List.mem_filter.2 ⟨?_, ?_⟩, rfl⟩
  · exact (congrArg (fun cat : Catalog => cat.listJobs "pending") hsame) ▸ hlist
  · simp only [hpass, decide_eq_true_eq] at hstale ⊢
    refine ⟨fun hm => hstale.1 ?_, hstale.2⟩
    obtain ⟨lease, hl, hlj⟩ := List.mem_map.1 hm
    refine List.mem_map.2 ⟨lease, (mem_live_after hk snapshot now).2 ⟨hl, ?_⟩, hlj⟩
    have hpending : job ∈ (recoverAfterRestart cat snapshot (.at now)).2.listJobs "pending" :=
      (congrArg (fun cat : Catalog => cat.listJobs "pending") hsame) ▸ hlist
    obtain ⟨hmem, hstate⟩ : job ∈ (interruptOwners cat (.at now)).1.jobs ∧ job.state = "pending" := by
      simpa [Catalog.listJobs, recoverAfterRestart, List.mem_insertionSort] using hpending
    have hget : (interruptOwners cat (.at now)).1.getJob lease.jobId = some job := by
      rw [hlj]
      exact getJob_of_mem (nodup_jobs_marked hk _) hmem
    simp [ownerGone, hget, hstate, nonTerminalJobStates]

/-- A lease that is held by the second pass was held by the first. -/
theorem held_after {cat : Catalog} (hk : cat.Keyed) (snapshot snapshot' : LibraryInventory) (now : Int) {leaseId : Nat}
    (h : leaseId ∈ (secondPass cat snapshot snapshot' now).1.heldFailedLeaseIds) :
    leaseId ∈ (recoverAfterRestart cat snapshot (.at now)).1.heldFailedLeaseIds := by
  have hpass := interruptOwners_nil (t := .at now) (expired_after hk snapshot now)
  obtain ⟨lease, hl, rfl⟩ := List.mem_map.1 h
  obtain ⟨hlive, hfailed⟩ := List.mem_filter.1 hl
  simp only [hpass] at hlive hfailed
  refine List.mem_map_of_mem (List.mem_filter.2 ⟨((mem_live_after hk snapshot now).1 hlive).1, ?_⟩)
  exact hfailed

theorem recoveryIdempotent {cat : Catalog} (hk : cat.Keyed) (snapshot snapshot' : LibraryInventory) (now : Int) :
    RecoveryIdempotent cat snapshot snapshot' now := by
  have hexp := expired_after hk snapshot now
  have horphan := orphaned_after hk snapshot now
  have hsame := after_nothing snapshot' (t := .at now) hexp horphan
  have hpass := interruptOwners_nil (t := .at now) hexp
  refine ⟨hsame, fun item hitem => ?_⟩
  simp only [RecoveryReport.items, List.mem_append, or_assoc] at hitem ⊢
  have hinterrupted : (secondPass cat snapshot snapshot' now).1.interruptedJobIds = [] :=
    congrArg Prod.snd hpass
  have hreleased : (secondPass cat snapshot snapshot' now).1.releasedLeaseIds = [] :=
    congrArg (List.map DriveLease.id) horphan
  have hmismatches : (secondPass cat snapshot snapshot' now).1.mismatches = [] :=
    congrArg (List.filterMap (mismatchOf (observedDrives snapshot'))) horphan
  have hstaged : (secondPass cat snapshot snapshot' now).1.stagedInstances =
      (recoverAfterRestart cat snapshot (.at now)).1.stagedInstances :=
    congrArg stagedOfFailed hsame
  have hpending : (secondPass cat snapshot snapshot' now).1.pendingReconciliation =
      (recoverAfterRestart cat snapshot (.at now)).1.pendingReconciliation :=
    congrArg (fun cat : Catalog => cat.drivesPendingReconciliation.map Prod.snd) hsame
  rw [hinterrupted, hreleased, hmismatches, hstaged, hpending] at hitem
  rcases hitem with h | h | h | h | h | h | h
  · cases h
  · cases h
  · cases h
  · exact .inr (.inr (.inr (.inl h)))
  · refine .inr (.inr (.inr (.inr (.inl ?_))))
    obtain ⟨jobId, hid, rfl⟩ := List.mem_map.1 h
    exact List.mem_map_of_mem (stalePending_after hk snapshot snapshot' now hid)
  · exact .inr (.inr (.inr (.inr (.inr (.inl h)))))
  · refine .inr (.inr (.inr (.inr (.inr (.inr ?_)))))
    obtain ⟨leaseId, hid, rfl⟩ := List.mem_map.1 h
    exact List.mem_map_of_mem (held_after hk snapshot snapshot' now hid)

end RecoveryAux

/-- A pass of recovery is safe, and a second one at the same moment is idle, from any catalog. -/
theorem recoverAfterRestart_safe (cat : Catalog) (hk : cat.Keyed) :
    (∀ snapshot t, t.Ordered → RecoverySafe cat snapshot t) ∧
      ∀ snapshot snapshot' now, RecoveryIdempotent cat snapshot snapshot' now :=
  ⟨fun snapshot _ ht => recoverySafe hk snapshot ht, fun snapshot snapshot' now => recoveryIdempotent hk snapshot snapshot' now⟩

namespace RecoveryExample

/-- A job that stopped heartbeating on one drive while another of its leases is still live. -/
def cat : Catalog :=
  { jobs := [{ id := "a", state := "running" }, { id := "b" }]
    leases := { rows := [
      { id := 0, driveId := 0, jobId := "a", barcode := "T1", physicalDriveId := none, fencingToken := 1, acquiredAt := 0
        heartbeatAt := 0, expiresAt := 10 },
      { id := 1, driveId := 1, jobId := "a", barcode := "T2", physicalDriveId := none, fencingToken := 2, acquiredAt := 0
        heartbeatAt := 15, expiresAt := 25 }] } }

end RecoveryExample

theorem recoverAfterRestart_safe_live :
    (∀ snapshot t, t.Ordered → RecoverySafe RecoveryExample.cat snapshot t) ∧
      ∀ snapshot snapshot' now, RecoveryIdempotent RecoveryExample.cat snapshot snapshot' now :=
  recoverAfterRestart_safe RecoveryExample.cat ⟨by decide, by decide⟩

/-- The job is failed, its expired lease released and its live lease held. -/
example : (recoverAfterRestart RecoveryExample.cat { slots := [], drives := [] } (.at 20)).1.items =
    [.interrupted "a", .released 0, .mismatch ⟨0, "a", 0, "T1", none⟩, .staged "a" [], .held 1] := by
  decide +kernel

end OpenBlade
