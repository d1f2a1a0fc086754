import Mathlib
import OpenBlade.Fencing.Ledger
import OpenBlade.Jobs.DriveHandle

/-!
# Safety of the lease stores

Runs of store calls under a clock that never goes back, by any jobs in any order. The leases of a store are a ledger of fenced
claims: the identity of a claim is the lease id, its key the drive. Every call of either store is a step of that ledger, so what
holds over runs of ledgers holds over runs of calls.
-/

namespace OpenBlade

open Fencing LeaseStore

/-- The leases as a ledger. -/
def leaseView : View DriveLease Nat Int Nat Int where
  id := DriveLease.id
  key := DriveLease.driveId
  token := DriveLease.fencingToken
  live lease now := lease.live now = true
  live_anti lease t t' ht h := by
    simp only [DriveLease.live, Bool.and_eq_true, decide_eq_true_eq] at h ⊢
    exact ⟨h.1, lt_of_le_of_lt ht h.2⟩

/-- A call that writes leases. -/
inductive LeaseCall where
  | acquire (jobId : JobId) (barcodes : List Barcode) (numDrives : Nat) (ttl : Int) (exclude : List Int)
  | acquireDriveLeaseAt (jobId : JobId) (driveId : Int) (barcode : Barcode) (ttl : Int)
  | heartbeat (leaseIds : List Nat) (ttl : Int)
  | setPhysicalDrive (leaseId : Nat) (physicalDriveId : Int)
  | release (leaseIds : List Nat)
  deriving Repr, DecidableEq

section

variable {S : Type} [LeaseStore S]

/-- The store after a call at a clock reading. -/
def LeaseStore.apply (s : S) (now : Int) : LeaseCall → S
  | .acquire jobId barcodes numDrives ttl exclude => (LeaseStore.acquire s now jobId barcodes numDrives ttl exclude).2
  | .acquireDriveLeaseAt jobId driveId barcode ttl => (LeaseStore.acquireDriveLeaseAt s now jobId driveId barcode ttl).2
  | .heartbeat leaseIds ttl => LeaseStore.heartbeat s now leaseIds ttl
  | .setPhysicalDrive leaseId physicalDriveId => LeaseStore.setPhysicalDrive s leaseId physicalDriveId
  | .release leaseIds => LeaseStore.release s now leaseIds

/-- The store after a sequence of calls, each at its clock reading. -/
def LeaseStore.applyAll (s : S) (calls : List (Int × LeaseCall)) : S :=
  calls.foldl (fun s call => LeaseStore.apply s call.1 call.2) s

end

/-- From `t` on to `t'`, the clock readings of the calls never go back. -/
def Clocked (t : Int) : List (Int × LeaseCall) → Int → Prop
  | [], t' => t ≤ t'
  | (now, _) :: calls, t' => t ≤ now ∧ Clocked now calls t'

instance Clocked.decidable : (t : Int) → (calls : List (Int × LeaseCall)) → (t' : Int) → Decidable (Clocked t calls t')
  | t, [], t' => inferInstanceAs (Decidable (t ≤ t'))
  | t, (now, _) :: calls, t' => @instDecidableAnd (t ≤ now) _ _ (Clocked.decidable now calls t')

/-- A store whose calls are steps of its ledger, as long as its own invariant holds. -/
class LawfulLeaseStore (S : Type) [LeaseStore S] where
  Inv : S → Prop
  inv_empty : Inv LeaseStore.empty
  leases_empty : leases (LeaseStore.empty : S) = []
  apply_inv : ∀ (s : S) now call, Inv s → Inv (LeaseStore.apply s now call)
  apply_step : ∀ (s : S) now call, Inv s → leaseView.Step now (leases s) (leases (LeaseStore.apply s now call))
  /-- `acquire` leaves the store as it is, or appends a lease for each barcode on the first free drives. -/
  acquire_cases : ∀ (s : S) now jobId barcodes numDrives ttl exclude,
    LeaseStore.acquire s now jobId barcodes numDrives ttl exclude = (none, s) ∨
    ∃ token s', barcodes.length ≤ (freeDrives (leases s) now numDrives exclude).length ∧
      LeaseStore.acquire s now jobId barcodes numDrives ttl exclude =
        (some (newLeases jobId now ttl (leases s).length token (freeDrives (leases s) now numDrives exclude) barcodes), s') ∧
      leases s' = leases s ++
        newLeases jobId now ttl (leases s).length token (freeDrives (leases s) now numDrives exclude) barcodes

/-! ### The pieces both stores share -/

namespace LeaseAux

/-- A heartbeat extends live leases only. -/
theorem heartbeat_keeps (now ttl : Int) (lease : DriveLease) : leaseView.Keeps now lease (lease.heartbeat now ttl) := by
  unfold DriveLease.heartbeat
  by_cases hl : lease.live now
  · rw [if_pos hl]
    exact ⟨rfl, rfl, rfl, fun _ _ _ => hl⟩
  · rw [if_neg hl]
    exact .refl now lease

/-- A release ends a lease. -/
theorem release_keeps (now : Int) (lease : DriveLease) : leaseView.Keeps now lease (lease.release now) := by
  unfold DriveLease.release
  split
  · refine ⟨rfl, rfl, rfl, fun t _ hlive => ?_⟩
    simp [leaseView, DriveLease.live] at hlive
  · exact .refl now lease

/-- The physical drive is no part of a lease's life. -/
theorem setPhysical_keeps (now : Int) (d : Int) (lease : DriveLease) :
    leaseView.Keeps now lease { lease with physicalDriveId := some d } :=
  ⟨rfl, rfl, rfl, fun t ht h => leaseView.live_anti lease now t ht h⟩

/-- What keeps each lease keeps those it is applied to. -/
theorem ite_keeps {now : Int} {lease lease' : DriveLease} (c : Prop) [Decidable c] (h : leaseView.Keeps now lease lease') :
    leaseView.Keeps now lease (if c then lease' else lease) := by
  by_cases hc : c
  · rw [if_pos hc]
    exact h
  · rw [if_neg hc]
    exact .refl now lease

/-- Updating the leases named in a list, one after the other, is one change of each lease. -/
theorem foldl_updateLease {now : Int} {f : DriveLease → DriveLease} (hf : ∀ lease, leaseView.Keeps now lease (f lease))
    (ids : List Nat) (ls : List DriveLease) :
    ∃ g : DriveLease → DriveLease, ids.foldl (fun ls id => updateLease ls id f) ls = ls.map g ∧
      ∀ lease, leaseView.Keeps now lease (g lease) := by
  induction ids generalizing ls with
  | nil => exact ⟨id, by simp, fun lease => .refl now lease⟩
  | cons i ids ih =>
    obtain ⟨g, hg, hk⟩ := ih (updateLease ls i f)
    refine ⟨fun lease => g (if lease.id = i then f lease else lease), ?_, fun lease => ?_⟩
    · rw [List.foldl_cons, hg, updateLease, List.map_map]
      rfl
    · exact (ite_keeps _ (hf lease)).trans (hk _)

/-- A lease `acquire` makes carries a drive of the list, a number from `id` on and a token after `token`. -/
theorem newLeases_mem {jobId : JobId} {now ttl : Int} {id : Nat} {token : Nat} {ds : List Int} {bs : List Barcode}
    {lease : DriveLease} (h : lease ∈ newLeases jobId now ttl id token ds bs) :
    lease.driveId ∈ ds ∧ id ≤ lease.id ∧ token < lease.fencingToken := by
  induction ds generalizing id token bs with
  | nil => cases bs <;> simp [newLeases] at h
  | cons d ds ih =>
    cases bs with
    | nil => simp [newLeases] at h
    | cons b bs =>
      rcases List.mem_cons.1 h with rfl | h
      · simp
      · obtain ⟨hd, hid, ht⟩ := ih h
        exact ⟨List.mem_cons_of_mem _ hd, by omega, by omega⟩

/-- A lease `acquire` makes belongs to the job, records no drive yet and is not released. -/
theorem newLeases_granted {jobId : JobId} {now ttl : Int} {id : Nat} {token : Nat} {ds : List Int} {bs : List Barcode}
    {lease : DriveLease} (h : lease ∈ newLeases jobId now ttl id token ds bs) :
    lease.jobId = jobId ∧ lease.physicalDriveId = none ∧ lease.releasedAt = none := by
  induction ds generalizing id token bs with
  | nil => cases bs <;> simp [newLeases] at h
  | cons d ds ih =>
    cases bs with
    | nil => simp [newLeases] at h
    | cons b bs =>
      rcases List.mem_cons.1 h with rfl | h
      · exact ⟨rfl, rfl, rfl⟩
      · exact ih h

/-- The `i`-th lease `acquire` makes has the `i`-th number and token. -/
theorem newLeases_getElem {jobId : JobId} {now ttl : Int} (id token : Nat) (ds : List Int) (bs : List Barcode) (i : Nat)
    (hi : i < (newLeases jobId now ttl id token ds bs).length) :
    ((newLeases jobId now ttl id token ds bs)[i]).id = id + i ∧
      ((newLeases jobId now ttl id token ds bs)[i]).fencingToken = token + i + 1 := by
  induction ds generalizing id token bs i with
  | nil => cases bs <;> simp [newLeases] at hi
  | cons d ds ih =>
    cases bs with
    | nil => simp [newLeases] at hi
    | cons b bs =>
      cases i with
      | zero => simp [newLeases]
      | succ i =>
        have hi' : i < (newLeases jobId now ttl (id + 1) (token + 1) ds bs).length := by simpa [newLeases] using hi
        obtain ⟨h1, h2⟩ := ih (id + 1) (token + 1) bs i hi'
        simp only [newLeases, List.getElem_cons_succ, h1, h2]
        omega

/-- Enough drives: one lease for each barcode, on the first drives, in order. -/
theorem newLeases_map (jobId : JobId) (now ttl : Int) {ds : List Int} {bs : List Barcode} (id token : Nat)
    (h : bs.length ≤ ds.length) :
    (newLeases jobId now ttl id token ds bs).map DriveLease.barcode = bs ∧
      (newLeases jobId now ttl id token ds bs).map DriveLease.driveId = ds.take bs.length := by
  induction bs generalizing id token ds with
  | nil => cases ds <;> simp [newLeases]
  | cons b bs ih =>
    cases ds with
    | nil => simp at h
    | cons d ds =>
      have hlen : bs.length ≤ ds.length := by simpa using h
      obtain ⟨hb, hd⟩ := ih (id + 1) (token + 1) hlen
      simp [newLeases, hb, hd]

/-- The leases `acquire` makes on different drives may be appended together. -/
theorem newLeases_batch {jobId : JobId} {now ttl : Int} (id : Nat) (token : Nat) {ds : List Int} (bs : List Barcode)
    (hds : ds.Nodup) : leaseView.Batch (newLeases jobId now ttl id token ds bs) := by
  induction ds generalizing id token bs with
  | nil => cases bs <;> exact List.Pairwise.nil
  | cons d ds ih =>
    cases bs with
    | nil => exact List.Pairwise.nil
    | cons b bs =>
      obtain ⟨hd, hds⟩ := List.nodup_cons.1 hds
      refine List.pairwise_cons.2 ⟨fun lease hl => ?_, ih (id + 1) (token + 1) bs hds⟩
      obtain ⟨hmem, hid, htok⟩ := newLeases_mem hl
      have hid' : id ≠ lease.id := by omega
      have hne : d ≠ lease.driveId := fun he => hd (he ▸ hmem)
      exact ⟨hid', htok, hne⟩

/-- A free drive is in range, not excluded and held by no live lease. -/
theorem mem_freeDrives {ls : List DriveLease} {now : Int} {n : Nat} {exclude : List Int} {d : Int} :
    d ∈ freeDrives ls now n exclude ↔
      (0 ≤ d ∧ d < n) ∧ (∀ lease ∈ ls, lease.live now → lease.driveId ≠ d) ∧ d ∉ exclude := by
  have hrange : (∃ a < n, (a : Int) = d) ↔ 0 ≤ d ∧ d < n := by
    constructor
    · intro h
      obtain ⟨a, ha, rfl⟩ := h
      omega
    · intro h
      exact ⟨d.toNat, by omega, by omega⟩
  simp [freeDrives, hrange]

theorem freeDrives_nodup (ls : List DriveLease) (now : Int) (n : Nat) (exclude : List Int) :
    (freeDrives ls now n exclude).Nodup := by
  refine List.Nodup.filter _ (List.Nodup.map ?_ List.nodup_range)
  intro a b h
  exact Int.ofNat_inj.1 h

/-- No lease is numbered beyond the length of the list, and no token is greater than `token`. -/
def Bounded (ls : List DriveLease) (token : Nat) : Prop :=
  ∀ lease ∈ ls, lease.id < ls.length ∧ lease.fencingToken ≤ token

/-- Leases numbered after the ledger with greater tokens, on drives no live lease holds, are fresh. -/
theorem fresh_of_bounded {ls : List DriveLease} {token : Nat} (hb : Bounded ls token) {now : Int} {n : DriveLease}
    (hid : ls.length ≤ n.id) (htok : token < n.fencingToken)
    (hfree : ∀ lease ∈ ls, lease.live now → lease.driveId ≠ n.driveId) :
    ∀ e ∈ ls, leaseView.Fresh now e n := by
  intro e he
  obtain ⟨hlt, hle⟩ := hb e he
  have hne : e.id ≠ n.id := by omega
  have htok' : e.fencingToken < n.fencingToken := by omega
  exact ⟨hne, htok', fun hl => hfree e he hl⟩

/-- Changing leases keeps their numbers and tokens bounded. -/
theorem bounded_map {ls : List DriveLease} {token : Nat} (hb : Bounded ls token) {now : Int} {g : DriveLease → DriveLease}
    (hg : ∀ lease, leaseView.Keeps now lease (g lease)) : Bounded (ls.map g) token := by
  intro lease hl
  obtain ⟨e, he, rfl⟩ := List.mem_map.1 hl
  have hid : (g e).id = e.id := (hg e).id
  have htok : (g e).fencingToken = e.fencingToken := (hg e).token
  rw [List.length_map, hid, htok]
  exact hb e he

/-- Appending the leases of one call keeps numbers and tokens bounded. -/
theorem bounded_append {ls : List DriveLease} {token : Nat} (hb : Bounded ls token) {jobId : JobId} {now ttl : Int}
    (ds : List Int) (bs : List Barcode) :
    Bounded (ls ++ newLeases jobId now ttl ls.length token ds bs)
      (token + (newLeases jobId now ttl ls.length token ds bs).length) := by
  intro lease hl
  rw [List.length_append]
  rcases List.mem_append.1 hl with hl | hl
  · obtain ⟨hlt, hle⟩ := hb lease hl
    omega
  · obtain ⟨i, hi, rfl⟩ := List.mem_iff_getElem.1 hl
    have hget := newLeases_getElem ls.length token ds bs i hi
    omega

/-- A greater bound is a bound. -/
theorem Bounded.ids {ls : List DriveLease} {token : Nat} (hb : Bounded ls token) {token' : Nat}
    (h : ∀ lease ∈ ls, lease.fencingToken ≤ token') : Bounded ls token' :=
  fun lease hl => ⟨(hb lease hl).1, h lease hl⟩

/-- The leases of one `acquire` are a step of the ledger. -/
theorem step_acquire {ls : List DriveLease} {token : Nat} (hb : Bounded ls token) (jobId : JobId) (now ttl : Int)
    (bs : List Barcode) (n : Nat) (exclude : List Int) :
    leaseView.Step now ls (ls ++ newLeases jobId now ttl ls.length token (freeDrives ls now n exclude) bs) := by
  refine .of_append (newLeases_batch _ _ bs (freeDrives_nodup ls now n exclude)) ?_
  intro e he lease hl
  obtain ⟨hd, hid, htok⟩ := newLeases_mem hl
  exact fresh_of_bounded hb hid htok (mem_freeDrives.1 hd).2.1 e he

/-- `acquire_drive_lease_at` on a drive no live lease holds is the `acquire` of one barcode on one drive. -/
theorem newLeases_singleton (jobId : JobId) (now ttl : Int) (id token : Nat) (d : Int) (b : Barcode) :
    newLeases jobId now ttl id token [d] [b] =
      [{ id := id, driveId := d, jobId := jobId, barcode := b, physicalDriveId := none, fencingToken := token + 1,
         acquiredAt := now, heartbeatAt := now, expiresAt := now + ttl }] := rfl

/-- A lease on one drive that no live lease holds is a step of the ledger. -/
theorem step_acquireAt {ls : List DriveLease} {token : Nat} (hb : Bounded ls token) (jobId : JobId) (now ttl : Int)
    (d : Int) (b : Barcode) (hfree : ¬ (ls.any fun lease => lease.driveId == d && lease.live now) = true) :
    leaseView.Step now ls (ls ++ newLeases jobId now ttl ls.length token [d] [b]) := by
  refine .of_append (newLeases_batch _ _ [b] (List.nodup_singleton d)) ?_
  intro e he lease hl
  obtain ⟨hd, hid, htok⟩ := newLeases_mem hl
  refine fresh_of_bounded hb hid htok ?_ e he
  intro l hm hlive hld
  rw [List.mem_singleton.1 hd] at hld
  exact hfree (List.any_eq_true.2 ⟨l, hm, by simp [hld, hlive]⟩)

end LeaseAux

open LeaseAux

/-! ### The in-memory store -/

instance : LawfulLeaseStore InMemoryLeaseStore where
  Inv s := Bounded s.leases s.lastToken
  inv_empty := by simp [Bounded, LeaseStore.empty]
  leases_empty := rfl
  apply_inv s now call hb := by
    cases call with
    | acquire jobId barcodes numDrives ttl exclude =>
      simp only [LeaseStore.apply, LeaseStore.acquire, InMemoryLeaseStore.acquire]
      split
      · exact hb
      · exact bounded_append hb _ _
    | acquireDriveLeaseAt jobId driveId barcode ttl =>
      simp only [LeaseStore.apply, LeaseStore.acquireDriveLeaseAt, InMemoryLeaseStore.acquireDriveLeaseAt]
      split
      · exact hb
      · rw [← newLeases_singleton]
        exact bounded_append hb [driveId] [barcode]
    | heartbeat leaseIds ttl =>
      obtain ⟨g, hg, hk⟩ := foldl_updateLease (heartbeat_keeps now ttl) leaseIds s.leases
      simp only [LeaseStore.apply, LeaseStore.heartbeat, InMemoryLeaseStore.heartbeat, hg]
      exact bounded_map hb hk
    | setPhysicalDrive leaseId physicalDriveId =>
      exact bounded_map hb fun lease => ite_keeps _ (setPhysical_keeps now physicalDriveId lease)
    | release leaseIds =>
      obtain ⟨g, hg, hk⟩ := foldl_updateLease (release_keeps now) leaseIds s.leases
      simp only [LeaseStore.apply, LeaseStore.release, InMemoryLeaseStore.release, hg]
      exact bounded_map hb hk
  apply_step s now call hb := by
    cases call with
    | acquire jobId barcodes numDrives ttl exclude =>
      simp only [LeaseStore.apply, LeaseStore.acquire, InMemoryLeaseStore.acquire]
      split
      · exact .refl now _
      · exact step_acquire hb jobId now ttl barcodes numDrives exclude
    | acquireDriveLeaseAt jobId driveId barcode ttl =>
      simp only [LeaseStore.apply, LeaseStore.acquireDriveLeaseAt, InMemoryLeaseStore.acquireDriveLeaseAt]
      split
      · exact .refl now _
      · rename_i hfree
        exact step_acquireAt hb jobId now ttl driveId barcode hfree
    | heartbeat leaseIds ttl =>
      obtain ⟨g, hg, hk⟩ := foldl_updateLease (heartbeat_keeps now ttl) leaseIds s.leases
      simp only [LeaseStore.apply, LeaseStore.heartbeat, InMemoryLeaseStore.heartbeat, LeaseStore.leases, hg]
      exact .of_map fun lease _ => hk lease
    | setPhysicalDrive leaseId physicalDriveId =>
      exact .of_map fun lease _ => ite_keeps _ (setPhysical_keeps now physicalDriveId lease)
    | release leaseIds =>
      obtain ⟨g, hg, hk⟩ := foldl_updateLease (release_keeps now) leaseIds s.leases
      simp only [LeaseStore.apply, LeaseStore.release, InMemoryLeaseStore.release, LeaseStore.leases, hg]
      exact .of_map fun lease _ => hk lease
  acquire_cases s now jobId barcodes numDrives ttl exclude := by
    simp only [LeaseStore.acquire, LeaseStore.leases, InMemoryLeaseStore.acquire]
    split
    · exact .inl rfl
    · exact .inr ⟨s.lastToken, _, by omega, rfl, rfl⟩

/-! ### The catalog store -/

namespace CatalogLeaseStore

theorem le_foldl_max (tokens : List Nat) (m : Nat) : m ≤ tokens.foldl max m ∧ ∀ t ∈ tokens, t ≤ tokens.foldl max m := by
  induction tokens generalizing m with
  | nil => simp
  | cons t tokens ih =>
    obtain ⟨hm, ht⟩ := ih (max m t)
    refine ⟨le_trans (le_max_left m t) hm, ?_⟩
    intro t' ht'
    rcases List.mem_cons.1 ht' with rfl | ht'
    · exact le_trans (le_max_right m t') hm
    · exact ht t' ht'

/-- `MAX(fencing_token)` bounds the tokens of the table. -/
theorem le_maxToken (s : CatalogLeaseStore) : ∀ row ∈ s.rows, row.fencingToken ≤ s.maxToken := by
  intro row hr
  exact (le_foldl_max _ 0).2 _ (List.mem_map_of_mem hr)

end CatalogLeaseStore

instance : LawfulLeaseStore CatalogLeaseStore where
  Inv s := Bounded s.rows s.maxToken
  inv_empty := by simp [Bounded, LeaseStore.empty]
  leases_empty := rfl
  apply_inv s now call hb := by
    cases call with
    | acquire jobId barcodes numDrives ttl exclude =>
      simp only [LeaseStore.apply, LeaseStore.acquire, CatalogLeaseStore.acquire]
      split
      · exact hb
      · exact (bounded_append hb _ _).ids (CatalogLeaseStore.le_maxToken _)
    | acquireDriveLeaseAt jobId driveId barcode ttl =>
      simp only [LeaseStore.apply, LeaseStore.acquireDriveLeaseAt, CatalogLeaseStore.acquireDriveLeaseAt]
      split
      · exact hb
      · rw [← newLeases_singleton]
        exact (bounded_append hb [driveId] [barcode]).ids (CatalogLeaseStore.le_maxToken _)
    | heartbeat leaseIds ttl =>
      exact (bounded_map hb fun row => ite_keeps _ (heartbeat_keeps now ttl row)).ids (CatalogLeaseStore.le_maxToken _)
    | setPhysicalDrive leaseId physicalDriveId =>
      exact (bounded_map hb fun row => ite_keeps _ (setPhysical_keeps now physicalDriveId row)).ids
        (CatalogLeaseStore.le_maxToken _)
    | release leaseIds =>
      exact (bounded_map hb fun row => ite_keeps _ (release_keeps now row)).ids (CatalogLeaseStore.le_maxToken _)
  apply_step s now call hb := by
    cases call with
    | acquire jobId barcodes numDrives ttl exclude =>
      simp only [LeaseStore.apply, LeaseStore.acquire, CatalogLeaseStore.acquire]
      split
      · exact .refl now _
      · exact step_acquire hb jobId now ttl barcodes numDrives exclude
    | acquireDriveLeaseAt jobId driveId barcode ttl =>
      simp only [LeaseStore.apply, LeaseStore.acquireDriveLeaseAt, CatalogLeaseStore.acquireDriveLeaseAt]
      split
      · exact .refl now _
      · rename_i hfree
        exact step_acquireAt hb jobId now ttl driveId barcode hfree
    | heartbeat leaseIds ttl => exact .of_map fun row _ => ite_keeps _ (heartbeat_keeps now ttl row)
    | setPhysicalDrive leaseId physicalDriveId =>
      exact .of_map fun row _ => ite_keeps _ (setPhysical_keeps now physicalDriveId row)
    | release leaseIds => exact .of_map fun row _ => ite_keeps _ (release_keeps now row)
  acquire_cases s now jobId barcodes numDrives ttl exclude := by
    simp only [LeaseStore.acquire, LeaseStore.leases, CatalogLeaseStore.acquire]
    split
    · exact .inl rfl
    · exact .inr ⟨s.maxToken, _, by omega, rfl, rfl⟩

/-! ### Runs of calls -/

section

variable {S : Type} [LeaseStore S] [LawfulLeaseStore S]

open LawfulLeaseStore

/-- A sequence of calls is a run of the ledger. -/
theorem run_of_clocked {s : S} {t t' : Int} {calls : List (Int × LeaseCall)} (hs : Inv s) (hc : Clocked t calls t') :
    leaseView.Run t (leases s) t' (leases (applyAll s calls)) ∧ Inv (applyAll s calls) := by
  induction calls generalizing s t with
  | nil => exact ⟨.wait .refl hc, hs⟩
  | cons call calls ih =>
    obtain ⟨now, c⟩ := call
    obtain ⟨ht, hc⟩ := hc
    obtain ⟨hr, hi⟩ := ih (apply_inv s now c hs) hc
    exact ⟨((View.Run.refl.wait ht).step (apply_step s now c hs)).trans hr, hi⟩

/-- The leases of a run from the empty store are sound. -/
theorem sound_of_clocked {t t' : Int} {calls : List (Int × LeaseCall)} (hc : Clocked t calls t') :
    leaseView.Sound t' (leases (applyAll (LeaseStore.empty : S) calls)) := by
  refine (run_of_clocked inv_empty hc).1.sound ?_
  rw [leases_empty]
  exact List.Pairwise.nil

/-- What is called after a run from the empty store is a run of the ledger too. -/
theorem run_after_clocked {t₀ t t' : Int} {calls calls' : List (Int × LeaseCall)} (hc : Clocked t₀ calls t)
    (hc' : Clocked t calls' t') :
    leaseView.Run t (leases (applyAll (LeaseStore.empty : S) calls)) t'
      (leases (applyAll (applyAll (LeaseStore.empty : S) calls) calls')) :=
  (run_of_clocked (run_of_clocked inv_empty hc).2 hc').1

end

/-- What is asked of a lease store, over every run of calls from the empty store under a clock that never goes back. -/
structure LeaseStoreSafe (S : Type) [LeaseStore S] : Prop where
  /-- No two live leases hold the same drive. -/
  exclusive : ∀ (t₀ t : Int) (calls : List (Int × LeaseCall)), Clocked t₀ calls t →
    (leases (applyAll (LeaseStore.empty : S) calls)).Pairwise fun lease lease' =>
      lease.live t → lease'.live t → lease.driveId ≠ lease'.driveId
  /-- Fencing tokens grow in the order of acquisition. -/
  tokens : ∀ (t₀ t : Int) (calls : List (Int × LeaseCall)), Clocked t₀ calls t →
    (leases (applyAll (LeaseStore.empty : S) calls)).Pairwise fun lease lease' => lease.fencingToken < lease'.fencingToken
  /-- A lease that is not live at `t` is still there and not live at `t'`, whatever was called in between. -/
  fenced : ∀ (t₀ t t' : Int) (calls calls' : List (Int × LeaseCall)), Clocked t₀ calls t → Clocked t calls' t' →
    ∀ lease ∈ leases (applyAll (LeaseStore.empty : S) calls), lease.live t = false →
      ∃ lease' ∈ leases (applyAll (applyAll (LeaseStore.empty : S) calls) calls'),
        lease'.id = lease.id ∧ lease'.live t' = false
  /-- Once `verify` has raised for a handle of a granted lease, it raises for that handle for ever. -/
  verify : ∀ (t₀ t t' : Int) (calls calls' : List (Int × LeaseCall)), Clocked t₀ calls t → Clocked t calls' t' →
    ∀ handle handle' : DriveHandle,
      (∃ lease ∈ leases (applyAll (LeaseStore.empty : S) calls), lease.id = handle.leaseId) →
      handle'.leaseId = handle.leaseId → handle'.fencingToken = handle.fencingToken →
      (handle.released = true → handle'.released = true) →
      OpenBlade.verify (applyAll (LeaseStore.empty : S) calls) t handle ≠ .ok () →
        OpenBlade.verify (applyAll (applyAll (LeaseStore.empty : S) calls) calls') t' handle' =
          .error { cls := .staleLease, message := staleLeaseMessage handle' }
  /-- `acquire` takes nothing, or one free drive outside `exclude` for each barcode, in order. -/
  acquire : ∀ (t₀ now : Int) (calls : List (Int × LeaseCall)), Clocked t₀ calls now →
    ∀ (jobId : JobId) (barcodes : List Barcode) (numDrives : Nat) (ttl : Int) (exclude : List Int),
      let s := applyAll (LeaseStore.empty : S) calls
      let r := LeaseStore.acquire s now jobId barcodes numDrives ttl exclude
      r = (none, s) ∨ ∃ acquired, r.1 = some acquired ∧ leases r.2 = leases s ++ acquired ∧
        acquired.map DriveLease.barcode = barcodes ∧ (acquired.map DriveLease.driveId).Nodup ∧
        ∀ lease ∈ acquired, lease.driveId ∉ exclude ∧ 0 ≤ lease.driveId ∧ lease.driveId < numDrives ∧
          ∀ held ∈ leases s, held.live now → held.driveId ≠ lease.driveId

namespace LeaseAux

variable {S : Type} [LeaseStore S]

/-- `is_live`, when ids name one lease each. -/
theorem isLive_iff {s : S} {t : Int} (hs : leaseView.Sound t (leases s)) (id token : Nat) :
    isLive s t id token = true ↔ ∃ lease ∈ leases s, lease.id = id ∧ lease.fencingToken = token ∧ lease.live t = true := by
  unfold isLive
  constructor
  · intro h
    obtain ⟨lease, hf, hl⟩ := (Option.any_eq_true _ _).1 h
    have hid : lease.id = id := by simpa using List.find?_some hf
    simp only [Bool.and_eq_true, beq_iff_eq] at hl
    exact ⟨lease, List.mem_of_find?_eq_some hf, hid, hl.1, hl.2⟩
  · intro h
    obtain ⟨lease, hm, hid, htok, hlive⟩ := h
    have hsome : ((leases s).find? fun lease => lease.id = id).isSome :=
      List.find?_isSome.2 ⟨lease, hm, by simp [hid]⟩
    obtain ⟨found, hf⟩ := Option.isSome_iff_exists.1 hsome
    have hid' : found.id = id := by simpa using List.find?_some hf
    have hsame : found = lease := hs.eq_of_id hm (List.mem_of_find?_eq_some hf) (hid'.trans hid.symm)
    rw [hf, hsame]
    simp [htok, hlive]

/-- `verify` raises iff the handle is released or its lease is not live. -/
theorem verify_eq_ok_iff (s : S) (t : Int) (handle : DriveHandle) :
    verify s t handle = .ok () ↔
      handle.released = false ∧ isLive s t handle.leaseId handle.fencingToken = true := by
  unfold verify
  cases handle.released <;> cases isLive s t handle.leaseId handle.fencingToken <;> simp

/-- There is one thing `verify` raises. -/
theorem verify_eq_error {s : S} {t : Int} {handle : DriveHandle} (h : verify s t handle ≠ .ok ()) :
    verify s t handle = .error { cls := .staleLease, message := staleLeaseMessage handle } := by
  unfold verify at h ⊢
  split at h
  · rename_i hc
    rw [if_pos hc]
  · exact absurd rfl h

variable [LawfulLeaseStore S]

/-- Safety of any store whose calls are steps of its ledger. -/
theorem safe_of_lawful : LeaseStoreSafe S where
  exclusive t₀ t calls hc := by
    refine List.Pairwise.imp ?_ (sound_of_clocked hc)
    intro lease lease' ha
    exact ha.key
  tokens t₀ t calls hc := by
    refine List.Pairwise.imp ?_ (sound_of_clocked hc)
    intro lease lease' ha
    exact ha.token
  fenced t₀ t t' calls calls' hc hc' lease hl hdead := by
    have hr : leaseView.Run t (leases (applyAll (LeaseStore.empty : S) calls)) t' _ := run_after_clocked hc hc'
    obtain ⟨lease', hm, hid⟩ := hr.exists_id hl
    refine ⟨lease', hm, hid, ?_⟩
    have hlive := (hr.fenced (sound_of_clocked hc) hl lease' hm hid).2.2
    by_contra h
    have halive : lease'.live t' = true := by simpa using h
    exact absurd (hlive halive) (by simp [leaseView, hdead])
  verify t₀ t t' calls calls' hc hc' handle handle' hgranted hid htok hrel hraise := by
    have hr : leaseView.Run t (leases (applyAll (LeaseStore.empty : S) calls)) t' _ := run_after_clocked hc hc'
    have hs : leaseView.Sound t (leases (applyAll (LeaseStore.empty : S) calls)) := sound_of_clocked hc
    refine verify_eq_error fun hok => hraise ((verify_eq_ok_iff _ _ _).2 ?_)
    obtain ⟨hnrel, hlive'⟩ := (verify_eq_ok_iff _ _ _).1 hok
    -- the later lease of the handle is the granted one, so it was live already
    obtain ⟨lease', hm', hid', htok', hl'⟩ := (isLive_iff (hr.sound hs) _ _).1 hlive'
    obtain ⟨lease, hm, hlid⟩ := hgranted
    have hsame : lease'.id = lease.id := by rw [hid', hid, hlid]
    obtain ⟨_, htoken, hl⟩ := hr.fenced hs hm lease' hm' hsame
    refine ⟨?_, (isLive_iff hs _ _).2 ⟨lease, hm, hlid, ?_, hl hl'⟩⟩
    · by_contra h
      exact absurd (hrel (by simpa using h)) (by simp [hnrel])
    · rw [← htok, ← htok']
      exact htoken.symm
  acquire t₀ now calls hc jobId barcodes numDrives ttl exclude := by
    intro s r
    rcases LawfulLeaseStore.acquire_cases s now jobId barcodes numDrives ttl exclude with h | ⟨token, s', hle, hr, hls⟩
    · exact .inl h
    · obtain ⟨hb, hd⟩ := newLeases_map jobId now ttl (leases s).length token hle
      refine .inr ⟨_, by rw [show r = _ from hr], by rw [show r = _ from hr]; exact hls, hb, ?_, ?_⟩
      · rw [hd]
        exact List.Nodup.sublist (List.take_sublist _ _) (freeDrives_nodup _ _ _ _)
      · intro lease hl
        obtain ⟨⟨h0, hn⟩, hfree, hex⟩ := mem_freeDrives.1 (newLeases_mem hl).1
        exact ⟨hex, h0, hn, hfree⟩

end LeaseAux

/-- Both lease stores are safe, over every run of calls. -/
theorem leaseStores_safe : LeaseStoreSafe InMemoryLeaseStore ∧ LeaseStoreSafe CatalogLeaseStore :=
  ⟨safe_of_lawful, safe_of_lawful⟩

end OpenBlade
