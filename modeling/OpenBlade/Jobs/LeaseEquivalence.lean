import OpenBlade.Effects.Automaton
import OpenBlade.Jobs.LeaseSafety

/-!
# The two lease stores agree

Calls of either store with their answers. `InMemoryLeaseStore` and `CatalogLeaseStore` answer every sequence of calls alike, at
whatever clock readings: leases are granted on the same drives with the same tokens, the same calls are refused, and the same
leases are live.
-/

namespace OpenBlade

open Effects LeaseAux

/-- A call of a lease store. -/
inductive LeaseStoreCall where
  | acquire (jobId : JobId) (barcodes : List Barcode) (numDrives : Nat) (ttl : Int) (exclude : List Int)
  | acquireDriveLeaseAt (jobId : JobId) (driveId : Int) (barcode : Barcode) (ttl : Int)
  | heartbeat (leaseIds : List Nat) (ttl : Int)
  | setPhysicalDrive (leaseId : Nat) (physicalDriveId : Int)
  | release (leaseIds : List Nat)
  | isLive (leaseId fencingToken : Nat)
  | liveLeases
  deriving Repr, DecidableEq

/-- What a call of a lease store returns. -/
inductive LeaseStoreAnswer where
  | granted (leases : Option (List DriveLease))
  | grantedAt (lease : Option DriveLease)
  | done
  | isLive (live : Bool)
  | liveLeases (leases : List DriveLease)
  deriving Repr, DecidableEq

/-- What a store answers to a call at a clock reading, and what the call leaves; `live` is how the store lists live leases. -/
def LeaseStore.call {S : Type} [LeaseStore S] (live : S → Int → List DriveLease) (s : S) (now : Int) :
    LeaseStoreCall → LeaseStoreAnswer × S
  | .acquire jobId barcodes numDrives ttl exclude =>
    let r := LeaseStore.acquire s now jobId barcodes numDrives ttl exclude
    (.granted r.1, r.2)
  | .acquireDriveLeaseAt jobId driveId barcode ttl =>
    let r := LeaseStore.acquireDriveLeaseAt s now jobId driveId barcode ttl
    (.grantedAt r.1, r.2)
  | .heartbeat leaseIds ttl => (.done, LeaseStore.heartbeat s now leaseIds ttl)
  | .setPhysicalDrive leaseId physicalDriveId => (.done, LeaseStore.setPhysicalDrive s leaseId physicalDriveId)
  | .release leaseIds => (.done, LeaseStore.release s now leaseIds)
  | .isLive leaseId fencingToken => (.isLive (LeaseStore.isLive s now leaseId fencingToken), s)
  | .liveLeases => (.liveLeases (live s now), s)

/-- `InMemoryLeaseStore` as a system that answers calls, each at its clock reading. -/
def inMemoryLeases : Automaton (Int × LeaseStoreCall) LeaseStoreAnswer where
  State := InMemoryLeaseStore
  init := LeaseStore.empty
  step s call := LeaseStore.call LeaseStore.liveLeases s call.1 call.2

/-- `CatalogLeaseStore` as a system that answers calls, each at its clock reading. -/
def catalogLeases : Automaton (Int × LeaseStoreCall) LeaseStoreAnswer where
  State := CatalogLeaseStore
  init := LeaseStore.empty
  step s call := LeaseStore.call CatalogLeaseStore.liveLeases s call.1 call.2

namespace LeaseEquivAux

/-- Updating the leases named in a list one after the other is updating every lease that is named, if updating twice is updating
once. -/
theorem foldl_updateLease_eq {f : DriveLease → DriveLease} (hid : ∀ lease, (f lease).id = lease.id)
    (hidem : ∀ lease, f (f lease) = f lease) (ids : List Nat) (ls : List DriveLease) :
    ids.foldl (fun ls id => updateLease ls id f) ls = ls.map fun lease => if lease.id ∈ ids then f lease else lease := by
  induction ids generalizing ls with
  | nil => simp
  | cons i ids ih =>
    rw [List.foldl_cons, ih, updateLease, List.map_map]
    refine List.map_congr_left fun lease _ => ?_
    by_cases hi : lease.id = i
    · by_cases hm : lease.id ∈ ids <;> simp_all
    · simp [hi]

/-- A heartbeat that is repeated at one clock reading changes nothing more. -/
theorem heartbeat_twice (now ttl : Int) (lease : DriveLease) :
    (lease.heartbeat now ttl).heartbeat now ttl = lease.heartbeat now ttl := by
  unfold DriveLease.heartbeat
  by_cases hl : lease.live now = true <;> simp [hl]

/-- A lease is released once. -/
theorem release_twice (now : Int) (lease : DriveLease) : (lease.release now).release now = lease.release now := by
  unfold DriveLease.release
  cases hr : lease.releasedAt <;> simp [hr]

/-- The tokens of new leases count on from `token`. -/
theorem foldl_max_newLeases (jobId : JobId) (now ttl : Int) (id token : Nat) (ds : List Int) (bs : List Barcode) :
    ((newLeases jobId now ttl id token ds bs).map DriveLease.fencingToken).foldl max token =
      token + (newLeases jobId now ttl id token ds bs).length := by
  induction ds generalizing id token bs with
  | nil => cases bs <;> rfl
  | cons d ds ih =>
    cases bs with
    | nil => rfl
    | cons b bs =>
      have hmax : max token (token + 1) = token + 1 := by omega
      simp only [newLeases, List.map_cons, List.foldl_cons, List.length_cons, hmax, ih]
      omega

/-- `MAX(fencing_token)` after new leases. -/
theorem maxToken_append (s : CatalogLeaseStore) (jobId : JobId) (now ttl : Int) (id : Nat) (ds : List Int)
    (bs : List Barcode) :
    CatalogLeaseStore.maxToken { rows := s.rows ++ newLeases jobId now ttl id s.maxToken ds bs } =
      s.maxToken + (newLeases jobId now ttl id s.maxToken ds bs).length := by
  rw [← foldl_max_newLeases]
  simp [CatalogLeaseStore.maxToken, List.foldl_append]

/-- Changes that keep every token keep the greatest. -/
theorem maxToken_map {rows : List DriveLease} {g : DriveLease → DriveLease}
    (hg : ∀ lease, (g lease).fencingToken = lease.fencingToken) :
    CatalogLeaseStore.maxToken { rows := rows.map g } = CatalogLeaseStore.maxToken { rows := rows } := by
  have hmap : DriveLease.fencingToken ∘ g = DriveLease.fencingToken := funext hg
  simp [CatalogLeaseStore.maxToken, List.map_map, hmap]

/-- The tokens of new leases increase. -/
theorem newLeases_increase (jobId : JobId) (now ttl : Int) (id token : Nat) (ds : List Int) (bs : List Barcode) :
    (newLeases jobId now ttl id token ds bs).Pairwise fun a b => a.fencingToken < b.fencingToken := by
  induction ds generalizing id token bs with
  | nil => cases bs <;> exact List.Pairwise.nil
  | cons d ds ih =>
    cases bs with
    | nil => exact List.Pairwise.nil
    | cons b bs => exact List.pairwise_cons.2 ⟨fun lease hl => (newLeases_mem hl).2.2, ih _ _ _⟩

/-- The relation of the two stores: one list of leases, in the order of their tokens, and one last token. -/
structure Same (memory : InMemoryLeaseStore) (catalog : CatalogLeaseStore) : Prop where
  leases : memory.leases = catalog.rows
  token : memory.lastToken = catalog.maxToken
  increasing : catalog.rows.Pairwise fun a b => a.fencingToken < b.fencingToken

/-- Both stores append the leases of one grant. -/
theorem Same.append {s : InMemoryLeaseStore} {t : CatalogLeaseStore} (h : Same s t) (jobId : JobId) (now ttl : Int) (id : Nat)
    (ds : List Int) (bs : List Barcode) :
    Same
      { leases := s.leases ++ newLeases jobId now ttl id s.lastToken ds bs
        lastToken := s.lastToken + (newLeases jobId now ttl id s.lastToken ds bs).length }
      { rows := t.rows ++ newLeases jobId now ttl id t.maxToken ds bs } := by
  rw [h.leases, h.token]
  refine ⟨rfl, (maxToken_append t jobId now ttl id ds bs).symm, ?_⟩
  refine List.pairwise_append.2 ⟨h.increasing, newLeases_increase _ _ _ _ _ _ _, ?_⟩
  intro old hold new hnew
  have hle := t.le_maxToken old hold
  have hlt := (newLeases_mem hnew).2.2
  omega

/-- Both stores change their leases alike. -/
theorem Same.map {s : InMemoryLeaseStore} {t : CatalogLeaseStore} (h : Same s t) {g : DriveLease → DriveLease}
    (hg : ∀ lease, (g lease).fencingToken = lease.fencingToken) :
    Same { s with leases := s.leases.map g } { rows := t.rows.map g } := by
  rw [h.leases]
  refine ⟨rfl, h.token.trans (maxToken_map hg).symm, ?_⟩
  exact List.pairwise_map.2 (h.increasing.imp fun {a b} hab => by rw [hg a, hg b]; exact hab)

/-- `ORDER BY fencing_token` is the order of acquisition. -/
theorem Same.liveLeases {s : InMemoryLeaseStore} {t : CatalogLeaseStore} (h : Same s t) (now : Int) :
    LeaseStore.liveLeases s now = t.liveLeases now := by
  have hsorted : (t.rows.filter fun row => row.live now).Pairwise fun a b => a.fencingToken ≤ b.fencingToken :=
    (h.increasing.imp fun hab => Nat.le_of_lt hab).filter _
  unfold CatalogLeaseStore.liveLeases LeaseStore.liveLeases
  rw [hsorted.insertionSort_eq, ← h.leases]
  rfl

/-- A lease changed or not changed keeps its token. -/
theorem token_ite {lease lease' : DriveLease} (h : lease'.fencingToken = lease.fencingToken) (c : Prop) [Decidable c] :
    (if c then lease' else lease).fencingToken = lease.fencingToken := by
  split
  · exact h
  · rfl

/-- Every call is answered alike and keeps the relation. -/
theorem same_call {s : InMemoryLeaseStore} {t : CatalogLeaseStore} (h : Same s t) (now : Int) (call : LeaseStoreCall) :
    (LeaseStore.call LeaseStore.liveLeases s now call).1 = (LeaseStore.call CatalogLeaseStore.liveLeases t now call).1 ∧
      Same (LeaseStore.call LeaseStore.liveLeases s now call).2 (LeaseStore.call CatalogLeaseStore.liveLeases t now call).2 := by
  cases call with
  | acquire jobId barcodes numDrives ttl exclude =>
    have happend := h.append jobId now ttl s.leases.length (freeDrives s.leases now numDrives exclude) barcodes
    simp only [LeaseStore.call, LeaseStore.acquire, InMemoryLeaseStore.acquire, CatalogLeaseStore.acquire, ← h.leases]
    split
    · exact ⟨rfl, h⟩
    · rw [← h.leases] at happend
      exact ⟨by rw [h.token], happend⟩
  | acquireDriveLeaseAt jobId driveId barcode ttl =>
    have happend := h.append jobId now ttl s.leases.length [driveId] [barcode]
    simp only [LeaseStore.call, LeaseStore.acquireDriveLeaseAt, InMemoryLeaseStore.acquireDriveLeaseAt,
      CatalogLeaseStore.acquireDriveLeaseAt, ← h.leases]
    split
    · exact ⟨rfl, h⟩
    · rw [← h.leases] at happend
      exact ⟨by rw [h.token], happend⟩
  | heartbeat leaseIds ttl =>
    have hid : ∀ lease : DriveLease, (lease.heartbeat now ttl).id = lease.id := fun lease => (heartbeat_keeps now ttl lease).id
    have htok : ∀ lease : DriveLease, (lease.heartbeat now ttl).fencingToken = lease.fencingToken :=
      fun lease => (heartbeat_keeps now ttl lease).token
    simp only [LeaseStore.call, LeaseStore.heartbeat, InMemoryLeaseStore.heartbeat, CatalogLeaseStore.heartbeat,
      foldl_updateLease_eq hid (heartbeat_twice now ttl)]
    exact ⟨trivial, h.map fun lease => token_ite (htok lease) _⟩
  | setPhysicalDrive leaseId physicalDriveId =>
    have htok : ∀ lease : DriveLease,
        (if lease.id = leaseId then { lease with physicalDriveId := some physicalDriveId } else lease).fencingToken =
          lease.fencingToken := by
      intro lease
      split <;> rfl
    exact ⟨rfl, h.map htok⟩
  | release leaseIds =>
    have hid : ∀ lease : DriveLease, (lease.release now).id = lease.id := fun lease => (release_keeps now lease).id
    have htok : ∀ lease : DriveLease, (lease.release now).fencingToken = lease.fencingToken :=
      fun lease => (release_keeps now lease).token
    simp only [LeaseStore.call, LeaseStore.release, InMemoryLeaseStore.release, CatalogLeaseStore.release,
      foldl_updateLease_eq hid (release_twice now)]
    exact ⟨trivial, h.map fun lease => token_ite (htok lease) _⟩
  | isLive leaseId fencingToken =>
    simp only [LeaseStore.call, LeaseStore.isLive, LeaseStore.leases, h.leases]
    exact ⟨trivial, h⟩
  | liveLeases =>
    simp only [LeaseStore.call, h.liveLeases]
    exact ⟨trivial, h⟩

theorem bisimulation : Automaton.Bisimulation (M := inMemoryLeases) (N := catalogLeases) Same where
  init := ⟨rfl, rfl, List.Pairwise.nil⟩
  answer _ _ call h := (same_call h call.1 call.2).1
  step _ _ call h := (same_call h call.1 call.2).2

end LeaseEquivAux

/-- A lease is dead at the very moment it expires, and a heartbeat does not bring it back. -/
example : catalogLeases.answers
    [(0, .acquire "a" ["T1"] 1 10 []), (10, .isLive 0 1), (10, .heartbeat [0] 10), (11, .acquire "b" ["T2"] 1 10 [])] =
    inMemoryLeases.answers
    [(0, .acquire "a" ["T1"] 1 10 []), (10, .isLive 0 1), (10, .heartbeat [0] 10), (11, .acquire "b" ["T2"] 1 10 [])] := by
  decide

end OpenBlade
