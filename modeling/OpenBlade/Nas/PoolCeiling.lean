import Mathlib
import OpenBlade.Effects.Automaton
import OpenBlade.Nas.Capacity

/-!
# Bookings under the ceiling

Bookings and releases of any pools over one library, in any order, each booking one transaction. A pool alone never books more than
its ceiling as long as no plan has a negative size (`CeilingAux.pool_within`). All pools together do not either, where each booking
that fits beside its own pool's bookings fits beside those of the other pools too (`pools_within_ceiling`). The transaction does not
look at the other pools: two of them book the same bytes (`two_pools_book_one_tape`).
-/

namespace OpenBlade

open Effects

/-- What happens to the table of bookings. The clock reading of a booking is taken before its transaction, so that it may be older
than one that was used already; the library may not answer it; and a release may fail. -/
inductive BookingCall where
  | book (planId : String) (plan : ArchivePlan) (now : DateTime) (online : Bool)
  | release (planId : String) (fails : Bool)

/-- The bookings, and the latest clock reading that was used. -/
structure Bookings where
  table : ReservationTable := {}
  clock : DateTime

/-- A library and a catalog that several pools draw on. -/
structure PoolMedia where
  upper : String → String
  cartridges : List Cartridge
  slots : List (Nat × Option Barcode)

namespace PoolMedia

variable (media : PoolMedia)

/-- What the inventory tells of the slots, if it does. -/
def inventorySlots (online : Bool) : Option (List (Nat × Option Barcode)) := if online then some media.slots else none

/-- The usable capacity of the library's data tapes. -/
def capacity : Int := poolCeiling media.upper media.cartridges (some media.slots)

/-- One call: what it returns or raises, and what it leaves. -/
def call (s : Bookings) : BookingCall → Except Exn Unit × Bookings
  | .book planId plan now online =>
    let (r, table) := bookPlanCapacity media.upper media.cartridges (media.inventorySlots online) s.table planId plan now
    (r, { table, clock := max s.clock now })
  | .release planId fails => (.ok (), { s with table := releasePlanCapacity s.table planId fails })

/-- The bookings as a system that answers calls, from the time on it is started at. -/
abbrev bookings (start : DateTime) : Automaton BookingCall (Except Exn Unit) where
  State := Bookings
  init := { clock := start }
  step := media.call

end PoolMedia

namespace Bookings

/-- The unexpired bookings of a pool. -/
def reserved (s : Bookings) (poolId : String) (now : DateTime) : Int := s.table.reservedBytes poolId now

/-- The unexpired bookings of all pools. -/
def reservedInAll (s : Bookings) (now : DateTime) : Int := held (fun row => now < row.expires) NasReservation.bytes s.table.rows

/-- No plan that is booked has a negative size. -/
def Sized (_ : Bookings) : BookingCall → Prop
  | .book _ plan _ _ => 0 ≤ plan.placedBytes
  | .release _ _ => True

/-- A plan that is booked has no negative size, and if it fits beside the bookings of its own pool, it fits beside those of all
pools. -/
def FitsBeside (media : PoolMedia) (s : Bookings) : BookingCall → Prop
  | .book _ plan now _ => 0 ≤ plan.placedBytes ∧ ∀ poolId, plan.pool = some poolId →
      plan.placedBytes + s.reserved poolId now ≤ media.capacity → plan.placedBytes + s.reservedInAll now ≤ media.capacity
  | .release _ _ => True

end Bookings

namespace CeilingAux

/-! ### The ceiling -/

section ceiling

variable {d e : Dict Barcode Int} {upper : String → String} {cartridges : List Cartridge}

/-- What one dictionary knows, another knows as well. -/
structure KnownIn (d e : Dict Barcode Int) : Prop where
  nodup : d.keys.Nodup
  nodup' : e.keys.Nodup
  known : ∀ barcode a, d.get? barcode = some a → e.get? barcode = some a
  nonneg : ∀ barcode a, e.get? barcode = some a → 0 ≤ a

theorem KnownIn.set (h : KnownIn d e) (barcode : Barcode) {a : Int} (ha : 0 ≤ a) : KnownIn (d.set barcode a) (e.set barcode a) where
  nodup := Dict.nodup_keys_set h.nodup
  nodup' := Dict.nodup_keys_set h.nodup'
  known := by
    intro barcode' a' hget
    rw [Dict.get?_set] at hget ⊢
    split at hget
    · rename_i heq
      rw [if_pos heq]
      exact hget
    · rename_i hne
      rw [if_neg hne]
      exact h.known barcode' a' hget
  nonneg := by
    intro barcode' a' hget
    rw [Dict.get?_set] at hget
    split at hget
    · obtain rfl := Option.some.inj hget
      exact ha
    · exact h.nonneg barcode' a' hget

theorem KnownIn.foldl (h : KnownIn d e) (cartridges : List Cartridge) :
    KnownIn (cartridges.foldl addCartridgeCapacity d) (cartridges.foldl addCartridgeCapacity e) := by
  induction cartridges generalizing d e with
  | nil => exact h
  | cons cartridge cartridges ih =>
    refine ih ?_
    unfold addCartridgeCapacity
    split
    · exact h
    · exact h.set _ (le_max_left _ _)

/-- What is known without the slots is known with them. -/
theorem knownIn_slots (slots : List (Nat × Option Barcode)) (h : KnownIn [] e) : KnownIn [] (slots.foldl addSlotCapacity e) := by
  induction slots generalizing e with
  | nil => exact h
  | cons slot slots ih =>
    refine ih ?_
    unfold addSlotCapacity
    split
    · rename_i barcode _
      have hset := h.set barcode (show 0 ≤ defaultTapeCapacity by decide)
      exact { nodup := h.nodup, nodup' := hset.nodup', known := by simp, nonneg := hset.nonneg }
    · exact h

theorem knownIn_nil : KnownIn [] [] where
  nodup := List.nodup_nil
  nodup' := List.nodup_nil
  known _ _ h := h
  nonneg _ _ h := nomatch h

/-- The ceiling adds up what is known of the data tapes. -/
theorem poolCeiling_eq (slots : Option (List (Nat × Option Barcode))) :
    poolCeiling upper cartridges slots = held (isDataTape upper cartridges)
      (fun barcode => ((knownCapacities cartridges slots).get? barcode).getD 0) (knownCapacities cartridges slots).keys := by
  rw [← held_perm (List.perm_insertionSort (· ≤ ·) _)]
  simp [poolCeiling, serverDataTapes, held, Function.comp_def]

/-- Where the inventory does not answer, the ceiling is no higher. -/
theorem poolCeiling_offline_le (slots : List (Nat × Option Barcode)) :
    poolCeiling upper cartridges none ≤ poolCeiling upper cartridges (some slots) := by
  have hknown : KnownIn (knownCapacities cartridges none) (knownCapacities cartridges (some slots)) :=
    (knownIn_slots slots knownIn_nil).foldl cartridges
  have hvalue : ∀ barcode ∈ (knownCapacities cartridges none).keys, (knownCapacities cartridges none).get? barcode =
      (knownCapacities cartridges (some slots)).get? barcode := by
    intro barcode hbarcode
    obtain ⟨⟨key, a⟩, hmem, rfl⟩ := List.mem_map.1 hbarcode
    have hget := Dict.get?_of_mem hknown.nodup hmem
    rw [hget, hknown.known _ _ hget]
  have hsub : (knownCapacities cartridges none).keys ⊆ (knownCapacities cartridges (some slots)).keys := by
    intro barcode hbarcode
    obtain ⟨⟨key, a⟩, hmem, rfl⟩ := List.mem_map.1 hbarcode
    exact List.mem_map.2 ⟨(key, a), Dict.mem_of_get? (hknown.known _ _ (Dict.get?_of_mem hknown.nodup hmem)), rfl⟩
  rw [poolCeiling_eq, poolCeiling_eq]
  calc held (isDataTape upper cartridges) (fun barcode => ((knownCapacities cartridges none).get? barcode).getD 0)
        (knownCapacities cartridges none).keys
      = held (isDataTape upper cartridges) (fun barcode => ((knownCapacities cartridges (some slots)).get? barcode).getD 0)
          (knownCapacities cartridges none).keys := held_amount_congr fun barcode hbarcode => by rw [hvalue barcode hbarcode]
    _ ≤ _ := by
        refine held_le_of_subperm (hknown.nodup.subperm hsub) fun barcode _ => ?_
        cases hget : (knownCapacities cartridges (some slots)).get? barcode with
        | none => exact le_refl _
        | some a => exact hknown.nonneg barcode a hget

end ceiling

/-! ### What a call does -/

section call

variable {media : PoolMedia} {s : Bookings} {c : BookingCall}

theorem capacity_online_le (online : Bool) : poolCeiling media.upper media.cartridges (media.inventorySlots online) ≤ media.capacity := by
  cases online with
  | true => exact le_refl _
  | false => exact poolCeiling_offline_le _

/-- A booking leaves the table as it is, or adds a row that fits beside the unexpired rows of its pool. -/
theorem bookPlanCapacity_cases (upper : String → String) (cartridges : List Cartridge) (slots : Option (List (Nat × Option Barcode)))
    (table : ReservationTable) (planId : String) (plan : ArchivePlan) (now : DateTime) :
    (bookPlanCapacity upper cartridges slots table planId plan now).2 = table ∨
      ∃ poolId expiresAt, plan.pool = some poolId ∧
        plan.placedBytes + table.reservedBytes poolId now ≤ poolCeiling upper cartridges slots ∧
        (bookPlanCapacity upper cartridges slots table planId plan now).2 = table.insert poolId plan.placedBytes planId expiresAt := by
  unfold bookPlanCapacity
  -- the sum is not evaluated
  generalize now.add planReservationTtl = expiry
  cases plan.pool with
  | none => exact .inl rfl
  | some poolId =>
    cases expiry with
    | none => exact .inl rfl
    | some expiresAt =>
      dsimp only
      unfold ReservationTable.reserveNasCapacity
      by_cases hroom : plan.placedBytes > poolCeiling upper cartridges slots - table.reservedBytes poolId now
      · rw [if_pos hroom]
        exact .inl rfl
      · rw [if_neg hroom]
        cases fitsInteger plan.placedBytes with
        | false => exact .inl rfl
        | true => exact .inr ⟨poolId, expiresAt, rfl, Int.add_le_of_le_sub_right (Int.not_lt.1 hroom), rfl⟩

/-- A call books a plan that fits beside the bookings of its pool, or it leaves some of the bookings. -/
theorem call_cases (media : PoolMedia) (s : Bookings) (c : BookingCall) :
    ((media.call s c).2.table.rows.Sublist s.table.rows ∧ s.clock ≤ (media.call s c).2.clock) ∨
      ∃ planId plan now online poolId expiresAt, c = .book planId plan now online ∧ plan.pool = some poolId ∧
        plan.placedBytes + s.reserved poolId now ≤ media.capacity ∧
        (media.call s c).2 = { table := s.table.insert poolId plan.placedBytes planId expiresAt, clock := max s.clock now } := by
  cases c with
  | release planId fails =>
    refine .inl ⟨?_, le_refl _⟩
    unfold PoolMedia.call releasePlanCapacity
    cases fails with
    | true => exact List.Sublist.refl _
    | false => exact List.filter_sublist
  | book planId plan now online =>
    have hceiling : poolCeiling media.upper media.cartridges (media.inventorySlots online) ≤ media.capacity :=
      capacity_online_le online
    have hcall : (media.call s (.book planId plan now online)).2 =
        { table := (bookPlanCapacity media.upper media.cartridges (media.inventorySlots online) s.table planId plan now).2
          clock := max s.clock now } := rfl
    rw [hcall]
    rcases bookPlanCapacity_cases media.upper media.cartridges (media.inventorySlots online) s.table planId plan now with
      hsame | ⟨poolId, expiresAt, hpool, hroom, hadded⟩
    · rw [hsame]
      exact .inl ⟨List.Sublist.refl _, le_max_left _ _⟩
    · rw [hadded]
      exact .inr ⟨planId, plan, now, online, poolId, expiresAt, rfl, hpool, hroom.trans hceiling, rfl⟩

end call

/-! ### Bookings of a kind -/

/-- No booking is negative, and the unexpired bookings of a kind come to no more than `capacity`. -/
structure Within (kind : NasReservation → Bool) (capacity : Int) (s : Bookings) : Prop where
  sized : ∀ row ∈ s.table.rows, 0 ≤ row.bytes
  within : held (fun row => kind row && decide (s.clock < row.expires)) NasReservation.bytes s.table.rows ≤ capacity

section within

variable {kind : NasReservation → Bool} {capacity : Int} {media : PoolMedia} {s : Bookings} {c : BookingCall}

/-- Later on no more is unexpired. -/
theorem held_later {rows : List NasReservation} (hsized : ∀ row ∈ rows, 0 ≤ row.bytes) {now later : DateTime} (h : now ≤ later) :
    held (fun row => kind row && decide (later < row.expires)) NasReservation.bytes rows ≤
      held (fun row => kind row && decide (now < row.expires)) NasReservation.bytes rows := by
  refine held_mono (fun row _ hrow => ?_) hsized
  simp only [Bool.and_eq_true, decide_eq_true_iff] at hrow ⊢
  exact ⟨hrow.1, lt_of_le_of_lt h hrow.2⟩

/-- From now on the bookings of a kind stay within what they are within now. -/
theorem Within.at (h : Within kind capacity s) {later : DateTime} (hlater : s.clock ≤ later) :
    held (fun row => kind row && decide (later < row.expires)) NasReservation.bytes s.table.rows ≤ capacity :=
  (held_later h.sized hlater).trans h.within

/-- A call keeps the bookings of a kind within a capacity if a plan of the kind that it books fits beside those of the kind. -/
theorem Within.call (h : Within kind capacity s) (hsized : s.Sized c)
    (hfits : ∀ planId plan now online poolId expiresAt, c = .book planId plan now online → plan.pool = some poolId →
      plan.placedBytes + s.reserved poolId now ≤ media.capacity →
      kind (s.table.newRow poolId plan.placedBytes planId expiresAt) = true →
      plan.placedBytes + held (fun row => kind row && decide (now < row.expires)) NasReservation.bytes s.table.rows ≤ capacity) :
    Within kind capacity (media.call s c).2 := by
  rcases call_cases media s c with ⟨hsub, hclock⟩ | ⟨planId, plan, now, online, poolId, expiresAt, rfl, hpool, hroom, hleft⟩
  · have hrows : ∀ row ∈ (media.call s c).2.table.rows, 0 ≤ row.bytes := fun row hrow => h.sized row (hsub.subset hrow)
    exact { sized := hrows, within := (held_le_of_subperm hsub.subperm h.sized).trans (h.at hclock) }
  · have hplan : 0 ≤ plan.placedBytes := hsized
    have hrows : (media.call s (.book planId plan now online)).2.table.rows =
        s.table.rows ++ [s.table.newRow poolId plan.placedBytes planId expiresAt] := by rw [hleft]; rfl
    have hnew := hfits planId plan now online poolId expiresAt rfl hpool hroom
    refine { sized := fun row hrow => ?_, within := ?_ }
    · rw [hrows] at hrow
      rcases List.mem_append.1 hrow with hrow | hrow
      · exact h.sized row hrow
      · obtain rfl := List.mem_singleton.1 hrow
        exact hplan
    · have hbefore := h.at (le_max_left s.clock now)
      have hlater : held (fun row => kind row && decide (max s.clock now < row.expires)) NasReservation.bytes s.table.rows ≤
          held (fun row => kind row && decide (now < row.expires)) NasReservation.bytes s.table.rows :=
        held_later h.sized (le_max_right s.clock now)
      rw [hrows, hleft, held_append, held_singleton]
      split
      · rename_i hkind
        have hbytes : (s.table.newRow poolId plan.placedBytes planId expiresAt).bytes = plan.placedBytes := rfl
        have hfit := hnew (Bool.and_eq_true _ _ ▸ hkind).1
        rw [hbytes]
        dsimp only at hbefore hlater ⊢
        omega
      · simpa using hbefore

end within

theorem capacity_nonneg (media : PoolMedia) : 0 ≤ media.capacity := by
  have hknown : KnownIn [] (knownCapacities media.cartridges (some media.slots)) := by
    have hslots := knownIn_slots media.slots knownIn_nil
    have hall := hslots.foldl media.cartridges
    exact { nodup := List.nodup_nil, nodup' := hall.nodup', known := by simp, nonneg := hall.nonneg }
  unfold PoolMedia.capacity
  rw [poolCeiling_eq]
  refine held_le_of_subperm List.nil_subperm fun barcode _ => ?_
  cases hget : (knownCapacities media.cartridges (some media.slots)).get? barcode with
  | none => exact le_refl _
  | some a => exact hknown.nonneg barcode a hget

theorem within_init (media : PoolMedia) (start : DateTime) (kind : NasReservation → Bool) :
    Within kind media.capacity (media.bookings start).init where
  sized := by simp
  within := capacity_nonneg media

end CeilingAux

/-- Now and from now on, the unexpired bookings of each pool come to no more than its ceiling, and those of all pools together to no
more than the library has. -/
def Bookings.WithinCeiling (media : PoolMedia) (s : Bookings) : Prop :=
  ∀ later, s.clock ≤ later → (∀ poolId, s.reserved poolId later ≤ media.capacity) ∧ s.reservedInAll later ≤ media.capacity

/-- In every run of bookings and releases where a plan that fits beside the bookings of its own pool fits beside those of all pools,
no capacity is promised twice. -/
theorem pools_within_ceiling (media : PoolMedia) (start : DateTime) (calls : List BookingCall)
    (h : (media.bookings start).Meets (Bookings.FitsBeside media) (media.bookings start).init calls) :
    ((media.bookings start).after (media.bookings start).init calls).WithinCeiling media := by
  have hall : CeilingAux.Within (fun _ => true) media.capacity
      ((media.bookings start).after (media.bookings start).init calls) := by
    refine h.keeps (fun s c hwithin hfits => ?_) (CeilingAux.within_init media start _)
    cases c with
    | release planId fails => exact hwithin.call trivial fun _ _ _ _ _ _ hbook => nomatch hbook
    | book planId plan now online =>
      refine hwithin.call hfits.1 fun planId' plan' now' online' poolId expiresAt hbook hpool hroom _ => ?_
      obtain ⟨rfl, rfl, rfl, rfl⟩ := BookingCall.book.inj hbook
      simpa [Bookings.reservedInAll] using hfits.2 poolId hpool hroom
  intro later hlater
  have htotal : ((media.bookings start).after (media.bookings start).init calls).reservedInAll later ≤ media.capacity := by
    simpa [Bookings.reservedInAll] using hall.at hlater
  refine ⟨fun poolId => ?_, htotal⟩
  refine (held_mono (fun row _ hrow => ?_) hall.sized).trans htotal
  simp only [decide_eq_true_iff] at hrow ⊢
  exact hrow.2

namespace CeilingExample

/-- A library with one blank tape. -/
def media : PoolMedia := { upper := id, cartridges := [], slots := [(0, some "T00001L9")] }

def plan (pool : String) (bytes : Int) : ArchivePlan := { pool := some pool, totalBytes := bytes }

/-- Two pools book at the epoch. -/
def calls (bytes : Int) : List BookingCall :=
  [.book "plan-a" (plan "pool-a" bytes) .epoch true, .book "plan-b" (plan "pool-b" bytes) .epoch true]

instance (s : Bookings) (c : BookingCall) : Decidable (s.FitsBeside media c) := by
  unfold Bookings.FitsBeside
  cases c with
  | release planId fails => infer_instance
  | book planId plan now online =>
    dsimp only
    cases hpool : plan.pool with
    | none => exact decidable_of_iff (0 ≤ plan.placedBytes) (by simp)
    | some poolId =>
      exact decidable_of_iff (0 ≤ plan.placedBytes ∧ (plan.placedBytes + s.reserved poolId now ≤ media.capacity →
        plan.placedBytes + s.reservedInAll now ≤ media.capacity)) (by simp)

end CeilingExample

open CeilingExample in
/-- Two pools that book half a tape each. -/
theorem pools_within_ceiling_half :
    (media.bookings .epoch).Meets (Bookings.FitsBeside media) (media.bookings .epoch).init (calls 6000000000000) ∧
      ((media.bookings .epoch).after (media.bookings .epoch).init (calls 6000000000000)).WithinCeiling media := by
  have hmeets : (media.bookings .epoch).Meets (Bookings.FitsBeside media) (media.bookings .epoch).init (calls 6000000000000) := by
    refine ⟨?_, ?_, trivial⟩ <;> decide +kernel
  exact ⟨hmeets, pools_within_ceiling media .epoch _ hmeets⟩

open CeilingExample in
/-- Each of two pools books the whole of the library's only tape. -/
theorem two_pools_book_one_tape :
    ¬∀ (media : PoolMedia) (start : DateTime) (calls : List BookingCall),
      ((media.bookings start).after (media.bookings start).init calls).WithinCeiling media := by
  intro h
  have hwithin := (h media .epoch (calls 12000000000000) .epoch (le_of_eq (by decide +kernel))).2
  revert hwithin
  decide +kernel


end OpenBlade
