import OpenBlade.Catalog.Repository
import OpenBlade.Domain.DateTime
import OpenBlade.Domain.Posix
import OpenBlade.Effects.Holdings
import OpenBlade.Nas.Planner

/-!
# Capacity reservations

`nas/capacity.py` and the rows of `nas_reservations`: bookings against a pool's budget, each with an owner and an expiry, checked and
inserted in one transaction; the ceiling of a pool, which is told from the inventory and the catalog; and the ledger of reservations
in its two variants.
-/

namespace OpenBlade

open Effects

/-! ### The table `nas_reservations` -/

/-- A row of `nas_reservations`. Its id is a number here. -/
structure NasReservation where
  id : Nat
  poolId : String
  bytes : Int
  owner : String
  expiresAt : String
  dated : (DateTime.fromisoformat expiresAt).isSome
  deriving DecidableEq

/-- `expires_at` as `_nas_reservation_to_dict` reads it. -/
def NasReservation.expires (row : NasReservation) : DateTime := (DateTime.fromisoformat row.expiresAt).get row.dated

theorem fresh_noReservations : ∀ row ∈ ([] : List NasReservation), row.id < 0 := by simp

/-- The table, and the number of the next row. -/
structure ReservationTable where
  rows : List NasReservation := []
  nextId : Nat := 0
  fresh : ∀ row ∈ rows, row.id < nextId := by first | exact fresh_noReservations | simp
  nodup : (rows.map NasReservation.id).Nodup := by first | exact List.nodup_nil | simp

/-- What a column of type `INTEGER` holds. -/
def fitsInteger (n : Int) : Bool := -9223372036854775808 ≤ n ∧ n < 9223372036854775808

def overflowError (message : String) : Exn := { cls := .other "OverflowError", message := message }

def reservationError (message : String) : Exn := { cls := .other "ReservationError", message := message }

namespace ReservationTable

variable (table : ReservationTable)

/-- A row that is not in the table yet. -/
def newRow (poolId : String) (bytes : Int) (owner : String) (expiresAt : DateTime) : NasReservation :=
  { id := table.nextId, poolId, bytes, owner, expiresAt := expiresAt.isoformat
    dated := by simp [DateTime.fromisoformat_isoformat] }

/-- A row more. -/
def insert (poolId : String) (bytes : Int) (owner : String) (expiresAt : DateTime) : ReservationTable :=
  { rows := table.rows ++ [table.newRow poolId bytes owner expiresAt]
    nextId := table.nextId + 1
    fresh := by
      intro row hrow
      rcases List.mem_append.1 hrow with h | h
      · exact Nat.lt_succ_of_lt (table.fresh row h)
      · rw [List.mem_singleton] at h
        subst h
        exact Nat.lt_succ_self _
    nodup := by
      rw [List.map_append, List.nodup_append]
      refine ⟨table.nodup, by simp, ?_⟩
      intro id hid id' hid'
      obtain ⟨row, hrow, rfl⟩ := List.mem_map.1 hid
      rw [List.map_singleton, List.mem_singleton] at hid'
      subst hid'
      exact Nat.ne_of_lt (table.fresh row hrow) }

/-- The rows that are left where some are deleted. -/
def keep (p : NasReservation → Bool) : ReservationTable :=
  { rows := table.rows.filter p
    nextId := table.nextId
    fresh := fun row hrow => table.fresh row (List.mem_filter.1 hrow).1
    nodup := table.nodup.sublist (List.filter_sublist.map _) }

/-- `list_nas_reservations`: by their expiry, as it is written. -/
def listNasReservations (poolId : Option String) : List NasReservation :=
  (table.rows.filter fun row => poolId = none ∨ poolId = some row.poolId).insertionSort fun a b => a.expiresAt ≤ b.expiresAt

/-- `reservations_for_pool`: one that expires at `now` is expired. -/
def reservationsForPool (poolId : String) (now : DateTime) : List NasReservation :=
  (table.listNasReservations (some poolId)).filter fun row => now < row.expires

/-- What `reserve_nas_capacity` sums up in its transaction. -/
def reservedBytes (poolId : String) (now : DateTime) : Int :=
  held (fun row => row.poolId = poolId ∧ now < row.expires) NasReservation.bytes table.rows

/-- `reserve_nas_capacity`: whether the row was inserted. -/
def reserveNasCapacity (poolId : String) (nbytes : Int) (owner : String) (expiresAt : DateTime) (capacityBytes : Int)
    (now : DateTime) : Except Exn Bool × ReservationTable :=
  if nbytes > capacityBytes - table.reservedBytes poolId now then (.ok false, table)
  else if fitsInteger nbytes then (.ok true, table.insert poolId nbytes owner expiresAt)
  else (.error (overflowError "Python int too large to convert to SQLite INTEGER"), table)

/-- `delete_nas_reservation`: whether there was one. -/
def deleteNasReservation (id : Nat) : Bool × ReservationTable :=
  if table.rows.any fun row => row.id = id then (true, table.keep fun row => row.id ≠ id) else (false, table)

/-- `delete_nas_reservations_for_owner`: how many. -/
def deleteNasReservationsForOwner (owner : String) : Nat × ReservationTable :=
  ((table.rows.filter fun row => row.owner = owner).length, table.keep fun row => row.owner ≠ owner)

end ReservationTable

/-! ### The ceiling of a pool -/

/-- A barcode in a slot counts at the default capacity. -/
def addSlotCapacity (capacities : Dict Barcode Int) (slot : Nat × Option Barcode) : Dict Barcode Int :=
  match slot.2 with
  | some barcode => capacities.set barcode defaultTapeCapacity
  | none => capacities

/-- What a catalogued cartridge has left; one without a barcode is passed over. -/
def addCartridgeCapacity (capacities : Dict Barcode Int) (cartridge : Cartridge) : Dict Barcode Int :=
  if strip cartridge.barcode = "" then capacities
  else capacities.set (strip cartridge.barcode) (max 0 (cartridge.capacityBytes - cartridge.usedBytes))

/-- The barcodes that belong to a volume group. -/
def assignedBarcodes (cartridges : List Cartridge) : List Barcode :=
  (cartridges.filter fun cartridge => strip cartridge.barcode ≠ "" ∧ cartridge.volumeGroupId.isSome).map fun cartridge =>
    strip cartridge.barcode

/-- What `server_data_tapes` knows of every barcode. Without a library, or where its inventory raised, that is what the catalog
knows. -/
def knownCapacities (cartridges : List Cartridge) (slots : Option (List (Nat × Option Barcode))) : Dict Barcode Int :=
  cartridges.foldl addCartridgeCapacity ((slots.getD []).foldl addSlotCapacity [])

/-- Whether a tape is a data tape that belongs to no volume group. -/
def isDataTape (upper : String → String) (cartridges : List Cartridge) (barcode : Barcode) : Bool :=
  barcode ∉ assignedBarcodes cartridges ∧ !("CLN".toList.isPrefixOf (upper barcode).toList)

/-- `server_data_tapes`. -/
def serverDataTapes (upper : String → String) (cartridges : List Cartridge) (slots : Option (List (Nat × Option Barcode))) :
    Dict Barcode Int :=
  let capacities := knownCapacities cartridges slots
  ((capacities.keys.insertionSort (· ≤ ·)).filter (isDataTape upper cartridges)).map fun barcode =>
    (barcode, (capacities.get? barcode).getD 0)

/-- What a pool may draw on. -/
def poolCeiling (upper : String → String) (cartridges : List Cartridge) (slots : Option (List (Nat × Option Barcode))) : Int :=
  ((serverDataTapes upper cartridges slots).map Prod.snd).sum

/-! ### Booking a plan -/

/-- `PLAN_RESERVATION_TTL`: one hour. -/
def planReservationTtl : Int := 3600000000

/-- What a plan places. -/
def ArchivePlan.placedBytes (plan : ArchivePlan) : Int := plan.totalBytes * plan.copiesRequired

/-- `book_plan_capacity`; a plan without a pool books nothing. -/
def bookPlanCapacity (upper : String → String) (cartridges : List Cartridge) (slots : Option (List (Nat × Option Barcode)))
    (table : ReservationTable) (planId : String) (plan : ArchivePlan) (now : DateTime) : Except Exn Unit × ReservationTable :=
  match plan.pool with
  | none => (.ok (), table)
  | some poolId =>
    match now.add planReservationTtl with
    | none => (.error (overflowError "date value out of range"), table)
    | some expiresAt =>
      match table.reserveNasCapacity poolId plan.placedBytes planId expiresAt (poolCeiling upper cartridges slots) now with
      | (.ok true, table) => (.ok (), table)
      | (.ok false, table) => (.error (reservationError ("pool " ++ poolId ++ " cannot reserve capacity for plan " ++ planId)), table)
      | (.error e, table) => (.error e, table)

/-- `release_plan_capacity`: a release that fails is logged, and the booking is left to expire. -/
def releasePlanCapacity (table : ReservationTable) (planId : String) (fails : Bool) : ReservationTable :=
  if fails then table else (table.deleteNasReservationsForOwner planId).2

/-! ### The ledger -/

/-- A reservation of the ledger. -/
structure CapacityReservation where
  poolId : String
  bytes : Int
  owner : String
  expiresAt : DateTime
  named : poolId ≠ ""
  positive : 0 < bytes
  owned : owner ≠ ""
  deriving DecidableEq

/-- The validation of a `CapacityReservation`; its error names the fields. -/
def CapacityReservation.validate (poolId : String) (bytes : Int) (owner : String) (expiresAt : DateTime) :
    Except Exn CapacityReservation :=
  if h : poolId ≠ "" ∧ 0 < bytes ∧ owner ≠ "" then
    .ok { poolId, bytes, owner, expiresAt, named := h.1, positive := h.2.1, owned := h.2.2 }
  else
    .error
      { cls := .other "ValidationError"
        message := "CapacityReservation: " ++ ", ".intercalate ((if poolId = "" then ["pool_id"] else []) ++
          (if bytes ≤ 0 then ["bytes"] else []) ++ if owner = "" then ["owner"] else []) }

/-- `ReservationLedger`: in memory, or over the catalog. -/
inductive ReservationLedger where
  | memory (items : List CapacityReservation)
  | catalog (table : ReservationTable)

namespace ReservationLedger

/-- `_active`. -/
def active (ledger : ReservationLedger) (poolId : String) (now : DateTime) : Except Exn (List CapacityReservation) :=
  match ledger with
  | memory items => .ok (items.filter fun r => r.poolId = poolId ∧ now < r.expiresAt)
  | catalog table =>
    (table.reservationsForPool poolId now).mapM fun row => CapacityReservation.validate row.poolId row.bytes row.owner row.expires

/-- `reserved`. -/
def reserved (ledger : ReservationLedger) (poolId : String) (now : DateTime) : Except Exn Int :=
  (ledger.active poolId now).map fun rs => (rs.map CapacityReservation.bytes).sum

/-- `available`. -/
def available (ledger : ReservationLedger) (poolId : String) (freeBytes : Int) (now : DateTime) : Except Exn Int :=
  (ledger.reserved poolId now).map fun bytes => max 0 (freeBytes - bytes)

/-- The refusal of both variants. -/
def refusal (poolId : String) (nbytes : Int) : Exn :=
  reservationError ("pool " ++ poolId ++ " cannot reserve " ++ toString nbytes ++ " bytes")

/-- What `reserve` does with a reservation that is valid. -/
def place (ledger : ReservationLedger) (res : CapacityReservation) (freeBytes : Int) (now : DateTime) :
    Except Exn CapacityReservation × ReservationLedger :=
  match ledger with
  | catalog table =>
    match table.reserveNasCapacity res.poolId res.bytes res.owner res.expiresAt freeBytes now with
    | (.ok true, table) => (.ok res, catalog table)
    | (.ok false, table) => (.error (refusal res.poolId res.bytes), catalog table)
    | (.error e, table) => (.error e, catalog table)
  | memory items =>
    match (memory items).available res.poolId freeBytes now with
    | .error e => (.error e, memory items)
    | .ok left => if res.bytes > left then (.error (refusal res.poolId res.bytes), memory items) else (.ok res, memory (items ++ [res]))

/-- `reserve`. -/
def reserve (ledger : ReservationLedger) (poolId : String) (nbytes : Int) (owner : String) (ttl freeBytes : Int) (now : DateTime) :
    Except Exn CapacityReservation × ReservationLedger :=
  match now.add ttl with
  | none => (.error (overflowError "date value out of range"), ledger)
  | some expiresAt =>
    match CapacityReservation.validate poolId nbytes owner expiresAt with
    | .error e => (.error e, ledger)
    | .ok res => ledger.place res freeBytes now

/-- One row of the loop of `release`. -/
def releaseRow (owner : String) (removed : Nat × ReservationTable) (row : NasReservation) : Nat × ReservationTable :=
  if row.owner = owner then
    let (deleted, table) := removed.2.deleteNasReservation row.id
    (if deleted then removed.1 + 1 else removed.1, table)
  else removed

/-- `release`: how many. -/
def release (ledger : ReservationLedger) (poolId owner : String) : Nat × ReservationLedger :=
  match ledger with
  | catalog table =>
    let (removed, table') := (table.listNasReservations (some poolId)).foldl (releaseRow owner) (0, table)
    (removed, catalog table')
  | memory items =>
    let left := items.filter fun r => !(r.poolId = poolId ∧ r.owner = owner)
    (items.length - left.length, memory left)

end ReservationLedger

end OpenBlade
