import OpenBlade.Effects.Automaton
import OpenBlade.Nas.Capacity

/-!
# The two variants of the ledger

Calls of a `ReservationLedger` with their answers. In memory and over the catalog the ledger answers every sequence of calls alike,
at whatever clock readings, as long as no amount is larger than a column of the catalog holds (`ledgers_equivalent`); a larger amount
is accepted in memory and raises over the catalog (`large_reservation_told_apart`).
-/

namespace OpenBlade

open Effects

/-- A call of a ledger. -/
inductive LedgerCall where
  | reserve (poolId : String) (nbytes : Int) (owner : String) (ttl freeBytes : Int) (now : DateTime)
  | release (poolId owner : String)
  | reserved (poolId : String) (now : DateTime)
  | available (poolId : String) (freeBytes : Int) (now : DateTime)

/-- What a call of a ledger returns or raises. -/
inductive LedgerAnswer where
  | reservation (r : Except Exn CapacityReservation)
  | released (n : Nat)
  | bytes (r : Except Exn Int)

/-- The amount of a call fits a column of the catalog. -/
def LedgerCall.Fits : LedgerCall → Prop
  | .reserve _ nbytes _ _ _ _ => nbytes < 9223372036854775808
  | _ => True

/-- What a ledger answers to a call, and what the call leaves. -/
def ReservationLedger.call (ledger : ReservationLedger) : LedgerCall → LedgerAnswer × ReservationLedger
  | .reserve poolId nbytes owner ttl freeBytes now =>
    let r := ledger.reserve poolId nbytes owner ttl freeBytes now
    (.reservation r.1, r.2)
  | .release poolId owner =>
    let r := ledger.release poolId owner
    (.released r.1, r.2)
  | .reserved poolId now => (.bytes (ledger.reserved poolId now), ledger)
  | .available poolId freeBytes now => (.bytes (ledger.available poolId freeBytes now), ledger)

/-- A ledger as a system that answers calls. -/
def ledgerFrom (start : ReservationLedger) : Automaton LedgerCall LedgerAnswer where
  State := ReservationLedger
  init := start
  step := ReservationLedger.call

namespace LedgerAux

/-- What a reservation and its row both tell. -/
abbrev Entry := String × Int × String × DateTime

def entryOf (res : CapacityReservation) : Entry := (res.poolId, res.bytes, res.owner, res.expiresAt)

def entryOfRow (row : NasReservation) : Entry := (row.poolId, row.bytes, row.owner, row.expires)

/-- The table tells what the list tells, row by row. -/
def Mirrors (items : List CapacityReservation) (table : ReservationTable) : Prop :=
  table.rows.map entryOfRow = items.map entryOf

/-- The two variants of one ledger. -/
inductive Variants : ReservationLedger → ReservationLedger → Prop where
  | intro {items : List CapacityReservation} {table : ReservationTable} (h : Mirrors items table) :
    Variants (.memory items) (.catalog table)

/-- Picking by what is told is picking from what is told. -/
theorem map_filter_entry {α : Type} (f : α → Entry) (p : Entry → Bool) (xs : List α) :
    (xs.filter fun x => p (f x)).map f = (xs.map f).filter p := by
  rw [List.filter_map]
  rfl

theorem expires_insert (expiresAt : DateTime) {h : (DateTime.fromisoformat expiresAt.isoformat).isSome} :
    (DateTime.fromisoformat expiresAt.isoformat).get h = expiresAt := by
  simp [DateTime.fromisoformat_isoformat]

section mirrors

variable {items : List CapacityReservation} {table : ReservationTable}

theorem Mirrors.insert (h : Mirrors items table) (res : CapacityReservation) :
    Mirrors (items ++ [res]) (table.insert res.poolId res.bytes res.owner res.expiresAt) := by
  have hrow : entryOfRow (table.newRow res.poolId res.bytes res.owner res.expiresAt) = entryOf res := by
    simp [entryOfRow, entryOf, NasReservation.expires, ReservationTable.newRow, expires_insert]
  unfold Mirrors at h ⊢
  simp only [ReservationTable.insert, List.map_append, List.map_singleton, h, hrow]

/-- What is kept by what it tells is kept of both. -/
theorem Mirrors.keep (h : Mirrors items table) (p : Entry → Bool) :
    Mirrors (items.filter fun res => p (entryOf res)) (table.keep fun row => p (entryOfRow row)) := by
  unfold Mirrors at h ⊢
  simp only [ReservationTable.keep, map_filter_entry, h]

/-- What the transaction sums up is what the list sums up. -/
theorem Mirrors.reservedBytes (h : Mirrors items table) (poolId : String) (now : DateTime) :
    table.reservedBytes poolId now = held (fun res => res.poolId = poolId ∧ now < res.expiresAt) CapacityReservation.bytes items := by
  have hrows : table.reservedBytes poolId now =
      held (fun e : Entry => e.1 = poolId ∧ now < e.2.2.2) (fun e => e.2.1) (table.rows.map entryOfRow) := by
    unfold ReservationTable.reservedBytes held
    rw [← map_filter_entry, List.map_map]
    rfl
  rw [hrows, h]
  unfold held
  rw [← map_filter_entry, List.map_map]
  rfl

/-- A row of the table passes the validation of a reservation, and is read as what it tells. -/
theorem Mirrors.validate (h : Mirrors items table) {row : NasReservation} (hrow : row ∈ table.rows) :
    ∃ res, CapacityReservation.validate row.poolId row.bytes row.owner row.expires = .ok res ∧ entryOf res = entryOfRow row := by
  have hmem : entryOfRow row ∈ items.map entryOf := h ▸ List.mem_map_of_mem hrow
  obtain ⟨res, -, hres⟩ := List.mem_map.1 hmem
  obtain ⟨hpool, hbytes, howner, hexpires⟩ : res.poolId = row.poolId ∧ res.bytes = row.bytes ∧ res.owner = row.owner ∧
      res.expiresAt = row.expires := by
    simpa [entryOf, entryOfRow] using hres
  refine ⟨res, ?_, hres⟩
  unfold CapacityReservation.validate
  rw [dif_pos ⟨hpool ▸ res.named, hbytes ▸ res.positive, howner ▸ res.owned⟩]
  cases res
  simp only at hpool hbytes howner hexpires
  subst hpool hbytes howner hexpires
  rfl

/-- Rows of the table are read as what they tell. -/
theorem Mirrors.mapM_validate (h : Mirrors items table) {rows : List NasReservation} (hrows : ∀ row ∈ rows, row ∈ table.rows) :
    ∃ rs, (rows.mapM fun row => CapacityReservation.validate row.poolId row.bytes row.owner row.expires) = .ok rs ∧
      rs.map entryOf = rows.map entryOfRow := by
  induction rows with
  | nil => exact ⟨[], rfl, rfl⟩
  | cons row rows ih =>
    obtain ⟨res, hres, hentry⟩ := h.validate (hrows row List.mem_cons_self)
    obtain ⟨rs, hrs, hentries⟩ := ih fun row hrow => hrows row (List.mem_cons_of_mem _ hrow)
    refine ⟨res :: rs, ?_, by simp [hentry, hentries]⟩
    rw [List.mapM_cons, hres, hrs]
    rfl

/-- The rows of a pool are listed in some order. -/
theorem perm_listNasReservations (poolId : String) :
    (table.listNasReservations (some poolId)).Perm (table.rows.filter fun row => row.poolId = poolId) := by
  unfold ReservationTable.listNasReservations
  refine (List.perm_insertionSort _ _).trans ?_
  refine List.Perm.of_eq (List.filter_congr fun row _ => ?_)
  simp [eq_comm]

/-- The rows a pool is asked for are the unexpired rows of the pool, in some order. -/
theorem perm_reservationsForPool (poolId : String) (now : DateTime) :
    (table.reservationsForPool poolId now).Perm (table.rows.filter fun row => row.poolId = poolId ∧ now < row.expires) := by
  refine ((perm_listNasReservations poolId).filter _).trans ?_
  rw [List.filter_filter]
  refine List.Perm.of_eq (List.filter_congr fun row _ => ?_)
  rw [Bool.decide_and, Bool.and_comm]

/-- Both variants report one sum, the sum the transaction takes. -/
theorem Mirrors.reserved (h : Mirrors items table) (poolId : String) (now : DateTime) :
    (ReservationLedger.memory items).reserved poolId now = .ok (table.reservedBytes poolId now) ∧
      (ReservationLedger.catalog table).reserved poolId now = .ok (table.reservedBytes poolId now) := by
  constructor
  · rw [h.reservedBytes]
    rfl
  · have hperm : (table.reservationsForPool poolId now).Perm _ := perm_reservationsForPool poolId now
    obtain ⟨rs, hrs, hentries⟩ := h.mapM_validate fun row hrow => (List.mem_filter.1 (hperm.mem_iff.1 hrow)).1
    have hbytes : rs.map CapacityReservation.bytes = (table.reservationsForPool poolId now).map NasReservation.bytes := by
      have hsecond := congrArg (List.map fun e : Entry => e.2.1) hentries
      simpa [Function.comp_def, entryOf, entryOfRow] using hsecond
    have hactive : (ReservationLedger.catalog table).active poolId now = .ok rs := hrs
    unfold ReservationLedger.reserved
    rw [hactive]
    simp only [Except.map, hbytes]
    rw [(hperm.map _).sum_eq]
    rfl

end mirrors

/-! ### Releasing -/

section release

variable {table : ReservationTable}

theorem keep_keep (p q : NasReservation → Bool) : (table.keep p).keep q = table.keep fun row => q row && p row := by
  simp [ReservationTable.keep, List.filter_filter]

theorem keep_congr {p q : NasReservation → Bool} (h : ∀ row ∈ table.rows, p row = q row) : table.keep p = table.keep q := by
  simp [ReservationTable.keep, List.filter_congr h]

/-- A row of the table is deleted by its id. -/
theorem deleteNasReservation_of_mem {row : NasReservation} (h : row ∈ table.rows) :
    table.deleteNasReservation row.id = (true, table.keep fun row' => row'.id ≠ row.id) := by
  unfold ReservationTable.deleteNasReservation
  rw [if_pos (List.any_eq_true.2 ⟨row, h, by simp⟩)]

/-- The loop over rows of the table counts and deletes those of the owner. -/
theorem foldl_releaseRow (owner : String) (rows : List NasReservation) (n : Nat) (table : ReservationTable)
    (hrows : ∀ row ∈ rows, row ∈ table.rows) (hnodup : (rows.map NasReservation.id).Nodup) :
    rows.foldl (ReservationLedger.releaseRow owner) (n, table) =
      (n + (rows.filter fun row => row.owner = owner).length,
        table.keep fun row => row.id ∉ (rows.filter fun row => row.owner = owner).map NasReservation.id) := by
  induction rows generalizing n table with
  | nil =>
    have hall : table.keep (fun _ => true) = table := by simp [ReservationTable.keep]
    simpa using hall.symm
  | cons row rows ih =>
    obtain ⟨hfirst, hrest⟩ := List.nodup_cons.1 hnodup
    rw [List.foldl_cons]
    by_cases howner : row.owner = owner
    · have hstep : ReservationLedger.releaseRow owner (n, table) row = (n + 1, table.keep fun row' => row'.id ≠ row.id) := by
        unfold ReservationLedger.releaseRow
        rw [if_pos howner, deleteNasReservation_of_mem (hrows row List.mem_cons_self)]
        rfl
      have hleft : ∀ row' ∈ rows, row' ∈ (table.keep fun row' => row'.id ≠ row.id).rows := by
        intro row' hrow'
        refine List.mem_filter.2 ⟨hrows row' (List.mem_cons_of_mem _ hrow'), ?_⟩
        rw [decide_eq_true_iff]
        intro hid
        exact hfirst (hid ▸ List.mem_map_of_mem hrow')
      rw [hstep, ih _ _ hleft hrest, keep_keep]
      simp only [howner, decide_true, List.filter_cons_of_pos, List.length_cons, List.map_cons, List.mem_cons, not_or,
        Bool.decide_and, Bool.and_comm]
      congr 1
      omega
    · have hstep : ReservationLedger.releaseRow owner (n, table) row = (n, table) := if_neg howner
      rw [hstep, ih _ _ (fun row' hrow' => hrows row' (List.mem_cons_of_mem _ hrow')) hrest]
      simp [howner]

/-- `release` over the catalog counts and deletes the rows of the pool and the owner. -/
theorem release_catalog (poolId owner : String) :
    (ReservationLedger.catalog table).release poolId owner =
      ((table.rows.filter fun row => row.poolId = poolId ∧ row.owner = owner).length,
        .catalog (table.keep fun row => !(row.poolId = poolId ∧ row.owner = owner))) := by
  have hperm : (table.listNasReservations (some poolId)).Perm _ := perm_listNasReservations poolId
  have hmem : ∀ row ∈ table.listNasReservations (some poolId), row ∈ table.rows := fun row hrow =>
    (List.mem_filter.1 (hperm.mem_iff.1 hrow)).1
  have hnodup : ((table.listNasReservations (some poolId)).map NasReservation.id).Nodup :=
    ((hperm.map _).nodup_iff).2 (table.nodup.sublist (List.filter_sublist.map _))
  have hpicked : ((table.listNasReservations (some poolId)).filter fun row => row.owner = owner).Perm
      (table.rows.filter fun row => row.poolId = poolId ∧ row.owner = owner) := by
    refine (hperm.filter _).trans ?_
    rw [List.filter_filter]
    refine List.Perm.of_eq (List.filter_congr fun row _ => ?_)
    rw [Bool.decide_and, Bool.and_comm]
  have hkept : (table.keep fun row => row.id ∉
      ((table.listNasReservations (some poolId)).filter fun row => row.owner = owner).map NasReservation.id) =
      table.keep fun row => !(row.poolId = poolId ∧ row.owner = owner) := by
    refine keep_congr fun row hrow => ?_
    have hiff : row.id ∈ ((table.listNasReservations (some poolId)).filter fun row => row.owner = owner).map NasReservation.id ↔
        row.poolId = poolId ∧ row.owner = owner := by
      rw [(hpicked.map _).mem_iff, List.mem_map]
      constructor
      · rintro ⟨row', hrow', hid⟩
        obtain ⟨hmem', hkind⟩ := List.mem_filter.1 hrow'
        obtain rfl := List.inj_on_of_nodup_map table.nodup hmem' hrow hid
        simpa using hkind
      · intro hkind
        exact ⟨row, List.mem_filter.2 ⟨hrow, by simpa using hkind⟩, rfl⟩
    simp only [hiff, decide_not]
  show ((List.foldl _ (0, table) _).1, ReservationLedger.catalog (List.foldl _ (0, table) _).2) = _
  rw [foldl_releaseRow owner _ 0 table hmem hnodup, hpicked.length_eq, hkept, Nat.zero_add]

/-- Both variants release alike. -/
theorem Mirrors.release {items : List CapacityReservation} (h : Mirrors items table) (poolId owner : String) :
    ((ReservationLedger.memory items).release poolId owner).1 = ((ReservationLedger.catalog table).release poolId owner).1 ∧
      Variants ((ReservationLedger.memory items).release poolId owner).2 ((ReservationLedger.catalog table).release poolId owner).2 := by
  have hsplit : (items.filter fun r => !(r.poolId = poolId ∧ r.owner = owner)).length +
      (items.filter fun r => r.poolId = poolId ∧ r.owner = owner).length = items.length := by
    have hsum := List.length_eq_length_filter_add (l := items) fun r => decide (r.poolId = poolId ∧ r.owner = owner)
    omega
  have hcount : (items.filter fun r => r.poolId = poolId ∧ r.owner = owner).length =
      (table.rows.filter fun row => row.poolId = poolId ∧ row.owner = owner).length := by
    have hentries := h.keep fun e => e.1 = poolId ∧ e.2.2.1 = owner
    have hlength := congrArg List.length hentries
    simp only [ReservationTable.keep, List.length_map, entryOf, entryOfRow] at hlength
    exact hlength.symm
  rw [release_catalog]
  refine ⟨?_, .intro (h.keep fun e => !(e.1 = poolId ∧ e.2.2.1 = owner))⟩
  show items.length - (items.filter fun r => !(r.poolId = poolId ∧ r.owner = owner)).length = _
  omega

end release

/-! ### Reserving -/

section reserve

variable {items : List CapacityReservation} {table : ReservationTable}

/-- An amount that is positive and not too large fits a column. -/
theorem fitsInteger_of_lt {n : Int} (hpos : 0 < n) (h : n < 9223372036854775808) : fitsInteger n = true := by
  unfold fitsInteger
  rw [decide_eq_true_iff]
  omega

/-- A reservation that is valid is accepted by both variants or refused by both: what is left is compared with its amount, which
is positive, so that it does not matter whether less than nothing can be left. -/
theorem Mirrors.place (h : Mirrors items table) (res : CapacityReservation) (hfits : res.bytes < 9223372036854775808)
    (freeBytes : Int) (now : DateTime) :
    ((ReservationLedger.memory items).place res freeBytes now).1 = ((ReservationLedger.catalog table).place res freeBytes now).1 ∧
      Variants ((ReservationLedger.memory items).place res freeBytes now).2
        ((ReservationLedger.catalog table).place res freeBytes now).2 := by
  have hpos := res.positive
  have havailable : (ReservationLedger.memory items).available res.poolId freeBytes now =
      .ok (max 0 (freeBytes - table.reservedBytes res.poolId now)) := by
    unfold ReservationLedger.available
    rw [(h.reserved res.poolId now).1]
    rfl
  by_cases hroom : res.bytes > freeBytes - table.reservedBytes res.poolId now
  · have hmemory : (ReservationLedger.memory items).place res freeBytes now =
        (.error (ReservationLedger.refusal res.poolId res.bytes), .memory items) := by
      unfold ReservationLedger.place
      simp only [havailable]
      rw [if_pos (by omega)]
    have hcatalog : (ReservationLedger.catalog table).place res freeBytes now =
        (.error (ReservationLedger.refusal res.poolId res.bytes), .catalog table) := by
      simp [ReservationLedger.place, ReservationTable.reserveNasCapacity, hroom]
    rw [hmemory, hcatalog]
    exact ⟨rfl, .intro h⟩
  · have hmemory : (ReservationLedger.memory items).place res freeBytes now = (.ok res, .memory (items ++ [res])) := by
      unfold ReservationLedger.place
      simp only [havailable]
      rw [if_neg (by omega)]
    have hcatalog : (ReservationLedger.catalog table).place res freeBytes now =
        (.ok res, .catalog (table.insert res.poolId res.bytes res.owner res.expiresAt)) := by
      simp [ReservationLedger.place, ReservationTable.reserveNasCapacity, hroom, fitsInteger_of_lt hpos hfits]
    rw [hmemory, hcatalog]
    exact ⟨rfl, .intro (h.insert res)⟩

/-- What the validation of a reservation accepts has the amount it was given. -/
theorem bytes_of_validate {poolId owner : String} {nbytes : Int} {expiresAt : DateTime} {res : CapacityReservation}
    (h : CapacityReservation.validate poolId nbytes owner expiresAt = .ok res) : res.bytes = nbytes := by
  unfold CapacityReservation.validate at h
  split at h
  · cases h
    rfl
  · cases h

theorem Mirrors.reserve (h : Mirrors items table) (poolId owner : String) (nbytes ttl freeBytes : Int) (now : DateTime)
    (hfits : nbytes < 9223372036854775808) :
    ((ReservationLedger.memory items).reserve poolId nbytes owner ttl freeBytes now).1 =
        ((ReservationLedger.catalog table).reserve poolId nbytes owner ttl freeBytes now).1 ∧
      Variants ((ReservationLedger.memory items).reserve poolId nbytes owner ttl freeBytes now).2
        ((ReservationLedger.catalog table).reserve poolId nbytes owner ttl freeBytes now).2 := by
  unfold ReservationLedger.reserve
  cases now.add ttl with
  | none => exact ⟨rfl, .intro h⟩
  | some expiresAt =>
    dsimp only
    cases hvalid : CapacityReservation.validate poolId nbytes owner expiresAt with
    | error e => exact ⟨rfl, .intro h⟩
    | ok res => exact h.place res (bytes_of_validate hvalid ▸ hfits) freeBytes now

end reserve

/-- One call of both variants: one answer, and they stay variants of one ledger. -/
theorem Variants.call {memory catalog : ReservationLedger} (h : Variants memory catalog) {call : LedgerCall} (hfits : call.Fits) :
    (memory.call call).1 = (catalog.call call).1 ∧ Variants (memory.call call).2 (catalog.call call).2 := by
  obtain ⟨hmirrors⟩ := h
  cases call with
  | reserve poolId nbytes owner ttl freeBytes now =>
    obtain ⟨hanswer, hnext⟩ := hmirrors.reserve poolId owner nbytes ttl freeBytes now hfits
    exact ⟨congrArg LedgerAnswer.reservation hanswer, hnext⟩
  | release poolId owner =>
    obtain ⟨hanswer, hnext⟩ := hmirrors.release poolId owner
    exact ⟨congrArg LedgerAnswer.released hanswer, hnext⟩
  | reserved poolId now =>
    obtain ⟨hmemory, hcatalog⟩ := hmirrors.reserved poolId now
    exact ⟨congrArg LedgerAnswer.bytes (hmemory.trans hcatalog.symm), .intro hmirrors⟩
  | available poolId freeBytes now =>
    obtain ⟨hmemory, hcatalog⟩ := hmirrors.reserved poolId now
    refine ⟨congrArg LedgerAnswer.bytes ?_, .intro hmirrors⟩
    unfold ReservationLedger.available
    rw [hmemory, hcatalog]

end LedgerAux

/-- In memory and over the catalog, starting empty, a ledger answers every sequence of calls whose amounts fit a column alike. -/
theorem ledgers_equivalent (calls : List LedgerCall) (hfits : ∀ call ∈ calls, call.Fits) :
    (ledgerFrom (.memory [])).answers calls = (ledgerFrom (.catalog {})).answers calls := by
  have hempty : LedgerAux.Variants (.memory []) (.catalog {}) := .intro rfl
  refine Automaton.answersFrom_eq (R := LedgerAux.Variants) (fun s t call hcall h => ?_) hempty hfits
  exact h.call hcall

namespace LedgerExample

def noon : DateTime :=
  { year := 2026, month := 10, day := 11, hour := 12, minute := 0, second := 0, microsecond := 0, date := by decide
    time := by decide }

/-- Two bookings that fill the pool, the second of which expires at once; a third one is refused, and the owner releases. -/
def calls : List LedgerCall :=
  [.reserve "pool-1" 600 "plan-a" 60000000 1000 noon, .reserve "pool-1" 400 "plan-b" 0 1000 noon, .reserved "pool-1" noon,
    .reserve "pool-1" 500 "plan-c" 60000000 1000 noon, .available "pool-1" (-5) noon, .release "pool-1" "plan-b"]

end LedgerExample

open LedgerExample in
theorem ledgers_equivalent_expired :
    (∀ call ∈ calls, call.Fits) ∧ (ledgerFrom (.memory [])).answers calls = (ledgerFrom (.catalog {})).answers calls := by
  have hfits : ∀ call ∈ calls, call.Fits := by simp [calls, LedgerCall.Fits]
  exact ⟨hfits, ledgers_equivalent calls hfits⟩

open LedgerExample in
/-- An amount that no column holds is accepted in memory, and raises over the catalog. -/
theorem large_reservation_told_apart :
    ¬∀ calls : List LedgerCall, (ledgerFrom (.memory [])).answers calls = (ledgerFrom (.catalog {})).answers calls := by
  intro h
  have hcall := h [.reserve "pool-1" 9223372036854775808 "plan-a" 60000000 9223372036854775808 noon]
  have hmemory : ((ReservationLedger.memory []).reserve "pool-1" 9223372036854775808 "plan-a" 60000000 9223372036854775808
      noon).1.toBool = true := by decide +kernel
  have hcatalog : ((ReservationLedger.catalog {}).reserve "pool-1" 9223372036854775808 "plan-a" 60000000 9223372036854775808
      noon).1.toBool = false := by decide +kernel
  have hsame : ((ReservationLedger.memory []).reserve "pool-1" 9223372036854775808 "plan-a" 60000000 9223372036854775808 noon).1 =
      ((ReservationLedger.catalog {}).reserve "pool-1" 9223372036854775808 "plan-a" 60000000 9223372036854775808 noon).1 :=
    LedgerAnswer.reservation.inj (List.head_eq_of_cons_eq hcall)
  rw [hsame, hcatalog] at hmemory
  cases hmemory

end OpenBlade
