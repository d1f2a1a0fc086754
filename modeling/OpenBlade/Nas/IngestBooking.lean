import Mathlib
import OpenBlade.Effects.Automaton
import OpenBlade.Nas.Capacity

/-!
# Ingests and their bookings

`start_ingest` of `api/nas_config.py` and the frame of `run_ingest_job` of `nas/ingest.py`. An ingest is booked before its job is
made, under the id of its plan and for an hour; the booking is released under the id of the plan when a start fails or a job ends.
So the job of a plan that was started twice loses its booking when the other one ends, and a job that runs for longer than an hour
loses it in any case. Where neither happens, and every start and job that ends releases, the bookings are those of the ingests that
can still write.
-/

namespace OpenBlade

open Effects

structure StartIngestRequest where
  planId : String
  poolId : Option String := none
  cacheDriveId : Option String := none

/-- A plan that an ingest was started for. -/
structure StartedPlan where
  planId : String
  plan : ArchivePlan

/-- The stores a start and a job share: the bookings, `ArchivePlanStore`, and what is going on. -/
structure IngestStores where
  table : ReservationTable := {}
  clock : DateTime
  plans : Dict String ArchivePlan := []
  /-- The ids `uuid4` has given to plans. -/
  issued : List String := []
  /-- Starts that are booked and have no job yet. -/
  booked : List StartedPlan := []
  /-- Jobs whose `run_ingest_job` has not ended. -/
  running : List StartedPlan := []

/-- What happens to the stores. A start has two steps, and jobs and other starts may come between them. -/
inductive IngestCall where
  | register (planId : String) (plan : ArchivePlan)
  | book (request : StartIngestRequest) (cacheDrives : List String) (cartridges : List Cartridge)
      (slots : Option (List (Nat × Option Barcode))) (now : DateTime)
  /-- The rest of a start: the cleaning of drives, the rows of the dataset and the job may raise. -/
  | launch (i : Nat) (raises : Option Exn) (releaseFails : Bool)
  /-- The end of a job, which may come before its executor is made, so that `finally` is not reached. -/
  | finish (j : Nat) (reached : Bool) (releaseFails : Bool)
  | tick (now : DateTime)

/-- The checks of `start_ingest` before anything is booked. -/
def checkStart (plans : Dict String ArchivePlan) (cacheDrives : List String) (request : StartIngestRequest) :
    Except RequestFailure ArchivePlan :=
  match plans.get? request.planId with
  | none => .error (.http 400 ("Plan " ++ request.planId ++ " not found"))
  | some plan =>
    if plan.isSafeToEnqueue = false then .error (.http 400 "Archive plan is not safe to enqueue")
    else if plan.pool ≠ request.poolId then .error (.http 409 "pool_id does not match plan pool")
    else if plan.ingestMode = .cacheDrive then
      match request.cacheDriveId with
      | none => .error (.http 400 "cache_drive_id is required for cache-drive ingest")
      | some cacheDriveId =>
        if cacheDriveId ∈ cacheDrives then .ok plan else .error (.http 400 ("Cache drive " ++ cacheDriveId ++ " not found"))
    else .ok plan

namespace IngestStores

variable (upper : String → String) (s : IngestStores)

/-- `register_archive_plan`: its id was never given before. -/
def registerArchivePlan (planId : String) (plan : ArchivePlan) : IngestStores :=
  if planId ∈ s.issued then s else { s with plans := s.plans.set planId plan, issued := planId :: s.issued }

/-- `start_ingest` up to its booking. -/
def bookIngest (request : StartIngestRequest) (cacheDrives : List String) (cartridges : List Cartridge)
    (slots : Option (List (Nat × Option Barcode))) (now : DateTime) : Except RequestFailure Unit × IngestStores :=
  let s := { s with clock := max s.clock now }
  match checkStart s.plans cacheDrives request with
  | .error e => (.error e, s)
  | .ok plan =>
    match bookPlanCapacity upper cartridges slots s.table request.planId plan now with
    | (.ok (), table) => (.ok (), { s with table := table, booked := s.booked ++ [{ planId := request.planId, plan }] })
    | (.error e, table) =>
      (.error (if e.cls = .other "ReservationError" then .http 409 e.message else .uncaught e), { s with table := table })

/-- `start_ingest` from its booking on: the job is made, or the booking and the plan are given up. -/
def launchIngest (i : Nat) (raises : Option Exn) (releaseFails : Bool) : Except RequestFailure Unit × IngestStores :=
  match s.booked[i]? with
  | none => (.ok (), s)
  | some start =>
    match raises with
    | none => (.ok (), { s with booked := s.booked.eraseIdx i, running := s.running ++ [start] })
    | some e =>
      (.error (.uncaught e),
        { s with
          table := releasePlanCapacity s.table start.planId releaseFails
          plans := s.plans.erase start.planId
          booked := s.booked.eraseIdx i })

/-- The end of `run_ingest_job`. -/
def finishIngest (j : Nat) (reached releaseFails : Bool) : IngestStores :=
  match s.running[j]? with
  | none => s
  | some job =>
    { s with
      table := if reached then releasePlanCapacity s.table job.planId releaseFails else s.table
      running := s.running.eraseIdx j }

def call : IngestCall → Except RequestFailure Unit × IngestStores
  | .register planId plan => (.ok (), s.registerArchivePlan planId plan)
  | .book request cacheDrives cartridges slots now => s.bookIngest upper request cacheDrives cartridges slots now
  | .launch i raises releaseFails => s.launchIngest i raises releaseFails
  | .finish j reached releaseFails => (.ok (), s.finishIngest j reached releaseFails)
  | .tick now => (.ok (), { s with clock := max s.clock now })

/-! ### What is asked of the bookings -/

/-- The ingests that are being started or can still write. -/
def live : List StartedPlan := s.booked ++ s.running

/-- How many of them are of one plan. -/
def liveOf (planId : String) : Nat := (s.live.filter fun x => x.planId = planId).length

/-- Every job that can still write has an unexpired booking of its bytes, two jobs of one plan two; a pool holds what the ingests
into it come to, which no other plan is given then; and a plan none of whose ingests is left has no booking. -/
structure Covered : Prop where
  booked : ∀ job ∈ s.running, ∀ poolId, job.plan.pool = some poolId →
    (s.running.filter fun x => x.planId = job.planId).length ≤
      (s.table.rows.filter fun row => row.owner = job.planId ∧ row.poolId = poolId ∧ row.bytes = job.plan.placedBytes ∧
        s.clock < row.expires).length
  reserved : ∀ poolId, s.table.reservedBytes poolId s.clock =
    held (fun x => x.plan.pool = some poolId) (fun x : StartedPlan => x.plan.placedBytes) s.live
  released : ∀ planId, s.liveOf planId = 0 → ∀ row ∈ s.table.rows, row.owner ≠ planId

/-- No booking of an ingest that is going on has expired by then. -/
def InTime (now : DateTime) : Prop := ∀ row ∈ s.table.rows, s.liveOf row.owner ≠ 0 → max s.clock now < row.expires

/-- What ends is the only ingest of its plan, and releases. -/
def EndsAlone (x : StartedPlan) (releases : Bool) : Prop := x.plan.pool ≠ none → s.liveOf x.planId = 1 ∧ releases = true

/-- No booking expires under an ingest, and an ingest into a pool that fails to start or ends is the only one of its plan, and
releases its booking. -/
def Orderly : IngestCall → Prop
  | .register _ _ => True
  | .book _ _ _ _ now => s.InTime now ∧ ∀ expiresAt ∈ now.add planReservationTtl, max s.clock now < expiresAt
  | .launch i raises releaseFails => ∀ x ∈ s.booked[i]?, raises ≠ none → s.EndsAlone x (!releaseFails)
  | .finish j reached releaseFails => ∀ x ∈ s.running[j]?, s.EndsAlone x (reached && !releaseFails)
  | .tick now => s.InTime now

end IngestStores

/-- The stores as a system that answers calls, from the time on it is started at. -/
abbrev ingestStores (upper : String → String) (start : DateTime) : Automaton IngestCall (Except RequestFailure Unit) where
  State := IngestStores
  init := { clock := start }
  step := fun s c => s.call upper c

namespace BookingAux

/-! ### Rows and ingests -/

/-- What a row books. -/
def rowKey (row : NasReservation) : String × String × Int := (row.owner, row.poolId, row.bytes)

/-- What an ingest needs to be booked. -/
def ingestKey (x : StartedPlan) : Option (String × String × Int) := x.plan.pool.map fun poolId => (x.planId, poolId, x.plan.placedBytes)

/-- The plans that are registered or that something is going on with. -/
def known (s : IngestStores) : List StartedPlan := s.plans.map (fun entry => { planId := entry.1, plan := entry.2 }) ++ s.live

/-- The bookings are those of the ingests, none has expired, and a plan is one by its id. -/
structure Matched (s : IngestStores) : Prop where
  perm : (s.table.rows.map rowKey).Perm (s.live.filterMap ingestKey)
  unexpired : ∀ row ∈ s.table.rows, s.clock < row.expires
  agree : ∀ x ∈ known s, ∀ y ∈ known s, x.planId = y.planId → x.plan = y.plan
  issued : ∀ x ∈ known s, x.planId ∈ s.issued

variable {s : IngestStores} {x : StartedPlan}

theorem liveOf_pos (h : x ∈ s.live) : s.liveOf x.planId ≠ 0 := by
  unfold IngestStores.liveOf
  rw [Ne, List.length_eq_zero_iff, List.filter_eq_nil_iff]
  intro hnone
  exact hnone x h (decide_eq_true rfl)

theorem ingestKey_eq {key : String × String × Int} (h : ingestKey x = some key) : x.planId = key.1 ∧ x.plan.pool ≠ none := by
  unfold ingestKey at h
  obtain ⟨poolId, hpool, rfl⟩ := Option.map_eq_some_iff.1 h
  exact ⟨rfl, by rw [hpool]; exact nofun⟩

/-- A booking is that of an ingest. -/
theorem Matched.owner (h : Matched s) {row : NasReservation} (hrow : row ∈ s.table.rows) :
    ∃ x ∈ s.live, x.planId = row.owner ∧ x.plan.pool ≠ none := by
  obtain ⟨x, hx, hkey⟩ := List.mem_filterMap.1 (h.perm.subset (List.mem_map_of_mem hrow))
  exact ⟨x, hx, ingestKey_eq hkey⟩

theorem mem_known_of_live (h : x ∈ s.live) : x ∈ known s := List.mem_append_right _ h

/-! ### What follows -/

theorem held_map {α β : Type} (f : α → β) (p : β → Bool) (amount : β → Int) (xs : List α) :
    held p amount (xs.map f) = held (fun x => p (f x)) (fun x => amount (f x)) xs := by
  unfold held
  rw [List.filter_map, List.map_map]
  rfl

theorem held_ingestKey (poolId : String) (xs : List StartedPlan) :
    held (fun key => key.2.1 = poolId) (fun key : String × String × Int => key.2.2) (xs.filterMap ingestKey) =
      held (fun x => x.plan.pool = some poolId) (fun x : StartedPlan => x.plan.placedBytes) xs := by
  induction xs with
  | nil => rfl
  | cons x xs ih =>
    rw [List.filterMap_cons, ← List.singleton_append (l := xs), held_append, held_singleton]
    cases hpool : x.plan.pool with
    | none =>
      simp only [ingestKey, hpool, Option.map_none]
      simpa using ih
    | some pool =>
      simp only [ingestKey, hpool, Option.map_some]
      rw [← List.singleton_append, held_append, held_singleton, ih]
      simp

theorem Matched.covered (h : Matched s) : s.Covered where
  booked := by
    intro job hjob poolId hpool
    have hlive : job ∈ s.live := List.mem_append_right _ hjob
    have hkey : ingestKey job = some (job.planId, poolId, job.plan.placedBytes) := by simp [ingestKey, hpool]
    simp only [← List.countP_eq_length_filter]
    calc s.running.countP (fun x => x.planId = job.planId)
        ≤ s.live.countP fun x => x.planId = job.planId := (List.sublist_append_right _ _).countP_le
      _ ≤ s.live.countP fun x => ingestKey x = some (job.planId, poolId, job.plan.placedBytes) := by
          refine List.countP_mono_left fun x hx hid => ?_
          -- an ingest of the same plan is one of the same bytes
          have hid : x.planId = job.planId := of_decide_eq_true hid
          have hplan : x.plan = job.plan := h.agree x (mem_known_of_live hx) job (mem_known_of_live hlive) hid
          rw [decide_eq_true_iff, ← hkey, ingestKey, ingestKey, hplan, hid]
      _ = (s.live.filterMap ingestKey).countP fun key => key = (job.planId, poolId, job.plan.placedBytes) := by
          rw [List.countP_filterMap]
          refine List.countP_congr fun x _ => ?_
          cases ingestKey x <;> simp
      _ = s.table.rows.countP fun row => rowKey row = (job.planId, poolId, job.plan.placedBytes) := by
          rw [← h.perm.countP_eq, List.countP_map]
          rfl
      _ ≤ _ := by
          refine List.countP_mono_left fun row hrow hbooked => ?_
          have hbooked : rowKey row = (job.planId, poolId, job.plan.placedBytes) := of_decide_eq_true hbooked
          simp only [rowKey, Prod.mk.injEq] at hbooked
          simp [hbooked, h.unexpired row hrow]
  reserved := by
    intro poolId
    have hrows : s.table.reservedBytes poolId s.clock = held (fun row => row.poolId = poolId) NasReservation.bytes s.table.rows := by
      refine held_congr fun row hrow => ?_
      simp [h.unexpired row hrow]
    rw [hrows, ← held_ingestKey, ← held_perm h.perm, held_map]
    rfl
  released := by
    intro planId hnone row hrow howner
    obtain ⟨x, hx, hid, -⟩ := h.owner hrow
    exact liveOf_pos hx (by rw [hid, howner]; exact hnone)

/-! ### What a call keeps -/

/-- Time passes, and no booking of an ingest expires. -/
theorem Matched.elapse (h : Matched s) {now : DateTime} (htime : s.InTime now) : Matched { s with clock := max s.clock now } where
  perm := h.perm
  unexpired := by
    intro row hrow
    obtain ⟨x, hx, hid, -⟩ := h.owner hrow
    exact htime row hrow (hid ▸ liveOf_pos hx)
  agree := h.agree
  issued := h.issued

theorem Matched.register (h : Matched s) (planId : String) (plan : ArchivePlan) : Matched (s.registerArchivePlan planId plan) := by
  unfold IngestStores.registerArchivePlan
  split
  · exact h
  rename_i hnew
  have hknown : ∀ x ∈ known { s with plans := s.plans.set planId plan, issued := planId :: s.issued },
      x ∈ known s ∨ x = { planId := planId, plan := plan } := by
    intro x hx
    rcases List.mem_append.1 hx with hx | hx
    · obtain ⟨entry, hentry, rfl⟩ := List.mem_map.1 hx
      rcases Dict.mem_set hentry with hentry | rfl
      · exact .inl (List.mem_append_left _ (List.mem_map.2 ⟨entry, hentry, rfl⟩))
      · exact .inr rfl
    · exact .inl (List.mem_append_right _ hx)
  have hfresh : ∀ x ∈ known s, x.planId ≠ planId := fun x hx hid => hnew (hid ▸ h.issued x hx)
  refine { perm := h.perm, unexpired := h.unexpired, agree := ?_, issued := ?_ }
  · intro x hx y hy hid
    rcases hknown x hx with hx | rfl <;> rcases hknown y hy with hy | rfl
    · exact h.agree x hx y hy hid
    · exact absurd hid (hfresh x hx)
    · exact absurd hid.symm (hfresh y hy)
    · rfl
  · intro x hx
    rcases hknown x hx with hx | rfl
    · exact List.mem_cons_of_mem _ (h.issued x hx)
    · exact List.mem_cons_self

/-- A row is added, or the table is left as it was. -/
theorem reserveNasCapacity_cases (table : ReservationTable) (poolId : String) (nbytes : Int) (owner : String) (expiresAt : DateTime)
    (capacityBytes : Int) (now : DateTime) :
    table.reserveNasCapacity poolId nbytes owner expiresAt capacityBytes now = (.ok true, table.insert poolId nbytes owner expiresAt) ∨
      ∃ r, r ≠ .ok true ∧ table.reserveNasCapacity poolId nbytes owner expiresAt capacityBytes now = (r, table) := by
  unfold ReservationTable.reserveNasCapacity
  by_cases hroom : nbytes > capacityBytes - table.reservedBytes poolId now
  · exact .inr ⟨.ok false, nofun, if_pos hroom⟩
  · rw [if_neg hroom]
    by_cases hfits : fitsInteger nbytes = true
    · exact .inl (if_pos hfits)
    · exact .inr ⟨.error _, nofun, if_neg hfits⟩

/-- A booking that is made is a row more, if the plan has a pool; one that is refused leaves the table as it was. -/
theorem bookPlanCapacity_spec (upper : String → String) (cartridges : List Cartridge) (slots : Option (List (Nat × Option Barcode)))
    (table : ReservationTable) (planId : String) (plan : ArchivePlan) (now : DateTime) :
    (∃ e, bookPlanCapacity upper cartridges slots table planId plan now = (.error e, table)) ∨
    plan.pool = none ∧ bookPlanCapacity upper cartridges slots table planId plan now = (.ok (), table) ∨
    ∃ poolId expiresAt, plan.pool = some poolId ∧ now.add planReservationTtl = some expiresAt ∧
      bookPlanCapacity upper cartridges slots table planId plan now =
        (.ok (), table.insert poolId plan.placedBytes planId expiresAt) := by
  unfold bookPlanCapacity
  -- the sum is not evaluated
  generalize now.add planReservationTtl = expiry
  cases plan.pool with
  | none => exact .inr (.inl ⟨rfl, rfl⟩)
  | some poolId =>
    cases expiry with
    | none => exact .inl ⟨_, rfl⟩
    | some expiresAt =>
      dsimp only
      rcases reserveNasCapacity_cases table poolId plan.placedBytes planId expiresAt (poolCeiling upper cartridges slots) now with
        h | ⟨r, hr, h⟩
      · rw [h]
        exact .inr (.inr ⟨poolId, expiresAt, rfl, rfl, rfl⟩)
      · rw [h]
        cases r with
        | error e => exact .inl ⟨_, rfl⟩
        | ok booked =>
          cases booked with
          | false => exact .inl ⟨_, rfl⟩
          | true => exact absurd rfl hr

theorem get?_of_checkStart {plans : Dict String ArchivePlan} {cacheDrives : List String} {request : StartIngestRequest} {plan : ArchivePlan}
    (h : checkStart plans cacheDrives request = .ok plan) : plans.get? request.planId = some plan := by
  unfold checkStart at h
  split at h
  · cases h
  · rename_i plan' hget
    rw [hget]
    split at h
    · cases h
    split at h
    · cases h
    split at h
    · split at h
      · cases h
      · split at h
        · rw [Except.ok.inj h]
        · cases h
    · rw [Except.ok.inj h]

theorem Matched.book (h : Matched s) (upper : String → String) (request : StartIngestRequest) (cacheDrives : List String)
    (cartridges : List Cartridge) (slots : Option (List (Nat × Option Barcode))) {now : DateTime} (htime : s.InTime now)
    (hexpiry : ∀ expiresAt ∈ now.add planReservationTtl, max s.clock now < expiresAt) :
    Matched (s.bookIngest upper request cacheDrives cartridges slots now).2 := by
  have h' : Matched { s with clock := max s.clock now } := h.elapse htime
  unfold IngestStores.bookIngest
  simp only
  split
  · exact h'
  rename_i plan hcheck
  have hplan : { planId := request.planId, plan } ∈ known s :=
    List.mem_append_left _ (List.mem_map.2 ⟨_, Dict.mem_of_get? (get?_of_checkStart hcheck), rfl⟩)
  generalize hstart : StartedPlan.mk request.planId plan = start at hplan
  -- whatever is in the table, there is one ingest more
  have hlive : (s.booked ++ [start] ++ s.running).Perm (s.live ++ [start]) := by
    unfold IngestStores.live
    rw [List.append_assoc, List.append_assoc]
    exact List.perm_append_comm.append_left _
  have hknown : ∀ table, ∀ x ∈ known { s with clock := max s.clock now, table := table, booked := s.booked ++ [start] }, x ∈ known s := by
    intro table x hx
    rcases List.mem_append.1 hx with hx | hx
    · exact List.mem_append_left _ hx
    · rcases List.mem_append.1 (hlive.subset hx) with hx | hx
      · exact mem_known_of_live hx
      · rw [List.mem_singleton.1 hx]
        exact hplan
  have hkeys : ((s.booked ++ [start] ++ s.running).filterMap ingestKey).Perm (s.live.filterMap ingestKey ++ [start].filterMap ingestKey) := by
    rw [← List.filterMap_append]
    exact hlive.filterMap ingestKey
  rcases bookPlanCapacity_spec upper cartridges slots s.table request.planId plan now with ⟨e, hbook⟩ | ⟨hpool, hbook⟩ |
      ⟨poolId, expiresAt, hpool, hadd, hbook⟩
  · rw [hbook]
    exact h'
  · rw [hbook]
    have hnone : [start].filterMap ingestKey = [] := by
      rw [← hstart]
      simp [ingestKey, hpool]
    rw [hnone, List.append_nil] at hkeys
    exact { perm := h.perm.trans hkeys.symm, unexpired := h'.unexpired
            agree := fun x hx y hy => h.agree x (hknown _ x hx) y (hknown _ y hy), issued := fun x hx => h.issued x (hknown _ x hx) }
  · rw [hbook]
    have hone : [start].filterMap ingestKey = [(request.planId, poolId, plan.placedBytes)] := by
      rw [← hstart]
      simp [ingestKey, hpool]
    rw [hone] at hkeys
    refine { perm := ?_, unexpired := ?_, agree := fun x hx y hy => h.agree x (hknown _ x hx) y (hknown _ y hy)
             issued := fun x hx => h.issued x (hknown _ x hx) }
    · show ((s.table.rows ++ [_]).map rowKey).Perm _
      rw [List.map_append]
      exact (h.perm.append_right _).trans hkeys.symm
    · intro row hrow
      rcases List.mem_append.1 (show row ∈ s.table.rows ++ [_] from hrow) with hrow | hrow
      · exact h'.unexpired row hrow
      · rw [List.mem_singleton.1 hrow]
        have hexpires : (s.table.newRow poolId plan.placedBytes request.planId expiresAt).expires = expiresAt := by
          simp [NasReservation.expires, ReservationTable.newRow, DateTime.fromisoformat_isoformat]
        rw [hexpires]
        exact hexpiry expiresAt hadd

/-- An ingest that ends takes the bookings of its plan with it, if it is the only one of its plan. -/
theorem Matched.ends (h : Matched s) (rest : List StartedPlan) (releases : Bool) (hlive : s.live.Perm (x :: rest))
    (halone : s.EndsAlone x releases) {s' : IngestStores} (hlive' : s'.live.Perm rest) (hknown : ∀ y ∈ known s', y ∈ known s)
    (htable : s'.table.rows = if releases then s.table.rows.filter fun row => row.owner ≠ x.planId else s.table.rows)
    (hclock : s'.clock = s.clock) (hissued : s'.issued = s.issued) : Matched s' := by
  have hx : x ∈ s.live := hlive.symm.subset List.mem_cons_self
  have hrest : ∀ y ∈ rest, y ∈ s.live := fun y hy => hlive.symm.subset (List.mem_cons_of_mem _ hy)
  have hsame : ∀ y ∈ s.live, y.planId = x.planId → y.plan = x.plan := fun y hy hid =>
    h.agree y (mem_known_of_live hy) x (mem_known_of_live hx) hid
  -- no other ingest of the plan needs a booking
  have hothers : ∀ y ∈ rest, y.plan.pool ≠ none → y.planId ≠ x.planId := by
    intro y hy hpool hid
    have hone := (halone (by rw [← hsame y (hrest y hy) hid]; exact hpool)).1
    unfold IngestStores.liveOf at hone
    rw [(hlive.filter _).length_eq, List.filter_cons, if_pos (decide_eq_true rfl), List.length_cons] at hone
    have hnone : rest.filter (fun z => decide (z.planId = x.planId)) = [] := List.length_eq_zero_iff.1 (by omega)
    exact List.filter_eq_nil_iff.1 hnone y hy (decide_eq_true hid)
  have hrows : s'.table.rows = s.table.rows.filter fun row => row.owner ≠ x.planId := by
    rw [htable]
    split
    · rfl
    · rename_i hkept
      refine (List.filter_eq_self.2 fun row hrow => ?_).symm
      obtain ⟨y, hy, hid, hpool⟩ := h.owner hrow
      refine decide_eq_true fun howner => hkept ?_
      rw [← hid] at howner
      exact (halone (by rw [← hsame y hy howner]; exact hpool)).2
  have hkeys : ((x :: rest).filterMap ingestKey).filter (fun key => decide (key.1 ≠ x.planId)) = rest.filterMap ingestKey := by
    have hkept : (rest.filterMap ingestKey).filter (fun key => decide (key.1 ≠ x.planId)) = rest.filterMap ingestKey := by
      refine List.filter_eq_self.2 fun key hkey => decide_eq_true ?_
      obtain ⟨y, hy, hykey⟩ := List.mem_filterMap.1 hkey
      obtain ⟨hid, hpool⟩ := ingestKey_eq hykey
      exact hid ▸ hothers y hy hpool
    rw [List.filterMap_cons]
    split
    · exact hkept
    · rename_i key hkey
      rw [List.filter_cons_of_neg (by simp [(ingestKey_eq hkey).1]), hkept]
  refine { perm := ?_, unexpired := ?_, agree := fun y hy z hz => h.agree y (hknown y hy) z (hknown z hz)
           issued := fun y hy => hissued ▸ h.issued y (hknown y hy) }
  · calc s'.table.rows.map rowKey
        = (s.table.rows.map rowKey).filter fun key => decide (key.1 ≠ x.planId) := by
          rw [hrows, List.filter_map]
          rfl
      _ |>.Perm (((x :: rest).filterMap ingestKey).filter fun key => decide (key.1 ≠ x.planId)) :=
          (h.perm.trans (hlive.filterMap ingestKey)).filter _
      _ = rest.filterMap ingestKey := hkeys
      _ |>.Perm (s'.live.filterMap ingestKey) := (hlive'.filterMap ingestKey).symm
  · intro row hrow
    rw [hrows] at hrow
    rw [hclock]
    exact h.unexpired row (List.mem_filter.1 hrow).1

theorem rows_releasePlanCapacity (table : ReservationTable) (planId : String) (fails : Bool) :
    (releasePlanCapacity table planId fails).rows = if !fails then table.rows.filter fun row => row.owner ≠ planId else table.rows := by
  cases fails <;> rfl

theorem perm_cons_eraseIdx {xs : List StartedPlan} {i : Nat} (h : xs[i]? = some x) : xs.Perm (x :: xs.eraseIdx i) := by
  obtain ⟨hi, rfl⟩ := List.getElem?_eq_some_iff.1 h
  exact (List.getElem_cons_eraseIdx_perm hi).symm

theorem Matched.launch (h : Matched s) {i : Nat} {raises : Option Exn} {releaseFails : Bool}
    (hends : ∀ x ∈ s.booked[i]?, raises ≠ none → s.EndsAlone x (!releaseFails)) :
    Matched (s.launchIngest i raises releaseFails).2 := by
  unfold IngestStores.launchIngest
  split
  · exact h
  rename_i start hstart
  have hbooked := perm_cons_eraseIdx hstart
  cases raises with
  | none =>
    have hlive : (s.booked.eraseIdx i ++ (s.running ++ [start])).Perm s.live := by
      unfold IngestStores.live
      rw [← List.append_assoc]
      refine List.perm_append_comm.trans ?_
      exact (hbooked.append_right s.running).symm
    have hknown : ∀ x ∈ known { s with booked := s.booked.eraseIdx i, running := s.running ++ [start] }, x ∈ known s := by
      intro x hx
      rcases List.mem_append.1 hx with hx | hx
      · exact List.mem_append_left _ hx
      · exact mem_known_of_live (hlive.subset hx)
    exact { perm := h.perm.trans (hlive.filterMap ingestKey).symm, unexpired := h.unexpired
            agree := fun x hx y hy => h.agree x (hknown x hx) y (hknown y hy), issued := fun x hx => h.issued x (hknown x hx) }
  | some e =>
    refine h.ends (s.booked.eraseIdx i ++ s.running) (!releaseFails) (hbooked.append_right _)
      (hends start hstart nofun) (List.Perm.refl _) ?_ (rows_releasePlanCapacity _ _ _) rfl rfl
    intro y hy
    rcases List.mem_append.1 hy with hy | hy
    · obtain ⟨entry, hentry, rfl⟩ := List.mem_map.1 hy
      exact List.mem_append_left _ (List.mem_map.2 ⟨entry, (List.mem_filter.1 hentry).1, rfl⟩)
    · exact mem_known_of_live ((hbooked.append_right _).symm.subset (List.mem_cons_of_mem _ hy))

theorem Matched.finish (h : Matched s) {j : Nat} {reached releaseFails : Bool}
    (hends : ∀ x ∈ s.running[j]?, s.EndsAlone x (reached && !releaseFails)) : Matched (s.finishIngest j reached releaseFails) := by
  unfold IngestStores.finishIngest
  split
  · exact h
  rename_i job hjob
  have hlive : s.live.Perm (job :: (s.booked ++ s.running.eraseIdx j)) :=
    ((perm_cons_eraseIdx hjob).append_left _).trans List.perm_middle
  refine h.ends (s.booked ++ s.running.eraseIdx j) (reached && !releaseFails) hlive (hends job hjob)
    (List.Perm.refl _) ?_ ?_ rfl rfl
  · intro y hy
    rcases List.mem_append.1 hy with hy | hy
    · exact List.mem_append_left _ hy
    · exact mem_known_of_live (hlive.symm.subset (List.mem_cons_of_mem _ hy))
  · cases reached with
    | false => rfl
    | true => exact rows_releasePlanCapacity _ _ _

/-- An orderly call keeps the bookings those of the ingests. -/
theorem Matched.call (h : Matched s) (upper : String → String) {c : IngestCall} (hc : s.Orderly c) : Matched (s.call upper c).2 := by
  cases c with
  | register planId plan => exact h.register planId plan
  | book request cacheDrives cartridges slots now => exact h.book upper request cacheDrives cartridges slots hc.1 hc.2
  | launch i raises releaseFails => exact h.launch hc
  | finish j reached releaseFails => exact h.finish hc
  | tick now => exact h.elapse hc

theorem matched_init (upper : String → String) (start : DateTime) : Matched (ingestStores upper start).init where
  perm := List.Perm.nil
  unexpired := fun _ hrow => absurd hrow List.not_mem_nil
  agree := fun _ hx => absurd hx List.not_mem_nil
  issued := fun _ hx => absurd hx List.not_mem_nil

end BookingAux

/-- In every run of starts, jobs and clock advances in which no booking expires under an ingest, and every ingest into a pool that
fails to start or ends is the only one of its plan then and releases its booking, the ingests are covered at every moment. -/
theorem ingests_covered (upper : String → String) (start : DateTime) (calls : List IngestCall)
    (h : (ingestStores upper start).Meets IngestStores.Orderly (ingestStores upper start).init calls) :
    ((ingestStores upper start).after (ingestStores upper start).init calls).Covered := by
  have hmatched : BookingAux.Matched ((ingestStores upper start).after (ingestStores upper start).init calls) :=
    h.keeps (fun _ _ hmatched hc => hmatched.call upper hc) (BookingAux.matched_init upper start)
  exact hmatched.covered

namespace BookingExample

/-- A plan of a pool. -/
def plan : ArchivePlan := { pool := some "pool-a", totalBytes := 4000 }

def request : StartIngestRequest := { planId := "plan-a", poolId := some "pool-a", cacheDriveId := some "cache-1" }

/-- The plan is started at the epoch, with one blank tape in the library. -/
def startCall : List IngestCall :=
  [.book request ["cache-1"] [] (some [(0, some "T00001L9")]) .epoch, .launch 0 none false]

instance (s : IngestStores) (now : DateTime) : Decidable (s.InTime now) :=
  inferInstanceAs (Decidable (∀ row ∈ s.table.rows, s.liveOf row.owner ≠ 0 → max s.clock now < row.expires))

instance (s : IngestStores) (x : StartedPlan) (releases : Bool) : Decidable (s.EndsAlone x releases) :=
  inferInstanceAs (Decidable (x.plan.pool ≠ none → s.liveOf x.planId = 1 ∧ releases = true))

instance (s : IngestStores) (c : IngestCall) : Decidable (s.Orderly c) :=
  match c with
  | .register _ _ => isTrue trivial
  | .book _ _ _ _ now => inferInstanceAs (Decidable (_ ∧ ∀ expiresAt ∈ now.add planReservationTtl, max s.clock now < expiresAt))
  | .launch i raises releaseFails => inferInstanceAs (Decidable (∀ x ∈ s.booked[i]?, raises ≠ none → s.EndsAlone x (!releaseFails)))
  | .finish j reached releaseFails => inferInstanceAs (Decidable (∀ x ∈ s.running[j]?, s.EndsAlone x (reached && !releaseFails)))
  | .tick now => inferInstanceAs (Decidable (s.InTime now))

end BookingExample

open BookingExample in
/-- A plan is started, runs and ends, and is started again. -/
theorem ingests_covered_again :
    let calls := .register "plan-a" plan :: startCall ++ .finish 0 true false :: startCall
    (ingestStores id .epoch).Meets IngestStores.Orderly (ingestStores id .epoch).init calls ∧
      ((ingestStores id .epoch).after (ingestStores id .epoch).init calls).Covered := by
  intro calls
  have hmeets : (ingestStores id .epoch).Meets IngestStores.Orderly (ingestStores id .epoch).init calls := by
    refine ⟨?_, ?_, ?_, ?_, ?_, ?_, trivial⟩ <;> decide +kernel
  exact ⟨hmeets, ingests_covered id .epoch calls hmeets⟩

open BookingExample in
/-- A plan is started twice: when its first job ends, the second can still write, and has no booking. -/
theorem second_job_uncovered :
    ¬∀ (upper : String → String) (start : DateTime) (calls : List IngestCall),
      ((ingestStores upper start).after (ingestStores upper start).init calls).Covered := by
  intro h
  have hcovered := h id .epoch (.register "plan-a" plan :: startCall ++ startCall ++ [.finish 0 true false])
  generalize hleft : (ingestStores id .epoch).after (ingestStores id .epoch).init
    (.register "plan-a" plan :: startCall ++ startCall ++ [.finish 0 true false]) = s at hcovered
  have hrunning : s.running.map (fun job => (job.planId, job.plan.pool)) = [("plan-a", some "pool-a")] := by
    rw [← hleft]
    decide +kernel
  have hrows : s.table.rows.length = 0 := by
    rw [← hleft]
    decide +kernel
  obtain ⟨job, hrun, hjob⟩ := List.map_eq_singleton_iff.1 hrunning
  have hpool : job.plan.pool = some "pool-a" := (Prod.mk.inj hjob).2
  have hcount := hcovered.booked job (by rw [hrun]; exact List.mem_singleton_self job) "pool-a" hpool
  rw [List.length_eq_zero_iff.1 hrows, hrun] at hcount
  simp at hcount

end OpenBlade
