import Mathlib
import OpenBlade.Nas.CatalogShard

/-!
# What the path index says of a pool

`list_tapes_for_pool` and `get_stats` of `PathMappingService` gather what a search gives, and a search gives no more rows than its
limit; `total_files` alone is counted by the table. `pool_queries_complete_iff` says for which pools they agree.
-/

namespace OpenBlade

open Effects

def NasFileState.value : NasFileState → String
  | onlineCached => "online_cached"
  | offlineOnTape => "offline_on_tape"
  | hydrating => "hydrating"
  | missingTape => "missing_tape"
  | failed => "failed"
  | corrupt => "corrupt"
  | exported => "exported"

/-- The tapes a mapping names. -/
def PathMappingRecord.barcodes (record : PathMappingRecord) : List Barcode :=
  (if record.primaryBarcode ≠ "" then [record.primaryBarcode] else []) ++ record.allBarcodes.filter fun barcode => barcode ≠ ""

structure PathIndexStats where
  totalFiles : Nat
  totalBytes : Int
  byState : Dict String Nat
  tapeCount : Nat
  poolId : String
  datasetId : String

namespace PathIndex

variable (index : PathIndex)

/-- The rows of a query by pool and dataset; a filter that is empty is none. -/
def selected (poolId datasetId : String) : List PathMappingRecord :=
  (index.rows.map Prod.snd).filter fun row => (poolId = "" ∨ row.poolId = poolId) ∧ (datasetId = "" ∨ row.datasetId = datasetId)

/-- `search_path_mappings`, by pool and dataset and from the first row on. -/
def searchPathMappings (poolId datasetId : String) (limit : Nat) : List PathMappingRecord :=
  ((index.selected poolId datasetId).insertionSort fun a b => a.logicalPath ≤ b.logicalPath).take limit

/-- `count_path_mappings`. -/
def countPathMappings (poolId datasetId : String) : Nat := (index.selected poolId datasetId).length

/-- The limit of the searches that gather. -/
def gatherLimit : Nat := 10000

/-- `list_tapes_for_pool`. -/
def listTapesForPool (poolId : String) : List Barcode :=
  ((index.searchPathMappings poolId "" gatherLimit).flatMap PathMappingRecord.barcodes).dedup.insertionSort fun a b => a ≤ b

/-- `by_state[state] = by_state.get(state, 0) + 1`. -/
def countState (byState : Dict String Nat) (record : PathMappingRecord) : Dict String Nat :=
  byState.set record.fileState.value ((byState.get? record.fileState.value).getD 0 + 1)

/-- `get_stats`. -/
def getStats (poolId datasetId : String) : PathIndexStats :=
  let records := index.searchPathMappings poolId datasetId gatherLimit
  { totalFiles := index.countPathMappings poolId datasetId
    totalBytes := (records.map PathMappingRecord.size).sum
    byState := records.foldl countState []
    tapeCount := (records.flatMap PathMappingRecord.barcodes).dedup.length
    poolId := poolId
    datasetId := datasetId }

/-- The mappings of a pool, and of a dataset where one is named. -/
def mappingsOf (poolId datasetId : String) : List PathMappingRecord :=
  (index.rows.map Prod.snd).filter fun row => row.poolId = poolId ∧ (datasetId = "" ∨ row.datasetId = datasetId)

/-- Statistics that tell of all the mappings there are. -/
structure StatsComplete (stats : PathIndexStats) (mappings : List PathMappingRecord) : Prop where
  files : stats.totalFiles = mappings.length
  counted : (stats.byState.map Prod.snd).sum = stats.totalFiles
  states : ∀ state : NasFileState, (stats.byState.get? state.value).getD 0 = mappings.countP fun row => row.fileState = state
  bytes : stats.totalBytes = (mappings.map PathMappingRecord.size).sum
  tapes : stats.tapeCount = (mappings.flatMap PathMappingRecord.barcodes).dedup.length

/-- The queries of a pool give what its mappings say. -/
structure PoolQueriesComplete (poolId : String) : Prop where
  distinct : (index.listTapesForPool poolId).Nodup
  listed : ∀ barcode, barcode ∈ index.listTapesForPool poolId ↔ ∃ row ∈ index.mappingsOf poolId "", barcode ∈ row.barcodes
  stats : ∀ datasetId, StatsComplete (index.getStats poolId datasetId) (index.mappingsOf poolId datasetId)

end PathIndex

namespace PathQueriesAux

open PathIndex

/-! ### Counts by state -/

theorem value_inj {a b : NasFileState} (h : a.value = b.value) : a = b := by
  cases a <;> cases b <;> first | rfl | (exact absurd h (by decide))

theorem nodup_countState {byState : Dict String Nat} (h : (Dict.keys byState).Nodup) (record : PathMappingRecord) :
    (Dict.keys (countState byState record)).Nodup := Dict.nodup_keys_set h

/-- Another row is one more of its state. -/
theorem get?_countState (byState : Dict String Nat) (record : PathMappingRecord) (state : NasFileState) :
    ((countState byState record).get? state.value).getD 0 =
      (byState.get? state.value).getD 0 + if record.fileState = state then 1 else 0 := by
  unfold countState
  rw [Dict.get?_set]
  by_cases h : record.fileState = state
  · rw [if_pos h, if_pos (congrArg _ h), h]
    rfl
  · rw [if_neg h, if_neg fun heq => h (value_inj heq)]
    rfl

theorem sum_countState {byState : Dict String Nat} (h : (Dict.keys byState).Nodup) (record : PathMappingRecord) :
    ((countState byState record).map Prod.snd).sum = (byState.map Prod.snd).sum + 1 := by
  have hcast : ∀ counts : Dict String Nat, (((counts.map Prod.snd).sum : Nat) : Int) = (counts.map fun p => (p.2 : Int)).sum := by
    intro counts
    induction counts with
    | nil => rfl
    | cons p counts ih => rw [List.map_cons, List.sum_cons, List.map_cons, List.sum_cons, ← ih, Int.natCast_add]
  have hsum := Dict.sum_set h record.fileState.value ((byState.get? record.fileState.value).getD 0 + 1) fun n => (n : Int)
  have hold : ((byState.get? record.fileState.value).map (fun n : Nat => (n : Int))).getD 0 =
      (((byState.get? record.fileState.value).getD 0 : Nat) : Int) := by
    cases byState.get? record.fileState.value <;> rfl
  rw [← hcast, ← hcast, hold] at hsum
  unfold countState
  omega

theorem foldl_countState (records : List PathMappingRecord) (byState : Dict String Nat) (h : (Dict.keys byState).Nodup) :
    ((records.foldl countState byState).map Prod.snd).sum = (byState.map Prod.snd).sum + records.length ∧
      ∀ state : NasFileState, ((records.foldl countState byState).get? state.value).getD 0 =
        (byState.get? state.value).getD 0 + records.countP fun row => row.fileState = state := by
  induction records generalizing byState with
  | nil => simp
  | cons record records ih =>
    obtain ⟨hsum, hstates⟩ := ih (countState byState record) (nodup_countState h record)
    refine ⟨?_, fun state => ?_⟩
    · rw [List.foldl_cons, hsum, sum_countState h, List.length_cons]
      omega
    · rw [List.foldl_cons, hstates, get?_countState, List.countP_cons]
      simp only [decide_eq_true_eq]
      omega

/-! ### Searches -/

variable {index : PathIndex} {poolId datasetId : String}

/-- A search that is not cut gives the rows in another order. -/
theorem perm_search (h : (index.selected poolId datasetId).length ≤ gatherLimit) :
    (index.searchPathMappings poolId datasetId gatherLimit).Perm (index.selected poolId datasetId) := by
  unfold searchPathMappings
  rw [List.take_of_length_le ((List.length_insertionSort _ _).trans_le h)]
  exact List.perm_insertionSort _ _

theorem length_search : (index.searchPathMappings poolId datasetId gatherLimit).length =
    min gatherLimit (index.selected poolId datasetId).length := by
  unfold searchPathMappings
  rw [List.length_take, List.length_insertionSort]

theorem mem_listTapesForPool {barcode : Barcode} : barcode ∈ index.listTapesForPool poolId ↔
    ∃ row ∈ index.searchPathMappings poolId "" gatherLimit, barcode ∈ row.barcodes := by
  unfold listTapesForPool
  rw [List.mem_insertionSort, List.mem_dedup, List.mem_flatMap]

theorem nodup_listTapesForPool : (index.listTapesForPool poolId).Nodup :=
  (List.perm_insertionSort _ _).nodup_iff.2 (List.nodup_dedup _)

/-- Where every row is of the pool, or the pool is named, a search selects the mappings of the pool. -/
theorem selected_eq (h : poolId = "" → ∀ row ∈ index.rows, row.2.poolId = "") :
    index.selected poolId datasetId = index.mappingsOf poolId datasetId := by
  refine List.filter_congr fun row hrow => ?_
  by_cases hpool : poolId = ""
  · obtain ⟨entry, hentry, rfl⟩ := List.mem_map.1 hrow
    simp [hpool, h hpool entry hentry]
  · simp [hpool]

/-- What is selected by no pool is a mapping of the pool "" only where no row is of another. -/
theorem length_mappingsOf_lt {entry : (String × String) × PathMappingRecord} (hentry : entry ∈ index.rows) (hother : entry.2.poolId ≠ "") :
    (index.mappingsOf "" "").length < (index.selected "" "").length := by
  have hsplit : index.selected "" "" = index.rows.map Prod.snd := List.filter_eq_self.2 fun row _ => by simp
  have hmem : entry.2 ∈ index.rows.map Prod.snd := List.mem_map_of_mem hentry
  rw [hsplit]
  refine (List.length_filter_le _ _).lt_of_ne fun heq => hother ?_
  have hall := List.length_filter_eq_length_iff.1 heq entry.2 hmem
  simpa using hall

theorem statsComplete_of_perm {mappings : List PathMappingRecord}
    (hselected : index.selected poolId datasetId = mappings) (h : mappings.length ≤ gatherLimit) :
    StatsComplete (index.getStats poolId datasetId) mappings := by
  have hperm := perm_search (hselected ▸ h)
  rw [hselected] at hperm
  obtain ⟨hsum, hstates⟩ := foldl_countState (index.searchPathMappings poolId datasetId gatherLimit) [] List.nodup_nil
  refine ⟨congrArg List.length hselected, ?_, fun state => ?_, ?_, ?_⟩
  · refine hsum.trans ?_
    show 0 + _ = (index.selected poolId datasetId).length
    rw [hselected, hperm.length_eq, Nat.zero_add]
  · refine (hstates state).trans ?_
    show 0 + _ = _
    rw [hperm.countP_eq, Nat.zero_add]
  · exact (hperm.map _).sum_eq
  · exact (hperm.flatMap_right _).dedup.length_eq

end PathQueriesAux

open PathQueriesAux

/-- The queries of a pool are complete exactly when it has no more mappings than a search gives and, if its id is empty and so no
filter, there are no mappings of other pools. -/
theorem pool_queries_complete_iff (index : PathIndex) (poolId : String) :
    index.PoolQueriesComplete poolId ↔
      (index.mappingsOf poolId "").length ≤ PathIndex.gatherLimit ∧ (poolId = "" → ∀ row ∈ index.rows, row.2.poolId = "") := by
  constructor
  · intro h
    have hstats := h.stats ""
    have hfiles : (index.selected poolId "").length = (index.mappingsOf poolId "").length := hstats.files
    have hcounted : min PathIndex.gatherLimit (index.selected poolId "").length = (index.selected poolId "").length := by
      rw [← length_search]
      refine ((foldl_countState _ [] List.nodup_nil).1.trans (Nat.zero_add _)).symm.trans ?_
      exact hstats.counted
    refine ⟨by rw [← hfiles]; omega, ?_⟩
    rintro rfl entry hentry
    by_contra hother
    have hlt := length_mappingsOf_lt hentry hother
    omega
  · rintro ⟨hlimit, hpool⟩
    have hselected : ∀ datasetId, index.selected poolId datasetId = index.mappingsOf poolId datasetId := fun _ => selected_eq hpool
    have hperm : (index.searchPathMappings poolId "" PathIndex.gatherLimit).Perm (index.selected poolId "") :=
      perm_search ((hselected "").symm ▸ hlimit)
    refine ⟨nodup_listTapesForPool, fun barcode => ?_, fun datasetId => statsComplete_of_perm (hselected datasetId) ?_⟩
    · rw [mem_listTapesForPool, ← hselected ""]
      exact exists_congr fun row => and_congr_left fun _ => hperm.mem_iff
    · refine Nat.le_trans (List.Sublist.length_le ?_) hlimit
      exact List.monotone_filter_right _ fun row h => by simpa using (of_decide_eq_true h).1

namespace PathQueriesExample

/-- A file named by as many letters. -/
def mapping (n : Nat) : PathMappingRecord :=
  { logicalPath := String.ofList (List.replicate (n + 1) 'a'), poolId := "pool-a", primaryBarcode := "TAPE001", allBarcodes := ["TAPE001"] }

theorem mapping_inj {m n : Nat} (h : (mapping m).key = (mapping n).key) : m = n := by
  have hpath : (mapping m).logicalPath = (mapping n).logicalPath := congrArg Prod.fst h
  have hlength := congrArg (fun path => path.toList.length) hpath
  simpa [mapping] using hlength

/-- An index of so many files. -/
def index (n : Nat) : PathIndex where
  rows := (List.range n).map fun i => ((mapping i).key, mapping i)
  nodup := by
    rw [Dict.keys, List.map_map]
    exact List.nodup_range.map fun _ _ h => mapping_inj h
  keyed row hrow := by
    obtain ⟨i, -, rfl⟩ := List.mem_map.1 hrow
    rfl

theorem length_selected (n : Nat) : ((index n).selected "pool-a" "").length = n := by
  have hall : (index n).selected "pool-a" "" = (List.range n).map mapping := by
    unfold PathIndex.selected index
    rw [List.map_map]
    refine List.filter_eq_self.2 fun row hrow => ?_
    obtain ⟨i, -, rfl⟩ := List.mem_map.1 hrow
    rfl
  rw [hall, List.length_map, List.length_range]

/-- What is told of the pool, and what is counted. -/
theorem getStats_index (n : Nat) : ((index n).getStats "pool-a" "").totalFiles = n ∧
    (((index n).getStats "pool-a" "").byState.map Prod.snd).sum = min PathIndex.gatherLimit n := by
  refine ⟨length_selected n, (foldl_countState _ [] List.nodup_nil).1.trans ?_⟩
  rw [length_search, length_selected]
  exact Nat.zero_add _

end PathQueriesExample

/-- Of a pool of 10001 files, the counts by state account for 10000. -/
theorem large_pool_not_counted :
    ((PathQueriesExample.index 10001).getStats "pool-a" "").totalFiles = 10001 ∧
      (((PathQueriesExample.index 10001).getStats "pool-a" "").byState.map Prod.snd).sum = 10000 ∧
      ¬(PathQueriesExample.index 10001).PoolQueriesComplete "pool-a" := by
  obtain ⟨hfiles, hcounted⟩ := PathQueriesExample.getStats_index 10001
  have hmin : min PathIndex.gatherLimit 10001 = 10000 := by decide
  refine ⟨hfiles, hcounted.trans hmin, fun h => ?_⟩
  have hsum := (h.stats "").counted
  rw [hfiles, hcounted, hmin] at hsum
  exact absurd hsum (by decide)

end OpenBlade
