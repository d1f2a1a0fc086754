import Mathlib

/-!
# Striping

Items dealt to lanes in turn, and collected from the lanes in turn until one has nothing left: what is collected is what was dealt.
Items that are blocks of one size, but for a shorter last one, can be told apart in a lane that has them one behind the other.
-/

namespace Storage

variable {α β : Type}

/-! ### Dealing -/

/-- Every `n`-th item, from the item `i` on. -/
def everyNth (i n : Nat) (xs : List α) : List α := (xs.zipIdx.filter fun x => x.2 % n = i).map Prod.fst

theorem everyNth_sublist (i n : Nat) (xs : List α) : (everyNth i n xs).Sublist xs := by
  have hsub := (List.filter_sublist (p := fun x : α × Nat => decide (x.2 % n = i)) (l := xs.zipIdx)).map Prod.fst
  rwa [List.zipIdx_map_fst] at hsub

theorem everyNth_map (f : α → β) (i n : Nat) (xs : List α) : everyNth i n (xs.map f) = (everyNth i n xs).map f := by
  unfold everyNth
  rw [List.zipIdx_map, List.filter_map, List.map_map, List.map_map]
  rfl

/-- At one place there is one item. -/
theorem filter_zipIdx_eq (i k : Nat) (xs : List α) :
    ((xs.zipIdx k).filter fun x => x.2 = i).map Prod.fst = if k ≤ i then xs[i - k]?.toList else [] := by
  induction xs generalizing k with
  | nil => simp
  | cons x xs ih =>
    rw [List.zipIdx_cons, List.filter_cons]
    by_cases hk : k = i
    · subst hk
      simp [ih]
    · rw [if_neg (by simpa using hk), ih]
      by_cases hle : k ≤ i
      · obtain ⟨d, rfl⟩ := Nat.exists_eq_add_of_lt (lt_of_le_of_ne hle hk)
        rw [if_pos (by omega), if_pos hle, show k + d + 1 - k = d + 1 by omega, List.getElem?_cons_succ,
          show k + d + 1 - (k + 1) = d by omega]
      · rw [if_neg (by omega), if_neg hle]

/-- A lane has at most one item of the first turn. -/
theorem everyNth_short {i n : Nat} {xs : List α} (hlength : xs.length ≤ n) : everyNth i n xs = xs[i]?.toList := by
  have hfilter : (xs.zipIdx.filter fun x => x.2 % n = i) = xs.zipIdx.filter fun x => x.2 = i := by
    refine List.filter_congr fun x hx => ?_
    have hlt : x.2 < n := lt_of_lt_of_le (by simpa using List.snd_lt_of_mem_zipIdx hx) hlength
    rw [Nat.mod_eq_of_lt hlt]
  unfold everyNth
  rw [hfilter, filter_zipIdx_eq, if_pos (Nat.zero_le i), Nat.sub_zero]

/-- The items of a lane are the one of the first turn and those of the turns after it. -/
theorem everyNth_eq {i n : Nat} (hi : i < n) (xs : List α) : everyNth i n xs = xs[i]?.toList ++ everyNth i n (xs.drop n) := by
  by_cases hlength : xs.length ≤ n
  · rw [everyNth_short hlength, List.drop_eq_nil_of_le hlength]
    simp [everyNth]
  have htake : (xs.take n).length = n := List.length_take_of_le (by omega)
  have hfirst := everyNth_short (i := i) htake.le
  have hlater : (((xs.drop n).zipIdx n).filter fun x => x.2 % n = i).map Prod.fst = everyNth i n (xs.drop n) := by
    rw [List.zipIdx_eq_map_add, List.filter_map, List.map_map]
    unfold everyNth
    simp [Function.comp_def]
  conv_lhs => rw [← List.take_append_drop n xs]
  unfold everyNth at hfirst ⊢
  rw [List.zipIdx_append, List.filter_append, List.map_append, hfirst, htake, Nat.zero_add, hlater, List.getElem?_take_of_lt hi]
  rfl

/-- The lanes that items are dealt to. -/
def deal (n : Nat) (xs : List α) : List (List α) := (List.range n).map fun i => everyNth i n xs

/-- Dealing loses no item. -/
theorem sum_length_deal {n : Nat} (hn : 0 < n) (xs : List α) : ((deal n xs).map List.length).sum = xs.length := by
  have hturn : ∀ m, ((List.range m).map fun i => (xs[i]?.toList).length).sum = min m xs.length := by
    intro m
    induction m with
    | zero => simp
    | succ m ih =>
      rw [List.range_succ, List.map_append, List.sum_append, ih]
      cases hm : xs[m]? with
      | none =>
        have hle := List.getElem?_eq_none_iff.1 hm
        simp [hm]
        omega
      | some x =>
        have hlt := (List.getElem?_eq_some_iff.1 hm).1
        simp [hm]
        omega
  have hlanes : ((deal n xs).map List.length).sum =
      ((List.range n).map fun i => (xs[i]?.toList).length).sum + ((deal n (xs.drop n)).map List.length).sum := by
    unfold deal
    rw [List.map_map, List.map_map, ← List.sum_map_add]
    refine congrArg List.sum (List.map_congr_left fun i hi => ?_)
    rw [Function.comp_apply, everyNth_eq (List.mem_range.1 hi), List.length_append]
    rfl
  rw [hlanes, hturn]
  by_cases hlength : xs.length ≤ n
  · rw [List.drop_eq_nil_of_le hlength]
    have hnil : ((deal n ([] : List α)).map List.length).sum = 0 := by
      simp [deal, everyNth]
    omega
  · have ih := sum_length_deal hn (xs.drop n)
    rw [ih, List.length_drop]
    omega
termination_by xs.length
decreasing_by
  rw [List.length_drop]
  omega

/-! ### Collecting -/

/-- One turn through the lanes: what is collected, what is left of the lanes, and whether one had nothing left. -/
def collectRound : List (List α) → List α × List (List α) × Bool
  | [] => ([], [], false)
  | [] :: lanes => ([], [] :: lanes, true)
  | (x :: lane) :: lanes =>
    let (out, rest, done) := collectRound lanes
    (x :: out, lane :: rest, done)

/-- Turns through the lanes, until one has nothing left. -/
def collect : Nat → List (List α) → List α
  | 0, _ => []
  | fuel + 1, lanes =>
    let (out, rest, done) := collectRound lanes
    if done then out else out ++ collect fuel rest

/-- A turn through lanes that begin with the items from `k` on, each with one of them: as many are collected as there are, and the
turn is the last if a lane has none. -/
theorem collectRound_items (xs : List α) (later : Nat → List α) (k m : Nat)
    (hlater : ∀ i, xs[i]? = none → later i = []) :
    (collectRound ((List.range' k m).map fun i => xs[i]?.toList ++ later i)).1 = (xs.drop k).take m ∧
      ((collectRound ((List.range' k m).map fun i => xs[i]?.toList ++ later i)).2.2 = true ↔ xs.length < k + m ∧ 0 < m) ∧
      (k + m ≤ xs.length →
        (collectRound ((List.range' k m).map fun i => xs[i]?.toList ++ later i)).2.1 = (List.range' k m).map later) := by
  induction m generalizing k with
  | zero => simp [collectRound]
  | succ m ih =>
    rw [List.range'_succ, List.map_cons]
    cases hk : xs[k]? with
    | none =>
      have hle : xs.length ≤ k := List.getElem?_eq_none_iff.1 hk
      rw [hlater k hk]
      refine ⟨?_, ?_, fun h => absurd h (by omega)⟩
      · rw [List.drop_eq_nil_of_le hle]
        rfl
      · simp only [Option.toList_none, List.append_nil, collectRound, true_iff]
        omega
    | some x =>
      obtain ⟨hlt, hx⟩ := List.getElem?_eq_some_iff.1 hk
      obtain ⟨hout, hdone, hrest⟩ := ih (k + 1)
      refine ⟨?_, ?_, fun h => ?_⟩
      · simp only [Option.toList_some, List.singleton_append, collectRound]
        rw [hout, List.drop_eq_getElem_cons hlt, hx, List.take_succ_cons]
      · simp only [Option.toList_some, List.singleton_append, collectRound]
        rw [hdone]
        omega
      · simp only [Option.toList_some, List.singleton_append, collectRound]
        rw [hrest (by omega), List.map_cons]

/-- What is dealt is collected. -/
theorem collect_deal {n : Nat} (hn : 0 < n) {fuel : Nat} {xs : List α} (hfuel : xs.length < fuel) : collect fuel (deal n xs) = xs := by
  induction fuel generalizing xs with
  | zero => exact absurd hfuel (Nat.not_lt_zero _)
  | succ fuel ih =>
    have hdeal : deal n xs = (List.range' 0 n).map fun i => xs[i]?.toList ++ everyNth i n (xs.drop n) := by
      unfold deal
      rw [List.range_eq_range']
      refine List.map_congr_left fun i hi => everyNth_eq ?_ xs
      simpa using hi
    have hlater : ∀ i, xs[i]? = none → everyNth i n (xs.drop n) = [] := by
      intro i hi
      by_cases hin : i < n
      · have hle := List.getElem?_eq_none_iff.1 hi
        rw [List.drop_eq_nil_of_le (by omega)]
        rfl
      · have hnone : ∀ x ∈ (xs.drop n).zipIdx, ¬decide (x.2 % n = i) = true := by
          intro x _ hx
          have := Nat.mod_lt x.2 hn
          simp only [decide_eq_true_eq] at hx
          omega
        unfold everyNth
        rw [List.filter_eq_nil_iff.2 hnone]
        rfl
    obtain ⟨hout, hdone, hrest⟩ := collectRound_items xs _ 0 n hlater
    rw [← hdeal] at hout hdone hrest
    simp only [collect]
    by_cases hlast : xs.length < n
    · rw [if_pos (hdone.2 ⟨by omega, hn⟩), hout, List.drop_zero, List.take_of_length_le hlast.le]
    · have hnext : (collectRound (deal n xs)).2.1 = deal n (xs.drop n) := by
        rw [hrest (by omega), deal, List.range_eq_range']
      have hshorter : (xs.drop n).length < fuel := by
        rw [List.length_drop]
        omega
      rw [if_neg (fun h => absurd (hdone.1 h).1 (by omega)), hout, hnext, ih hshorter, List.drop_zero, List.take_append_drop]

/-! ### Blocks -/

/-- Blocks of one size, all but the last of which are full. -/
def Blocked (size : Nat) : List (List α) → Prop
  | [] => True
  | block :: blocks => (block ≠ [] ∧ block.length ≤ size) ∧ (blocks ≠ [] → block.length = size) ∧ Blocked size blocks

theorem Blocked.sublist {size : Nat} {blocks blocks' : List (List α)} (h : Blocked size blocks) (hsub : blocks'.Sublist blocks) :
    Blocked size blocks' := by
  induction hsub with
  | slnil => trivial
  | cons block _ ih => exact ih h.2.2
  | cons_cons block hsub ih => exact ⟨h.1, fun hne => h.2.1 fun hnil => hne (List.sublist_nil.1 (hnil ▸ hsub)), ih h.2.2⟩

/-- The first block of a lane is told by its size, and so is what comes after it. -/
theorem Blocked.take_flatten {size : Nat} {block : List α} {blocks : List (List α)} (h : Blocked size (block :: blocks)) :
    (block :: blocks).flatten.take size = block ∧ (block :: blocks).flatten.drop size = blocks.flatten := by
  obtain ⟨⟨-, hle⟩, hfull, -⟩ := h
  rw [List.flatten_cons]
  by_cases hlast : blocks = []
  · subst hlast
    simp [List.take_of_length_le hle, List.drop_eq_nil_of_le hle]
  · rw [← hfull hlast, List.take_left, List.drop_left]
    exact ⟨rfl, rfl⟩

/-- What is left of blocked lanes is blocked. -/
theorem collectRound_blocked {size : Nat} {lanes : List (List (List α))} (h : ∀ lane ∈ lanes, Blocked size lane) :
    ∀ lane ∈ (collectRound lanes).2.1, Blocked size lane := by
  induction lanes with
  | nil => exact fun lane hlane => absurd hlane List.not_mem_nil
  | cons lane lanes ih =>
    cases lane with
    | nil => exact h
    | cons block blocks =>
      intro lane' hlane'
      rcases List.mem_cons.1 hlane' with rfl | hlane'
      · exact (h _ List.mem_cons_self).2.2
      · exact ih (fun lane hlane => h lane (List.mem_cons_of_mem _ hlane)) lane' hlane'

end Storage
