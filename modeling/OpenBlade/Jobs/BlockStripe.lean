import Mathlib
import OpenBlade.Jobs.ShardedArchive
import OpenBlade.Storage.Striping

/-!
# Block striping

What `reassemble_block_stripe` makes of the shard files of a file is the file: the blocks are dealt to the lanes in turn, and a turn
that finds a lane empty is the one after the last block, which alone may be short.
-/

namespace OpenBlade

open Effects Proc Storage

/-- `reassemble_block_stripe`: the destination, and its checksum. -/
def reassembleBlockStripe (sha256 : Bytes → String) (paths : List String) (destPath : String) (blockSize : Nat) :
    JobM LaneLocals String := do
  let shards ← mapEach readHost paths
  writeHost destPath (reassemble blockSize shards)
  pure (sha256 (reassemble blockSize shards))

namespace BlockStripeAux

/-! ### The blocks of a file -/

variable {blockSize : Nat} {content : Bytes}

theorem readBlocks_spec (hblock : 0 < blockSize) {fuel : Nat} (hfuel : content.length < fuel) :
    Blocked blockSize (readBlocks blockSize fuel content) ∧ (readBlocks blockSize fuel content).flatten = content := by
  induction fuel generalizing content with
  | zero => exact absurd hfuel (Nat.not_lt_zero _)
  | succ fuel ih =>
    unfold readBlocks
    by_cases hnil : content.take blockSize = []
    · have hempty : content = [] := (List.take_eq_nil_iff.1 hnil).resolve_left (by omega)
      rw [if_pos hnil, hempty]
      exact ⟨trivial, rfl⟩
    · rw [if_neg hnil]
      have hne : content ≠ [] := by
        rintro rfl
        exact hnil (List.take_nil)
      have hpos : 0 < content.length := List.length_pos_iff.2 hne
      have hdrop : (content.drop blockSize).length < fuel := by
        rw [List.length_drop]
        omega
      obtain ⟨hblocked, hflat⟩ := ih hdrop
      refine ⟨⟨⟨hnil, List.length_take_le _ _⟩, fun hmore => ?_, hblocked⟩, ?_⟩
      · refine List.length_take_of_le (Nat.le_of_lt (Nat.lt_of_not_le fun hle => hmore ?_))
        rw [List.drop_eq_nil_of_le hle] at hflat ⊢
        cases fuel <;> simp [readBlocks]
      · rw [List.flatten_cons, hflat, List.take_append_drop]

theorem blocks_blocked (hblock : 0 < blockSize) (content : Bytes) : Blocked blockSize (blocks blockSize content) :=
  (readBlocks_spec hblock (Nat.lt_succ_self _)).1

theorem blocks_flatten (hblock : 0 < blockSize) (content : Bytes) : (blocks blockSize content).flatten = content :=
  (readBlocks_spec hblock (Nat.lt_succ_self _)).2

/-- The length of the block at a place of a file. -/
def blockLength (fileSize blockSize blockIndex : Nat) : Nat := min (blockIndex * blockSize + blockSize) fileSize - blockIndex * blockSize

theorem readBlocks_lengths (hblock : 0 < blockSize) {fuel : Nat} (hfuel : content.length < fuel) :
    (readBlocks blockSize fuel content).map List.length =
      (List.range ((content.length + blockSize - 1) / blockSize)).map (blockLength content.length blockSize) := by
  induction fuel generalizing content with
  | zero => exact absurd hfuel (Nat.not_lt_zero _)
  | succ fuel ih =>
    unfold readBlocks
    by_cases hnil : content.take blockSize = []
    · have hempty : content = [] := (List.take_eq_nil_iff.1 hnil).resolve_left (by omega)
      rw [if_pos hnil, hempty]
      have hzero : (([] : Bytes).length + blockSize - 1) / blockSize = 0 := Nat.div_eq_of_lt (by simp; omega)
      rw [hzero]
      rfl
    · rw [if_neg hnil]
      have hne : content ≠ [] := by
        rintro rfl
        exact hnil (List.take_nil)
      have hpos : 0 < content.length := List.length_pos_iff.2 hne
      have hdrop : (content.drop blockSize).length < fuel := by
        rw [List.length_drop]
        omega
      have hcount : (content.length + blockSize - 1) / blockSize =
          ((content.drop blockSize).length + blockSize - 1) / blockSize + 1 := by
        rw [List.length_drop]
        by_cases hle : content.length ≤ blockSize
        · rw [Nat.sub_eq_zero_of_le hle, Nat.div_eq_of_lt (show 0 + blockSize - 1 < blockSize by omega)]
          exact Nat.div_eq_of_lt_le (by omega) (by omega)
        · rw [← Nat.add_div_right _ hblock]
          congr 1
          omega
      rw [hcount, List.range_succ_eq_map, List.map_cons, List.map_cons, List.map_map, ih hdrop]
      refine congrArg₂ _ ?_ (List.map_congr_left fun blockIndex _ => ?_)
      · simp [blockLength]
      · simp only [blockLength, List.length_drop, Function.comp_apply, Nat.succ_mul]
        omega

/-! ### Reading the lanes -/

theorem reassembleRound_flatten {lanes : List (List Bytes)} (h : ∀ lane ∈ lanes, Blocked blockSize lane) :
    reassembleRound blockSize (lanes.map List.flatten) =
      ((collectRound lanes).1.flatten, (collectRound lanes).2.1.map List.flatten, (collectRound lanes).2.2) := by
  induction lanes with
  | nil => rfl
  | cons lane lanes ih =>
    have hrest := ih fun lane hlane => h lane (List.mem_cons_of_mem _ hlane)
    cases lane with
    | nil =>
      simp [reassembleRound, collectRound]
    | cons block blocks =>
      have hblocked := h _ List.mem_cons_self
      obtain ⟨htake, hdrop⟩ := hblocked.take_flatten
      rw [List.map_cons]
      unfold reassembleRound
      simp only [htake, hdrop, hrest]
      rw [if_neg hblocked.1.1]
      rfl

theorem reassembleRounds_flatten {fuel : Nat} {lanes : List (List Bytes)} (h : ∀ lane ∈ lanes, Blocked blockSize lane) :
    reassembleRounds blockSize fuel (lanes.map List.flatten) = (collect fuel lanes).flatten := by
  induction fuel generalizing lanes with
  | zero => rfl
  | succ fuel ih =>
    simp only [reassembleRounds, collect, reassembleRound_flatten h]
    split
    · rfl
    · rw [List.flatten_append, ih (collectRound_blocked h)]

/-- The shard files hold the lanes that the blocks are dealt to. -/
theorem shardContent_eq (content : Bytes) (laneCount blockSize : Nat) :
    ((List.range laneCount).map fun i => shardContent content i laneCount blockSize) =
      (deal laneCount (blocks blockSize content)).map List.flatten := by
  unfold deal
  rw [List.map_map]
  rfl

theorem length_le_flatten {lane : List Bytes} (h : Blocked blockSize lane) : lane.length ≤ lane.flatten.length := by
  induction lane with
  | nil => exact Nat.le_refl 0
  | cons block lane ih =>
    have hpos := List.length_pos_iff.2 h.1.1
    have hrest := ih h.2.2
    rw [List.flatten_cons, List.length_append, List.length_cons]
    omega

theorem reassemble_shards (hblock : 0 < blockSize) {laneCount : Nat} (hlanes : 0 < laneCount) (content : Bytes) :
    reassemble blockSize ((List.range laneCount).map fun i => shardContent content i laneCount blockSize) = content := by
  have hblocked : ∀ lane ∈ deal laneCount (blocks blockSize content), Blocked blockSize lane := by
    intro lane hlane
    obtain ⟨i, -, rfl⟩ := List.mem_map.1 hlane
    exact (blocks_blocked hblock content).sublist (everyNth_sublist ..)
  have hfuel : (blocks blockSize content).length <
      (((deal laneCount (blocks blockSize content)).map List.flatten).map List.length).sum + 1 := by
    rw [List.map_map, Nat.lt_succ_iff, ← sum_length_deal hlanes]
    exact List.sum_le_sum fun lane hlane => length_le_flatten (hblocked lane hlane)
  unfold reassemble
  rw [shardContent_eq, reassembleRounds_flatten hblocked, collect_deal hlanes hfuel, blocks_flatten hblock]

/-! ### The sizes of the lanes -/

/-- A fold that adds to one place at a time adds up, at each place, what goes there. -/
theorem foldl_modify_getElem? (f : Nat → Nat) (laneCount : Nat) (blockIndices : List Nat) (sizes : List Nat) (i : Nat) :
    (blockIndices.foldl (fun sizes blockIndex => sizes.modify (blockIndex % laneCount) (· + f blockIndex)) sizes)[i]? =
      sizes[i]?.map (· + ((blockIndices.filter fun blockIndex => blockIndex % laneCount = i).map f).sum) := by
  induction blockIndices generalizing sizes with
  | nil => simp
  | cons blockIndex blockIndices ih =>
    rw [List.foldl_cons, ih, List.getElem?_modify, List.filter_cons]
    by_cases h : blockIndex % laneCount = i
    · simp [h, Function.comp_def, Nat.add_assoc]
    · simp [h]

theorem everyNth_range_map (f : Nat → Nat) (i laneCount m : Nat) :
    everyNth i laneCount ((List.range m).map f) = ((List.range m).filter fun blockIndex => blockIndex % laneCount = i).map f := by
  have hzip : (List.range m).zipIdx = (List.range m).map fun blockIndex => (blockIndex, blockIndex) := by
    refine List.ext_getElem (by simp) fun k _ _ => ?_
    simp
  rw [everyNth_map]
  unfold everyNth
  rw [hzip, List.filter_map, List.map_map]
  simp [Function.comp_def]

theorem sum_everyNth_lengths (i laneCount : Nat) (bs : List Bytes) :
    (everyNth i laneCount (bs.map List.length)).sum = (everyNth i laneCount bs).flatten.length := by
  rw [everyNth_map, List.length_flatten]

/-- The sizes that are planned are those of the shard files. -/
theorem laneSizes_eq (hblock : 0 < blockSize) (laneCount : Nat) (content : Bytes) :
    laneSizes content.length blockSize laneCount =
      (List.range laneCount).map fun i => (shardContent content i laneCount blockSize).length := by
  have hfold : laneSizes content.length blockSize laneCount =
      (List.range (max 1 ((content.length + blockSize - 1) / blockSize))).foldl
        (fun sizes blockIndex => sizes.modify (blockIndex % laneCount) (· + blockLength content.length blockSize blockIndex))
        (List.replicate laneCount 0) := rfl
  refine List.ext_getElem? fun i => ?_
  rw [hfold, foldl_modify_getElem?, List.getElem?_map]
  by_cases hi : i < laneCount
  · rw [List.getElem?_replicate_of_lt hi, List.getElem?_range hi, Option.map_some, Option.map_some, Nat.zero_add]
    have hshard : (shardContent content i laneCount blockSize).length =
        (((List.range ((content.length + blockSize - 1) / blockSize)).filter fun blockIndex => blockIndex % laneCount = i).map
          (blockLength content.length blockSize)).sum := by
      rw [← everyNth_range_map, ← readBlocks_lengths hblock (Nat.lt_succ_self _), sum_everyNth_lengths]
      rfl
    rw [hshard]
    -- a file without a block is counted as one of an empty block
    by_cases hnone : (content.length + blockSize - 1) / blockSize = 0
    · have hempty : content.length = 0 := by
        have := (Nat.div_eq_zero_iff.1 hnone).resolve_left (by omega)
        omega
      rw [hnone, hempty, show max 1 0 = 1 from rfl, List.range_one, List.filter_cons]
      split <;> simp [blockLength]
    · rw [show max 1 ((content.length + blockSize - 1) / blockSize) = _ from max_eq_right (Nat.pos_of_ne_zero hnone)]
  · rw [List.getElem?_eq_none (by simpa using hi), List.getElem?_eq_none (by simpa using hi)]
    rfl

/-! ### Running -/

variable {sha256 : Bytes → String} {w : World} {E : Exn → LaneLocals → World → Prop} {l : LaneLocals}

/-- No call fails. -/
abbrev smoothly (sha256 : Bytes → String) : Contract World Op (fun o => Except Exn o.Ans) := .fixed (machine sha256) {}

theorem wp_readHost {path : String} {bytes : Bytes} (h : w.host.get? path = some bytes) :
    wp (machine sha256) (smoothly sha256) (readHost path) (fun a _ w' => a = bytes ∧ w'.host = w.host) E l w := by
  have hexec : (machine sha256).exec w (.host (.readHost path)) {} = (.ok bytes, w.elapse {}) := by
    show World.attempt sha256 (w.elapse {}) {} (.host (.readHost path)) = _
    simp only [World.attempt, World.execHost, World.elapse_host, h]
    rfl
  exact wp_fixed hexec ⟨rfl, rfl⟩

theorem wp_readHosts {paths : List String} {files : Nat → Bytes} (h : ∀ i path, paths[i]? = some path → w.host.get? path = some (files i)) :
    wp (machine sha256) (smoothly sha256) (mapEach readHost paths)
      (fun shards _ w' => shards = (List.range paths.length).map files ∧ w'.host = w.host) E l w := by
  refine wp_mapEach readHost paths (fun pre shards _ w' => shards = (List.range pre.length).map files ∧ w'.host = w.host) ⟨rfl, rfl⟩
    ?_ fun shards l w h => h
  rintro pre shards path post l w' hsplit ⟨rfl, hhost⟩
  have hpath : paths[pre.length]? = some path := by
    rw [hsplit, List.getElem?_append_right (Nat.le_refl _), Nat.sub_self, List.getElem?_cons_zero]
  refine wp_mono (wp_readHost (hhost ▸ h _ path hpath)) ?_ fun _ _ _ h => h
  rintro bytes l' w'' ⟨rfl, hhost'⟩
  refine ⟨?_, hhost'.trans hhost⟩
  rw [List.length_append, List.length_singleton, List.range_succ, List.map_append, List.map_singleton]

theorem wp_reassembleBlockStripe {paths : List String} {destPath : String} {blockSize : Nat} {files : Nat → Bytes}
    (h : ∀ i path, paths[i]? = some path → w.host.get? path = some (files i)) :
    wp (machine sha256) (smoothly sha256) (reassembleBlockStripe sha256 paths destPath blockSize)
      (fun checksum _ w' => checksum = sha256 (reassemble blockSize ((List.range paths.length).map files)) ∧
        w'.host.get? destPath = some (reassemble blockSize ((List.range paths.length).map files))) E l w := by
  unfold reassembleBlockStripe
  rw [wp_bind]
  refine wp_mono (wp_readHosts h) ?_ fun _ _ _ h => h
  rintro shards l' w' ⟨rfl, -⟩
  rw [wp_bind]
  have hexec : ∀ bytes, (machine sha256).exec w' (.host (.writeHost destPath bytes)) {} =
      (.ok (), { w'.elapse {} with host := w'.host.set destPath bytes }) := fun _ => rfl
  refine wp_fixed (hexec _) ⟨rfl, ?_⟩
  show Dict.get? (w'.host.set destPath _) destPath = _
  rw [Dict.get?_set, if_pos rfl]

end BlockStripeAux

open BlockStripeAux

end OpenBlade
