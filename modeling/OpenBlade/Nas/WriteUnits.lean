import Mathlib

/-!
# Write units

`group_for_write` of `nas/capacity.py`: small files share containers, large files stand alone. Of the loop's state, what is open is
kept apart from what is emitted; the invariant says what the two hold together.
-/

namespace OpenBlade

/-- `AggregationPolicy`. -/
structure AggregationPolicy where
  aggregateBelowBytes : Int
  maxContainerBytes : Int
  nonneg : 0 ≤ aggregateBelowBytes := by decide
  pos : 0 < maxContainerBytes := by decide

/-- The files of a unit, each with its size. -/
abbrev WriteUnit : Type := List (String × Int)

/-- A file that shares a container. -/
def AggregationPolicy.isSmall (policy : AggregationPolicy) (file : String × Int) : Bool := file.2 < policy.aggregateBelowBytes

def WriteUnit.size (unit : WriteUnit) : Int := (unit.map Prod.snd).sum

/-- The variables of the loop: the units so far, and the container that is open. -/
structure GroupingState where
  units : List WriteUnit := []
  current : WriteUnit := []
  currentSize : Int := 0
  deriving Repr, DecidableEq

namespace GroupingState

/-- The open container is emitted. -/
def close (st : GroupingState) : GroupingState := { units := st.units ++ [st.current] }

/-- A file is put into the open container. -/
def append (st : GroupingState) (file : String × Int) : GroupingState :=
  { st with current := st.current ++ [file], currentSize := st.currentSize + file.2 }

/-- The loop's pass for one file. -/
def step (policy : AggregationPolicy) (st : GroupingState) (file : String × Int) : GroupingState :=
  if file.2 ≥ policy.aggregateBelowBytes then { st with units := st.units ++ [[file]] }
  else if st.current ≠ [] ∧ st.currentSize + file.2 > policy.maxContainerBytes then st.close.append file
  else st.append file

end GroupingState

/-- `group_for_write`. -/
def groupForWrite (files : List (String × Int)) (policy : AggregationPolicy) : List WriteUnit :=
  let st := files.foldl (GroupingState.step policy) {}
  if st.current ≠ [] then st.units ++ [st.current] else st.units

/-- What a unit may be under a policy: files that share it are small and fit the container, a file that is not small is alone. -/
structure WriteUnit.Allowed (policy : AggregationPolicy) (unit : WriteUnit) : Prop where
  nonempty : unit ≠ []
  shared : 2 ≤ unit.length → unit.size ≤ policy.maxContainerBytes ∧ ∀ file ∈ unit, policy.isSmall file = true
  alone : ∀ file ∈ unit, policy.isSmall file = false → unit = [file]

/-- What the loop has made of the files it has seen. -/
structure GroupingState.Groups (policy : AggregationPolicy) (seen : List (String × Int)) (st : GroupingState) : Prop where
  size : st.currentSize = WriteUnit.size st.current
  small : ∀ file ∈ st.current, policy.isSmall file = true
  fits : 2 ≤ st.current.length → WriteUnit.size st.current ≤ policy.maxContainerBytes
  allowed : ∀ unit ∈ st.units, WriteUnit.Allowed policy unit
  perm : (st.units.flatten ++ st.current).Perm seen
  order : (st.units.flatten ++ st.current).filter policy.isSmall = seen.filter policy.isSmall

namespace WriteUnitsAux

variable {policy : AggregationPolicy} {seen : List (String × Int)} {st : GroupingState} {unit : WriteUnit} {file : String × Int}

theorem size_append (unit : WriteUnit) (file : String × Int) : WriteUnit.size (unit ++ [file]) = unit.size + file.2 := by
  simp [WriteUnit.size]

/-- A container of small files that fit may be emitted. -/
theorem allowed_of_small (hne : unit ≠ []) (hsmall : ∀ file ∈ unit, policy.isSmall file = true)
    (hfits : 2 ≤ unit.length → unit.size ≤ policy.maxContainerBytes) : unit.Allowed policy where
  nonempty := hne
  shared h := ⟨hfits h, hsmall⟩
  alone file hmem hlarge := by
    rw [hsmall file hmem] at hlarge
    cases hlarge

theorem allowed_single (hlarge : policy.isSmall file = false) : WriteUnit.Allowed policy [file] where
  nonempty := List.cons_ne_nil file []
  shared h := absurd h (by simp)
  alone other hmem _ := by rw [List.mem_singleton.1 hmem]

theorem groups_start (policy : AggregationPolicy) : GroupingState.Groups policy [] {} where
  size := rfl
  small := nofun
  fits h := absurd h (by decide)
  allowed := nofun
  perm := .refl _
  order := rfl

/-- Emitting the open container leaves nothing out. -/
theorem groups_close (h : st.Groups policy seen) (hne : st.current ≠ []) : st.close.Groups policy seen where
  size := rfl
  small := nofun
  fits hlen := absurd hlen (by simp [GroupingState.close])
  allowed := by
    intro unit hunit
    rcases List.mem_append.1 hunit with hunit | hunit
    · exact h.allowed unit hunit
    · rw [List.mem_singleton.1 hunit]
      exact allowed_of_small hne h.small h.fits
  perm := by simpa [GroupingState.close] using h.perm
  order := by simpa [GroupingState.close] using h.order

/-- A small file that the open container has room for, or that opens a container. -/
theorem groups_append (h : st.Groups policy seen) (hsmall : policy.isSmall file = true)
    (hroom : st.current ≠ [] → st.currentSize + file.2 ≤ policy.maxContainerBytes) :
    (st.append file).Groups policy (seen ++ [file]) where
  size := by
    show st.currentSize + file.2 = WriteUnit.size (st.current ++ [file])
    rw [h.size, size_append]
  small := by
    intro other hother
    rcases List.mem_append.1 hother with hother | hother
    · exact h.small other hother
    · rw [List.mem_singleton.1 hother]
      exact hsmall
  fits := by
    intro hlen
    show WriteUnit.size (st.current ++ [file]) ≤ policy.maxContainerBytes
    have hne : st.current ≠ [] := by
      intro hnil
      have : (st.append file).current = [file] := by simp [GroupingState.append, hnil]
      rw [this] at hlen
      exact absurd hlen (by simp)
    rw [size_append, ← h.size]
    exact hroom hne
  allowed := h.allowed
  perm := by
    show (st.units.flatten ++ (st.current ++ [file])).Perm (seen ++ [file])
    rw [← List.append_assoc]
    exact h.perm.append_right [file]
  order := by
    show (st.units.flatten ++ (st.current ++ [file])).filter policy.isSmall = _
    rw [← List.append_assoc, List.filter_append, h.order, List.filter_append]

/-- A large file is emitted by itself, before the container that is open. -/
theorem groups_large (h : st.Groups policy seen) (hlarge : policy.isSmall file = false) :
    GroupingState.Groups policy (seen ++ [file]) { st with units := st.units ++ [[file]] } where
  size := h.size
  small := h.small
  fits := h.fits
  allowed := by
    intro unit hunit
    rcases List.mem_append.1 hunit with hunit | hunit
    · exact h.allowed unit hunit
    · rw [List.mem_singleton.1 hunit]
      exact allowed_single hlarge
  perm := by
    have hswap : (st.units.flatten ++ [file] ++ st.current).Perm (st.units.flatten ++ st.current ++ [file]) := by
      rw [List.append_assoc, List.append_assoc]
      exact List.perm_append_comm.append_left _
    simpa using hswap.trans (h.perm.append_right [file])
  order := by
    have hnone : [file].filter policy.isSmall = [] := by simp [hlarge]
    have hsame := h.order
    simp only [List.filter_append] at hsame
    simp only [List.flatten_append, List.flatten_cons, List.flatten_nil, List.append_nil, List.filter_append, hnone]
    exact hsame

/-- What a pass of the loop keeps. -/
theorem groups_step (h : st.Groups policy seen) (file : String × Int) : (st.step policy file).Groups policy (seen ++ [file]) := by
  unfold GroupingState.step
  split
  · rename_i hlarge
    exact groups_large h (decide_eq_false (Int.not_lt.2 hlarge))
  rename_i hsmall
  have hsmall : policy.isSmall file = true := decide_eq_true (Int.not_le.1 hsmall)
  split
  · rename_i hfull
    exact groups_append (groups_close h hfull.1) hsmall fun hne => absurd rfl hne
  · rename_i hroom
    exact groups_append h hsmall fun hne => Int.not_lt.1 fun hfull => hroom ⟨hne, hfull⟩

/-- What the whole loop keeps. -/
theorem groups_foldl (files : List (String × Int)) (h : st.Groups policy seen) :
    (files.foldl (GroupingState.step policy) st).Groups policy (seen ++ files) := by
  induction files generalizing st seen with
  | nil => rwa [List.append_nil]
  | cons file files ih =>
    have hrest := ih (groups_step h file)
    rwa [List.append_assoc] at hrest

end WriteUnitsAux

open WriteUnitsAux in
/-- The units partition the files: each file is in one unit, small files keep their order across the units, and every unit is one the
policy allows. -/
theorem groupForWrite_partitions (files : List (String × Int)) (policy : AggregationPolicy) :
    (groupForWrite files policy).flatten.Perm files ∧
    (groupForWrite files policy).flatten.filter policy.isSmall = files.filter policy.isSmall ∧
    ∀ unit ∈ groupForWrite files policy, WriteUnit.Allowed policy unit := by
  have h := groups_foldl files (groups_start policy)
  rw [List.nil_append] at h
  unfold groupForWrite
  generalize files.foldl (GroupingState.step policy) {} = st at h ⊢
  by_cases hopen : st.current ≠ []
  · simp only [if_pos hopen]
    have hclosed := groups_close h hopen
    refine ⟨?_, ?_, hclosed.allowed⟩
    · simpa [GroupingState.close] using hclosed.perm
    · simpa [GroupingState.close] using hclosed.order
  · simp only [if_neg hopen]
    have hnil : st.current = [] := not_not.1 hopen
    refine ⟨?_, ?_, h.allowed⟩
    · simpa [hnil] using h.perm
    · simpa [hnil] using h.order

end OpenBlade
