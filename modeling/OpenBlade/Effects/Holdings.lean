import Mathlib

/-!
# What is held

A budget is drawn on by holdings, each of some amount. What the holdings of one kind come to is additive in the holdings, does not
depend on their order, and does not grow when holdings are dropped or the kind is narrowed, as long as no amount is negative. A
holding that was checked against what the others of its kind hold leaves the budget kept.
-/

namespace Effects

variable {α M : Type} [AddCommMonoid M]

/-- What the holdings of a kind come to. -/
def held (p : α → Bool) (amount : α → M) (xs : List α) : M := ((xs.filter p).map amount).sum

section held

variable {p q : α → Bool} {amount : α → M} {xs ys : List α}

theorem held_append : held p amount (xs ++ ys) = held p amount xs + held p amount ys := by
  simp [held]

theorem held_singleton (x : α) : held p amount [x] = if p x then amount x else 0 := by
  unfold held
  by_cases hx : p x = true
  · simp [hx]
  · simp [hx]

theorem held_congr (h : ∀ x ∈ xs, p x = q x) : held p amount xs = held q amount xs := by
  unfold held
  rw [List.filter_congr h]

theorem held_amount_congr {amount' : α → M} (h : ∀ x ∈ xs, amount x = amount' x) : held p amount xs = held p amount' xs := by
  unfold held
  rw [List.map_congr_left fun x hx => h x (List.mem_filter.1 hx).1]

theorem held_perm (h : xs.Perm ys) : held p amount xs = held p amount ys :=
  ((h.filter p).map amount).sum_eq

variable [PartialOrder M] [IsOrderedAddMonoid M]

/-- Less is held when holdings are dropped, in whatever order the others come. -/
theorem held_le_of_subperm (h : xs.Subperm ys) (hamount : ∀ x ∈ ys, 0 ≤ amount x) : held p amount xs ≤ held p amount ys := by
  obtain ⟨zs, hperm, hsub⟩ := h
  rw [← held_perm hperm]
  refine ((hsub.filter p).map amount).sum_le_sum fun a ha => ?_
  obtain ⟨x, hx, rfl⟩ := List.mem_map.1 ha
  exact hamount x (List.mem_filter.1 hx).1

/-- Less is held of a narrower kind. -/
theorem held_mono (h : ∀ x ∈ xs, p x → q x) (hamount : ∀ x ∈ xs, 0 ≤ amount x) : held p amount xs ≤ held q amount xs := by
  have hkind : xs.filter p = (xs.filter q).filter p := by
    rw [List.filter_filter]
    refine List.filter_congr fun x hx => ?_
    cases hp : p x with
    | false => rfl
    | true => simp [h x hx hp]
  unfold held
  rw [hkind]
  refine ((List.filter_sublist).map amount).sum_le_sum fun a ha => ?_
  obtain ⟨x, hx, rfl⟩ := List.mem_map.1 ha
  exact hamount x (List.mem_filter.1 hx).1

end held

end Effects
