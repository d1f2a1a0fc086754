import Mathlib

/-!
# Placements

What the elements of a store hold: each element at most one thing. Things are put into free elements, taken out, and transferred
from one element to another; as long as no thing is in two elements, none of this puts one in two, and a transfer moves the thing
it takes and no other.
-/

namespace Storage

variable {E B : Type} [DecidableEq E]

/-- What each element holds. -/
abbrev Placement (E B : Type) : Type := E → Option B

namespace Placement

/-- Nothing is in two elements. -/
def Exclusive (p : Placement E B) : Prop := ∀ e e' b, p e = some b → p e' = some b → e = e'

/-- The things that are somewhere. -/
def held (p : Placement E B) : Set B := {b | ∃ e, p e = some b}

/-- Put a thing into an element. -/
def put (p : Placement E B) (e : E) (b : B) : Placement E B := Function.update p e (some b)

/-- Take out what an element holds. -/
def clear (p : Placement E B) (e : E) : Placement E B := Function.update p e none

/-- Take out what `src` holds and put it into `dst`. -/
def transfer (p : Placement E B) (src dst : E) : Placement E B := Function.update (p.clear src) dst (p src)

/-- A thing is not where it was. -/
def Moved (p p' : Placement E B) (b : B) : Prop := ∃ e, ¬(p e = some b ↔ p' e = some b)

variable {p : Placement E B} {e src dst : E} {b : B}

theorem put_apply (x : E) : p.put e b x = if x = e then some b else p x := Function.update_apply p e (some b) x

theorem clear_apply (x : E) : p.clear e x = if x = e then none else p x := Function.update_apply p e none x

theorem transfer_apply (x : E) : p.transfer src dst x = if x = dst then p src else if x = src then none else p x := by
  unfold transfer
  rw [Function.update_apply, clear_apply]

/-- What is nowhere may be put anywhere. -/
theorem Exclusive.put (h : p.Exclusive) (hb : b ∉ p.held) : (p.put e b).Exclusive := by
  intro x y c hx hy
  rw [put_apply] at hx hy
  split at hx <;> split at hy
  · simp_all
  · obtain rfl : b = c := Option.some.inj hx
    exact absurd ⟨y, hy⟩ hb
  · obtain rfl : b = c := Option.some.inj hy
    exact absurd ⟨x, hx⟩ hb
  · exact h x y c hx hy

theorem Exclusive.clear (h : p.Exclusive) : (p.clear e).Exclusive := by
  intro x y c hx hy
  rw [clear_apply] at hx hy
  split at hx
  · cases hx
  · split at hy
    · cases hy
    · exact h x y c hx hy

/-- A transfer puts nothing in two elements, whatever was in `dst`. -/
theorem Exclusive.transfer (h : p.Exclusive) : (p.transfer src dst).Exclusive := by
  intro x y c hx hy
  rw [transfer_apply] at hx hy
  have hsrc : ∀ z, p z = some c → z ≠ src → p src ≠ some c := fun z hz hne hs => hne (h z src c hz hs)
  split at hx <;> split at hy
  · simp_all
  · split at hy
    · cases hy
    · rename_i hne
      exact absurd hx (hsrc y hy hne)
  · split at hx
    · cases hx
    · rename_i hne
      exact absurd hy (hsrc x hx hne)
  · split at hx
    · cases hx
    · split at hy
      · cases hy
      · exact h x y c hx hy

/-- Putting a thing into a free element adds it. -/
theorem held_put (he : p e = none) : (p.put e b).held = insert b p.held := by
  ext c
  constructor
  · intro hc
    obtain ⟨x, hx⟩ := hc
    rw [put_apply] at hx
    split at hx
    · exact .inl (Option.some.inj hx).symm
    · exact .inr ⟨x, hx⟩
  · intro hc
    rcases hc with rfl | hc
    · exact ⟨e, by rw [put_apply, if_pos rfl]⟩
    · obtain ⟨x, hx⟩ := hc
      have hne : x ≠ e := by
        rintro rfl
        simp [he] at hx
      exact ⟨x, by rw [put_apply, if_neg hne]; exact hx⟩

/-- Clearing an element removes what it held. -/
theorem held_clear (h : p.Exclusive) (he : p e = some b) : (p.clear e).held = p.held \ {b} := by
  ext c
  constructor
  · intro hc
    obtain ⟨x, hx⟩ := hc
    rw [clear_apply] at hx
    split at hx
    · cases hx
    · rename_i hne
      refine ⟨⟨x, hx⟩, ?_⟩
      rintro rfl
      exact hne (h x e c hx he)
  · intro hc
    obtain ⟨⟨x, hx⟩, hcb⟩ := hc
    have hne : x ≠ e := by
      rintro rfl
      exact hcb (Option.some.inj (hx.symm.trans he))
    exact ⟨x, by rw [clear_apply, if_neg hne]; exact hx⟩

/-- A transfer to a free element loses nothing and adds nothing. -/
theorem held_transfer (hdst : p dst = none) : (p.transfer src dst).held = p.held := by
  ext c
  constructor
  · intro hc
    obtain ⟨x, hx⟩ := hc
    rw [transfer_apply] at hx
    split at hx
    · exact ⟨src, hx⟩
    · split at hx
      · cases hx
      · exact ⟨x, hx⟩
  · intro hc
    obtain ⟨x, hx⟩ := hc
    by_cases hs : x = src
    · exact ⟨dst, by rw [transfer_apply, if_pos rfl, ← hs]; exact hx⟩
    · have hne : x ≠ dst := by
        rintro rfl
        simp [hdst] at hx
      exact ⟨x, by rw [transfer_apply, if_neg hne, if_neg hs]; exact hx⟩

/-- A transfer to a free element moves what was in `src` and nothing else. -/
theorem moved_transfer (hdst : p dst = none) {c : B} : Moved p (p.transfer src dst) c ↔ p src = some c := by
  constructor
  · intro hm
    obtain ⟨x, hx⟩ := hm
    rw [transfer_apply] at hx
    by_cases hd : x = dst
    · simp_all
    · by_cases hs : x = src
      · simp_all
      · simp [hd, hs] at hx
  · intro hc
    refine ⟨dst, fun hiff => ?_⟩
    rw [transfer_apply, if_pos rfl, hdst] at hiff
    cases hiff.2 hc

omit [DecidableEq E] in
/-- Nothing moves where nothing changes. -/
theorem not_moved (p : Placement E B) (c : B) : ¬Moved p p c := fun hm => hm.elim fun _ hx => hx Iff.rfl

end Placement

end Storage
