import Mathlib

/-!
# Packings

Items with sizes put into bins with capacities, each item into one bin. A packing grows by putting items into a bin that has room
for them.
-/

namespace Storage

variable {B A : Type}

/-- The bins hold the items, each as often as it is listed, and none holds more than fits. -/
structure Packing (size : A → Int) (capacity : B → Int) (bins : List B) (items : List A) (share : B → List A) : Prop where
  holds : (bins.flatMap share).Perm items
  fits : ∀ b ∈ bins, ((share b).map size).sum ≤ capacity b

namespace Packing

/-- Empty bins are a packing of no items. -/
theorem empty {size : A → Int} {capacity : B → Int} {bins : List B} (h : ∀ b ∈ bins, 0 ≤ capacity b) :
    Packing size capacity bins [] fun _ => [] where
  holds := by
    rw [List.flatMap_eq_nil_iff.2 fun _ _ => rfl]
  fits b hb := h b hb

variable [DecidableEq B]

/-- Put items into a bin, after those it holds. -/
def put (share : B → List A) (b : B) (added : List A) : B → List A := Function.update share b (share b ++ added)

theorem put_same (share : B → List A) (b : B) (added : List A) : put share b added b = share b ++ added :=
  Function.update_self ..

theorem put_other {share : B → List A} {b c : B} {added : List A} (h : c ≠ b) : put share b added c = share c :=
  Function.update_of_ne h ..

/-- Putting items into one of the bins adds them to what the bins hold. -/
theorem flatMap_put {bins : List B} {b : B} (share : B → List A) (added : List A) (hb : b ∈ bins) (hnodup : bins.Nodup) :
    (bins.flatMap (put share b added)).Perm (bins.flatMap share ++ added) := by
  induction bins with
  | nil => cases hb
  | cons c bins ih =>
    obtain ⟨hc, hnodup⟩ := List.nodup_cons.1 hnodup
    rw [List.flatMap_cons, List.flatMap_cons]
    by_cases hcb : c = b
    · subst hcb
      have hrest : bins.flatMap (put share c added) = bins.flatMap share :=
        List.flatMap_congr fun d hd => put_other fun h => hc (h ▸ hd)
      rw [put_same, hrest, List.append_assoc, List.append_assoc]
      exact List.perm_append_comm.append_left _
    · rw [put_other hcb, List.append_assoc]
      exact (ih ((List.mem_cons.1 hb).resolve_left fun h => hcb h.symm) hnodup).append_left _

/-- A packing with more items put where they fit. -/
theorem grow {size : A → Int} {capacity : B → Int} {bins : List B} {items : List A} {share : B → List A} {b : B} {added : List A}
    (h : Packing size capacity bins items share) (hnodup : bins.Nodup) (hb : b ∈ bins)
    (hfits : ((share b).map size).sum + (added.map size).sum ≤ capacity b) :
    Packing size capacity bins (items ++ added) (put share b added) where
  holds := (flatMap_put share added hb hnodup).trans (h.holds.append_right _)
  fits c hc := by
    by_cases hcb : c = b
    · subst hcb
      rw [put_same, List.map_append, List.sum_append]
      exact hfits
    · rw [put_other hcb]
      exact h.fits c hc

end Packing

end Storage
