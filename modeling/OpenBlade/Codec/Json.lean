import Mathlib

/-!
# JSON values

The tree of a JSON value; numbers are integers. Objects keep the order of their fields.
-/

namespace Codec

inductive Json where
  | null
  | bool (b : Bool)
  | int (i : Int)
  | str (s : String)
  | arr (items : List Json)
  | obj (fields : List (String × Json))

namespace Json

mutual

/-- Two values are the same tree. -/
def beq : Json → Json → Bool
  | .null, .null => true
  | .bool a, .bool b => a = b
  | .int a, .int b => a = b
  | .str a, .str b => a = b
  | .arr items, .arr items' => beqItems items items'
  | .obj fields, .obj fields' => beqFields fields fields'
  | _, _ => false

def beqItems : List Json → List Json → Bool
  | [], [] => true
  | item :: items, item' :: items' => beq item item' && beqItems items items'
  | _, _ => false

def beqFields : List (String × Json) → List (String × Json) → Bool
  | [], [] => true
  | (key, value) :: fields, (key', value') :: fields' => key = key' && beq value value' && beqFields fields fields'
  | _, _ => false

end

mutual

theorem beq_iff : ∀ a b : Json, beq a b = true ↔ a = b
  | .null, b => by cases b <;> simp [beq]
  | .bool a, b => by cases b <;> simp [beq]
  | .int a, b => by cases b <;> simp [beq]
  | .str a, b => by cases b <;> simp [beq]
  | .arr items, b => by cases b <;> simp [beq, beqItems_iff items]
  | .obj fields, b => by cases b <;> simp [beq, beqFields_iff fields]

theorem beqItems_iff : ∀ a b : List Json, beqItems a b = true ↔ a = b
  | [], b => by cases b <;> simp [beqItems]
  | item :: items, b => by cases b <;> simp [beqItems, beq_iff item, beqItems_iff items]

theorem beqFields_iff : ∀ a b : List (String × Json), beqFields a b = true ↔ a = b
  | [], b => by cases b <;> simp [beqFields]
  | (key, value) :: fields, [] => by simp [beqFields]
  | (key, value) :: fields, (key', value') :: fields' => by
    simp [beqFields, beq_iff value, beqFields_iff fields, and_assoc]

end

instance : DecidableEq Json := fun a b => decidable_of_iff _ (beq_iff a b)

end Json

/-- Reading item by item what was written item by item. -/
theorem mapM_map_ok {ε α β : Type} {write : α → β} {read : β → Except ε α} {xs : List α}
    (h : ∀ x ∈ xs, read (write x) = .ok x) : (xs.map write).mapM read = .ok xs := by
  induction xs with
  | nil => rfl
  | cons x xs ih =>
    rw [List.map_cons, List.mapM_cons, h x List.mem_cons_self, ih fun y hy => h y (List.mem_cons_of_mem _ hy)]
    rfl

end Codec
