import Mathlib

/-!
# Numerals of a fixed width

A number below `base ^ width` as exactly `width` digits, the highest first; and the digits up to base 16 as characters. What is
written is read back.
-/

namespace Codec

/-- The value of digits, the highest first. -/
def ofDigits (base : Nat) (digits : List Nat) : Nat := digits.foldl (fun n d => n * base + d) 0

/-- The lowest `width` digits of a number, the highest first. -/
def toDigits (base : Nat) : Nat → Nat → List Nat
  | 0, _ => []
  | width + 1, n => toDigits base width (n / base) ++ [n % base]

theorem length_toDigits (base width n : Nat) : (toDigits base width n).length = width := by
  induction width generalizing n with
  | zero => rfl
  | succ width ih => simp [toDigits, ih]

/-- Digits are below the base. -/
theorem lt_of_mem_toDigits {base width n d : Nat} (hbase : 0 < base) (h : d ∈ toDigits base width n) : d < base := by
  induction width generalizing n with
  | zero => cases h
  | succ width ih =>
    rcases List.mem_append.1 h with h | h
    · exact ih h
    · rw [List.mem_singleton.1 h]
      exact Nat.mod_lt _ hbase

/-- What fits the width is read back from its digits. -/
theorem ofDigits_toDigits {base width n : Nat} (h : n < base ^ width) : ofDigits base (toDigits base width n) = n := by
  induction width generalizing n with
  | zero =>
    simp only [Nat.pow_zero, Nat.lt_one_iff] at h
    simp [toDigits, ofDigits, h]
  | succ width ih =>
    have hdiv : n / base < base ^ width := Nat.div_lt_of_lt_mul (by rwa [Nat.pow_succ, Nat.mul_comm] at h)
    have hhigh := ih hdiv
    unfold ofDigits at hhigh ⊢
    rw [toDigits, List.foldl_append, hhigh]
    exact Nat.div_add_mod' n base

/-- The character of a digit. -/
def digitChar (d : Nat) : Char := if d < 10 then Char.ofNat (48 + d) else Char.ofNat (87 + d)

/-- The digit of a character; letters count in both cases. -/
def digitValue (c : Char) : Option Nat :=
  if '0' ≤ c ∧ c ≤ '9' then some (c.toNat - 48)
  else if 'a' ≤ c ∧ c ≤ 'f' then some (c.toNat - 87)
  else if 'A' ≤ c ∧ c ≤ 'F' then some (c.toNat - 55)
  else none

/-- The digit of a character, if the base has it. -/
def digitIn (base : Nat) (c : Char) : Option Nat := (digitValue c).filter fun d => d < base

theorem digitValue_digitChar : ∀ d < 16, digitValue (digitChar d) = some d := by decide

theorem digitIn_digitChar {base d : Nat} (hbase : base ≤ 16) (h : d < base) : digitIn base (digitChar d) = some d := by
  simp [digitIn, digitValue_digitChar d (Nat.lt_of_lt_of_le h hbase), h]

/-- A numeral of a fixed width. -/
def numeral (base width n : Nat) : List Char := (toDigits base width n).map digitChar

/-- Read a numeral. -/
def readNumeral (base : Nat) (text : List Char) : Option Nat := (text.mapM (digitIn base)).map (ofDigits base)

theorem length_numeral (base width n : Nat) : (numeral base width n).length = width := by
  rw [numeral, List.length_map, length_toDigits]

theorem mapM_digitIn {base : Nat} {digits : List Nat} (hbase : base ≤ 16) (h : ∀ d ∈ digits, d < base) :
    (digits.map digitChar).mapM (digitIn base) = some digits := by
  induction digits with
  | nil => rfl
  | cons d digits ih =>
    rw [List.map_cons, List.mapM_cons, digitIn_digitChar hbase (h d List.mem_cons_self),
      ih fun d' hd' => h d' (List.mem_cons_of_mem _ hd')]
    rfl

/-- A numeral is read back. -/
theorem readNumeral_numeral {base width n : Nat} (hpos : 0 < base) (hbase : base ≤ 16) (h : n < base ^ width) :
    readNumeral base (numeral base width n) = some n := by
  unfold readNumeral numeral
  rw [mapM_digitIn hbase fun d hd => lt_of_mem_toDigits hpos hd, Option.map_some, ofDigits_toDigits h]

end Codec
