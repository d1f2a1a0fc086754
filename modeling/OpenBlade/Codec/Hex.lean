import OpenBlade.Codec.Digits

/-!
# Hexadecimal text of bytes

Two digits a byte, the high one first; white space between bytes is skipped when they are read.
-/

namespace Codec

/-- The digits of bytes. -/
def toHex (bytes : List UInt8) : List Char := bytes.flatMap fun byte => numeral 16 2 byte.toNat

def isHexSpace (c : Char) : Bool := c ∈ [' ', '\t', '\n', '\r', Char.ofNat 11, Char.ofNat 12]

/-- The bytes of digits. -/
def fromHex : List Char → Option (List UInt8)
  | [] => some []
  | [c] => if isHexSpace c then some [] else none
  | c :: c' :: text =>
    if isHexSpace c then fromHex (c' :: text)
    else do
      let high ← digitIn 16 c
      let low ← digitIn 16 c'
      let bytes ← fromHex text
      some (UInt8.ofNat (high * 16 + low) :: bytes)

theorem isHexSpace_digitChar : ∀ d < 16, isHexSpace (digitChar d) = false := by decide

/-- Bytes are read back. -/
theorem fromHex_toHex (bytes : List UInt8) : fromHex (toHex bytes) = some bytes := by
  induction bytes with
  | nil => rfl
  | cons byte bytes ih =>
    have hbyte : byte.toNat < 256 := byte.toNat_lt
    have hhigh : byte.toNat / 16 % 16 < 16 := Nat.mod_lt _ (by omega)
    have hlow : byte.toNat % 16 < 16 := Nat.mod_lt _ (by omega)
    have hdigits : toHex (byte :: bytes) =
        digitChar (byte.toNat / 16 % 16) :: digitChar (byte.toNat % 16) :: toHex bytes := rfl
    have hvalue : byte.toNat / 16 % 16 * 16 + byte.toNat % 16 = byte.toNat := by omega
    rw [hdigits, fromHex, isHexSpace_digitChar _ hhigh, digitIn_digitChar (by omega) hhigh, digitIn_digitChar (by omega) hlow, ih]
    simp only [Bool.false_eq_true, if_false, Option.bind_eq_bind, Option.bind_some, hvalue, UInt8.ofNat_toNat]

end Codec
