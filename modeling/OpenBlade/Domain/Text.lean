import Mathlib
import OpenBlade.Domain.Errors

/-!
# Text

Methods of `str` on letters of any script: white space, lines, decimal digits and capital letters. A text is taken apart letter
by letter, so that what a pattern matches is a function of the letters it begins with.
-/

namespace OpenBlade

/-- What holds of the letters of a text is decided letter by letter, not over all letters there are. -/
instance (priority := high) decidableLetters (p : Char → Prop) [DecidablePred p] (text : List Char) : Decidable (∀ c ∈ text, p c) :=
  List.decidableBAll p text

/-- `str.isspace` of one character. -/
def isSpace (c : Char) : Bool :=
  (9 ≤ c.toNat ∧ c.toNat ≤ 13) ∨ (28 ≤ c.toNat ∧ c.toNat ≤ 32) ∨ (0x2000 ≤ c.toNat ∧ c.toNat ≤ 0x200A) ∨
    c.toNat ∈ [0x85, 0xA0, 0x1680, 0x2028, 0x2029, 0x202F, 0x205F, 0x3000]

/-- `str.strip()`. -/
def strip (s : String) : String :=
  String.ofList ((s.toList.dropWhile isSpace).reverse.dropWhile isSpace).reverse

/-- Where `str.splitlines` ends a line. -/
def isLineBoundary (c : Char) : Bool := c.toNat ∈ [0xA, 0xB, 0xC, 0xD, 0x1C, 0x1D, 0x1E, 0x85, 0x2028, 0x2029]

/-- The lines of a text, of whose first line some letters are read. -/
def splitlinesFrom (line : List Char) : List Char → List (List Char)
  | [] => if line = [] then [] else [line]
  | '\r' :: '\n' :: text => line :: splitlinesFrom [] text
  | c :: text => if isLineBoundary c then line :: splitlinesFrom [] text else splitlinesFrom (line ++ [c]) text

/-- `str.splitlines()`. -/
def splitlines (text : String) : List (List Char) := splitlinesFrom [] text.toList

/-- The zeros of the decimal digits (`Nd`); nine digits follow each. -/
def decimalZeros : List Nat :=
  [0x30, 0x660, 0x6F0, 0x7C0, 0x966, 0x9E6, 0xA66, 0xAE6, 0xB66, 0xBE6, 0xC66, 0xCE6, 0xD66, 0xDE6, 0xE50, 0xED0, 0xF20, 0x1040,
    0x1090, 0x17E0, 0x1810, 0x1946, 0x19D0, 0x1A80, 0x1A90, 0x1B50, 0x1BB0, 0x1C40, 0x1C50, 0xA620, 0xA8D0, 0xA900, 0xA9D0,
    0xA9F0, 0xAA50, 0xABF0, 0xFF10, 0x104A0, 0x10D30, 0x11066, 0x110F0, 0x11136, 0x111D0, 0x112F0, 0x11450, 0x114D0, 0x11650,
    0x116C0, 0x11730, 0x118E0, 0x11950, 0x11C50, 0x11D50, 0x11DA0, 0x11F50, 0x16A60, 0x16AC0, 0x16B50, 0x1D7CE, 0x1D7D8,
    0x1D7E2, 0x1D7EC, 0x1D7F6, 0x1E140, 0x1E2F0, 0x1E4F0, 0x1E950, 0x1FBF0]

/-- The value of a decimal digit. -/
def decimalValue (c : Char) : Option Nat :=
  (decimalZeros.find? fun first => first ≤ c.toNat ∧ c.toNat < first + 10).map fun first => c.toNat - first

/-- `\d`. -/
def isDecimal (c : Char) : Bool := (decimalValue c).isSome

/-- `int(digits)` of a run of `\d`; it refuses more digits than `sys.get_int_max_str_digits()`. -/
def intOfDigits (digits : List Char) : Except Exn Nat :=
  if 4300 < digits.length then
    .error
      { cls := .valueError
        message := "Exceeds the limit (4300 digits) for integer string conversion: value has " ++ toString digits.length ++
          " digits; use sys.set_int_max_str_digits() to increase the limit" }
  else .ok (digits.foldl (fun n c => n * 10 + (decimalValue c).getD 0) 0)

/-- The letters besides `a` to `z` whose capital form has a letter of ASCII in it. -/
def asciiCapitals : List (Nat × List Char) :=
  [(0xDF, ['S', 'S']), (0x131, ['I']), (0x149, [Char.ofNat 0x2BC, 'N']), (0x17F, ['S']), (0x1F0, ['J', Char.ofNat 0x30C]),
    (0x1E96, ['H', Char.ofNat 0x331]), (0x1E97, ['T', Char.ofNat 0x308]), (0x1E98, ['W', Char.ofNat 0x30A]),
    (0x1E99, ['Y', Char.ofNat 0x30A]), (0x1E9A, ['A', Char.ofNat 0x2BE]), (0xFB00, ['F', 'F']), (0xFB01, ['F', 'I']),
    (0xFB02, ['F', 'L']), (0xFB03, ['F', 'F', 'I']), (0xFB04, ['F', 'F', 'L']), (0xFB05, ['S', 'T']), (0xFB06, ['S', 'T'])]

/-- `str.upper` of one character. Other scripts keep their letters: what the texts are asked after is ASCII, and these letters
have no ASCII in their capital form. -/
def upperChar (c : Char) : List Char :=
  match asciiCapitals.find? fun entry => entry.1 = c.toNat with
  | some entry => entry.2
  | none => [c.toUpper]

/-- `str.upper()`. -/
def upper (text : String) : String := String.ofList (text.toList.flatMap upperChar)

/-- `needle in text`. -/
def isIn (needle : String) (text : List Char) : Bool := needle.toList <:+: text

/-- `re.search`: the match at the first place where there is one. -/
def search {α : Type} (pattern : List Char → Option α) : List Char → Option α
  | [] => pattern []
  | c :: text => (pattern (c :: text)).or (search pattern text)

/-- What a pattern finds, it matches somewhere in the text. -/
theorem search_eq_some {α : Type} {pattern : List Char → Option α} {text : List Char} {found : α}
    (h : search pattern text = some found) : ∃ after, after <:+ text ∧ pattern after = some found := by
  induction text with
  | nil => exact ⟨[], List.suffix_refl [], h⟩
  | cons c text ih =>
    unfold search at h
    rcases Option.or_eq_some_iff.1 h with hhere | ⟨_, hlater⟩
    · exact ⟨c :: text, List.suffix_refl _, hhere⟩
    · obtain ⟨after, hafter, hmatch⟩ := ih hlater
      exact ⟨after, hafter.trans (List.suffix_cons c text), hmatch⟩

end OpenBlade
