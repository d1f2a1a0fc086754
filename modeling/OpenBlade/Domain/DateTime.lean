import Mathlib
import OpenBlade.Codec.Digits

/-!
# Dates with time

Moments in UTC, as `datetime.now(timezone.utc)` gives them: their text in ISO 8601, their order, and adding to them.
-/

namespace OpenBlade

open Codec

def isLeapYear (year : Nat) : Bool := year % 4 = 0 ∧ (year % 100 ≠ 0 ∨ year % 400 = 0)

def daysInMonth (year month : Nat) : Nat :=
  if month = 2 then (if isLeapYear year then 29 else 28)
  else if month ∈ [4, 6, 9, 11] then 30
  else 31

/-- A moment in UTC, to the microsecond. -/
structure DateTime where
  year : Nat
  month : Nat
  day : Nat
  hour : Nat
  minute : Nat
  second : Nat
  microsecond : Nat
  date : (1 ≤ year ∧ year ≤ 9999) ∧ (1 ≤ month ∧ month ≤ 12) ∧ 1 ≤ day ∧ day ≤ daysInMonth year month
  time : hour < 24 ∧ minute < 60 ∧ second < 60 ∧ microsecond < 1000000
  deriving Repr, DecidableEq

namespace DateTime

/-- `datetime(...)`. -/
def ofParts (year month day hour minute second microsecond : Nat) : Option DateTime :=
  if date : (1 ≤ year ∧ year ≤ 9999) ∧ (1 ≤ month ∧ month ≤ 12) ∧ 1 ≤ day ∧ day ≤ daysInMonth year month then
    if time : hour < 24 ∧ minute < 60 ∧ second < 60 ∧ microsecond < 1000000 then
      some { year, month, day, hour, minute, second, microsecond, date, time }
    else none
  else none

/-- The start of Unix time. -/
def epoch : DateTime :=
  { year := 1970, month := 1, day := 1, hour := 0, minute := 0, second := 0, microsecond := 0, date := by decide
    time := by decide }

/-- A month has no more days than two digits can tell. -/
theorem daysInMonth_le (year month : Nat) : daysInMonth year month ≤ 31 := by
  unfold daysInMonth
  split
  · split <;> omega
  · split <;> omega

theorem ofParts_self (d : DateTime) : ofParts d.year d.month d.day d.hour d.minute d.second d.microsecond = some d := by
  unfold ofParts
  rw [dif_pos d.date, dif_pos d.time]

/-- `datetime.isoformat()`: the microseconds are left out when they are zero. -/
def isoformat (d : DateTime) : String :=
  String.ofList (numeral 10 4 d.year ++ '-' :: (numeral 10 2 d.month ++ '-' :: (numeral 10 2 d.day ++ 'T' ::
    (numeral 10 2 d.hour ++ ':' :: (numeral 10 2 d.minute ++ ':' :: (numeral 10 2 d.second ++
      ((if d.microsecond = 0 then [] else '.' :: numeral 10 6 d.microsecond) ++ "+00:00".toList)))))))

/-- A field of `width` digits, and what comes after it. -/
def readField (width : Nat) (text : List Char) : Option (Nat × List Char) :=
  if text.length < width then none else (readNumeral 10 (text.take width)).map fun n => (n, text.drop width)

/-- What comes after a separator. -/
def readSeparator (c : Char) : List Char → Option (List Char)
  | [] => none
  | c' :: text => if c' = c then some text else none

/-- The microseconds, if there is a point. -/
def readMicrosecond : List Char → Option (Nat × List Char)
  | '.' :: text => readField 6 text
  | text => some (0, text)

/-- `datetime.fromisoformat(text)`, for the texts that `isoformat` gives. -/
def fromisoformat (text : String) : Option DateTime := do
  let (year, text) ← readField 4 text.toList
  let text ← readSeparator '-' text
  let (month, text) ← readField 2 text
  let text ← readSeparator '-' text
  let (day, text) ← readField 2 text
  let text ← readSeparator 'T' text
  let (hour, text) ← readField 2 text
  let text ← readSeparator ':' text
  let (minute, text) ← readField 2 text
  let text ← readSeparator ':' text
  let (second, text) ← readField 2 text
  let (microsecond, text) ← readMicrosecond text
  if text = "+00:00".toList then ofParts year month day hour minute second microsecond else none

/-- A field that is written is read back. -/
theorem readField_numeral {width n : Nat} (h : n < 10 ^ width) (rest : List Char) :
    readField width (numeral 10 width n ++ rest) = some (n, rest) := by
  have hlen : (numeral 10 width n).length = width := length_numeral 10 width n
  unfold readField
  rw [if_neg (by simp [hlen]), List.take_left' hlen, List.drop_left' hlen, readNumeral_numeral (by omega) (by omega) h]
  rfl

theorem readSeparator_cons (c : Char) (rest : List Char) : readSeparator c (c :: rest) = some rest := if_pos rfl

theorem readMicrosecond_write {n : Nat} (h : n < 1000000) :
    readMicrosecond ((if n = 0 then [] else '.' :: numeral 10 6 n) ++ "+00:00".toList) = some (n, "+00:00".toList) := by
  by_cases hn : n = 0
  · rw [if_pos hn, hn]
    rfl
  · rw [if_neg hn]
    exact readField_numeral (by omega) _

/-- A moment is read back from its text. -/
theorem fromisoformat_isoformat (d : DateTime) : fromisoformat d.isoformat = some d := by
  obtain ⟨⟨-, hyear⟩, ⟨-, hmonth⟩, -, hday⟩ := d.date
  obtain ⟨hhour, hminute, hsecond, hmicro⟩ := d.time
  have hdays := daysInMonth_le d.year d.month
  unfold fromisoformat isoformat
  rw [String.toList_ofList]
  simp only [readField_numeral (show d.year < 10 ^ 4 by omega), readField_numeral (show d.month < 10 ^ 2 by omega),
    readField_numeral (show d.day < 10 ^ 2 by omega), readField_numeral (show d.hour < 10 ^ 2 by omega),
    readField_numeral (show d.minute < 10 ^ 2 by omega), readField_numeral (show d.second < 10 ^ 2 by omega),
    readSeparator_cons, readMicrosecond_write hmicro, Option.bind_eq_bind, Option.bind_some, if_true]
  exact ofParts_self d

/-! ### Order -/

/-- What two moments are compared by, the first that differs deciding. -/
def fields (d : DateTime) : List Nat := [d.year, d.month, d.day, d.hour, d.minute, d.second, d.microsecond]

theorem fields_injective : Function.Injective fields := by
  rintro ⟨⟩ ⟨⟩ h
  simp only [fields, List.cons.injEq, and_true] at h
  obtain ⟨rfl, rfl, rfl, rfl, rfl, rfl, rfl⟩ := h
  rfl

instance : LinearOrder DateTime := LinearOrder.lift' fields fields_injective

/-! ### Adding a `timedelta` -/

/-- `_days_before_year`. -/
def daysBeforeYear (year : Nat) : Nat := (year - 1) * 365 + (year - 1) / 4 - (year - 1) / 100 + (year - 1) / 400

/-- `_days_before_month`. -/
def daysBeforeMonth (year month : Nat) : Nat := ((List.range (month - 1)).map fun m => daysInMonth year (m + 1)).sum

/-- `toordinal()`: the first of January of year 1 is day 1. -/
def toordinal (d : DateTime) : Nat := daysBeforeYear d.year + daysBeforeMonth d.year d.month + d.day

/-- `_ord2ymd`: cycles of 400, 100, 4 and 1 years, then a guess of the month that is at most one too late. -/
def ord2ymd (ordinal : Nat) : Nat × Nat × Nat :=
  let n := ordinal - 1
  let n400 := n / 146097
  let n := n % 146097
  let n100 := n / 36524
  let n := n % 36524
  let n4 := n / 1461
  let n := n % 1461
  let n1 := n / 365
  let n := n % 365
  let year := n400 * 400 + 1 + n100 * 100 + n4 * 4 + n1
  if n1 = 4 ∨ n100 = 4 then (year - 1, 12, 31)
  else
    let month := (n + 50) / 32
    let preceding := daysBeforeMonth year month
    if n < preceding then (year, month - 1, n - (preceding - daysInMonth year (month - 1)) + 1) else (year, month, n - preceding + 1)

def microsecondsPerDay : Int := 86400000000

/-- The microseconds since midnight. -/
def timeOfDay (d : DateTime) : Nat := ((d.hour * 60 + d.minute) * 60 + d.second) * 1000000 + d.microsecond

/-- `self + timedelta(microseconds=delta)`; nothing where the year would leave the calendar. -/
def add (d : DateTime) (delta : Int) : Option DateTime :=
  let total := (d.toordinal : Int) * microsecondsPerDay + d.timeOfDay + delta
  let days := total / microsecondsPerDay
  let time := (total % microsecondsPerDay).toNat
  if 0 < days ∧ days ≤ 3652059 then
    let (year, month, day) := ord2ymd days.toNat
    ofParts year month day (time / 3600000000) (time / 60000000 % 60) (time / 1000000 % 60) (time % 1000000)
  else none

example : ((epoch.add (-1)).map isoformat, (epoch.add (366 * 86400000000)).map isoformat) =
    (some "1969-12-31T23:59:59.999999+00:00", some "1971-01-02T00:00:00+00:00") := by
  decide +kernel

end DateTime

end OpenBlade
