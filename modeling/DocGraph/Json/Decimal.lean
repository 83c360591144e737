/-!
# Decimal numerals

A numeral without its sign is read as a significand of at most 64 bits times a power of ten. Both
are first rounded to the 53 binary digits of a binary64 number, then multiplied, and the product is
rounded again. A numeral is out of range when that product is, which near the limit is not the same
as the written number being out of range.

No number is ever used for what it is worth, apart from naturals. It only matters whether a numeral
is in range, since one that is not makes its part of the text unreadable.
-/

namespace DocGraph.Json

/-- Whether a character is a decimal digit. -/
def isDigit (c : Char) : Bool := '0' ≤ c && c ≤ '9'

/-- A number with one more decimal digit at its end. -/
def appendDigit (value : Nat) (c : Char) : Nat := value * 10 + (c.toNat - '0'.toNat)

/-- The natural number written by decimal digits. -/
def ofDigits (digits : List Char) : Nat := digits.foldl appendDigit 0

/-- Append digits to a number as long as it stays within 64 bits. The digits from the first one on
that does not fit are left over. What is left over begins with a digit that was tried. -/
def appendFitting (value : Nat) : List Char → Nat × List Char
  | [] => (value, [])
  | c :: rest =>
    if appendDigit value c < UInt64.size then appendFitting (appendDigit value c) rest
    else (value, c :: rest)

/-- The nearest number with at most 53 significant binary digits; of two that are equally near, the
one whose last significant digit is even. A number that is small enough is left alone. -/
def nearest53 (value : Nat) : Nat :=
  let unit := Nat.pow 2 (value.log2 - 52)
  let below := value / unit
  let excess := value % unit
  if unit < 2 * excess ∨ (2 * excess = unit ∧ below % 2 = 1) then (below + 1) * unit
  else below * unit

/-- The least number that is out of range: it lies halfway between the largest
binary64 number and the next power of two, and a half is rounded up there. -/
def outOfRange : Nat := Nat.pow 2 1024 - Nat.pow 2 970

/-- The largest exponent of a power of ten within range. For a larger exponent the numeral is out of
range, whatever its digits are. -/
def maxPower : Nat := 308

/-- A numeral without its sign. It is a numeral taken apart, and not yet a number. -/
structure Decimal where
  /-- The digits before the point. -/
  whole : List Char
  /-- The digits after the point. -/
  places : List Char
  /-- The written exponent, zero if there is none. -/
  exponent : Int

namespace Decimal

/-- The significand, and the exponent of the power of ten that it is multiplied with. A digit before
the point that does not fit counts in the exponent only, and one after the point not at all. So
digits before the point that do not fit are replaced by zeros. -/
def scaled (decimal : Decimal) : Nat × Int :=
  let (front, beyond) := appendFitting 0 decimal.whole
  let (significand, dropped) := appendFitting front decimal.places
  let taken := decimal.places.length - dropped.length
  (significand, decimal.exponent + beyond.length - taken)

/-- Whether the value of a numeral is too large for binary64. A negative exponent cannot lead out of
range, and neither can zero. -/
def overflows (decimal : Decimal) : Bool :=
  let (significand, exponent) := decimal.scaled
  if significand = 0 ∨ exponent < 0 then false
  else if maxPower < exponent.toNat then true
  else outOfRange ≤ nearest53 significand * nearest53 (Nat.pow 10 exponent.toNat)

end Decimal

/-- A number of at most 53 binary digits is its own nearest number. Rounding matters for larger
significands only. -/
theorem nearest53_eq_self {value : Nat} (small : value < Nat.pow 2 53) :
    nearest53 value = value := by
  have shift : value.log2 - 52 = 0 := by
    rcases Nat.eq_zero_or_pos value with rfl | positive
    · rfl
    · have bounded := (Nat.log2_lt (Nat.ne_of_gt positive)).mpr small
      omega
  simp [nearest53, shift, Nat.mod_one]

end DocGraph.Json
