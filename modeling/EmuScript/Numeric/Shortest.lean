import EmuScript.Numeric.Binary

/-!
# Shortest decimals

The shortest decimal of a finite number is the decimal with the fewest digits
that rounds to this number again, and of those the nearest one. It is found by
testing, for each count of digits, the two neighbours of the number on the grid
of decimals with so many digits.
-/

set_option autoImplicit false

namespace EmuScript.Numeric

structure Decimal where
  digits : Nat
  exponent : Int
  deriving DecidableEq

/-- The reals that round to one number, in units of a quarter of its last
place: the number lies at `middle`, and the ends belong to the interval when
`closed` holds. -/
structure RoundingInterval where
  low : Nat
  middle : Nat
  high : Nat
  closed : Bool
  unitExponent : Int
  deriving DecidableEq

/-- Below a power of two the neighbour is only half as far away. -/
def Binary.roundingInterval {format : BinaryFormat} (number : Binary format) :
    RoundingInterval :=
  let middle := 4 * number.significand
  let below := if number.fractionField = 0 ∧ 1 < number.exponentField then 1 else 2
  { low := middle - below
    middle := middle
    high := middle + 2
    closed := number.significand % 2 = 0
    unitExponent := number.exponent - 2 }

namespace Decimal

/-- Factors that compare decimals with the given exponent to multiples of
`2 ^ unitExponent`: a count of digits times the first against a count of units
times the second. -/
def comparisonFactors (exponent unitExponent : Int) : Nat × Nat :=
  (Nat.pow 10 exponent.toNat * Nat.pow 2 (-unitExponent).toNat,
    Nat.pow 10 (-exponent).toNat * Nat.pow 2 unitExponent.toNat)

def liesIn (decimal : Decimal) (interval : RoundingInterval) : Bool :=
  let (grid, unit) := comparisonFactors decimal.exponent interval.unitExponent
  let position := decimal.digits * grid
  if interval.closed then
    interval.low * unit ≤ position ∧ position ≤ interval.high * unit
  else
    interval.low * unit < position ∧ position < interval.high * unit

/-- The shortest decimal on the grid of the given exponent. A tie between the
two neighbours goes to the upper one. -/
def onGrid? (interval : RoundingInterval) (exponent : Int) : Option Decimal :=
  let (grid, unit) := comparisonFactors exponent interval.unitExponent
  let middle := interval.middle * unit
  let lower : Decimal := ⟨middle / grid, exponent⟩
  let upper : Decimal := ⟨middle / grid + 1, exponent⟩
  match lower.liesIn interval, upper.liesIn interval with
  | true, true => some (if 2 * (middle % grid) < grid then lower else upper)
  | true, false => some lower
  | false, true => some upper
  | false, false => none

/-- The first hit on the grids of falling exponents. -/
def searchGrids (interval : RoundingInterval) : Nat → Int → Decimal
  | 0, exponent =>
      let (grid, unit) := comparisonFactors exponent interval.unitExponent
      ⟨interval.middle * unit / grid, exponent⟩
  | grids + 1, exponent =>
      match onGrid? interval exponent with
      | some decimal => decimal
      | none => searchGrids interval grids (exponent - 1)

/-- The number of decimal digits of a natural number, at most `limit`. -/
def digitCount : Nat → Nat → Nat
  | 0, _ => 0
  | limit + 1, value => if value = 0 then 0 else digitCount limit (value / 10) + 1

/-- The number of multiplications by ten, at most `limit`, that bring the
quotient to one or more. -/
def leadingZeros (denominator : Nat) : Nat → Nat → Nat
  | 0, _ => 0
  | limit + 1, numerator =>
      if denominator ≤ numerator then 0 else leadingZeros denominator limit (numerator * 10) + 1

/-- The least exponent of a power of ten above the quotient. -/
def exponentAbove (numerator denominator : Nat) : Int :=
  let whole := numerator / denominator
  if whole = 0 then
    1 - (leadingZeros denominator (denominator.log2 + 1) numerator : Int)
  else
    (digitCount (whole.log2 + 1) whole : Int)

/-- Zeros at the end of the digits move into the exponent. -/
def dropTrailingZeros : Nat → Decimal → Decimal
  | 0, decimal => decimal
  | limit + 1, decimal =>
      if decimal.digits % 10 = 0 ∧ decimal.digits ≠ 0 then
        dropTrailingZeros limit ⟨decimal.digits / 10, decimal.exponent + 1⟩
      else decimal

def shortest {format : BinaryFormat} (number : Binary format) : Decimal :=
  if number.significand = 0 then ⟨0, 0⟩
  else
    let interval := number.roundingInterval
    let (numerator, denominator) := scaleByPowerOfTwo number.significand 1 number.exponent
    let start := exponentAbove numerator denominator - 1
    dropTrailingZeros 20 (searchGrids interval 20 start)

/-- The digits of a decimal around its point, without an exponent. -/
def positional (decimal : Decimal) : String :=
  let digits := (toString decimal.digits).toList
  if 0 ≤ decimal.exponent then
    String.ofList (digits ++ List.replicate decimal.exponent.toNat '0')
  else
    let places := (-decimal.exponent).toNat
    let padded := List.replicate (places + 1 - digits.length) '0' ++ digits
    let whole := padded.length - places
    String.ofList (padded.take whole ++ '.' :: padded.drop whole)

/-- The nearest number to a decimal with a sign. Exponents far outside the
range are cut off before any power is computed. -/
def toBinary (format : BinaryFormat) (negative : Bool) (decimal : Decimal) : Binary format :=
  if decimal.digits = 0 then .zero negative
  else
    let top := (digitCount (decimal.digits.log2 + 1) decimal.digits : Int) + decimal.exponent
    let bound : Int := Nat.pow 2 format.exponentBits
    if bound < top then .infinity negative
    else if top < -bound then .zero negative
    else
      Binary.ofQuotient negative
        (decimal.digits * Nat.pow 10 decimal.exponent.toNat)
        (Nat.pow 10 (-decimal.exponent).toNat)

end Decimal

/-- The shortest decimal with its sign and no exponent. -/
def Binary.text {format : BinaryFormat} (number : Binary format) : String :=
  if number.isNaN then "NaN"
  else
    let sign := if number.isNegative then "-" else ""
    if number.isInfinite then sign ++ "inf"
    else sign ++ (Decimal.shortest number).positional

end EmuScript.Numeric
