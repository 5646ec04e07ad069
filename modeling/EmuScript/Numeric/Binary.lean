import EmuScript.Numeric.Rounding

/-!
# Binary floating point numbers

Numbers are kept as their bits, and every conversion is computed exactly on
natural numbers and rounded once, to nearest with ties to even. Conversions
that make a new number answer the one quiet NaN without payload.
-/

set_option autoImplicit false

namespace EmuScript.Numeric

/-- The widths of the exponent and fraction fields of a binary format. -/
structure BinaryFormat where
  exponentBits : Nat
  fractionBits : Nat
  deriving DecidableEq

namespace BinaryFormat

def single : BinaryFormat := ⟨8, 23⟩

def double : BinaryFormat := ⟨11, 52⟩

def magnitudeBits (format : BinaryFormat) : Nat :=
  format.exponentBits + format.fractionBits

def width (format : BinaryFormat) : Nat :=
  format.magnitudeBits + 1

/-- The exponent of the last place of the smallest numbers. -/
def minExponent (format : BinaryFormat) : Int :=
  2 - (Nat.pow 2 (format.exponentBits - 1) : Int) - (format.fractionBits : Int)

/-- The magnitude bits of infinity; those of every NaN are greater. -/
def infinityBits (format : BinaryFormat) : Nat :=
  (Nat.pow 2 format.exponentBits - 1) * Nat.pow 2 format.fractionBits

end BinaryFormat

/-- A number of the given format, by its bits. -/
structure Binary (format : BinaryFormat) where
  bits : BitVec format.width
  deriving DecidableEq

abbrev Single := Binary .single

abbrev Double := Binary .double

namespace Binary

variable {format : BinaryFormat}

/-- The sign bit, which a zero and a NaN have as well. -/
def isNegative (number : Binary format) : Bool :=
  number.bits.toNat / Nat.pow 2 format.magnitudeBits = 1

/-- The bits without the sign; they order the magnitudes. -/
def magnitude (number : Binary format) : Nat :=
  number.bits.toNat % Nat.pow 2 format.magnitudeBits

def isNaN (number : Binary format) : Bool :=
  format.infinityBits < number.magnitude

def isInfinite (number : Binary format) : Bool :=
  number.magnitude = format.infinityBits

def exponentField (number : Binary format) : Nat :=
  number.magnitude / Nat.pow 2 format.fractionBits

def fractionField (number : Binary format) : Nat :=
  number.magnitude % Nat.pow 2 format.fractionBits

/-- The integer significand of a finite number: its magnitude is
`significand * 2 ^ exponent`. -/
def significand (number : Binary format) : Nat :=
  if number.exponentField = 0 then number.fractionField
  else Nat.pow 2 format.fractionBits + number.fractionField

def exponent (number : Binary format) : Int :=
  format.minExponent + ((number.exponentField - 1 : Nat) : Int)

def ofMagnitude (negative : Bool) (magnitude : Nat) : Binary format :=
  ⟨BitVec.ofNat _ (magnitude + if negative then Nat.pow 2 format.magnitudeBits else 0)⟩

/-- The quiet NaN without sign and payload. -/
def nan : Binary format :=
  ofMagnitude false (format.infinityBits + Nat.pow 2 (format.fractionBits - 1))

def infinity (negative : Bool) : Binary format :=
  ofMagnitude negative format.infinityBits

def zero (negative : Bool) : Binary format :=
  ofMagnitude negative 0

/-- The nearest number to the quotient, with a positive denominator. The
magnitude bits grow with the number, so a significand that rounds up to the
next power of two, or past the greatest finite number, needs no special case
but the bound by infinity. -/
def ofQuotient (negative : Bool) (numerator denominator : Nat) : Binary format :=
  if numerator = 0 then zero negative
  else
    let exponent :=
      max format.minExponent (floorLog2 numerator denominator - (format.fractionBits : Int))
    let (scaled, unit) := scaleByPowerOfTwo numerator denominator (-exponent)
    let magnitude :=
      (exponent - format.minExponent).toNat * Nat.pow 2 format.fractionBits
        + roundHalfEven scaled unit
    ofMagnitude negative (min magnitude format.infinityBits)

def ofInt (value : Int) : Binary format :=
  ofQuotient (value < 0) value.natAbs 1

def convert {source : BinaryFormat} (target : BinaryFormat) (number : Binary source) :
    Binary target :=
  if number.isNaN then nan
  else if number.isInfinite then infinity number.isNegative
  else
    let (numerator, denominator) := scaleByPowerOfTwo number.significand 1 number.exponent
    ofQuotient number.isNegative numerator denominator

/-- The integer part of a finite number, toward zero. -/
def truncate (number : Binary format) : Int :=
  let (numerator, denominator) := scaleByPowerOfTwo number.significand 1 number.exponent
  if number.isNegative then -((numerator / denominator : Nat) : Int)
  else ((numerator / denominator : Nat) : Int)

/-- The integer part, held within `low` and `high`; zero for a NaN. -/
def clampTo (low high : Int) (number : Binary format) : Int :=
  if number.isNaN then 0
  else if number.isInfinite then if number.isNegative then low else high
  else max low (min high number.truncate)

def isIntegral (number : Binary format) : Bool :=
  let (numerator, denominator) := scaleByPowerOfTwo number.significand 1 number.exponent
  !number.isNaN && !number.isInfinite && numerator % denominator = 0

def toInt64 (number : Binary format) : Int64 :=
  Int64.ofInt (number.clampTo Int64.minValue.toInt Int64.maxValue.toInt)

def toUInt64 (number : Binary format) : UInt64 :=
  UInt64.ofNat (number.clampTo 0 (UInt64.size - 1)).toNat

/-- The same number with every NaN replaced by the quiet one. -/
def canonical (number : Binary format) : Binary format :=
  if number.isNaN then nan else number

end Binary

namespace Single

/-- Every number of 32 bits is one of 64 bits. -/
def toDouble (number : Single) : Double :=
  number.convert .double

end Single

namespace Double

def toSingle (number : Double) : Single :=
  number.convert .single

def ofInt64 (value : Int64) : Double :=
  Binary.ofInt value.toInt

end Double

end EmuScript.Numeric
