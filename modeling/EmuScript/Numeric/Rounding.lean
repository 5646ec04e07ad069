/-!
# Rounding of exact quotients

A quotient of natural numbers is rounded once, from its exact value. The
binary exponent of a quotient is found without any approximation.
-/

set_option autoImplicit false

namespace EmuScript.Numeric

/-- The natural number nearest to `numerator / denominator`; a half goes to the
even neighbour. -/
def roundHalfEven (numerator denominator : Nat) : Nat :=
  let quotient := numerator / denominator
  let remainder := numerator % denominator
  if 2 * remainder < denominator then quotient
  else if denominator < 2 * remainder then quotient + 1
  else quotient + quotient % 2

/-- The quotient `numerator * 2 ^ shift / denominator` as a pair of natural
numbers, whatever the sign of `shift`. -/
def scaleByPowerOfTwo (numerator denominator : Nat) (shift : Int) : Nat × Nat :=
  (numerator * Nat.pow 2 shift.toNat, denominator * Nat.pow 2 (-shift).toNat)

/-- The exponent of the greatest power of two that is at most
`numerator / denominator`, for positive arguments. The difference of the two
bit lengths exceeds it by one or is exact. -/
def floorLog2 (numerator denominator : Nat) : Int :=
  let estimate : Int := (Nat.log2 numerator : Int) - (Nat.log2 denominator : Int)
  let (scaled, unit) := scaleByPowerOfTwo numerator denominator (-estimate)
  if unit ≤ scaled then estimate else estimate - 1

end EmuScript.Numeric
