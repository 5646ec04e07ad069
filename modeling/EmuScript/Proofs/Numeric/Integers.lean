import EmuScript.Numeric.Binary

/-!
# Integers as doubles

An integer of at most 53 bits is a double of its own: taking the integer part of that
double gives the integer back.
-/

set_option autoImplicit false

namespace EmuScript.Numeric

/-! ## Rounding of integers -/

theorem floorLog2_one {number : Nat} (positive : 0 < number) :
    floorLog2 number 1 = Nat.log2 number := by
  have below : 2 ^ Nat.log2 number ≤ number := Nat.log2_self_le (Nat.ne_of_gt positive)
  have one : Nat.log2 1 = 0 := by decide
  simp [floorLog2, scaleByPowerOfTwo, one, below]

theorem roundHalfEven_one (number : Nat) : roundHalfEven number 1 = number := by
  simp [roundHalfEven, Nat.mod_one]

namespace Binary

/-! ## Fields of a double -/

/-- The double with an exponent field and a fraction, and without a sign. -/
def compose (field fraction : Nat) : Double :=
  ofMagnitude false (field * Nat.pow 2 52 + fraction)

theorem width_double : BinaryFormat.double.width = 64 := rfl

theorem magnitudeBits_double : BinaryFormat.double.magnitudeBits = 63 := rfl

theorem infinityBits_double : BinaryFormat.double.infinityBits = 2047 * 4503599627370496 := by
  decide

section Fields

variable {field fraction : Nat} (finite : field < 2047) (within : fraction < 4503599627370496)

include finite within

theorem bits_compose : (compose field fraction).bits.toNat = field * 4503599627370496 + fraction := by
  rw [compose, ofMagnitude, BitVec.toNat_ofNat, width_double]
  simp only [Bool.false_eq_true, if_false, Nat.add_zero, Nat.pow_eq, Nat.reducePow]
  omega

theorem magnitude_compose : (compose field fraction).magnitude = field * 4503599627370496 + fraction := by
  rw [magnitude, bits_compose finite within, magnitudeBits_double]
  simp only [Nat.pow_eq, Nat.reducePow]
  omega

theorem finite_compose : (compose field fraction).isNaN = false ∧
    (compose field fraction).isInfinite = false ∧ (compose field fraction).isNegative = false := by
  rw [isNaN, isInfinite, isNegative, magnitude_compose finite within, bits_compose finite within,
    infinityBits_double, magnitudeBits_double]
  simp only [decide_eq_false_iff_not, Nat.pow_eq, Nat.reducePow]
  omega

theorem exponentField_compose : (compose field fraction).exponentField = field := by
  rw [Binary.exponentField, magnitude_compose finite within]
  simp only [BinaryFormat.double, Nat.pow_eq, Nat.reducePow]
  omega

theorem fractionField_compose : (compose field fraction).fractionField = fraction := by
  rw [Binary.fractionField, magnitude_compose finite within]
  simp only [BinaryFormat.double, Nat.pow_eq, Nat.reducePow]
  omega

/-- The integer part where the last place of the fraction is no more than one. -/
theorem truncate_compose (positive : 0 < field) (small : field ≤ 1075) :
    (compose field fraction).truncate =
      ((4503599627370496 + fraction) / Nat.pow 2 (1075 - field) : Nat) := by
  have normal : field ≠ 0 := Nat.ne_of_gt positive
  have exponent : (compose field fraction).exponent = -((1075 - field : Nat) : Int) := by
    rw [Binary.exponent, exponentField_compose finite within]
    simp only [BinaryFormat.minExponent, BinaryFormat.double, Nat.pow_eq, Nat.reducePow,
      Nat.reduceSub]
    omega
  have significand : (compose field fraction).significand = 4503599627370496 + fraction := by
    rw [Binary.significand, exponentField_compose finite within, fractionField_compose finite within,
      if_neg normal]
    rfl
  obtain ⟨-, -, negative⟩ := finite_compose finite within
  simp [truncate, negative, scaleByPowerOfTwo, exponent, significand]

end Fields

/-! ## Integers -/

/-- The significand of an integer fills 53 bits. -/
theorem scaled_bounds {number : Nat} (positive : 0 < number) (small : number < Nat.pow 2 53) :
    Nat.log2 number ≤ 52 ∧ 4503599627370496 ≤ number * Nat.pow 2 (52 - Nat.log2 number) ∧
      number * Nat.pow 2 (52 - Nat.log2 number) < 2 * 4503599627370496 := by
  have below : 2 ^ Nat.log2 number ≤ number := Nat.log2_self_le (Nat.ne_of_gt positive)
  have above : number < 2 ^ (Nat.log2 number + 1) := Nat.lt_log2_self
  have few : Nat.log2 number ≤ 52 :=
    Nat.lt_succ_iff.mp ((Nat.log2_lt (Nat.ne_of_gt positive)).mpr small)
  have whole : 2 ^ Nat.log2 number * 2 ^ (52 - Nat.log2 number) = 2 ^ 52 := by
    rw [← Nat.pow_add, Nat.add_sub_cancel' few]
  refine ⟨few, ?_, ?_⟩
  · have least := Nat.mul_le_mul_right (2 ^ (52 - Nat.log2 number)) below
    rw [whole] at least
    exact least
  · have most := Nat.mul_lt_mul_of_pos_right above (Nat.two_pow_pos (52 - Nat.log2 number))
    rw [Nat.pow_succ, Nat.mul_assoc, Nat.mul_comm 2, ← Nat.mul_assoc, whole] at most
    simp only [Nat.pow_eq]
    omega

theorem ofInt_eq {number : Nat} (positive : 0 < number) (small : number < Nat.pow 2 53) :
    (ofInt number : Double) =
      compose (Nat.log2 number + 1023)
        (number * Nat.pow 2 (52 - Nat.log2 number) - 4503599627370496) := by
  obtain ⟨few, least, most⟩ := scaled_bounds positive small
  have exponent : max BinaryFormat.double.minExponent
      (floorLog2 number 1 - (BinaryFormat.double.fractionBits : Int)) =
        -((52 - Nat.log2 number : Nat) : Int) := by
    rw [floorLog2_one positive]
    simp only [BinaryFormat.minExponent, BinaryFormat.double, Nat.pow_eq, Nat.reducePow,
      Nat.reduceSub]
    omega
  have place : (-((52 - Nat.log2 number : Nat) : Int) - BinaryFormat.double.minExponent).toNat =
      Nat.log2 number + 1022 := by
    simp only [BinaryFormat.minExponent, BinaryFormat.double, Nat.pow_eq, Nat.reducePow,
      Nat.reduceSub]
    omega
  have natural : ¬ ((number : Int) < 0) := by omega
  have scaled : scaleByPowerOfTwo number 1 (- -((52 - Nat.log2 number : Nat) : Int)) =
      (number * Nat.pow 2 (52 - Nat.log2 number), 1) := by
    simp [scaleByPowerOfTwo]
  have magnitude : min ((Nat.log2 number + 1022) * Nat.pow 2 BinaryFormat.double.fractionBits +
      number * Nat.pow 2 (52 - Nat.log2 number)) BinaryFormat.double.infinityBits =
        (Nat.log2 number + 1023) * Nat.pow 2 52 +
          (number * Nat.pow 2 (52 - Nat.log2 number) - 4503599627370496) := by
    rw [infinityBits_double]
    simp only [BinaryFormat.double, Nat.pow_eq, Nat.reducePow] at least most ⊢
    omega
  simp only [ofInt, ofQuotient, Int.natAbs_natCast, Nat.ne_of_gt positive, if_false, exponent, place,
    scaled, roundHalfEven_one, natural, decide_false, compose, magnitude]

theorem clampTo_zero : (ofInt 0 : Double).clampTo 0 (UInt64.size - 1) = 0 := by
  have significand : (zero false : Double).significand = 0 := by decide
  have integer : (zero false : Double).truncate = 0 := by
    simp [truncate, scaleByPowerOfTwo, significand]
  have none : (zero false : Double).isNaN = false := by decide
  have bounded : (zero false : Double).isInfinite = false := by decide
  have same : (ofInt 0 : Double) = zero false := rfl
  rw [same, clampTo, none, bounded, integer]
  rfl

/-- An integer of at most 53 bits is the integer part of its double. -/
theorem toUInt64_ofInt {number : Nat} (small : number < Nat.pow 2 53) :
    (ofInt number : Double).toUInt64 = UInt64.ofNat number := by
  have whole : (ofInt number : Double).clampTo 0 (UInt64.size - 1) = number := by
    rcases Nat.eq_zero_or_pos number with rfl | positive
    · exact clampTo_zero
    · obtain ⟨few, least, most⟩ := scaled_bounds positive small
      have finite : Nat.log2 number + 1023 < 2047 := by omega
      have within : number * Nat.pow 2 (52 - Nat.log2 number) - 4503599627370496 <
          4503599627370496 := by omega
      obtain ⟨nan, infinite, -⟩ := finite_compose finite within
      rw [ofInt_eq positive small, clampTo, nan, infinite,
        truncate_compose finite within (by omega) (by omega), Nat.add_sub_cancel' least]
      have power : 1075 - (Nat.log2 number + 1023) = 52 - Nat.log2 number := by omega
      have quotient : number * Nat.pow 2 (52 - Nat.log2 number) /
          Nat.pow 2 (52 - Nat.log2 number) = number :=
        Nat.mul_div_cancel number (Nat.two_pow_pos _)
      rw [power, quotient]
      have bound : number < 18446744073709551615 := by
        simp only [Nat.pow_eq, Nat.reducePow] at small
        omega
      simp only [UInt64.size, Bool.false_eq_true, if_false]
      omega
  rw [toUInt64, whole, Int.toNat_natCast]

end Binary

end EmuScript.Numeric
