import EmuScript.Text.Hex
import Mathlib.Data.Nat.Digits.Lemmas

/-!
# Hexadecimal texts read back

A text is the digits of a pattern in base sixteen, after as many zeros as its width asks
for. Read in base sixteen it gives the pattern again, so no two patterns share a text of
the same width.
-/

set_option autoImplicit false

namespace EmuScript.Text

/-- The sixteen digits in the order of their values. -/
def hexDigits : List Char :=
  "0123456789ABCDEF".toList

/-- The number that a text stands for in base sixteen. -/
def ofHex? (text : String) : Option Nat :=
  (text.toList.mapM hexDigits.idxOf?).map fun digits => Nat.ofDigits 16 digits.reverse

/-- The digits that a number needs in base sixteen; zero needs one. -/
def hexLength (number : Nat) : Nat :=
  max 1 (Nat.digits 16 number).length

/-! ## Digits -/

theorem idxOf?_hexDigit {digit : Nat} (small : digit < 16) :
    hexDigits.idxOf? (hexDigit digit) = some digit := by
  revert digit
  decide

theorem hexDigit_mem {digit : Nat} (small : digit < 16) : hexDigit digit ∈ hexDigits := by
  revert digit
  decide

theorem mapM_idxOf?_hexDigit {digits : List Nat} (small : ∀ digit ∈ digits, digit < 16) :
    (digits.map hexDigit).mapM hexDigits.idxOf? = some digits := by
  induction digits with
  | nil => rfl
  | cons digit rest ih =>
      obtain ⟨first, others⟩ := List.forall_mem_cons.mp small
      simp [idxOf?_hexDigit first, ih others]

/-! ## Significant digits -/

theorem append_replicate_eq_map_range {digits : List Nat} {width : Nat}
    (short : digits.length ≤ width) :
    digits ++ List.replicate (width - digits.length) 0 =
      (List.range width).map fun place => digits.getD place 0 := by
  apply List.ext_getElem
  · simp only [List.length_append, List.length_replicate, List.length_map, List.length_range]
    omega
  · intro place inside _
    by_cases own : place < digits.length
    · simp [own]
    · simp [List.getElem_append, own]

theorem length_digits_le (value : UInt32) : (Nat.digits 16 value.toNat).length ≤ 8 :=
  (Nat.digits_length_le_iff (by decide) _).mpr value.toNat_lt

/-- A word has eight digits; those in front of its own are zeros. -/
theorem nibbles_eq (value : UInt32) :
    nibbles value =
      List.replicate (8 - (Nat.digits 16 value.toNat).length) 0 ++
        (Nat.digits 16 value.toNat).reverse := by
  have places : nibbles value =
      ((List.range 8).map fun place => (Nat.digits 16 value.toNat).getD place 0).reverse := by
    simp only [Nat.getD_digits _ _ (by decide : 2 ≤ 16)]
    rfl
  rw [places, ← append_replicate_eq_map_range (length_digits_le value)]
  simp

/-- The first digit of a number that is not zero is not zero. -/
theorem exists_reverse_digits {number : Nat} (positive : number ≠ 0) :
    ∃ first rest, (Nat.digits 16 number).reverse = first :: rest ∧ first ≠ 0 := by
  have present : (Nat.digits 16 number).reverse ≠ [] :=
    mt List.reverse_eq_nil_iff.mp (Nat.digits_ne_nil_iff_ne_zero.mpr positive)
  obtain ⟨first, rest, split⟩ := List.exists_cons_of_ne_nil present
  have last : Nat.digits 16 number = rest.reverse ++ [first] := by
    rw [← List.reverse_cons, ← split, List.reverse_reverse]
  refine ⟨first, rest, split, ?_⟩
  have own := Nat.getLast_digit_ne_zero 16 positive
  simpa only [last, List.getLast_append_singleton] using own

theorem significantNibbles_eq (value : UInt32) :
    significantNibbles value =
      if value.toNat = 0 then [0] else (Nat.digits 16 value.toNat).reverse := by
  have stripped : (nibbles value).dropWhile (· = 0) =
      (Nat.digits 16 value.toNat).reverse.dropWhile (· = 0) := by
    rw [nibbles_eq, List.dropWhile_append_of_pos]
    simp
  by_cases zero : value.toNat = 0
  · simp [significantNibbles, stripped, zero]
  · obtain ⟨first, rest, split, leading⟩ := exists_reverse_digits zero
    have kept : (first :: rest).dropWhile (· = 0) = first :: rest :=
      List.dropWhile_cons_of_neg (by simpa using leading)
    rw [significantNibbles, stripped, if_neg zero, split, kept]

theorem length_significantNibbles (value : UInt32) :
    (significantNibbles value).length = hexLength value.toNat := by
  rw [significantNibbles_eq, hexLength]
  by_cases zero : value.toNat = 0
  · simp [zero]
  · have present : 1 ≤ (Nat.digits 16 value.toNat).length :=
      List.length_pos_iff.mpr (Nat.digits_ne_nil_iff_ne_zero.mpr zero)
    simp [zero, present]

/-- Zeros in front of the digits do not count. -/
theorem ofDigits_padded (value : UInt32) (zeros : Nat) :
    Nat.ofDigits 16 (List.replicate zeros 0 ++ significantNibbles value).reverse =
      value.toNat := by
  rw [List.reverse_append, List.reverse_replicate, Nat.ofDigits_append_replicate_zero,
    significantNibbles_eq]
  by_cases zero : value.toNat = 0
  · simp [zero]
  · rw [if_neg zero, List.reverse_reverse, Nat.ofDigits_digits]

theorem padded_small (value : UInt32) (zeros : Nat) :
    ∀ digit ∈ List.replicate zeros 0 ++ significantNibbles value, digit < 16 := by
  intro digit member
  rw [significantNibbles_eq] at member
  rcases List.mem_append.mp member with padding | own
  · rw [List.eq_of_mem_replicate padding]
    decide
  · by_cases zero : value.toNat = 0
    · simp_all
    · rw [if_neg zero, List.mem_reverse] at own
      exact Nat.digits_lt_base (by decide) own

/-! ## Texts -/

/-- How many zeros stand in front of the digits of a text. -/
def padding (value : UInt32) (digits : Nat) : Nat :=
  (if digits = 0 then defaultHexDigits else digits) - (significantNibbles value).length

theorem hex_toList (value : UInt32) (digits : Nat) :
    (hex value digits).toList =
      (List.replicate (padding value digits) 0 ++ significantNibbles value).map hexDigit := by
  simp [hex, padding, hexDigit]

theorem ofHex?_hex (value : UInt32) (digits : Nat) :
    ofHex? (hex value digits) = some value.toNat := by
  rw [ofHex?, hex_toList, mapM_idxOf?_hexDigit (padded_small value _), Option.map_some,
    ofDigits_padded]

theorem length_hex (value : UInt32) (digits : Nat) :
    (hex value digits).length =
      max (if digits = 0 then 8 else digits) (hexLength value.toNat) := by
  rw [← String.length_toList, hex_toList, ← length_significantNibbles]
  simp only [padding, defaultHexDigits, List.length_map, List.length_append,
    List.length_replicate]
  omega

/-- Words of one text in a width are the same. -/
theorem hex_injective {value other : UInt32} {digits : Nat}
    (same : hex value digits = hex other digits) : value = other := by
  have read := ofHex?_hex value digits
  rw [same, ofHex?_hex other digits] at read
  exact UInt32.toNat_inj.mp (Option.some.inj read).symm

/-! ## Numbers -/

/-- The integer that a number is. -/
def HexNumber.toInt : HexNumber → Int
  | byte value => value.toNat
  | halfword value => value.toNat
  | word value => value.toNat
  | signedWord value => value.toInt

/-- A pattern is the number modulo 2 to the 32nd, so that negative numbers are written in
two's complement. -/
theorem HexNumber.pattern_toNat (number : HexNumber) :
    (number.pattern.toNat : Int) = number.toInt % (UInt32.size : Int) := by
  cases number with
  | byte value =>
      have bound := value.toNat_lt
      simp only [pattern, toInt, UInt8.toNat_toUInt32, UInt32.size]
      omega
  | halfword value =>
      have bound := value.toNat_lt
      simp only [pattern, toInt, UInt16.toNat_toUInt32, UInt32.size]
      omega
  | word value =>
      have bound := value.toNat_lt
      simp only [pattern, toInt, UInt32.size]
      omega
  | signedWord value =>
      have bound := value.toUInt32.toNat_lt
      have wrapped : value.toInt = (value.toUInt32.toNat : Int).bmod UInt32.size :=
        value.toBitVec.toInt_eq_toNat_bmod
      simp only [pattern, toInt, wrapped, Int.bmod_emod, UInt32.size]
      omega

/-- The text of a number consists of digits and reads back as the pattern of the number. It
is as long as its width and its digits ask for. Only numbers of one pattern have a text in
common. -/
theorem hex_reads_back (number : HexNumber) (digits : Nat) :
    let text := hex number.pattern digits
    (∀ char ∈ text.toList, char ∈ hexDigits) ∧
      ofHex? text = some number.pattern.toNat ∧
      (number.pattern.toNat : Int) = number.toInt % (UInt32.size : Int) ∧
      text.length =
        max (if digits = 0 then 8 else digits) (hexLength number.pattern.toNat) ∧
      ∀ other : HexNumber, hex other.pattern digits = text → other.pattern = number.pattern := by
  intro text
  refine ⟨?_, ofHex?_hex _ digits, number.pattern_toNat, length_hex _ digits, ?_⟩
  · intro char member
    rw [hex_toList] at member
    obtain ⟨digit, listed, rfl⟩ := List.mem_map.mp member
    exact hexDigit_mem (padded_small _ _ digit listed)
  · intro other same
    exact hex_injective same

example : hex (HexNumber.signedWord (-2)).pattern 0 = "FFFFFFFE" := by decide

end EmuScript.Text
