/-!
# Hexadecimal text

A 32-bit pattern is written in upper-case digits without sign, padded with
zeros on the left. Numbers of the integer types up to 32 bits are written as
their patterns.
-/

set_option autoImplicit false

namespace EmuScript.Text

def hexDigit (value : Nat) : Char :=
  if value < 10 then Char.ofNat (48 + value) else Char.ofNat (55 + value)

/-- The eight base-sixteen digits of a word, most significant first. -/
def nibbles (value : UInt32) : List Nat :=
  [7, 6, 5, 4, 3, 2, 1, 0].map fun place => value.toNat / Nat.pow 16 place % 16

/-- The digits from the first that is not zero; a zero has one digit. -/
def significantNibbles (value : UInt32) : List Nat :=
  match (nibbles value).dropWhile (· = 0) with
  | [] => [0]
  | first :: rest => first :: rest

/-- The width that a request for zero digits stands for. -/
def defaultHexDigits : Nat := 8

/-- The significant digits of a word, padded to at least `digits` characters. -/
def hex (value : UInt32) (digits : Nat) : String :=
  let width := if digits = 0 then defaultHexDigits else digits
  let significant := significantNibbles value
  String.ofList
    (List.replicate (width - significant.length) '0' ++ significant.map hexDigit)

/-- The numbers that have a hexadecimal text. -/
inductive HexNumber where
  | byte (value : UInt8)
  | halfword (value : UInt16)
  | word (value : UInt32)
  | signedWord (value : Int32)
  deriving DecidableEq

/-- The pattern that is written for a number. -/
def HexNumber.pattern : HexNumber → UInt32
  | byte value => value.toUInt32
  | halfword value => value.toUInt32
  | word value => value
  | signedWord value => value.toUInt32

/-- An address as the log shows it: the mark `0x` and eight digits. -/
def hexAddress (address : UInt32) : String :=
  "0x" ++ hex address 8

end EmuScript.Text
