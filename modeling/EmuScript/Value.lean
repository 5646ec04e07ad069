import EmuScript.Numeric.Shortest
import EmuScript.PrimitiveType

/-!
# Values and scalars

A value is what a dynamic memory access reads or writes: an integer of 64 bits
or a double. A scalar is a number of one primitive type. Every scalar is a
value; a value narrows to a scalar of any type, integers by dropping high bits
and floating point numbers by rounding.
-/

set_option autoImplicit false

namespace EmuScript

open Numeric

inductive Value where
  | int (value : Int64)
  | float (value : Double)
  deriving DecidableEq

namespace Value

/-- The integer part; a float outside the range goes to the nearer end and a
NaN to zero. -/
def toInt64 : Value → Int64
  | int value => value
  | float value => value.toInt64

def toDouble : Value → Double
  | int value => Double.ofInt64 value
  | float value => value

def text : Value → String
  | int value => toString value.toInt
  | float value => value.text

end Value

/-- The numbers of one primitive type. -/
abbrev PrimitiveType.Scalar : PrimitiveType → Type
  | u8 => UInt8
  | u16 => UInt16
  | u32 => UInt32
  | s8 => Int8
  | s16 => Int16
  | s32 => Int32
  | float => Single
  | double => Double

namespace PrimitiveType

/-- The scalar that a value narrows to. -/
def narrow : (type : PrimitiveType) → Value → type.Scalar
  | u8, value => UInt8.ofBitVec (value.toInt64.toBitVec.setWidth 8)
  | u16, value => UInt16.ofBitVec (value.toInt64.toBitVec.setWidth 16)
  | u32, value => UInt32.ofBitVec (value.toInt64.toBitVec.setWidth 32)
  | s8, value => Int8.ofBitVec (value.toInt64.toBitVec.setWidth 8)
  | s16, value => Int16.ofBitVec (value.toInt64.toBitVec.setWidth 16)
  | s32, value => Int32.ofBitVec (value.toInt64.toBitVec.setWidth 32)
  | float, value => value.toDouble.toSingle
  | double, value => value.toDouble

/-- The value that a scalar stands for. -/
def widen : (type : PrimitiveType) → type.Scalar → Value
  | u8, scalar => .int (Int64.ofInt (scalar.toNat : Int))
  | u16, scalar => .int (Int64.ofInt (scalar.toNat : Int))
  | u32, scalar => .int (Int64.ofInt (scalar.toNat : Int))
  | s8, scalar => .int (Int64.ofInt scalar.toInt)
  | s16, scalar => .int (Int64.ofInt scalar.toInt)
  | s32, scalar => .int (Int64.ofInt scalar.toInt)
  | float, scalar => .float scalar.toDouble
  | double, scalar => .float scalar

end PrimitiveType

end EmuScript
