/-!
# Primitive types

The element types that scripts name in memory accesses and structure
definitions, with their widths and their encodings in memory.
-/

set_option autoImplicit false

namespace EmuScript

inductive PrimitiveType where
  | u8 | u16 | u32 | s8 | s16 | s32 | float | double
  deriving DecidableEq

/-- How a type is laid out in memory. -/
inductive Encoding where
  | integer (bits : UInt32) (signed : Bool)
  | floating (double : Bool)
  deriving DecidableEq

namespace PrimitiveType

def all : List PrimitiveType :=
  [u8, u16, u32, s8, s16, s32, float, double]

def byteWidth : PrimitiveType → UInt32
  | u8 | s8 => 1
  | u16 | s16 => 2
  | u32 | s32 | float => 4
  | double => 8

def bitWidth (type : PrimitiveType) : UInt32 :=
  type.byteWidth * 8

def isSigned : PrimitiveType → Bool
  | s8 | s16 | s32 => true
  | u8 | u16 | u32 | float | double => false

def isFloat : PrimitiveType → Bool
  | float | double => true
  | u8 | u16 | u32 | s8 | s16 | s32 => false

def encoding : PrimitiveType → Encoding
  | float => .floating false
  | double => .floating true
  | type => .integer type.bitWidth type.isSigned

/-- The name by which scripts refer to the type. -/
def tag : PrimitiveType → String
  | u8 => "u8"
  | u16 => "u16"
  | u32 => "u32"
  | s8 => "s8"
  | s16 => "s16"
  | s32 => "s32"
  | float => "float"
  | double => "double"

/-- The name of the type as diagnostic output shows it. -/
def label : PrimitiveType → String
  | u8 => "U8"
  | u16 => "U16"
  | u32 => "U32"
  | s8 => "S8"
  | s16 => "S16"
  | s32 => "S32"
  | float => "Float"
  | double => "Double"

def ofTag? (tag : String) : Option PrimitiveType :=
  all.find? fun type => type.tag == tag

end PrimitiveType

end EmuScript
