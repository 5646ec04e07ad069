import EmuScript.Host.Action
import EmuScript.Value

/-!
# Memory access

Typed reads and writes of the two memory spaces. Each is exactly one call of
the emulator; nothing is cached and no address is checked. The views of main
memory and of the ROM differ in what they let scripts write: the ROM takes
floating point numbers only.
-/

set_option autoImplicit false

namespace EmuScript

variable {κ : Type}

def PrimitiveType.ofTag (tag : String) : Except ScriptError PrimitiveType :=
  match ofTag? tag with
  | some type => .ok type
  | none => .error (.unrecognizedType tag)

def readValue (space : MemorySpace) (address : UInt32) (type : PrimitiveType) :
    Action κ Value :=
  match type.encoding with
  | .integer bits signed => do
      return .int (← Action.ask (.memory (.readInt space address bits signed)))
  | .floating double => do
      return .float (← Action.ask (.memory (.readFloat space address double)))

def writeValue (space : MemorySpace) (address : UInt32) (type : PrimitiveType) (value : Value) :
    Action κ Unit :=
  match type.encoding with
  | .integer bits _ => Action.ask (.memory (.writeInt space address bits value.toInt64))
  | .floating double =>
      Action.ask (.memory (.writeFloat space address value.toDouble double))

namespace Memory

def read (type : PrimitiveType) (address : UInt32) : Action κ Value :=
  readValue .main address type

def write (type : PrimitiveType) (address : UInt32) (value : Value) : Action κ Unit :=
  writeValue .main address type value

/-- Reads a scalar of a type known in advance. -/
def get (type : PrimitiveType) (address : UInt32) : Action κ type.Scalar := do
  return type.narrow (← read type address)

/-- Writes a scalar of a type known in advance. -/
def set (type : PrimitiveType) (address : UInt32) (scalar : type.Scalar) : Action κ Unit :=
  write type address (type.widen scalar)

def getBlock (address : UInt32) (size : UInt64) : Action κ Bytes :=
  Action.ask (.memory (.readBlock .main address size))

def setBlock (address : UInt32) (data : Bytes) : Action κ Unit :=
  Action.ask (.memory (.writeBlock .main address data))

def getString (address : UInt32) : Action κ String :=
  Action.ask (.memory (.readString .main address))

def setString (address : UInt32) (text : String) : Action κ Unit :=
  Action.ask (.memory (.writeString .main address text))

end Memory

namespace Rom

def read (type : PrimitiveType) (address : UInt32) : Action κ Value :=
  readValue .rom address type

def get (type : PrimitiveType) (address : UInt32) : Action κ type.Scalar := do
  return type.narrow (← read type address)

/-- Writes a scalar of a floating point type. -/
def set (type : PrimitiveType) (_ : type.isFloat = true) (address : UInt32)
    (scalar : type.Scalar) : Action κ Unit :=
  writeValue .rom address type (type.widen scalar)

def getBlock (address : UInt32) (size : UInt64) : Action κ Bytes :=
  Action.ask (.memory (.readBlock .rom address size))

def getString (address : UInt32) : Action κ String :=
  Action.ask (.memory (.readString .rom address))

end Rom

end EmuScript
