import EmuScript.Json.Codec
import EmuScript.Json.Writer
import EmuScript.Memory.Binding

/-!
# Writing answers

The JSON forms in which a scenario is answered.
-/

set_option autoImplicit false

namespace EmuScript.Scenario

open Numeric

def ofNat (value : Nat) : Json :=
  .integer value

def ofWord (value : UInt32) : Json :=
  ofNat value.toNat

def ofOption {α : Type} (encode : α → Json) : Option α → Json
  | none => .null
  | some value => encode value

def hexText (digits value : Nat) : String :=
  String.ofList ((List.range digits).reverse.map fun place =>
    Json.escapeDigit (value / Nat.pow 16 place % 16))

def ofBinary {format : BinaryFormat} (number : Binary format) : Json :=
  if number.isNaN then .string "nan"
  else .string (hexText (format.width / 4) number.bits.toNat)

def ofBytes (bytes : Bytes) : Json :=
  .string (String.join (bytes.map fun byte => hexText 2 byte.toNat))

def ofValue : Value → Json
  | .int value => .object [("int", .integer value.toInt)]
  | .float value => .object [("float", ofBinary value)]

def ofScalar : (type : PrimitiveType) → type.Scalar → Json
  | .u8, value => ofNat value.toNat
  | .u16, value => ofNat value.toNat
  | .u32, value => ofNat value.toNat
  | .s8, value => .integer value.toInt
  | .s16, value => .integer value.toInt
  | .s32, value => .integer value.toInt
  | .float, value => ofBinary value
  | .double, value => ofBinary value

def variantName : ScriptError → String
  | .invalidState _ _ => "InvalidState"
  | .unrecognizedType _ => "UnrecognizedType"
  | .unknownRegister _ => "UnknownRegister"
  | .unknownField _ => "UnknownField"
  | .duplicateField _ => "DuplicateField"
  | .propertyRedefined _ => "PropertyRedefined"
  | .unknownCallback _ => "UnknownCallback"
  | .unknownHookKind _ => "UnknownHookKind"
  | .host _ => "Host"

def className : ErrorClass → String
  | .invalidState => "InvalidState"
  | .unrecognizedType => "UnrecognizedType"
  | .hostCallFailure => "HostCallFailure"
  | .lookup => "Lookup"

def errorMembers (error : ScriptError) : List (String × Json) :=
  [("error", .string (variantName error)), ("class", .string (className error.errorClass)),
    ("message", .string error.message)]

def ofError (error : ScriptError) : Json :=
  .object (errorMembers error)

def ofResult {α : Type} (encode : α → Json) : Except ScriptError α → Json
  | .ok value => encode value
  | .error error => ofError error

def ofObject (object : BoundObject) : Json :=
  .object [
    ("props", .array (object.properties.map fun (name, binding) =>
      .array [.string name, ofWord binding.address, .string binding.type.tag])),
    ("len", ofNat object.properties.length), ("empty", .bool object.properties.isEmpty)]

def layoutMembers (layout : StructLayout) : List (String × Json) :=
  [("fields", .array (layout.fields.map fun field =>
      .array [.string field.descriptor.name, .string field.descriptor.type.tag,
        ofWord field.offset])),
    ("size", ofWord layout.size), ("len", ofNat layout.fields.length),
    ("empty", .bool layout.fields.isEmpty)]

end EmuScript.Scenario
