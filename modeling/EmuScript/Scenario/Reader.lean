import EmuScript.Error
import EmuScript.Json.Codec
import EmuScript.Json.Reader
import EmuScript.Value

/-!
# Reading scenarios

A scenario is a conversation with the library, described in JSON. The readers
of its parts fail with a short text on anything that a scenario cannot hold.
Floating point numbers are written by their bits and bytes as pairs of digits,
both in base sixteen.
-/

set_option autoImplicit false

namespace EmuScript.Scenario

open Numeric

abbrev Decoder (α : Type) := Except String α

def orFail {α : Type} (what : String) : Option α → Decoder α
  | some value => .ok value
  | none => .error what

def member (key : String) (value : Json) : Decoder Json :=
  orFail ("missing " ++ key) (value.member? key)

def optional {α : Type} (key : String) (decode : Json → Decoder α) (value : Json) :
    Decoder (Option α) :=
  match value.member? key with
  | none | some .null => .ok none
  | some found => return some (← decode found)

def field {α : Type} (key : String) (decode : Json → Decoder α) (value : Json) : Decoder α := do
  decode (← member key value)

def asInt : Json → Decoder Int
  | .integer value => .ok value
  | _ => .error "integer expected"

def asWord (value : Json) : Decoder UInt32 :=
  orFail "word expected" (value.word? .text)

def asPort (value : Json) : Decoder UInt16 :=
  orFail "port expected" (value.port? .text)

def asSize (value : Json) : Decoder UInt64 :=
  orFail "size expected" (value.size? .text)

def asInt64 (value : Json) : Decoder Int64 := do
  return Int64.ofInt (← asInt value)

def asString (value : Json) : Decoder String :=
  orFail "string expected" value.string?

def asBool (value : Json) : Decoder Bool :=
  orFail "boolean expected" value.bool?

def asList {α : Type} (decode : Json → Decoder α) : Json → Decoder (List α)
  | .array elements => elements.mapM decode
  | _ => .error "list expected"

def asPair {α β : Type} (first : Json → Decoder α) (second : Json → Decoder β) :
    Json → Decoder (α × β)
  | .array [a, b] => return (← first a, ← second b)
  | _ => .error "pair expected"

def asTriple {α β γ : Type} (first : Json → Decoder α) (second : Json → Decoder β)
    (third : Json → Decoder γ) : Json → Decoder (α × β × γ)
  | .array [a, b, c] => return (← first a, ← second b, ← third c)
  | _ => .error "triple expected"

def hexNumber (text : String) : Decoder Nat :=
  text.toList.foldlM
    (fun value char => do return value * 16 + (← orFail "digit expected" (Json.hexValue? char))) 0

def asBinary (format : BinaryFormat) (value : Json) : Decoder (Binary format) := do
  match ← asString value with
  | "nan" => return .nan
  | text => return ⟨BitVec.ofNat _ (← hexNumber text)⟩

def asDouble (value : Json) : Decoder Double :=
  asBinary .double value

def asSingle (value : Json) : Decoder Single :=
  asBinary .single value

def bytesOf : List Char → Decoder Bytes
  | [] => .ok []
  | high :: low :: rest => do
      let high ← orFail "digit expected" (Json.hexValue? high)
      let low ← orFail "digit expected" (Json.hexValue? low)
      return UInt8.ofNat (high * 16 + low) :: (← bytesOf rest)
  | [_] => .error "even number of digits expected"

def asBytes (value : Json) : Decoder Bytes := do
  bytesOf (← asString value).toList

def asValue (value : Json) : Decoder Value := do
  match value.member? "int" with
  | some number => return .int (← asInt64 number)
  | none => return .float (← field "float" asDouble value)

def asType (value : Json) : Decoder PrimitiveType := do
  orFail "type expected" (PrimitiveType.ofTag? (← asString value))

def asScalar (type : PrimitiveType) (value : Json) : Decoder type.Scalar :=
  match type with
  | .u8 => return UInt8.ofInt (← asInt value)
  | .u16 => return UInt16.ofInt (← asInt value)
  | .u32 => return UInt32.ofInt (← asInt value)
  | .s8 => return Int8.ofInt (← asInt value)
  | .s16 => return Int16.ofInt (← asInt value)
  | .s32 => return Int32.ofInt (← asInt value)
  | .float => asSingle value
  | .double => asDouble value

def asHookKind (value : Json) : Decoder HookKind := do
  orFail "hook kind expected" (HookKind.ofName? (← asString value))

def asThreadState (value : Json) : Decoder ThreadState :=
  orFail "state expected" value.threadState?

def asSpace (value : Json) : Decoder MemorySpace := do
  match ← asString value with
  | "main" => return .main
  | "rom" => return .rom
  | _ => .error "space expected"

def asError (value : Json) : Decoder ScriptError := do
  let name := field "name" asString value
  match ← field "variant" asString value with
  | "InvalidState" =>
      return .invalidState (← field "operation" asString value) (← field "state" asThreadState value)
  | "UnrecognizedType" => return .unrecognizedType (← name)
  | "UnknownRegister" => return .unknownRegister (← name)
  | "UnknownField" => return .unknownField (← name)
  | "DuplicateField" => return .duplicateField (← name)
  | "PropertyRedefined" => return .propertyRedefined (← name)
  | "UnknownCallback" => return .unknownCallback ⟨← field "id" asWord value⟩
  | "UnknownHookKind" => return .unknownHookKind (← name)
  | "Host" => return .host ⟨← field "call" asString value, ← field "message" asString value⟩
  | other => .error ("unknown error " ++ other)

def asPart : Json → Decoder String
  | .object [("s", text)] => asString text
  | .object [("i", number)] => return toString (← asInt number)
  | .object [("f64", number)] => return (← asDouble number).text
  | .object [("f32", number)] => return (← asSingle number).text
  | .object [("value", value)] => return (← asValue value).text
  | .object [("type", type)] => return (← asType type).tag
  | .object [("kind", kind)] => return (← asHookKind kind).name
  | .object [("space", space)] => return (← asSpace space).text
  | .object [("state", state)] => return (← asThreadState state).name
  | .object [("id", id)] => return toString (← asWord id).toNat
  | .object [("error", error)] => return (← asError error).message
  | _ => .error "argument expected"

def asParts (value : Json) : Decoder (List String) :=
  asList asPart value

def asFields (value : Json) : Decoder (List (String × String)) :=
  asList (asPair asString asString) value

end EmuScript.Scenario
