import EmuScript.Json.Value
import EmuScript.Memory.Layout
import EmuScript.Session.Config

/-!
# Data of scripts as JSON

Configurations, field lists and the names of enumerations cross into the library
as JSON. There are two dialects. In JSON text, integers are written as integers
and a record may be a list of exactly its fields. In values handed over by a
script engine every number is a double, so an integer is a safe one, a record
is an object, and a tuple may be longer than needed.
-/

set_option autoImplicit false

namespace EmuScript.Json

open Numeric

/-- Where a value comes from. -/
inductive Dialect where
  | text | engine
  deriving DecidableEq

/-- The greatest integer up to which every integer is a double. -/
def maxSafeInteger : Nat := Nat.pow 2 53 - 1

def natural? (dialect : Dialect) (bound : Nat) (value : Json) : Option Nat :=
  match dialect with
  | .text =>
      match value with
      | .integer (.ofNat number) => if number < bound then some number else none
      | _ => none
  | .engine =>
      match value.toDouble? with
      | some number =>
          if number.isIntegral && 0 ≤ number.truncate && number.truncate ≤ maxSafeInteger
              && number.truncate.toNat < bound then
            some number.truncate.toNat
          else none
      | none => none

def word? (dialect : Dialect) (value : Json) : Option UInt32 :=
  (value.natural? dialect UInt32.size).map UInt32.ofNat

def port? (dialect : Dialect) (value : Json) : Option UInt16 :=
  (value.natural? dialect UInt16.size).map UInt16.ofNat

def size? (dialect : Dialect) (value : Json) : Option UInt64 :=
  (value.natural? dialect UInt64.size).map UInt64.ofNat

def string? : Json → Option String
  | .string text => some text
  | _ => none

def bool? : Json → Option Bool
  | .bool value => some value
  | _ => none

def list? {α : Type} (element : Json → Option α) : Json → Option (List α)
  | .array elements => elements.mapM element
  | _ => none

/-- The name of a choice: a string, or an object whose only key is the name and
whose value is null. -/
def choiceName? : Json → Option String
  | .string name => some name
  | .object [(name, .null)] => some name
  | _ => none

def choice? {α : Type} (choices : List α) (name : α → String) (value : Json) : Option α := do
  let written ← value.choiceName?
  choices.find? fun choice => name choice == written

/-- The values of a record's fields in the order of `keys`. Other members of an
object are ignored. -/
def record? (dialect : Dialect) (keys : List String) : Json → Option (List Json)
  | .object members => keys.mapM fun key => members.lookup key
  | .array elements =>
      if dialect = .text ∧ elements.length = keys.length then some elements else none
  | _ => none

def tuple? (dialect : Dialect) (length : Nat) : Json → Option (List Json)
  | .array elements =>
      match dialect with
      | .text => if elements.length = length then some elements else none
      | .engine => if length ≤ elements.length then some (elements.take length) else none
  | _ => none

/-- The name of a choice in lower case. -/
def lowerCase (label : String) : String :=
  String.ofList (label.toList.map Char.toLower)

def primitiveType? (value : Json) : Option PrimitiveType :=
  value.choice? PrimitiveType.all fun type => lowerCase type.label

def hookKind? (value : Json) : Option HookKind :=
  value.choice? HookKind.all fun kind => lowerCase kind.label

def threadState? (value : Json) : Option ThreadState :=
  value.choice? ThreadState.all fun state => lowerCase state.label

def memorySpace? (value : Json) : Option MemorySpace :=
  value.choice? MemorySpace.all MemorySpace.name

def field? (dialect : Dialect) (value : Json) : Option FieldDescriptor := do
  match ← value.record? dialect ["name", "type"] with
  | [name, type] => return ⟨← name.string?, ← type.primitiveType?⟩
  | _ => none

def fields? (dialect : Dialect) (value : Json) : Option (List FieldDescriptor) :=
  value.list? (field? dialect)

/-- A property to bind: an address, a name and a type. -/
def property? (dialect : Dialect) (value : Json) : Option (UInt32 × String × PrimitiveType) := do
  match ← value.tuple? dialect 3 with
  | [address, name, type] =>
      return (← address.word? dialect, ← name.string?, ← type.primitiveType?)
  | _ => none

def propertyList? (dialect : Dialect) (value : Json) :
    Option (List (UInt32 × String × PrimitiveType)) :=
  value.list? (property? dialect)

def configKeys : List String :=
  ["socket_buffer_size", "connect_host", "connect_port", "hex_digits",
    "report_errors_to_console"]

def config? (dialect : Dialect) (value : Json) : Option SessionConfig := do
  match ← value.record? dialect configKeys with
  | [bufferSize, host, port, digits, report] =>
      return {
        socketBufferSize := ← bufferSize.size? dialect
        connectHost := ← host.string?
        connectPort := ← port.port? dialect
        hexDigits := ← digits.size? dialect
        reportErrorsToConsole := ← report.bool? }
  | _ => none

def ofPrimitiveType (type : PrimitiveType) : Json :=
  .string (lowerCase type.label)

def ofHookKind (kind : HookKind) : Json :=
  .string (lowerCase kind.label)

def ofThreadState (state : ThreadState) : Json :=
  .string (lowerCase state.label)

def ofMemorySpace (space : MemorySpace) : Json :=
  .string space.name

def ofField (field : FieldDescriptor) : Json :=
  .object [("name", .string field.name), ("type", ofPrimitiveType field.type)]

def ofFields (fields : List FieldDescriptor) : Json :=
  .array (fields.map ofField)

def ofProperty (entry : UInt32 × String × PrimitiveType) : Json :=
  .array [.integer entry.1.toNat, .string entry.2.1, ofPrimitiveType entry.2.2]

def ofPropertyList (list : List (UInt32 × String × PrimitiveType)) : Json :=
  .array (list.map ofProperty)

def ofConfig (config : SessionConfig) : Json :=
  .object [
    ("socket_buffer_size", .integer config.socketBufferSize.toNat),
    ("connect_host", .string config.connectHost),
    ("connect_port", .integer config.connectPort.toNat),
    ("hex_digits", .integer config.hexDigits.toNat),
    ("report_errors_to_console", .bool config.reportErrorsToConsole)]

end EmuScript.Json
