import EmuScript.Memory.Layout

/-!
# Bound objects

A bound object gives names to places in main memory. Reading or writing a
property is one memory access at its place. A change that would bind a name
twice fails, before it has bound anything.
-/

set_option autoImplicit false

namespace EmuScript

variable {κ : Type}

/-- A typed place in main memory. -/
structure VarBinding where
  address : UInt32
  type : PrimitiveType
  deriving DecidableEq

structure BoundObject where
  /-- The properties in the order in which they were bound. -/
  properties : List (String × VarBinding) := []
  deriving DecidableEq

namespace BoundObject

def binding? (object : BoundObject) (name : String) : Option VarBinding :=
  object.properties.lookup name

def contains (object : BoundObject) (name : String) : Bool :=
  (object.binding? name).isSome

def names (object : BoundObject) : List String :=
  object.properties.map (·.1)

/-- Adds properties at the end without looking at their names. -/
def extend (object : BoundObject) (properties : List (String × VarBinding)) : BoundObject :=
  ⟨object.properties ++ properties⟩

/-- A computation on an object. It calls nothing, and the object keeps what was done to it
before an error. -/
abbrev Change (α : Type) : Type :=
  ExceptT ScriptError (StateM BoundObject) α

/-- The result and the object after it, whether or not the change succeeds. -/
def Change.on {α : Type} (change : Change α) (object : BoundObject) :
    Except ScriptError α × BoundObject :=
  StateT.run (ExceptT.run change) object

/-- Adds a property at the end without looking at its name. -/
def define (name : String) (binding : VarBinding) : Change Unit :=
  modify fun object => object.extend [(name, binding)]

def defineAll (properties : List (String × VarBinding)) : Change Unit :=
  properties.forM fun (name, binding) => define name binding

def bindVar (address : UInt32) (name : String) (type : PrimitiveType) : Change Unit := do
  let object ← get
  if object.contains name then throw (.propertyRedefined name)
  define name ⟨address, type⟩

/-- The first name of the list that is bound already or repeats an earlier one;
`seen` holds the names before the list. -/
def firstClash? (object : BoundObject) (seen : List String) : List String → Option String
  | [] => none
  | name :: rest =>
      if name ∈ seen || object.contains name then some name
      else firstClash? object (name :: seen) rest

/-- Binds all properties of a list, or none of them. -/
def bindVars (list : List (UInt32 × String × PrimitiveType)) : Change Unit := do
  let object ← get
  match object.firstClash? [] (list.map fun (_, name, _) => name) with
  | some name => throw (.propertyRedefined name)
  | none => defineAll (list.map fun (address, name, type) => (name, ⟨address, type⟩))

/-- The fields of a structure at `base` as properties. -/
def placeFields (base : UInt32) (layout : StructLayout) : List (String × VarBinding) :=
  layout.fields.map fun field =>
    (field.descriptor.name, ⟨base + field.offset, field.descriptor.type⟩)

/-- Binds every field of a structure at `base` without looking at the names. -/
def bindLayout (base : UInt32) (layout : StructLayout) : Change Unit :=
  defineAll (placeFields base layout)

/-- Binds every field of a structure at `base`, or none of them. -/
def bindStruct (base : UInt32) (layout : StructLayout) : Change Unit := do
  let object ← get
  match layout.fields.find? fun field => object.contains field.descriptor.name with
  | some field => throw (.propertyRedefined field.descriptor.name)
  | none => bindLayout base layout

def get (object : BoundObject) (name : String) : Action κ Value := do
  let binding ← Action.getOrThrow (object.binding? name) (.unknownField name)
  readValue .main binding.address binding.type

def getAs (object : BoundObject) (type : PrimitiveType) (name : String) :
    Action κ type.Scalar := do
  return type.narrow (← object.get name)

def set (object : BoundObject) (name : String) (value : Value) : Action κ Unit := do
  let binding ← Action.getOrThrow (object.binding? name) (.unknownField name)
  writeValue .main binding.address binding.type value

end BoundObject

/-- A structure type that can be placed anywhere in main memory. -/
structure StructType where
  layout : StructLayout
  deriving DecidableEq

namespace StructType

def ofFields (fields : List FieldDescriptor) : Except ScriptError StructType := do
  return ⟨← StructLayout.ofFields fields⟩

def size (type : StructType) : UInt32 :=
  type.layout.size

/-- A new object at `base`. -/
def place (type : StructType) (base : UInt32) : BoundObject :=
  ((BoundObject.bindLayout base type.layout).on {}).2

/-- A new object at element `index` of an array at `base`. -/
def element (type : StructType) (base index : UInt32) : BoundObject :=
  type.place (base + index * type.size)

end StructType

end EmuScript
