import EmuScript.Memory.Access

/-!
# Structure layouts

A layout places named fields one after another, without padding. Offsets are
words and wrap like addresses do.
-/

set_option autoImplicit false

namespace EmuScript

/-- A field as a script declares it. -/
structure FieldDescriptor where
  name : String
  type : PrimitiveType
  deriving DecidableEq

def FieldDescriptor.ofTag (name tag : String) : Except ScriptError FieldDescriptor := do
  return ⟨name, ← PrimitiveType.ofTag tag⟩

/-- A field at its offset from the start of the structure. -/
structure LayoutField where
  descriptor : FieldDescriptor
  offset : UInt32
  deriving DecidableEq

structure StructLayout where
  fields : List LayoutField
  size : UInt32
  deriving DecidableEq

namespace StructLayout

/-- Places fields from `offset` on; `seen` holds the names placed before. -/
def place (seen : List String) (offset : UInt32) :
    List FieldDescriptor → Except ScriptError StructLayout
  | [] => .ok ⟨[], offset⟩
  | descriptor :: rest =>
      if descriptor.name ∈ seen then .error (.duplicateField descriptor.name)
      else do
        let layout ← place (descriptor.name :: seen) (offset + descriptor.type.byteWidth) rest
        return ⟨⟨descriptor, offset⟩ :: layout.fields, layout.size⟩

/-- The layout of the fields in declaration order; names must differ. -/
def ofFields (fields : List FieldDescriptor) : Except ScriptError StructLayout :=
  place [] 0 fields

/-- The layout of fields given by name and type tag. All tags are read before
any field is placed. -/
def ofTags (fields : List (String × String)) : Except ScriptError StructLayout := do
  ofFields (← fields.mapM fun (name, tag) => FieldDescriptor.ofTag name tag)

def field? (layout : StructLayout) (name : String) : Option LayoutField :=
  layout.fields.find? fun field => field.descriptor.name == name

def offsetOf? (layout : StructLayout) (name : String) : Option UInt32 :=
  (layout.field? name).map (·.offset)

end StructLayout

end EmuScript
