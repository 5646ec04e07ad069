import EmuScript.Memory.Binding
import EmuScript.Register.Access
import EmuScript.Scenario.World

/-!
# Steps on registers, memory and bound objects
-/

set_option autoImplicit false

namespace EmuScript.Scenario

def storeObject (name : String) (object : BoundObject) : Run Unit :=
  modify fun world => { world with objects := world.objects.insert name object }

def theObject (key : String) (step : Json) : Run (String × BoundObject) := do
  let name ← field key asString step
  match (← get).objects.find? name with
  | some object => return (name, object)
  | none =>
      storeObject name {}
      return (name, {})

/-- Makes a change to the object that a step names and stores the object after it. A step
that names an unknown type changes nothing. -/
def bindInto (step : Json) (change : Decoder (Except ScriptError (BoundObject.Change Unit))) :
    Run Answer := do
  let (name, object) ← theObject "obj" step
  match ← change with
  | .error error => return .error error
  | .ok change =>
      let (result, object) := change.on object
      storeObject name object
      return result.map fun _ => ofObject object

def registerStep (step : Json) (what : String) : Run Answer := do
  let index := field "index" asWord step
  let name := field "name" asString step
  let word := field "value" asWord step
  let single := field "value" asSingle step
  match what with
  | "gpr.get" => act ofWord (Register.readGeneral (← index))
  | "gpr.set" => quiet (Register.writeGeneral (← index) (← word))
  | "gpr.get_named" => act ofWord (Register.readGeneralNamed (← name))
  | "gpr.set_named" => quiet (Register.writeGeneralNamed (← name) (← word))
  | "gpr.pc" => act ofWord Register.readProgramCounter
  | "gpr.set_pc" => quiet (Register.writeProgramCounter (← word))
  | "fpr.get" => act ofBinary (Register.readFloat (← index))
  | "fpr.set" => quiet (Register.writeFloat (← index) (← single))
  | "fpr.get_named" => act ofBinary (Register.readFloatNamed (← name))
  | "fpr.set_named" => quiet (Register.writeFloatNamed (← name) (← single))
  | other => throw ("unknown step " ++ other)

/-- A step that names a type by its tag. -/
def typed (step : Json) (next : PrimitiveType → Run Answer) : Run Answer := do
  match PrimitiveType.ofTag (← field "type" asString step) with
  | .ok type => next type
  | .error error => return .error error

def memoryStep (step : Json) (what : String) : Run Answer := do
  let address ← field "address" asWord step
  let scalar (type : PrimitiveType) := field "value" (asScalar type) step
  let value := field "value" asValue step
  let size := field "size" asSize step
  match what with
  | "mem.get" => typed step fun type => act (ofScalar type) (Memory.get type address)
  | "mem.set" => typed step fun type => do quiet (Memory.set type address (← scalar type))
  | "mem.read" => typed step fun type => act ofValue (Memory.read type address)
  | "mem.write" => typed step fun type => do quiet (Memory.write type address (← value))
  | "mem.read_value" =>
      let space ← field "space" asSpace step
      typed step fun type => act ofValue (readValue space address type)
  | "mem.write_value" =>
      let space ← field "space" asSpace step
      typed step fun type => do quiet (writeValue space address type (← value))
  | "mem.getblock" => act ofBytes (Memory.getBlock address (← size))
  | "mem.setblock" => quiet (Memory.setBlock address (← field "bytes" asBytes step))
  | "mem.getstring" => act .string (Memory.getString address)
  | "mem.setstring" => quiet (Memory.setString address (← field "text" asString step))
  | "rom.get" => typed step fun type => act (ofScalar type) (Rom.get type address)
  | "rom.read" => typed step fun type => act ofValue (Rom.read type address)
  | "rom.set" =>
      typed step fun type => do
        if isFloat : type.isFloat = true then
          quiet (Rom.set type isFloat address (← scalar type))
        else throw "floating point type expected"
  | "rom.getblock" => act ofBytes (Rom.getBlock address (← size))
  | "rom.getstring" => act .string (Rom.getString address)
  | other => throw ("unknown step " ++ other)

def objectStep (step : Json) (what : String) : Run Answer := do
  let name := field "name" asString step
  match what with
  | "obj.bindvar" =>
      bindInto step do
        let address ← field "address" asWord step
        let name ← name
        let tag ← field "type" asString step
        return do return BoundObject.bindVar address name (← PrimitiveType.ofTag tag)
  | "obj.bindvars" =>
      let list ← field "list" (asList (asTriple asWord asString asString)) step
      bindInto step do
        return do
          return BoundObject.bindVars (← list.mapM fun (address, name, tag) => do
            return (address, name, ← PrimitiveType.ofTag tag))
  | "obj.bindstruct" =>
      let base ← field "base" asWord step
      let fields ← field "fields" asFields step
      bindInto step do
        return do return BoundObject.bindStruct base (← StructLayout.ofTags fields)
  | "obj.get" =>
      let (_, object) ← theObject "obj" step
      act ofValue (object.get (← name))
  | "obj.get_as" =>
      let (_, object) ← theObject "obj" step
      let type ← field "type" asType step
      act (ofScalar type) (object.getAs type (← name))
  | "obj.set" =>
      let (_, object) ← theObject "obj" step
      quiet (object.set (← name) (← field "value" asValue step))
  | "obj.set_as" =>
      let (_, object) ← theObject "obj" step
      let type ← field "type" asType step
      quiet (object.set (← name) (type.widen (← field "value" (asScalar type) step)))
  | "obj.contains" =>
      let (_, object) ← theObject "obj" step
      done (.bool (object.contains (← name)))
  | "obj.show" =>
      let (_, object) ← theObject "obj" step
      done (ofObject object)
  | "obj.equal" =>
      let (_, object) ← theObject "obj" step
      let (_, other) ← theObject "other" step
      done (.bool (object = other))
  | "obj.copy" =>
      let (_, source) ← theObject "from" step
      storeObject (← field "obj" asString step) source
      finished
  | other => throw ("unknown step " ++ other)

def structStep (step : Json) (what : String) : Run Answer := do
  match what with
  | "type.def" =>
      let name ← field "struct" asString step
      let fields ← field "fields" asFields step
      let type : Except ScriptError StructType :=
        match step.member? "via" with
        | some (.string "layout") => return ⟨← StructLayout.ofTags fields⟩
        | _ => do
            StructType.ofFields (← fields.mapM fun (name, tag) => FieldDescriptor.ofTag name tag)
      match type with
      | .ok type =>
          modify fun world => { world with structs := world.structs.insert name type }
          done (.object [("sizeof", ofWord type.size), ("layout", .object (layoutMembers type.layout))])
      | .error error => return .error error
  | _ =>
      let type ← named (← get).structs (← field "struct" asString step)
      let base ← field "base" asWord step
      let object ←
        match what with
        | "type.at" => pure (type.place base)
        | "type.element" => pure (type.element base (← field "index" asWord step))
        | other => throw ("unknown step " ++ other)
      storeObject (← field "obj" asString step) object
      done (ofObject object)

end EmuScript.Scenario
