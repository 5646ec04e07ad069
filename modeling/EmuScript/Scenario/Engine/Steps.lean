import EmuScript.Scenario.Control
import EmuScript.Scenario.Engine.World

/-!
# Steps of an engine scenario

Steps that need no move of the machine are carried out here, and the others are
read as methods. A method whose arguments are refused before it asks for the
session gives the error instead.
-/

set_option autoImplicit false

namespace EmuScript.Scenario

open EmuScript.Engine Numeric

abbrev MethodReading : Type :=
  Except ScriptError (Method Callback)

def service (request : Service) : Decoder (Option MethodReading) :=
  return some (.ok (.service request))

def method (method : Method Callback) : Decoder (Option MethodReading) :=
  return some (.ok method)

/-- A service that names a type by its tag. -/
def typedService (step : Json) (request : PrimitiveType → Service) :
    Decoder (Option MethodReading) := do
  let type := PrimitiveType.ofTag (← field "type" asString step)
  return some (type.map fun type => .service (request type))

/-- The service that a step asks for, if its name is one of a service. -/
def readService (step : Json) (what : String) : Decoder (Option MethodReading) := do
  let index := field "index" asWord step
  let name := field "name" asString step
  let word := field "value" asWord step
  let single := field "value" asSingle step
  let double := field "value" asDouble step
  let address := field "address" asWord step
  let size := field "size" asSize step
  let text := field "text" asString step
  match what with
  | "gpr_get" => service (.readGeneral (← index))
  | "gpr_set" => service (.writeGeneral (← index) (← word))
  | "gpr_get_named" => service (.readGeneralNamed (← name))
  | "gpr_set_named" => service (.writeGeneralNamed (← name) (← word))
  | "fpr_get" => service (.readFloat (← index))
  | "fpr_set" => service (.writeFloat (← index) (← single))
  | "fpr_get_named" => service (.readFloatNamed (← name))
  | "fpr_set_named" => service (.writeFloatNamed (← name) (← single))
  | "mem_read" =>
      let address ← address
      typedService step fun type => .readMemory type address
  | "mem_write" =>
      let address ← address
      let value ← double
      typedService step fun type => .writeMemory type address value
  | "mem_getblock" => service (.getBlock (← address) (← size))
  | "mem_setblock" => service (.setBlock (← address) (← field "bytes" asBytes step))
  | "mem_getstring" => service (.getString (← address))
  | "mem_setstring" => service (.setString (← address) (← text))
  | "rom_read" =>
      let address ← address
      typedService step fun type => .readRom type address
  | "rom_write_float" =>
      service (.writeRom (← address) (← double) (← field "double" asBool step))
  | "rom_getblock" => service (.getRomBlock (← address) (← size))
  | "rom_getstring" => service (.getRomString (← address))
  | "print" => service (.print (← text))
  | "log" => service (.printLine (← text))
  | "clear" => service .clearConsole
  | "alert" => service (.alert (← text) (← optional "caption" asString step))
  | "pause" => service .pause
  | "resume" => service .resume
  | "reset" => service .reset
  | "hardreset" => service .hardReset
  | "savestate" => service .saveState
  | "loadstate" => service .loadState
  | "saveslot" => service .saveSlot
  | "set_saveslot" => service (.setSaveSlot (← field "slot" asWord step))
  | "generatebitmap" => service .generateBitmap
  | "showmemory" => service (.showMemory (← address))
  | "showcommands" => service (.showCommands (← address))
  | "breakhere" => service .breakHere
  | "sleep" => service (.sleep (← field "ms" asWord step))
  | _ => return none

/-- The method other than a service that a step calls, if its name is one. -/
def readMethod (step : Json) (what : String) : Decoder (Option MethodReading) := do
  let fd := field "fd" asWord step
  let key := field "key" asWord step
  let tag := field "tag" asWord step
  let callback := field "callback" asCallback step
  match what with
  | "on" =>
      let name ← field "kind" asString step
      match HookKind.ofName? name with
      | some kind => method (.on kind (← tag) (← callback))
      | none => return some (.error (.unknownHookKind name))
  | "onexec" => method (.on .exec (← tag) (← callback))
  | "onread" => method (.on .read (← tag) (← callback))
  | "onwrite" => method (.on .write (← tag) (← callback))
  | "off" => method (.off ⟨← field "id" asWord step⟩)
  | "clear_hooks" => method .clearHooks
  | "socket" => method .createSocket
  | "socket_connect" =>
      method (.connect (← fd) (← optional "host" asString step) (← optional "port" asPort step)
        (← optional "callback" asCallback step))
  | "socket_on_data" => method (.onData (← fd) (← callback))
  | "socket_on_close" => method (.onClose (← fd) (← callback))
  | "socket_write" =>
      method (.write (← fd) (← field "data" asBytes step)
        (← optional "callback" asCallback step))
  | "socket_close" => method (.close (← fd))
  | "server" => method (.createServer (← optional "port" asPort step))
  | "server_listen" => method (.listen (← fd) (← field "port" asPort step))
  | "server_on_connection" => method (.onConnection (← fd) (← callback))
  | "spawn" => method (.spawn (← callback))
  | "thread_state" => method (.threadState (← key))
  | "thread_suspend" => method (.suspendThread (← key))
  | "thread_resume" => method (.resumeThread (← key))
  | "thread_stop" => method (.stopThread (← key))
  | _ => return none

/-- The object that a step names; a new one is empty. -/
def engineObject (step : Json) : EngineRun (String × BoundObject) := do
  let name ← field "obj" asString step
  match (← get).objects.find? name with
  | some object => return (name, object)
  | none =>
      modify fun world => { world with objects := world.objects.insert name {} }
      return (name, {})

def engineStruct (step : Json) : EngineRun StructType := do
  orFail "unknown structure" ((← get).structs.find? (← field "struct" asString step))

/-- The method on a property that a step calls, if its name is one. -/
def readProperty (step : Json) (what : String) : EngineRun (Option MethodReading) := do
  let name := field "name" asString step
  let value := field "value" asDouble step
  let element : EngineRun BoundObject := do
    return (← engineStruct step).element (← field "base" asWord step)
      (← field "index" asWord step)
  match what with
  | "bound_get" =>
      let (_, object) ← engineObject step
      service (.readBound object (← name))
  | "bound_set" =>
      let (_, object) ← engineObject step
      return some (Method.writeBound object (← name) (← value))
  | "struct_get" => service (.readBound (← element) (← name))
  | "struct_set" => return some (Method.writeBound (← element) (← name) (← value))
  | _ => return none

def storeBound (name : String) (object : BoundObject) : EngineRun Unit :=
  modify fun world => { world with objects := world.objects.insert name object }

/-- Makes a change to an object and stores the object after it. -/
def changeBound (target : String × BoundObject) (change : BoundObject.Change Unit) :
    EngineRun EngineAnswer := do
  let (name, object) := target
  let (result, object) := change.on object
  storeBound name object
  match result with
  | .ok () => return .value .null
  | .error error => return .error error.message

/-- Steps on objects, structures and texts, which never ask for the session. -/
def freeStep (step : Json) (what : String) : EngineRun (Option EngineAnswer) := do
  match what with
  | "bindvar" =>
      let target ← engineObject step
      let address ← field "address" asWord step
      let name ← field "name" asString step
      match PrimitiveType.ofTag (← field "type" asString step) with
      | .error error => return some (.error error.message)
      | .ok type => return some (← changeBound target (BoundObject.bindVar address name type))
  | "bindvars" =>
      let target ← engineObject step
      match (← member "list" step).propertyList? .engine with
      | none => return some .malformed
      | some list => return some (← changeBound target (BoundObject.bindVars list))
  | "bindstruct" =>
      let target ← engineObject step
      let base ← field "base" asWord step
      match (← member "fields" step).fields? .engine with
      | none => return some .malformed
      | some fields =>
          match StructLayout.ofFields fields with
          | .error error => return some (.error error.message)
          | .ok layout => return some (← changeBound target (BoundObject.bindStruct base layout))
  | "names" =>
      let (_, object) ← engineObject step
      return some (.value (.array (object.names.map .string)))
  | "contains" =>
      let (_, object) ← engineObject step
      return some (.value (.bool (object.contains (← field "name" asString step))))
  | "typedef" =>
      let name ← field "struct" asString step
      match (← member "fields" step).fields? .engine with
      | none => return some .malformed
      | some fields =>
          match StructType.ofFields fields with
          | .error error => return some (.error error.message)
          | .ok type =>
              modify fun world => { world with structs := world.structs.insert name type }
              return some (.value (ofWord type.size))
  | "sizeof" => return some (.value (ofWord (← engineStruct step).size))
  | "offset_of" =>
      let type ← engineStruct step
      return some (.value (ofOption ofWord (type.layout.offsetOf? (← field "name" asString step))))
  | "at" =>
      let object := (← engineStruct step).place (← field "base" asWord step)
      storeBound (← field "obj" asString step) object
      return some (.value (.array (object.names.map .string)))
  | "hex" =>
      let digits := (← optional "digits" asSize step).getD (← get).hexDigits
      return some (.value (.string (Text.hex (← field "value" asWord step) digits.toNat)))
  | _ => return none

/-- Queues steps, answers and failures for native calls, and shows the state of
the native table. -/
def nativeControl (step : Json) (what : String) : EngineRun (Option EngineAnswer) := do
  let call := field "call" asString step
  let changed (change : EngineWorld → EngineWorld) : EngineRun (Option EngineAnswer) := do
    modify change
    return some (.value .null)
  match what with
  | "host.fail" =>
      let failure ← asFailure step
      let thrown ← optional "throw" asThrown step
      changed fun world =>
        let throws := world.native.throws.erase failure.primitive
        { world with
          native.emulator := world.native.emulator.injectFailure failure
          native.throws := (thrown.map (throws.insert failure.primitive)).getD throws }
  | "host.queue_numbers" =>
      let values ← field "values" (asList asDouble) step
      changed fun world =>
        { world with native.queuedNumbers := world.native.queuedNumbers ++ values }
  | "host.queue_handles" =>
      let values ← field "values" (asList asDouble) step
      changed fun world =>
        { world with native.queuedHandles := world.native.queuedHandles ++ values }
  | "host.sync" =>
      let queued := (← call, ← member "arg" step)
      changed fun world => { world with completions := world.completions ++ [queued] }
  | "host.reenter" =>
      let queued := (← call, ← field "steps" (asList pure) step)
      changed fun world => { world with detours := world.detours ++ [queued] }
  | "host.pending" =>
      return some (.value (.array ((← get).native.pending.map fun request =>
        .array [.string request.primitive, ofWord request.fd.value])))
  | _ =>
      if what.startsWith "host." then
        match ← control step (← get).native.emulator with
        | some (value, emulator) =>
            modify fun world => { world with native.emulator := emulator }
            return some (.value value)
        | none => return none
      else return none

/-- What the name of a step says after the name of its group. -/
def nameInGroup? (what : String) : Option String :=
  match what.splitOn "." with
  | [_, name] => some name
  | _ => none

/-- A memory call that a step makes through an adapter of its own, outside any
session, and the JSON form of its answer. -/
def readAdapterCall (step : Json) (what : String) :
    Decoder (Option (NativeProgram Callback (Except HostError Json))) := do
  let serve (call : MemoryCall) (encode : call.Answer → Json) :
      Option (NativeProgram Callback (Except HostError Json)) :=
    some do
      let (result, _) ← Adapter.serveMemory call {}
      return result.map encode
  let space := field "space" asSpace step
  let address := field "address" asWord step
  let bits := field "bits" asWord step
  match nameInGroup? what with
  | some "read_int" =>
      return serve (.readInt (← space) (← address) (← bits) (← field "signed" asBool step))
        fun value => .integer value.toInt
  | some "write_int" =>
      return serve (.writeInt (← space) (← address) (← bits) (← field "value" asInt64 step))
        fun _ => .null
  | some "write_block" =>
      return serve (.writeBlock (← space) (← address) (← field "bytes" asBytes step))
        fun _ => .null
  | some "write_string" =>
      return serve (.writeString (← space) (← address) (← field "text" asString step))
        fun _ => .null
  | _ => return none

def ofHostError (error : HostError) : Json :=
  .object [("call", .string error.call), ("failed", .string error.message),
    ("display", .string error.text)]

end EmuScript.Scenario
