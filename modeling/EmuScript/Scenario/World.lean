import EmuScript.Emulator.Basic
import EmuScript.Scenario.Reader
import EmuScript.Scenario.Trace
import EmuScript.Session.Basic
import EmuScript.Table

/-!
# The world of a scenario

A scenario runs a session over the model emulator, which writes a trace of what
happens. Handlers of the script are labels: a handler that runs leaves its label
in the trace. A new thread runs its procedure at once.
-/

set_option autoImplicit false

namespace EmuScript.Scenario

/-- The emulator with what has happened in the current step, newest first. -/
structure Host where
  emulator : Emulator String := {}
  logging : Bool := false
  trace : List Json := []
  clients : List (Socket String) := []

def Host.record (host : Host) (event : Json) : Host :=
  { host with trace := event :: host.trace }

def Host.answer (call : HostCall String) (host : Host) : HostCall.Reply call × Host :=
  let host := host.record (ofCall call)
  let (reply, emulator) := host.emulator.serve call
  let host := { host with emulator }
  match call, reply with
  | .thread (.create label), .ok handle =>
      (.ok handle, host.record (entry "@thread" [.string label]))
  | _, reply => (reply, host)

def Host.note : Notice String → Host → Host
  | .log record, host => if host.logging then host.record (ofRecord record) else host
  | .signal signal, host =>
      let host := host.record (ofSignal signal)
      match signal with
      | .accepted _ client => { host with clients := host.clients ++ [client] }
      | _ => host

/-- The model emulator, writing a trace. -/
def environment : Program.Environment (HostCall String) HostCall.Reply (Notice String) Host :=
  ⟨Host.answer, Host.note⟩

/-- The emulator, the session and everything that the steps have named. -/
structure World where
  host : Host := {}
  session : Session String := {}
  objects : Table String BoundObject := []
  structs : Table String StructType := []
  threads : Table String (Thread String) := []
  sockets : Table String (Socket String) := []
  servers : Table String (Server String) := []
  registries : Table String (HookRegistry String) := []
  slots : Table String String := []

/-- Steps work on a world and fail when the scenario is malformed. -/
abbrev Run := StateT World Decoder

/-- What a step gives: the JSON form of its result, or the error of the script. -/
abbrev Answer := Except ScriptError Json

def perform {α : Type} (program : HostProgram String α) : Run α := do
  let world ← get
  let (value, host) := program.run environment world.host
  set { world with host }
  return value

def act {α : Type} (encode : α → Json) (action : Action String α) : Run Answer := do
  return (← perform action.run).map encode

def quiet (action : Action String Unit) : Run Answer :=
  act (fun _ => .null) action

def done (value : Json) : Run Answer :=
  return .ok value

def finished : Run Answer :=
  done .null

def modifyEmulator (change : Emulator String → Emulator String) : Run Unit :=
  modify fun world => { world with host.emulator := change world.host.emulator }

/-- The value that the scenario has stored under a name. -/
def named {α : Type} (table : Table String α) (name : String) : Run α :=
  orFail ("nothing named " ++ name) (table.find? name)

end EmuScript.Scenario
