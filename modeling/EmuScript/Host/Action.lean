import EmuScript.Host.Call
import EmuScript.Program

/-!
# Actions

Programs over an emulator. Besides calls, they tell two kinds of notices: log
records, and signals by which the library runs a handler of the script. An
action is a program that can end in a script error. An update does so while it
works on an object, which keeps what was done to it before the error.
-/

set_option autoImplicit false

namespace EmuScript

inductive LogLevel where
  | error | warn | debug
  deriving DecidableEq

structure LogRecord where
  level : LogLevel
  text : String
  deriving DecidableEq

/-- A handler of the script is run, with its arguments. -/
inductive Signal (κ : Type) where
  | hook (callback : κ) (address : UInt32)
  | connected (handler : κ)
  | received (handler : κ) (data : Bytes)
  | closed (handler : κ)
  | written (handler : κ)
  | accepted (handler : κ) (client : Socket κ)

inductive Notice (κ : Type) where
  | log (record : LogRecord)
  | signal (signal : Signal κ)

abbrev HostProgram (κ α : Type) : Type :=
  Program (HostCall κ) HostCall.Reply (Notice κ) α

/-- A program over an emulator that can end in a script error. -/
abbrev Action (κ α : Type) : Type :=
  ExceptT ScriptError (HostProgram κ) α

namespace HostProgram

variable {κ : Type}

def log (level : LogLevel) (text : String) : HostProgram κ Unit :=
  Program.notify (.log ⟨level, text⟩)

def emit (signal : Signal κ) : HostProgram κ Unit :=
  Program.notify (.signal signal)

/-- Asks the emulator; its failure becomes a script error. -/
def request (call : HostCall κ) : HostProgram κ (Except ScriptError call.Answer) := do
  let reply ← Program.call call
  return reply.mapError .host

end HostProgram

namespace Action

variable {κ α : Type}

def ask (call : HostCall κ) : Action κ call.Answer :=
  ExceptT.mk (HostProgram.request call)

def log (level : LogLevel) (text : String) : Action κ Unit :=
  ExceptT.lift (HostProgram.log level text)

def emit (signal : Signal κ) : Action κ Unit :=
  ExceptT.lift (HostProgram.emit signal)

def getOrThrow (value : Option α) (error : ScriptError) : Action κ α :=
  match value with
  | some value => pure value
  | none => throw error

end Action

/-- An action on an object of type `σ`. -/
abbrev Update (κ σ α : Type) : Type :=
  ExceptT ScriptError (StateT σ (HostProgram κ)) α

namespace Update

variable {κ σ α : Type}

/-- An action that leaves the object alone. -/
def ofAction (action : Action κ α) : Update κ σ α :=
  ExceptT.mk (StateT.lift action.run)

def ask (call : HostCall κ) : Update κ σ call.Answer :=
  ofAction (Action.ask call)

def log (level : LogLevel) (text : String) : Update κ σ Unit :=
  ofAction (Action.log level text)

def emitTo (handler : Option κ) (signal : κ → Signal κ) : Update κ σ Unit :=
  match handler with
  | none => pure ()
  | some handler => ofAction (Action.emit (signal handler))

def getOrThrow (value : Option α) (error : ScriptError) : Update κ σ α :=
  ofAction (Action.getOrThrow value error)

/-- The result and the object after it, whether or not the update succeeds. -/
def on (update : Update κ σ α) (object : σ) : HostProgram κ (Except ScriptError α × σ) :=
  StateT.run (ExceptT.run update) object

end Update

end EmuScript
