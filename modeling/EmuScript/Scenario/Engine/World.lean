import EmuScript.Emulator.NativeTable
import EmuScript.Engine.Machine
import EmuScript.Scenario.Report
import EmuScript.Scenario.Reader
import EmuScript.Scenario.Trace

/-!
# The world of an engine scenario

A scenario for a script engine has the session as a machine and the model
emulator as a native table. A function of the script is a label with steps that
it takes each time it is called, and a value that it may throw. Steps can also
be set up for a native function to take before it does its work, and answers for
requests to be completed within the call that makes them.
-/

set_option autoImplicit false

namespace EmuScript.Scenario

open EmuScript.Engine Numeric

structure Callback where
  label : String
  steps : List Json
  thrown : Option Thrown

structure EngineWorld where
  machine : Machine Callback
  native : NativeTable Callback := {}
  objects : Table String BoundObject := []
  structs : Table String StructType := []
  /-- Answers with which calls of a primitive complete at once, oldest first. -/
  completions : List (String × Json) := []
  /-- Steps that calls of a primitive take first, oldest first. -/
  detours : List (String × List Json) := []
  hexDigits : UInt64
  logging : Bool
  /-- What has happened in the current step, newest first. -/
  trace : List Json := []

abbrev EngineRun : Type → Type :=
  StateT EngineWorld Decoder

/-- What a step gives: the JSON form of its result, the message of an error, or
nothing when a value of the script had the wrong shape. -/
inductive EngineAnswer where
  | value (result : Json)
  | error (message : String)
  | malformed

def EngineAnswer.members : EngineAnswer → List (String × Json)
  | value result => [("ok", result)]
  | error message => [("error", .string "Error"), ("message", .string message)]
  | malformed => [("error", .string "Deserialize")]

def EngineAnswer.report (answer : EngineAnswer) (trace : List Json) : Json :=
  .object (answer.members ++ [("trace", .array trace.reverse)])

def record (event : Json) : EngineRun Unit :=
  modify fun world => { world with trace := event :: world.trace }

/-- Writes the observed log records and console lines into the trace. -/
def recordEvents : List (Event Callback) → EngineRun Unit
  | [] => pure ()
  | .log entry :: rest => do
      if (← get).logging then record (ofRecord entry)
      recordEvents rest
  | .consoleLog text :: rest => do
      record (entry "console.log" [.string text])
      recordEvents rest
  | _ :: rest => recordEvents rest

/-- The result of the method that has returned, if one has. -/
def returnedBy : List (Event Callback) → Outcome
  | [] => none
  | .returned result :: _ => some result
  | _ :: rest => returnedBy rest

/-- Takes the first value that is queued under a name. -/
def takeQueued {α : Type} (name : String) :
    List (String × α) → Option (α × List (String × α))
  | [] => none
  | (other, value) :: rest =>
      if other = name then some (value, rest)
      else (takeQueued name rest).map fun (found, rest) => (found, (other, value) :: rest)

def asThrown : Json → Decoder Thrown
  | .object [("error", message)] => return .error (← asString message)
  | .object [("value", .null)] => return .null
  | .object [("value", .bool value)] => return .bool value
  | .object [("value", .string value)] => return .text value
  | .object [("value", number)] => return .number (← orFail "value expected" number.toDouble?)
  | .object [] => return .undefined
  | _ => .error "thrown value expected"

def asCallback (json : Json) : Decoder Callback := do
  return {
    label := ← field "label" asString json
    steps := (← optional "steps" (asList pure) json).getD []
    thrown := ← optional "throw" asThrown json }

def asReceived : Json → Decoder (Option Bytes)
  | .null => return none
  | .object [("text", text)] => return some (Text.toUtf8 (← asString text))
  | .object [("list", list)] => do
      return some ((← asList asInt list).map UInt8.ofInt)
  | .object [] => return none
  | bytes => return some (← asBytes bytes)

/-- What a completion brings to a request. -/
def asPayload (json : Json) : (request : Request) → Decoder request.Payload
  | .connect _ => return ()
  | .write _ => return ()
  | .accept _ => return ⟨← asWord json⟩
  | .read _ => asReceived json

def ofArgument : Argument → Json
  | .word value => ofWord value
  | .bytes data => ofBytes data

def nativeMemoryArguments : NativeMemoryCall → List Json
  | .readNumber _ address bits signed => [ofWord address, ofWord bits, .bool signed]
  | .writeNumber address bits value => [ofWord address, ofWord bits, ofBinary value]
  | .readFloat _ address double => [ofWord address, .bool double]
  | .writeFloat _ address value double => [ofWord address, ofBinary value, .bool double]
  | .readBlock _ address size => [ofWord address, ofWord size]
  | .writeBlock address data => [ofWord address, ofBytes data]
  | .readString _ address => [ofWord address]
  | .writeString address text => [ofWord address, .string text]

def nativeSocketArguments : NativeSocketCall → List Json
  | .create => []
  | .connect fd host port _ => [ofWord fd.value, .string host, ofNat port.toNat]
  | .listen fd port => [ofWord fd.value, ofNat port.toNat]
  | .accept fd _ => [ofWord fd.value]
  | .read fd size _ => [ofWord fd.value, ofWord size]
  | .write fd data _ => [ofWord fd.value, ofBytes data]
  | .close fd => [ofWord fd.value]

def nativeThreadArguments : NativeThreadCall Callback → List Json
  | .create _ => []
  | .suspend handle | .resume handle | .terminate handle => [ofBinary handle]
  | .sleep milliseconds => [ofWord milliseconds]

def ofNativeCall (call : NativeCall Callback) : Json :=
  entry call.primitive <|
    match call with
    | .register call => registerArguments call
    | .memory call => nativeMemoryArguments call
    | .hook call => hookArguments call
    | .console call => consoleArguments call
    | .system call => systemArguments call
    | .socket call => nativeSocketArguments call
    | .thread call => nativeThreadArguments call

def ofMethodAnswer : Answer → Json
  | .nothing => .null
  | .word value => ofWord value
  | .single value => ofBinary value
  | .double value => ofBinary value
  | .bytes data => ofBytes data
  | .text value => .string value
  | .handle value => ofHandle value

def ofOutcome : Outcome → EngineAnswer
  | some (.ok answer) => .value (ofMethodAnswer answer)
  | some (.error failure) => .error failure.message
  | none => .value .null

end EmuScript.Scenario
