import EmuScript.Engine.Method
import EmuScript.Text.Blank

/-!
# Sessions of a script engine

A session runs on one thread of a script engine, where calls nest: the script
calls a method, the method calls a native function, and the native function may
do anything before it returns, such as calling methods, completing requests, or
calling functions of the script. The machine makes every such call a frame. Its
environment is the script together with the emulator: it moves whenever it is
its turn, that is, at rest, while a native function runs, and while a function
of the script runs.

Only one call works on the bridge at a time. A method that finds it taken fails
as busy; a completion that finds it taken waits in the queue. When a call lets
go of the bridge, the queued completions are applied, and then the functions of
the script that became ready are called with the bridge free, until there is
nothing left to do.
-/

set_option autoImplicit false

namespace EmuScript.Engine

inductive Argument where
  | word (value : UInt32)
  | bytes (data : Bytes)
  deriving DecidableEq

structure Invocation (φ : Type) where
  callback : φ
  arguments : List Argument
  deriving DecidableEq

/-- A function of the script that a thread runs, and the session whose console
it reports to. -/
structure Procedure (φ : Type) where
  callback : φ
  owner : Nat
  deriving DecidableEq

/-- What an outermost operation gives back: the result of a method, and nothing
for a completion. -/
abbrev Outcome : Type :=
  Option (Except Failure Answer)

/-- What happens when a function of the script has ended. -/
inductive Resume (φ : Type) where
  /-- The rest of a batch is called, then completions are looked at again. -/
  | batch (rest : List (Invocation φ)) (outcome : Outcome)
  /-- The function was called by the emulator itself. -/
  | caller

/-- A call that has not returned. -/
inductive Frame (φ : Type) where
  /-- A method holds the bridge and waits for a native function. -/
  | method (call : NativeCall φ)
      (next : NativeCall.Reply call → NativeProgram φ (Except Failure Answer × Bridge φ))
  /-- A completion is being applied and waits for a native function. -/
  | settling (call : NativeCall φ) (next : NativeCall.Reply call → NativeProgram φ (Unit × Bridge φ))
      (outcome : Outcome)
  /-- A function of the script runs; its exception is reported to the session
  `owner`. -/
  | script (invocation : Invocation φ) (owner : Nat) (resume : Resume φ)
  /-- The exception of a function of the script is being printed. -/
  | reporting (owner : Nat) (line : String) (resume : Resume φ)

inductive Event (φ : Type) where
  | log (record : LogRecord)
  | consoleLog (text : String)
  /-- A completion function was called, and its completion has reached the session. -/
  | sent (ticket : Ticket) (completion : Completion)
  | applied (completion : Completion)
  | deferred (invocation : Invocation φ)
  /-- A new socket or server takes the place under its descriptor. -/
  | opened (endpoint : Endpoint)
  | started (invocation : Invocation φ)
  /-- A function of the script is called by the emulator itself. -/
  | entered (invocation : Invocation φ)
  /-- A native function of the session `owner` is called. -/
  | asked (owner : Nat) (call : NativeCall φ)
  | returned (result : Except Failure Answer)
  /-- A completion function, or a function that the emulator called, has
  returned. -/
  | ended

/-- How the beginning of a function of the script is observed. -/
def Resume.beginning {φ : Type} (invocation : Invocation φ) : Resume φ → Event φ
  | .batch _ _ => .started invocation
  | .caller => .entered invocation

inductive Move (φ : Type) where
  | call (method : Method φ)
  | complete (ticket : Ticket) (payload : ticket.request.Payload)
  /-- The emulator calls a function that it was given for a hook or a thread. -/
  | invoke (closure : Closure φ) (arguments : List Argument)
  | answer (reply : (call : NativeCall φ) → NativeCall.Reply call)
  /-- The function of the script called last returns, or throws a value. -/
  | finish (thrown : Option Thrown)

structure Machine (φ : Type) where
  /-- The number of the session among those of its engine thread. -/
  id : Nat := 0
  /-- The bridge, unless a call works on it. -/
  bridge : Option (Bridge φ)
  /-- Completions that were not applied, oldest first. -/
  queue : List Completion := []
  /-- Calls of functions of the script that wait for the bridge to be free. -/
  ready : List (Invocation φ) := []
  /-- Sockets of accepted clients that the bridge does not know yet. -/
  adopted : List (Socket (Closure φ)) := []
  procedures : Table UInt32 (Procedure φ) := []
  /-- Completion functions that were handed out and not called. -/
  tickets : List Ticket := []
  frames : List (Frame φ) := []

namespace Machine

variable {φ : Type}

abbrev Observed (φ : Type) : Type :=
  Machine φ × List (Event φ)

def start (id : Nat) (config : SessionConfig) : Machine φ :=
  { id, bridge := some { session := { config } } }

def Observed.after (events : List (Event φ)) (observed : Observed φ) : Observed φ :=
  (observed.1, events ++ observed.2)

def defer (closure : Closure φ) (arguments : List Argument) (machine : Machine φ) : Observed φ :=
  match closure with
  | .deferred callback =>
      let invocation : Invocation φ := ⟨callback, arguments⟩
      ({ machine with ready := machine.ready ++ [invocation] }, [.deferred invocation])
  | .immediate _ | .silent | .procedure _ => (machine, [])

def signal (machine : Machine φ) : Signal (Closure φ) → Observed φ
  | .connected handler | .closed handler | .written handler => machine.defer handler []
  | .received handler data => machine.defer handler [.bytes data]
  | .hook handler address => machine.defer handler [.word address]
  | .accepted handler client =>
      { machine with adopted := machine.adopted ++ [client] }.defer handler
        [.word client.fd.value]

def effect (machine : Machine φ) : Effect φ → Observed φ
  | .notice (.log record) => (machine, [.log record])
  | .notice (.signal signal) => machine.signal signal
  | .consoleLog text => (machine, [.consoleLog text])
  | .keepProcedure key callback =>
      ({ machine with procedures := machine.procedures.insert key ⟨callback, machine.id⟩ }, [])
  | .dropProcedure key => ({ machine with procedures := machine.procedures.erase key }, [])
  | .opened endpoint => (machine, [.opened endpoint])

/-- The effects of a program up to its end or its next question. -/
def effects (machine : Machine φ) : List (Effect φ) → Observed φ
  | [] => (machine, [])
  | effect :: rest =>
      let (machine, events) := machine.effect effect
      (machine.effects rest).after events

/-- Calls a native function, with a frame that waits for it. -/
def ask (owner : Nat) (call : NativeCall φ) (frame : Frame φ) (machine : Machine φ) :
    Observed φ :=
  ({ machine with
      frames := frame :: machine.frames
      tickets := call.ticket?.toList ++ machine.tickets },
    [.asked owner call])

def finish (outcome : Outcome) (machine : Machine φ) : Observed φ :=
  match outcome with
  | some result => (machine, [.returned result])
  | none => (machine, [.ended])

def run (invocation : Invocation φ) (owner : Nat) (resume : Resume φ) (machine : Machine φ) :
    Observed φ :=
  ({ machine with frames := .script invocation owner resume :: machine.frames },
    [resume.beginning invocation])

/-- Lets go of the bridge when no completion is queued: the sockets of new
clients become known, and the first of the functions that are ready is called. -/
def release (bridge : Bridge φ) (outcome : Outcome) (machine : Machine φ) : Observed φ :=
  let ready := machine.ready
  let opened := machine.adopted.map fun socket => Event.opened (.socket socket.fd)
  let machine :=
    { machine with bridge := some (bridge.adopt machine.adopted), adopted := [], ready := [] }
  let observed :=
    match ready with
    | [] => machine.finish outcome
    | first :: rest => machine.run first machine.id (.batch rest outcome)
  observed.after opened

/-- Applies the queued completions, with the bridge held, then lets go of it. -/
def settle (outcome : Outcome) : List Completion → Bridge φ → Machine φ → Observed φ
  | [], bridge, machine => { machine with queue := [] }.release bridge outcome
  | completion :: rest, bridge, machine =>
      let (applied, pause) := (Bridge.apply completion bridge).advance
      let (machine, events) := { machine with queue := rest }.effects applied
      let observed :=
        match pause with
        | .done ((), bridge) => settle outcome rest bridge machine
        | .asking call next => machine.ask machine.id call (.settling call next outcome)
      observed.after (.applied completion :: events)

/-- Applies completions and calls what is ready, unless the bridge is held; the
call that holds it will do so. -/
def pump (outcome : Outcome) (machine : Machine φ) : Observed φ :=
  match machine.bridge with
  | none => machine.finish outcome
  | some bridge => settle outcome machine.queue bridge { machine with bridge := none }

/-- A method goes on to its next native call, or ends and lets go of the bridge. -/
def advanceMethod (program : NativeProgram φ (Except Failure Answer × Bridge φ))
    (machine : Machine φ) : Observed φ :=
  let (effects, pause) := program.advance
  let (machine, events) := machine.effects effects
  let observed :=
    match pause with
    | .done (result, bridge) => { machine with bridge := some bridge }.pump (some result)
    | .asking call next => machine.ask machine.id call (.method call next)
  observed.after events

def advanceSettling (program : NativeProgram φ (Unit × Bridge φ)) (outcome : Outcome)
    (machine : Machine φ) : Observed φ :=
  let (effects, pause) := program.advance
  let (machine, events) := machine.effects effects
  let observed :=
    match pause with
    | .done ((), bridge) => settle outcome machine.queue bridge machine
    | .asking call next => machine.ask machine.id call (.settling call next outcome)
  observed.after events

def resume (machine : Machine φ) : Resume φ → Observed φ
  | .caller => (machine, [.ended])
  | .batch [] outcome => machine.pump outcome
  | .batch (first :: rest) outcome => machine.run first machine.id (.batch rest outcome)

def call (method : Method φ) (machine : Machine φ) : Observed φ :=
  match machine.bridge with
  | none => (machine, [.returned (.error .busy)])
  | some bridge => { machine with bridge := none }.advanceMethod (method.run bridge)

/-- A completion function is called. One that was called before, or was never
handed out, is not looked at. -/
def complete (ticket : Ticket) (payload : ticket.request.Payload) (machine : Machine φ) :
    Observed φ :=
  if ticket ∈ machine.tickets then
    let completion := ticket.request.completion payload
    let machine :=
      { machine with
        tickets := machine.tickets.erase ticket
        queue := machine.queue ++ [completion] }
    (machine.pump none).after [.sent ticket completion]
  else (machine, [])

def invoke (closure : Closure φ) (arguments : List Argument) (machine : Machine φ) :
    Observed φ :=
  match closure with
  | .immediate callback => machine.run ⟨callback, arguments⟩ machine.id .caller
  | .procedure key =>
      match machine.procedures.find? key with
      | some procedure => machine.run ⟨procedure.callback, []⟩ procedure.owner .caller
      | none => (machine, [.ended])
  | .deferred _ | .silent => (machine, [.ended])

def answer (reply : (call : NativeCall φ) → NativeCall.Reply call) (machine : Machine φ) :
    Observed φ :=
  match machine.frames with
  | .method call next :: frames => { machine with frames }.advanceMethod (next (reply call))
  | .settling call next outcome :: frames =>
      { machine with frames }.advanceSettling (next (reply call)) outcome
  | .reporting _ line resume :: frames =>
      match reply (.console (.print line)) with
      | .ok () => { machine with frames }.resume resume
      | .error _ => ({ machine with frames }.resume resume).after [.consoleLog (Text.trimEnd line)]
  | .script _ _ _ :: _ | [] => (machine, [])

/-- The function of the script called last ends; what it throws is printed. -/
def finishScript (thrown : Option Thrown) (machine : Machine φ) : Observed φ :=
  match machine.frames with
  | .script _ owner resume :: frames =>
      match thrown with
      | none => { machine with frames }.resume resume
      | some thrown =>
          let line := Console.errorLine thrown.message
          { machine with frames }.ask owner (.console (.print line))
            (.reporting owner line resume)
  | _ => (machine, [])

/-- One move of the environment. A move that is not possible changes nothing. -/
def step (machine : Machine φ) : Move φ → Observed φ
  | .call method => machine.call method
  | .complete ticket payload => machine.complete ticket payload
  | .invoke closure arguments => machine.invoke closure arguments
  | .answer reply => machine.answer reply
  | .finish thrown => machine.finishScript thrown

def steps (machine : Machine φ) : List (Move φ) → Observed φ
  | [] => (machine, [])
  | move :: rest =>
      let (machine, events) := machine.step move
      (machine.steps rest).after events

end Machine

end EmuScript.Engine
