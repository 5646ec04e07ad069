import EmuScript.Scenario.Engine.Steps

/-!
# Conversations with a session of a script engine

The environment of the machine, played by the scenario: a native function takes
the steps set up for it, is traced, and is served by the native table; a
function of the script takes its steps and returns or throws. All this nests as
the frames of the machine do. A budget bounds how deeply, because functions of a
script may call themselves for ever.
-/

set_option autoImplicit false

namespace EmuScript.Scenario

open EmuScript.Engine Numeric

/-- The call that a frame waits for. -/
def waitingFor? : Frame Callback → Option (NativeCall Callback)
  | .method call _ | .settling call _ _ => some call
  | .reporting _ line _ => some (.console (.print line))
  | .script _ _ _ => none

/-- One move of the machine; the trace gets what was observed. -/
def makeMove (move : Move Callback) : EngineRun Outcome := do
  let world ← get
  let (machine, events) := world.machine.step move
  set { world with machine }
  recordEvents events
  return returnedBy events

/-- The steps that a call of a primitive takes first. -/
def takeDetour (primitive : String) : EngineRun (Option (List Json)) := do
  match takeQueued primitive (← get).detours with
  | none => return none
  | some (steps, detours) =>
      modify fun world => { world with detours }
      return some steps

/-- What a call of a primitive completes with at once. -/
def takeCompletion (primitive : String) : EngineRun (Option Json) := do
  match takeQueued primitive (← get).completions with
  | none => return none
  | some (argument, completions) =>
      modify fun world => { world with completions }
      return some argument

/-- The move by which a call that succeeded goes on at once, if one is queued. -/
def promptMove (call : NativeCall Callback) : EngineRun (Option (Move Callback)) := do
  match call with
  | .thread (.create procedure) =>
      return (← takeCompletion call.primitive).map fun _ => .invoke procedure []
  | _ =>
      match call.ticket? with
      | none => return none
      | some ticket =>
          match ← takeCompletion call.primitive with
          | none => return none
          | some argument =>
              modify fun world => { world with native := world.native.dropPending ticket }
              return some (.complete ticket (← asPayload argument ticket.request))

/-- The completion of a pending request that a step calls for. -/
def pendingMove (step : Json) : EngineRun (Option (Move Callback)) := do
  let primitive ← field "call" asString step
  let fd ← field "fd" asWord step
  let argument ← member "arg" step
  match (← get).native.takePending primitive ⟨fd⟩ with
  | none => return none
  | some (ticket, native) =>
      modify fun world => { world with native }
      return some (.complete ticket (← asPayload argument ticket.request))

/-- The functions that a step has the emulator call. -/
def emulatorMoves (step : Json) (what : String) : EngineRun (Option (List (Move Callback))) := do
  match what with
  | "host.fire" =>
      let kind ← field "kind" asHookKind step
      let address ← field "address" asWord step
      let closures := (← get).native.emulator.hooksOn kind address
      return some (closures.map fun closure => .invoke closure [.word address])
  | "host.run_thread" =>
      let handle ← field "handle" asSize step
      return some (((← get).native.threads.find? handle).toList.map fun closure =>
        .invoke closure [])
  | "host.complete" => return some (← pendingMove step).toList
  | _ => return none

def exhausted {α : Type} : EngineRun α :=
  throw "the budget of the scenario is exhausted"

mutual

/-- Makes a move and lets everything that it calls run to its end. -/
def submit : Nat → Move Callback → EngineRun Outcome
  | 0, _ => exhausted
  | budget + 1, move => do
      let depth := (← get).machine.frames.length
      drive budget depth (← makeMove move)

/-- Plays the environment until no more than `depth` frames are left. -/
def drive : Nat → Nat → Outcome → EngineRun Outcome
  | 0, _, _ => exhausted
  | budget + 1, depth, outcome => do
      let machine := (← get).machine
      if machine.frames.length ≤ depth then return outcome
      match machine.frames with
      | [] => return outcome
      | .script invocation _ _ :: _ =>
          let answers ← runSteps budget invocation.callback.steps
          record (entry "@call" [.string invocation.callback.label,
            .array (invocation.arguments.map ofArgument), .array answers])
          let next ← makeMove (.finish invocation.callback.thrown)
          drive budget depth (next <|> outcome)
      | frame :: _ =>
          match waitingFor? frame with
          | none => return outcome
          | some call =>
              let native ← serveNative budget call
              let next ← makeMove (.answer fun call => (native.serve call).1)
              drive budget depth (next <|> outcome)

/-- Plays a native function. It answers the table that the call was served by. -/
def serveNative : Nat → NativeCall Callback → EngineRun (NativeTable Callback)
  | 0, _ => exhausted
  | budget + 1, call => do
      match ← takeDetour call.primitive with
      | none => pure ()
      | some steps =>
          let answers ← runSteps budget steps
          record (entry "@native" [.string call.primitive, .array answers])
      record (ofNativeCall call)
      let native := (← get).native
      let (reply, after) := native.serve call
      modify fun world => { world with native := after }
      match reply with
      | .error _ => return native
      | .ok _ =>
          match ← promptMove call with
          | none => return native
          | some move =>
              let _ ← submit budget move
              return native

/-- Carries out a program outside any session. -/
def runProgram : Nat → NativeProgram Callback (Except HostError Json) →
    EngineRun (Except HostError Json)
  | 0, _ => exhausted
  | _ + 1, .done value => return value
  | budget + 1, .tell _ rest => runProgram budget rest
  | budget + 1, .ask call next => do
      let native ← serveNative budget call
      runProgram budget (next (native.serve call).1)

def submitAll : Nat → List (Move Callback) → EngineRun Unit
  | 0, _ => exhausted
  | _ + 1, [] => return ()
  | budget + 1, move :: rest => do
      let _ ← submit budget move
      submitAll budget rest

def takeStep : Nat → Json → EngineRun EngineAnswer
  | 0, _ => exhausted
  | budget + 1, step => do
      let what ← field "do" asString step
      if let some answer ← freeStep step what then return answer
      if let some moves ← emulatorMoves step what then
        submitAll budget moves
        return .value (if what = "host.fire" then .null else .bool !moves.isEmpty)
      if let some answer ← nativeControl step what then return answer
      if let some program ← readAdapterCall step what then
        match ← runProgram budget program with
        | .ok value => return .value value
        | .error error => return .value (ofHostError error)
      let reading ←
        match ← readService step what with
        | some reading => pure (some reading)
        | none =>
            match ← readMethod step what with
            | some reading => pure (some reading)
            | none => readProperty step what
      match reading with
      | none => throw ("unknown step " ++ what)
      | some (.error error) => return .error error.message
      | some (.ok method) => return ofOutcome (← submit budget (.call method))

/-- The answers of steps in order, each with its own trace. -/
def runSteps : Nat → List Json → EngineRun (List Json)
  | 0, _ => exhausted
  | _ + 1, [] => return []
  | budget + 1, step :: rest => do
      let outer := (← get).trace
      modify fun world => { world with trace := [] }
      let answer ← takeStep budget step
      let report := answer.report (← get).trace
      modify fun world => { world with trace := outer }
      return report :: (← runSteps budget rest)

end

/-- How deeply a scenario may nest, and how long a list of steps may be. -/
def defaultBudget : Nat := 50000

/-- The answers of a whole conversation: of opening the session, and of every
step if it could be opened. -/
def engineConversation (input : Json) : Decoder Json := do
  let logging := (← optional "log" asBool input).getD false
  let steps ← field "steps" (asList pure) input
  let opened (config : SessionConfig) (trace : List Json) : Decoder Json := do
    let world : EngineWorld :=
      { machine := Machine.start 0 config, hexDigits := config.hexDigits, logging }
    let (answers, _) ← (runSteps defaultBudget steps).run world
    return .array ((EngineAnswer.value .null).report trace :: answers)
  match input.member? "config" with
  | none => opened {} []
  | some json =>
      match json.config? .engine with
      | none => return .array [EngineAnswer.malformed.report []]
      | some config =>
          opened config
            [entry "console.log" [.string s!"script session configured: {config.label}"]]

end EmuScript.Scenario
