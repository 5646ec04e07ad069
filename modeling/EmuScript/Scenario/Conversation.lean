import EmuScript.Scenario.Step.Access
import EmuScript.Scenario.Step.Objects
import EmuScript.Scenario.Step.Services

/-!
# Conversations with a session

Each step of a conversation is answered with its result and its trace; a step
that fails does not end the conversation. The step `run` hands the session a
script, whose own steps run until one fails.
-/

set_option autoImplicit false

namespace EmuScript.Scenario

/-- The steps that start with a name and a point. -/
def simpleStep (step : Json) (what : String) : Run Answer := do
  match (what.splitOn ".").head? with
  | some "gpr" | some "fpr" => registerStep step what
  | some "mem" | some "rom" => memoryStep step what
  | some "obj" => objectStep step what
  | some "type" => structStep step what
  | some "hook" => hookStep step what
  | some "thread" => threadStep step what
  | some "socket" => socketStep step what
  | some "server" => serverStep step what
  | some "host" =>
      match what with
      | "host.fail" =>
          modifyEmulator (Emulator.injectFailure (← asFailure step))
          finished
      | "host.fire" =>
          let kind ← field "kind" asHookKind step
          let address ← field "address" asWord step
          for callback in (← get).host.emulator.hooksOn kind address do
            perform (HostProgram.emit (.hook callback address))
          finished
      | _ =>
          match ← control step (← get).host.emulator with
          | some (value, emulator) =>
              modifyEmulator fun _ => emulator
              done value
          | none => throw ("unknown step " ++ what)
  | _ => serviceStep step what

def answerMembers : Answer → List (String × Json)
  | .ok value => [("ok", value)]
  | .error error => errorMembers error

mutual

def runStep : Nat → Json → Run (Answer × Json)
  | 0, _ => throw "steps are nested too deeply"
  | depth + 1, step => do
      modify fun world => { world with host.trace := [] }
      let answer ←
        match ← field "do" asString step with
        | "run" =>
            let steps ← field "steps" (asList pure) step
            let (outcome, answers) ← runScript depth steps .null
            modify fun world => { world with host.trace := [] }
            let value ← perform ((← get).session.conclude outcome)
            done (.object [("completed", .bool value.isSome), ("value", value.getD .null),
              ("steps", .array answers)])
        | what => simpleStep step what
      return (answer, .object (answerMembers answer ++
        [("trace", .array (← get).host.trace.reverse)]))

def runScript : Nat → List Json → Json → Run (Answer × List Json)
  | 0, _, _ => throw "steps are nested too deeply"
  | _ + 1, [], last => return (.ok last, [])
  | depth + 1, step :: rest, _ => do
      match ← runStep depth step with
      | (.ok value, answer) =>
          let (outcome, answers) ← runScript depth rest value
          return (outcome, answer :: answers)
      | (.error error, answer) => return (.error error, [answer])

end

/-- The answers of a whole conversation. Nesting is bounded by its size. -/
def sessionConversation (input : Json) : Decoder Json := do
  let config := (← optional "config" asConfig input).getD {}
  let logging := (← optional "log" asBool input).getD false
  let steps ← field "steps" (asList pure) input
  let world : World := { host := { logging }, session := { config } }
  let (answers, _) ← (steps.mapM (runStep input.size)).run world
  return .array (answers.map (·.2))

end EmuScript.Scenario
