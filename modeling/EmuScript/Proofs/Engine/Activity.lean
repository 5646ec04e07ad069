import EmuScript.Engine.Machine

/-!
# Pieces of a move

One move of the environment can make the library do a great deal before it is
the environment's turn again. Here a move is cut into pieces: the environment
begins, and the library continues, one notice, question or completion at a
time. A property that every piece preserves holds of all runs.
-/

set_option autoImplicit false

namespace EmuScript.Engine

/-- What the library is doing. -/
inductive Activity (φ : Type) where
  /-- It is the environment's turn. -/
  | idle
  /-- A method works on the bridge. -/
  | method (program : NativeProgram φ (Except Failure Answer × Bridge φ))
  /-- A completion is applied to the bridge. -/
  | settling (program : NativeProgram φ (Unit × Bridge φ)) (outcome : Outcome)
  /-- The bridge is held between two completions. -/
  | pumping (bridge : Bridge φ) (outcome : Outcome)
  | resuming (resume : Resume φ)

def Outcome.returning {φ : Type} : Outcome → Event φ
  | some result => .returned result
  | none => .ended

namespace Machine

variable {φ : Type}

@[simp] theorem finish_eq (outcome : Outcome) (machine : Machine φ) :
    machine.finish outcome = (machine, [Outcome.returning outcome]) := by
  cases outcome <;> rfl

def returnTo (machine : Machine φ) (frames : List (Frame φ)) : Machine φ :=
  { machine with frames }

def enter (machine : Machine φ) (invocation : Invocation φ) (owner : Nat) (resume : Resume φ) :
    Machine φ :=
  { machine with frames := .script invocation owner resume :: machine.frames }

def hold (machine : Machine φ) : Machine φ :=
  { machine with bridge := none }

def letGo (machine : Machine φ) (bridge : Bridge φ) : Machine φ :=
  { machine with bridge := some bridge, ready := [] }

def receive (machine : Machine φ) (ticket : Ticket) (payload : ticket.request.Payload) :
    Machine φ :=
  { machine with
    tickets := machine.tickets.erase ticket
    queue := machine.queue ++ [ticket.request.completion payload] }

/-- The environment makes a move. A move that is not possible is ignored. -/
inductive Begins : Machine φ → Move φ → List (Event φ) → Activity φ → Machine φ → Prop where
  | ignored (machine : Machine φ) (move : Move φ) : Begins machine move [] .idle machine
  | busy (machine : Machine φ) (method : Method φ) (held : machine.bridge = none) :
      Begins machine (.call method) [.returned (.error .busy)] .idle machine
  | call (machine : Machine φ) (method : Method φ) (bridge : Bridge φ)
      (free : machine.bridge = some bridge) :
      Begins machine (.call method) [] (.method (method.run bridge)) machine.hold
  | completeLater (machine : Machine φ) (ticket : Ticket) (payload : ticket.request.Payload)
      (known : ticket ∈ machine.tickets) (held : machine.bridge = none) :
      Begins machine (.complete ticket payload)
        [.sent ticket (ticket.request.completion payload), .ended] .idle
        (machine.receive ticket payload)
  | complete (machine : Machine φ) (ticket : Ticket) (payload : ticket.request.Payload)
      (bridge : Bridge φ) (known : ticket ∈ machine.tickets)
      (free : machine.bridge = some bridge) :
      Begins machine (.complete ticket payload) [.sent ticket (ticket.request.completion payload)]
        (.pumping bridge none) (machine.receive ticket payload).hold
  | invoke (machine : Machine φ) (closure : Closure φ) (arguments : List Argument)
      (invocation : Invocation φ) (owner : Nat) :
      Begins machine (.invoke closure arguments) [.entered invocation] .idle
        (machine.enter invocation owner .caller)
  | invokeNothing (machine : Machine φ) (closure : Closure φ) (arguments : List Argument) :
      Begins machine (.invoke closure arguments) [.ended] .idle machine
  | answerMethod (machine : Machine φ) (reply : (call : NativeCall φ) → NativeCall.Reply call)
      (call : NativeCall φ)
      (next : NativeCall.Reply call → NativeProgram φ (Except Failure Answer × Bridge φ))
      (frames : List (Frame φ)) (top : machine.frames = .method call next :: frames) :
      Begins machine (.answer reply) [] (.method (next (reply call))) (machine.returnTo frames)
  | answerSettling (machine : Machine φ) (reply : (call : NativeCall φ) → NativeCall.Reply call)
      (call : NativeCall φ) (next : NativeCall.Reply call → NativeProgram φ (Unit × Bridge φ))
      (outcome : Outcome) (frames : List (Frame φ))
      (top : machine.frames = .settling call next outcome :: frames) :
      Begins machine (.answer reply) [] (.settling (next (reply call)) outcome)
        (machine.returnTo frames)
  | printed (machine : Machine φ) (reply : (call : NativeCall φ) → NativeCall.Reply call)
      (owner : Nat) (line : String) (resume : Resume φ) (frames : List (Frame φ))
      (top : machine.frames = .reporting owner line resume :: frames) :
      Begins machine (.answer reply) [] (.resuming resume) (machine.returnTo frames)
  | unprinted (machine : Machine φ) (reply : (call : NativeCall φ) → NativeCall.Reply call)
      (owner : Nat) (line : String) (resume : Resume φ) (frames : List (Frame φ))
      (top : machine.frames = .reporting owner line resume :: frames) :
      Begins machine (.answer reply) [.consoleLog (Text.trimEnd line)] (.resuming resume)
        (machine.returnTo frames)
  | finish (machine : Machine φ) (invocation : Invocation φ) (owner : Nat) (resume : Resume φ)
      (frames : List (Frame φ)) (top : machine.frames = .script invocation owner resume :: frames) :
      Begins machine (.finish none) [] (.resuming resume) (machine.returnTo frames)
  | throw (machine : Machine φ) (thrown : Thrown) (invocation : Invocation φ) (owner : Nat)
      (resume : Resume φ) (frames : List (Frame φ))
      (top : machine.frames = .script invocation owner resume :: frames) :
      Begins machine (.finish (some thrown))
        [.asked owner (.console (.print (Console.errorLine thrown.message)))] .idle
        (machine.returnTo (.reporting owner (Console.errorLine thrown.message) resume :: frames))

/-- The library goes on by one piece. -/
inductive Continues : Machine φ → Activity φ → List (Event φ) → Activity φ → Machine φ → Prop where
  | methodTells (machine : Machine φ) (effect : Effect φ)
      (rest : NativeProgram φ (Except Failure Answer × Bridge φ)) :
      Continues machine (.method (.tell effect rest)) (machine.effect effect).2 (.method rest)
        (machine.effect effect).1
  | methodAsks (machine : Machine φ) (call : NativeCall φ)
      (next : NativeCall.Reply call → NativeProgram φ (Except Failure Answer × Bridge φ)) :
      Continues machine (.method (.ask call next)) [.asked machine.id call] .idle
        (machine.ask machine.id call (.method call next)).1
  | methodEnds (machine : Machine φ) (result : Except Failure Answer) (bridge : Bridge φ) :
      Continues machine (.method (.done (result, bridge))) [] (.pumping bridge (some result))
        machine.hold
  | settlingTells (machine : Machine φ) (effect : Effect φ)
      (rest : NativeProgram φ (Unit × Bridge φ)) (outcome : Outcome) :
      Continues machine (.settling (.tell effect rest) outcome) (machine.effect effect).2
        (.settling rest outcome) (machine.effect effect).1
  | settlingAsks (machine : Machine φ) (call : NativeCall φ)
      (next : NativeCall.Reply call → NativeProgram φ (Unit × Bridge φ)) (outcome : Outcome) :
      Continues machine (.settling (.ask call next) outcome) [.asked machine.id call] .idle
        (machine.ask machine.id call (.settling call next outcome)).1
  | settlingEnds (machine : Machine φ) (bridge : Bridge φ) (outcome : Outcome) :
      Continues machine (.settling (.done ((), bridge)) outcome) [] (.pumping bridge outcome)
        machine
  | applies (machine : Machine φ) (bridge : Bridge φ) (outcome : Outcome)
      (completion : Completion) (rest : List Completion)
      (queued : machine.queue = completion :: rest) :
      Continues machine (.pumping bridge outcome) [.applied completion]
        (.settling (Bridge.apply completion bridge) outcome) { machine with queue := rest }
  | adopts (machine : Machine φ) (bridge : Bridge φ) (outcome : Outcome)
      (socket : Socket (Closure φ)) (rest : List (Socket (Closure φ)))
      (settled : machine.queue = []) (accepted : machine.adopted = socket :: rest) :
      Continues machine (.pumping bridge outcome) [.opened (.socket socket.fd)]
        (.pumping (bridge.adopt [socket]) outcome) { machine with adopted := rest }
  | returns (machine : Machine φ) (bridge : Bridge φ) (outcome : Outcome)
      (settled : machine.queue = []) (adopted : machine.adopted = [])
      (quiet : machine.ready = []) :
      Continues machine (.pumping bridge outcome) [Outcome.returning outcome] .idle
        (machine.letGo bridge)
  | startsBatch (machine : Machine φ) (bridge : Bridge φ) (outcome : Outcome)
      (first : Invocation φ) (rest : List (Invocation φ)) (settled : machine.queue = [])
      (adopted : machine.adopted = []) (called : machine.ready = first :: rest) :
      Continues machine (.pumping bridge outcome) [.started first] .idle
        ((machine.letGo bridge).enter first machine.id (.batch rest outcome))
  | resumesCaller (machine : Machine φ) :
      Continues machine (.resuming .caller) [.ended] .idle machine
  | startsNext (machine : Machine φ) (first : Invocation φ) (rest : List (Invocation φ))
      (outcome : Outcome) :
      Continues machine (.resuming (.batch (first :: rest) outcome)) [.started first] .idle
        (machine.enter first machine.id (.batch rest outcome))
  | pumpsAgain (machine : Machine φ) (outcome : Outcome) (bridge : Bridge φ)
      (free : machine.bridge = some bridge) :
      Continues machine (.resuming (.batch [] outcome)) [] (.pumping bridge outcome) machine.hold
  | endsBatch (machine : Machine φ) (outcome : Outcome) (held : machine.bridge = none) :
      Continues machine (.resuming (.batch [] outcome)) [Outcome.returning outcome] .idle machine

/-- The library goes on until it is the environment's turn. -/
inductive Finishes : Activity φ → Machine φ → List (Event φ) → Machine φ → Prop where
  | idle (machine : Machine φ) : Finishes .idle machine [] machine
  | step {activity next : Activity φ} {machine between after : Machine φ}
      {events later : List (Event φ)} (piece : Continues machine activity events next between)
      (rest : Finishes next between later after) : Finishes activity machine (events ++ later) after

theorem Finishes.one {activity : Activity φ} {machine after : Machine φ} {events : List (Event φ)}
    (piece : Continues machine activity events .idle after) :
    Finishes activity machine events after := by
  simpa using Finishes.step piece (.idle after)

theorem Finishes.of_idle {machine after : Machine φ} {events : List (Event φ)}
    (run : Finishes .idle machine events after) : events = [] ∧ after = machine := by
  cases run with
  | idle => exact ⟨rfl, rfl⟩
  | step piece rest => cases piece

theorem pump_held {machine : Machine φ} (outcome : Outcome) (held : machine.bridge = none) :
    machine.pump outcome = (machine, [Outcome.returning outcome]) := by
  simp [pump, held]

theorem pump_free {machine : Machine φ} {bridge : Bridge φ} (outcome : Outcome)
    (free : machine.bridge = some bridge) :
    machine.pump outcome = settle outcome machine.queue bridge machine.hold := by
  simp [pump, free, hold]

theorem complete_known {machine : Machine φ} {ticket : Ticket} (payload : ticket.request.Payload)
    (known : ticket ∈ machine.tickets) :
    machine.complete ticket payload =
      ((machine.receive ticket payload).pump none).after
        [.sent ticket (ticket.request.completion payload)] := by
  simp [complete, known, receive]

@[simp] theorem after_fst (events : List (Event φ)) (observed : Observed φ) :
    (observed.after events).1 = observed.1 := rfl

@[simp] theorem after_snd (events : List (Event φ)) (observed : Observed φ) :
    (observed.after events).2 = events ++ observed.2 := rfl

theorem release_finishes (bridge : Bridge φ) (outcome : Outcome) (machine : Machine φ)
    (settled : machine.queue = []) :
    Finishes (.pumping bridge outcome) machine (machine.release bridge outcome).2
      (machine.release bridge outcome).1 := by
  cases machine with
  | mk id free queue ready adopted procedures tickets frames =>
      induction adopted generalizing bridge with
      | nil =>
          cases ready with
          | nil =>
              have piece := Continues.returns
                ⟨id, free, queue, [], [], procedures, tickets, frames⟩ bridge outcome settled
                rfl rfl
              simpa [release, letGo, Bridge.adopt] using Finishes.one piece
          | cons first rest => exact .one (.startsBatch _ bridge outcome first rest settled rfl rfl)
      | cons socket rest ih =>
          have step := Finishes.step (.adopts _ bridge outcome socket rest settled rfl)
            (ih (bridge.adopt [socket]) settled)
          cases ready <;> exact step

/-- Effects leave alone the bridge, the queue and the calls under way. -/
theorem effect_frame (machine : Machine φ) (effect : Effect φ) :
    (machine.effect effect).1.bridge = machine.bridge ∧
      (machine.effect effect).1.queue = machine.queue ∧
      (machine.effect effect).1.frames = machine.frames ∧
      (machine.effect effect).1.tickets = machine.tickets ∧
      (machine.effect effect).1.id = machine.id := by
  cases effect with
  | notice notice =>
      cases notice with
      | log record => exact ⟨rfl, rfl, rfl, rfl, rfl⟩
      | signal signal =>
          cases signal with
          | hook handler | connected handler | received handler | closed handler | written handler
          | accepted handler => cases handler <;> exact ⟨rfl, rfl, rfl, rfl, rfl⟩
  | consoleLog text => exact ⟨rfl, rfl, rfl, rfl, rfl⟩
  | keepProcedure key callback => exact ⟨rfl, rfl, rfl, rfl, rfl⟩
  | dropProcedure key => exact ⟨rfl, rfl, rfl, rfl, rfl⟩
  | opened endpoint => exact ⟨rfl, rfl, rfl, rfl, rfl⟩

/-- The application of a completion goes on, given how the queue is settled after it. -/
theorem settling_finishes (program : NativeProgram φ (Unit × Bridge φ)) (outcome : Outcome)
    (machine : Machine φ) (after : Bridge φ → Machine φ → Observed φ)
    (settles : ∀ bridge (between : Machine φ), between.queue = machine.queue →
      Finishes (.pumping bridge outcome) between (after bridge between).2
        (after bridge between).1) :
    let (effects, pause) := program.advance
    let (between, events) := machine.effects effects
    let observed :=
      match pause with
      | .done ((), bridge) => after bridge between
      | .asking call next => between.ask between.id call (.settling call next outcome)
    Finishes (.settling program outcome) machine (observed.after events).2
      (observed.after events).1 := by
  -- Every effect may change the machine, but none of them changes the queue.
  induction program generalizing machine with
  | done value =>
      exact .step (.settlingEnds machine value.2 outcome) (settles value.2 machine rfl)
  | ask call next => exact .one (.settlingAsks machine call next outcome)
  | tell effect rest ih =>
      have same := (machine.effect_frame effect).2.1
      have later := ih (machine.effect effect).1 fun bridge between kept =>
        settles bridge between (kept.trans same)
      simpa [Program.advance, effects] using
        Finishes.step (.settlingTells machine effect rest outcome) later

theorem settle_finishes (outcome : Outcome) (completions : List Completion) (bridge : Bridge φ)
    (machine : Machine φ) (queued : machine.queue = completions) :
    Finishes (.pumping bridge outcome) machine (settle outcome completions bridge machine).2
      (settle outcome completions bridge machine).1 := by
  induction completions generalizing bridge machine with
  | nil =>
      have same : { machine with queue := [] } = machine := by rw [← queued]
      simpa only [settle, same] using machine.release_finishes bridge outcome queued
  | cons completion rest ih =>
      have later := settling_finishes (Bridge.apply completion bridge) outcome
        { machine with queue := rest } (settle outcome rest) fun bridge between kept =>
          ih bridge between kept
      have step := Finishes.step (.applies machine bridge outcome completion rest queued) later
      exact step

theorem advanceSettling_finishes (program : NativeProgram φ (Unit × Bridge φ)) (outcome : Outcome)
    (machine : Machine φ) :
    Finishes (.settling program outcome) machine (machine.advanceSettling program outcome).2
      (machine.advanceSettling program outcome).1 :=
  settling_finishes program outcome machine
    (fun bridge between => settle outcome between.queue bridge between)
    fun bridge between _ => settle_finishes outcome between.queue bridge between rfl

theorem advanceMethod_finishes (program : NativeProgram φ (Except Failure Answer × Bridge φ))
    (machine : Machine φ) :
    Finishes (.method program) machine (machine.advanceMethod program).2
      (machine.advanceMethod program).1 := by
  induction program generalizing machine with
  | done value =>
      exact .step (.methodEnds machine value.1 value.2)
        (settle_finishes (some value.1) machine.queue value.2 machine.hold rfl)
  | ask call next => exact .one (.methodAsks machine call next)
  | tell effect rest ih =>
      simpa [advanceMethod, Program.advance, effects] using
        Finishes.step (.methodTells machine effect rest) (ih (machine.effect effect).1)

theorem resume_finishes (machine : Machine φ) (resume : Resume φ) :
    Finishes (.resuming resume) machine (machine.resume resume).2 (machine.resume resume).1 := by
  cases resume with
  | caller => exact .one (.resumesCaller machine)
  | batch rest outcome =>
      cases rest with
      | cons first rest => exact .one (.startsNext machine first rest outcome)
      | nil =>
          cases free : machine.bridge with
          | none =>
              simpa only [Machine.resume, pump_held outcome free] using
                Finishes.one (.endsBatch machine outcome free)
          | some bridge =>
              simp only [Machine.resume, pump_free outcome free]
              exact .step (.pumpsAgain machine outcome bridge free)
                (settle_finishes outcome machine.queue bridge machine.hold rfl)

/-- A move is what the environment begins and the library finishes. -/
structure Turn (machine : Machine φ) (move : Move φ) (observed : Observed φ) : Prop where
  intro ::
  split : ∃ begun activity between finished, Begins machine move begun activity between ∧
    Finishes activity between finished observed.1 ∧ observed.2 = begun ++ finished

theorem call_turn (machine : Machine φ) (method : Method φ) :
    Turn machine (.call method) (machine.call method) := by
  cases free : machine.bridge with
  | none =>
      simp only [call, free]
      exact ⟨_, _, _, _, .busy machine method free, .idle machine, rfl⟩
  | some bridge =>
      simp only [call, free]
      exact ⟨_, _, _, _, .call machine method bridge free,
        advanceMethod_finishes (method.run bridge) machine.hold, rfl⟩

theorem complete_turn (machine : Machine φ) (ticket : Ticket) (payload : ticket.request.Payload) :
    Turn machine (.complete ticket payload) (machine.complete ticket payload) := by
  by_cases known : ticket ∈ machine.tickets
  · rw [complete_known payload known]
    cases free : machine.bridge with
    | none =>
        have held : (machine.receive ticket payload).bridge = none := free
        rw [pump_held none held]
        exact ⟨_, _, _, _, .completeLater machine ticket payload known free, .idle _, rfl⟩
    | some bridge =>
        have known_free : (machine.receive ticket payload).bridge = some bridge := free
        rw [pump_free none known_free]
        exact ⟨_, _, _, _, .complete machine ticket payload bridge known free,
          settle_finishes none _ bridge (machine.receive ticket payload).hold rfl, rfl⟩
  · simp only [complete, known, if_false]
    exact ⟨_, _, _, _, .ignored machine _, .idle machine, rfl⟩

theorem invoke_turn (machine : Machine φ) (closure : Closure φ) (arguments : List Argument) :
    Turn machine (.invoke closure arguments) (machine.invoke closure arguments) := by
  cases closure with
  | immediate callback =>
      exact ⟨_, _, _, _, .invoke machine _ arguments ⟨callback, arguments⟩ machine.id, .idle _, rfl⟩
  | procedure key =>
      cases found : machine.procedures.find? key with
      | none =>
          simp only [invoke, found]
          exact ⟨_, _, _, _, .invokeNothing machine _ arguments, .idle machine, rfl⟩
      | some procedure =>
          simp only [invoke, found]
          exact ⟨_, _, _, _, .invoke machine _ arguments ⟨procedure.callback, []⟩ procedure.owner,
            .idle _, rfl⟩
  | deferred callback => exact ⟨_, _, _, _, .invokeNothing machine _ arguments, .idle machine, rfl⟩
  | silent => exact ⟨_, _, _, _, .invokeNothing machine _ arguments, .idle machine, rfl⟩

theorem answer_turn (machine : Machine φ) (reply : (call : NativeCall φ) → NativeCall.Reply call) :
    Turn machine (.answer reply) (machine.answer reply) := by
  cases top : machine.frames with
  | nil =>
      simp only [answer, top]
      exact ⟨_, _, _, _, .ignored machine _, .idle machine, rfl⟩
  | cons frame frames =>
      cases frame with
      | method call next =>
          simp only [answer, top]
          exact ⟨_, _, _, _, .answerMethod machine reply call next frames top,
            advanceMethod_finishes (next (reply call)) _, rfl⟩
      | settling call next outcome =>
          simp only [answer, top]
          exact ⟨_, _, _, _, .answerSettling machine reply call next outcome frames top,
            advanceSettling_finishes (next (reply call)) outcome _, rfl⟩
      | script invocation owner resume =>
          simp only [answer, top]
          exact ⟨_, _, _, _, .ignored machine _, .idle machine, rfl⟩
      | reporting owner line resume =>
          cases printed : reply (.console (.print line)) with
          | ok value =>
              simp only [answer, top, printed]
              exact ⟨_, _, _, _, .printed machine reply owner line resume frames top,
                resume_finishes _ resume, rfl⟩
          | error thrown =>
              simp only [answer, top, printed]
              exact ⟨_, _, _, _, .unprinted machine reply owner line resume frames top,
                resume_finishes _ resume, rfl⟩

theorem finish_turn (machine : Machine φ) (thrown : Option Thrown) :
    Turn machine (.finish thrown) (machine.finishScript thrown) := by
  cases top : machine.frames with
  | nil =>
      simp only [finishScript, top]
      exact ⟨_, _, _, _, .ignored machine _, .idle machine, rfl⟩
  | cons frame frames =>
      cases frame with
      | method call next | settling call next outcome | reporting owner line resume =>
          simp only [finishScript, top]
          exact ⟨_, _, _, _, .ignored machine _, .idle machine, rfl⟩
      | script invocation owner resume =>
          cases thrown with
          | none =>
              simp only [finishScript, top]
              exact ⟨_, _, _, _, .finish machine invocation owner resume frames top,
                resume_finishes _ resume, rfl⟩
          | some thrown =>
              simp only [finishScript, top]
              exact ⟨_, _, _, _, .throw machine thrown invocation owner resume frames top,
                .idle _, rfl⟩

theorem step_turn (machine : Machine φ) (move : Move φ) :
    Turn machine move (machine.step move) := by
  cases move with
  | call method => exact machine.call_turn method
  | complete ticket payload => exact machine.complete_turn ticket payload
  | invoke closure arguments => exact machine.invoke_turn closure arguments
  | answer reply => exact machine.answer_turn reply
  | finish thrown => exact machine.finish_turn thrown

end Machine

open Machine

/-- A property of what was observed, what the library does and the machine, that
the environment and the library keep by each piece of a move. -/
structure Invariant {φ : Type} (holds : List (Event φ) → Activity φ → Machine φ → Prop) : Prop where
  begins : ∀ history {machine move events activity after}, holds history .idle machine →
    Begins machine move events activity after → holds (history ++ events) activity after
  continues : ∀ history {activity machine events next after}, holds history activity machine →
    Continues machine activity events next after → holds (history ++ events) next after

namespace Invariant

variable {φ : Type} {holds : List (Event φ) → Activity φ → Machine φ → Prop}

theorem finishes (kept : Invariant holds) {activity : Activity φ} {machine after : Machine φ}
    {history events : List (Event φ)} (before : holds history activity machine)
    (run : Finishes activity machine events after) : holds (history ++ events) .idle after := by
  induction run generalizing history with
  | idle machine => simpa using before
  | step piece rest ih => simpa using ih (kept.continues _ before piece)

theorem step (kept : Invariant holds) {machine : Machine φ} (history : List (Event φ))
    (before : holds history .idle machine) (move : Move φ) :
    holds (history ++ (machine.step move).2) .idle (machine.step move).1 := by
  obtain ⟨begun, activity, between, finished, begins, finishes, events⟩ :=
    (machine.step_turn move).split
  rw [events, ← List.append_assoc]
  exact kept.finishes (kept.begins _ before begins) finishes

theorem steps (kept : Invariant holds) {machine : Machine φ} {history : List (Event φ)}
    (before : holds history .idle machine) (moves : List (Move φ)) :
    holds (history ++ (machine.steps moves).2) .idle (machine.steps moves).1 := by
  induction moves generalizing machine history with
  | nil => simpa [Machine.steps] using before
  | cons move rest ih => simpa [Machine.steps] using ih (kept.step _ before move)

theorem run (kept : Invariant holds) {machine : Machine φ} (before : holds [] .idle machine)
    (moves : List (Move φ)) : holds (machine.steps moves).2 .idle (machine.steps moves).1 := by
  simpa using kept.steps before moves

end Invariant

end EmuScript.Engine
