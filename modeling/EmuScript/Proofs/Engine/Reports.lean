import EmuScript.Emulator.NativeTable
import EmuScript.Proofs.Engine.ReadSizes

/-!
# Reports of errors

Two kinds of errors have no caller to return to: that of a script which a session runs, and
that of a completion whose next request the emulator refuses. Either is printed as one line.
A session does so only if its configuration asks for it; the application of a completion
does not look at the configuration.
-/

set_option autoImplicit false

namespace EmuScript

open Program

variable {κ σ φ α β : Type}

/-- The lines by which errors are to be reported on the console. -/
def SessionConfig.reports (config : SessionConfig) (errors : List ScriptError) : List String :=
  if config.reportErrorsToConsole then errors.map (Console.errorLine ·.message) else []

/-! ## Scripts -/

def HostCall.printed? : HostCall κ → Option String
  | .console (.print text) => some text
  | _ => none

def HostProgram.printed (environment : HostEnvironment κ σ) (program : HostProgram κ α)
    (state : σ) : List String :=
  (program.questions environment state).filterMap HostCall.printed?

theorem HostProgram.printed_bind (environment : HostEnvironment κ σ) (program : HostProgram κ α)
    (next : α → HostProgram κ β) (state : σ) :
    printed environment (program.bind next) state =
      printed environment program state ++
        printed environment (next (program.run environment state).1)
          (program.run environment state).2 := by
  simp [printed, questions_bind]

def failures : Except ScriptError α → List ScriptError
  | .ok _ => []
  | .error error => [error]

theorem Console.reportError_printed (environment : HostEnvironment κ σ) (error : ScriptError)
    (state : σ) :
    HostProgram.printed environment (Console.reportError error).run state =
      [Console.errorLine error.message] := rfl

theorem Session.conclude_printed (environment : HostEnvironment κ σ) (session : Session κ)
    (outcome : Except ScriptError α) (state : σ) :
    HostProgram.printed environment (session.conclude outcome) state =
      session.config.reports (failures outcome) := by
  cases outcome with
  | ok value =>
      have nothing : session.config.reports [] = [] := by simp [SessionConfig.reports]
      exact nothing.symm
  | error error =>
      cases asked : session.config.reportErrorsToConsole with
      | false =>
          simp only [conclude, SessionConfig.reports, asked]
          rfl
      | true =>
          simp only [conclude, SessionConfig.reports, asked, if_true]
          rw [bind_eq, HostProgram.printed_bind, Console.reportError_printed]
          -- What is logged when the line itself is refused is not printed.
          cases (Program.run environment (Console.reportError error).run state).1 <;> rfl

/-- A script prints what it prints itself, and then its error as the session that it leaves
says. -/
theorem Session.run_printed (environment : HostEnvironment κ σ) (session : Session κ)
    (script : Update κ (Session κ) α) (state : σ) :
    let ended := ((script.on session).run environment state).1
    HostProgram.printed environment (session.run script) state =
      HostProgram.printed environment (script.on session) state ++
        ended.2.config.reports (failures ended.1) := by
  intro ended
  have concludes : HostProgram.printed environment (session.run script) state =
      HostProgram.printed environment (script.on session) state ++
        HostProgram.printed environment ((ended.2.conclude ended.1).bind fun value =>
          .done (value, ended.2)) ((script.on session).run environment state).2 :=
    HostProgram.printed_bind environment (script.on session) _ state
  have nothing (value : Option α × Session κ) (state : σ) :
      HostProgram.printed environment (.done value) state = [] := rfl
  rw [concludes, HostProgram.printed_bind, nothing, List.append_nil, conclude_printed]

namespace Engine

/-! ## Completions -/

/-- How far the application of a completion has come. -/
inductive Reporting where
  /-- The completion may make a request. -/
  | requesting
  | failed (error : ScriptError)
  | spent

namespace Reporting

def Allows : Reporting → NativeCall φ → Prop
  | requesting, call => ∃ request, call = .socket request
  | failed error, call => call = .console (.print (Console.errorLine error.message))
  | spent, _ => False

def answered (reporting : Reporting) (call : NativeCall φ) (reply : call.Reply) : Reporting :=
  match reporting, reply with
  | requesting, .error thrown => .failed (.host (Adapter.failure call.primitive thrown))
  | _, _ => .spent

def error? : Reporting → Option ScriptError
  | failed error => some error
  | requesting | spent => none

end Reporting

/-- A program makes at most one request. If it is refused, it prints one line for the error,
and nothing otherwise. -/
def Reports (ends : Reporting → α → Prop) : Reporting → NativeProgram φ α → Prop
  | reporting, .done value => ends reporting value
  | reporting, .tell _ rest => Reports ends reporting rest
  | reporting, .ask call next =>
      reporting.Allows call ∧ ∀ reply, Reports ends (reporting.answered call reply) (next reply)

theorem reports_bind {reporting : Reporting} {ends : Reporting → α → Prop}
    {program : NativeProgram φ β} {next : β → NativeProgram φ α}
    (first : Reports (fun reporting value => Reports ends reporting (next value)) reporting
      program) : Reports ends reporting (program >>= next) := by
  induction program generalizing reporting with
  | done value => exact first
  | tell effect rest ih => exact ih first
  | ask call rest ih => exact ⟨first.1, fun reply => ih reply (first.2 reply)⟩

theorem Reports.weaken {reporting : Reporting} {ends wider : Reporting → α → Prop}
    {program : NativeProgram φ α} (reports : Reports ends reporting program)
    (allowed : ∀ reporting value, ends reporting value → wider reporting value) :
    Reports wider reporting program := by
  induction program generalizing reporting with
  | done value => exact allowed _ _ reports
  | tell effect rest ih => exact ih reports
  | ask call next ih => exact ⟨reports.1, fun reply => ih reply (reports.2 reply)⟩

namespace Reporting

/-- No error waits to be reported. -/
def Done (reporting : Reporting) (_ : α) : Prop :=
  reporting.error? = none

/-- The error of a result, if it is one, is what waits to be reported. -/
def Matches (reporting : Reporting) : Except ScriptError Unit → Prop
  | .ok () => reporting.error? = none
  | .error error => reporting = failed error

end Reporting

section Bridges

variable {config : SessionConfig} {bridge : Bridge φ}

theorem emits_reports {reporting : Reporting} (done : reporting.error? = none)
    (handler : Option (Closure φ)) (signal : Closure φ → Signal (Closure φ))
    (socket : Socket (Closure φ)) (adapter : Adapter φ) :
    Reports (fun reporting ended => reporting.Matches ended.1.1) reporting
      (Adapter.lower ((Update.emitTo handler signal).on socket) adapter) := by
  rw [Socket.emitTo_on]
  cases handler <;> exact done

/-- A socket that has got data asks for more; its error is that of the request. -/
theorem deliverRead_reports {socket : Socket (Closure φ)} (built : socket.BuiltFrom config)
    (fits : config.ReadsFit) (data : Option Bytes) (adapter : Adapter φ) :
    Reports (fun reporting ended => reporting.Matches ended.1.1) .requesting
      (Adapter.lower ((Socket.deliverRead data).on socket) adapter) := by
  cases data with
  | none => exact emits_reports rfl _ _ { socket with connected := false } adapter
  | some data =>
      -- A size that does not fit would be refused without a call, and nothing would be owed.
      obtain ⟨size, fitting⟩ := Option.isSome_iff_exists.mp fits
      rw [← built.1] at fitting
      rw [Socket.deliverRead_some_on]
      simp only [Adapter.lower, Adapter.serve, Adapter.serveSocket, fitting]
      refine ⟨⟨_, rfl⟩, fun reply => ?_⟩
      cases reply with
      | ok value => exact emits_reports rfl _ _ socket _
      | error thrown => rfl

theorem deliverWrite_reports (socket : Socket (Closure φ)) (adapter : Adapter φ) :
    Reports (fun reporting ended => reporting.Matches ended.1.1) .requesting
      (Adapter.lower (Socket.deliverWrite.on socket) adapter) := by
  rw [Socket.deliverWrite_on]
  rcases socket.pendingWrites with _ | ⟨_ | handler, rest⟩ <;> exact rfl

theorem deliverAccept_reports (client : SocketFd) (server : Server (Closure φ)) :
    Reports (fun reporting ended => reporting.Matches ended.1.1) .requesting
      (Bridge.through ((Server.deliverAccept client).on server) bridge) := by
  have asks : Reports (fun reporting ended => reporting.Matches ended.1.1) .requesting
      (Bridge.through (Server.acceptNext.on server) bridge) := by
    rw [acceptNext_through]
    refine ⟨⟨_, rfl⟩, fun reply => ?_⟩
    cases reply <;> exact rfl
  rw [deliverAccept_through]
  cases server.connectionHandler <;> exact asks

namespace Bridge

theorem onSocket_reports (fd : UInt32) {update : Update (Closure φ) (Socket (Closure φ)) Unit}
    (reports : ∀ socket, bridge.sockets.find? fd = some socket →
      Reports (fun reporting ended => reporting.Matches ended.1.1) .requesting
        (Adapter.lower (update.on socket) bridge.adapter)) :
    Reports (fun reporting ended => reporting.Matches (ended.1.getD (.ok ()))) .requesting
      (onSocket fd update bridge) := by
  cases found : bridge.sockets.find? fd with
  | none =>
      simp only [onSocket, found]
      exact rfl
  | some socket =>
      simp only [onSocket, found]
      exact reports_bind (reports_bind (reports socket found))

theorem complete_reports {completion : Completion} (furnished : bridge.Furnished config)
    (sized : completion.Sized config) :
    Reports (fun reporting ended => reporting.Matches (ended.1.getD (.ok ()))) .requesting
      (complete completion bridge) := by
  cases completion with
  | connected fd =>
      refine onSocket_reports fd.value fun socket found => ?_
      exact emits_reports rfl _ _ { socket with connected := true } _
  | received fd data =>
      refine onSocket_reports fd.value fun socket found => ?_
      exact deliverRead_reports (furnished.sockets _ _ found) sized data _
  | written fd => exact onSocket_reports fd.value fun socket _ => deliverWrite_reports socket _
  | accepted server client =>
      cases found : bridge.servers.find? server.value with
      | none =>
          simp only [complete, onServer, found]
          exact rfl
      | some object =>
          simp only [complete, onServer, found]
          exact reports_bind (deliverAccept_reports client object)

/-- The application of a completion makes one request at most, and prints its error if the
emulator refuses it. -/
theorem apply_reports {completion : Completion} (furnished : bridge.Furnished config)
    (sized : completion.Sized config) :
    Reports Reporting.Done .requesting (apply completion bridge) := by
  refine reports_bind ((complete_reports furnished sized).weaken ?_)
  rintro reporting ⟨_ | error | ⟨⟩, between⟩ matched
  · exact matched
  · cases matched
    refine ⟨rfl, fun reply => ?_⟩
    cases reply <;> exact rfl
  · exact matched

end Bridge

end Bridges

/-! ## Runs -/

def Event.printed? : Event φ → Option String
  | .asked _ (.console (.print text)) => some text
  | _ => none

/-- The application of a completion waits for a native function as it should. -/
def Frame.Reports : Frame φ → Prop
  | .settling call next _ => ∃ reporting : Reporting, reporting.Allows call ∧
      ∀ reply, Engine.Reports Reporting.Done (reporting.answered call reply) (next reply)
  | .method _ _ | .script _ _ _ | .reporting _ _ _ => True

/-- The error that the library is about to print. -/
def Activity.Owes (owed : Option ScriptError) : Activity φ → Prop
  | .settling program _ => ∃ reporting : Reporting,
      reporting.error? = owed ∧ Engine.Reports Reporting.Done reporting program
  | .idle | .method _ | .pumping _ _ | .resuming _ => owed = none

namespace Machine

/-- The error with which a completion fails when the emulator refuses its request. -/
def refusal? (machine : Machine φ) : Move φ → Option ScriptError
  | .answer reply =>
      match machine.frames with
      | .settling (.socket request) _ _ :: _ =>
          match reply (.socket request) with
          | .error thrown => some (.host (Adapter.failure request.primitive thrown))
          | .ok _ => none
      | _ => none
  | _ => none

/-- What a move prints for the application of a completion. -/
def reported (observed : Observed φ) : List String :=
  match observed.1.frames with
  | .settling _ _ _ :: _ => observed.2.filterMap Event.printed?
  | _ => []

/-- The errors with which completions fail in a run. -/
def refusals (machine : Machine φ) : List (Move φ) → List ScriptError
  | [] => []
  | move :: rest =>
      (machine.refusal? move).toList ++ (machine.step move).1.refusals rest

/-- What is printed for the application of completions in a run. -/
def reports (machine : Machine φ) : List (Move φ) → List String
  | [] => []
  | move :: rest => reported (machine.step move) ++ (machine.step move).1.reports rest

structure Reported (config : SessionConfig) (history : List (Event φ)) (activity : Activity φ)
    (machine : Machine φ) : Prop where
  conforms : Conforms config history activity machine
  activity : ∃ owed, activity.Owes owed
  frames : ∀ frame ∈ machine.frames, frame.Reports

variable {config : SessionConfig} {machine after : Machine φ} {history events : List (Event φ)}
  {activity next : Activity φ}

theorem effect_printed (machine : Machine φ) (effect : Effect φ) :
    (machine.effect effect).2.filterMap Event.printed? = [] := by
  cases effect with
  | notice notice =>
      cases notice with
      | log record => rfl
      | signal signal =>
          cases signal with
          | hook handler | connected handler | received handler | closed handler | written handler
          | accepted handler => cases handler <;> rfl
  | consoleLog | keepProcedure | dropProcedure | opened => rfl

theorem reported_silent (silent : events.filterMap Event.printed? = []) :
    reported (machine, events) = [] := by
  simp only [reported, silent]
  split <;> rfl

/-- A piece prints the error that is owed, or else it prints nothing and the error is still
owed. -/
theorem Continues.reported {owed : Option ScriptError}
    (piece : Continues machine activity events next after)
    (before : Reported config history activity machine) (owes : activity.Owes owed) :
    (events.filterMap Event.printed? = [] ∧ next.Owes owed) ∨
      next = .idle ∧
        Machine.reported (after, events) = owed.toList.map (Console.errorLine ·.message) := by
  cases piece with
  | methodTells effect rest => exact .inl ⟨effect_printed _ effect, owes⟩
  | settlingTells effect rest outcome => exact .inl ⟨effect_printed _ effect, owes⟩
  | methodAsks call next =>
      cases owes
      exact .inr ⟨rfl, rfl⟩
  | settlingAsks call next outcome =>
      obtain ⟨reporting, rfl, allowed, -⟩ := owes
      refine .inr ⟨rfl, ?_⟩
      cases reporting with
      | requesting =>
          obtain ⟨request, rfl⟩ := allowed
          rfl
      | failed error =>
          cases allowed
          rfl
      | spent => cases allowed
  | settlingEnds bridge outcome =>
      obtain ⟨reporting, rfl, done⟩ := owes
      exact .inl ⟨rfl, done⟩
  | applies bridge outcome completion rest queued =>
      cases owes
      have sized := before.conforms.queue completion (by simp [queued])
      exact .inl ⟨rfl, _, rfl, Bridge.apply_reports before.conforms.activity sized⟩
  | methodEnds | adopts | startsBatch | resumesCaller | startsNext | pumpsAgain =>
      exact .inl ⟨rfl, owes⟩
  | returns bridge outcome | endsBatch outcome =>
      refine .inl ⟨?_, owes⟩
      cases outcome <;> rfl

theorem reported_invariant : Invariant (Reported (φ := φ) config) where
  begins := by
    intro history machine move events activity after reported begins
    have conforms := conforms_invariant.begins history reported.conforms begins
    have frames := reported.frames
    cases begins with
    | ignored | busy | invokeNothing | completeLater => exact ⟨conforms, ⟨none, rfl⟩, frames⟩
    | call method bridge free => exact ⟨conforms, ⟨none, rfl⟩, frames⟩
    | complete ticket payload bridge known free => exact ⟨conforms, ⟨none, rfl⟩, frames⟩
    | invoke closure arguments invocation owner =>
        exact ⟨conforms, ⟨none, rfl⟩, List.forall_mem_cons.mpr ⟨trivial, frames⟩⟩
    | answerMethod reply call next rest top =>
        rw [top, List.forall_mem_cons] at frames
        exact ⟨conforms, ⟨none, rfl⟩, frames.2⟩
    | answerSettling reply call next outcome rest top =>
        rw [top, List.forall_mem_cons] at frames
        obtain ⟨⟨reporting, -, later⟩, below⟩ := frames
        exact ⟨conforms, ⟨_, _, rfl, later (reply call)⟩, below⟩
    | printed reply owner line resume rest top | finish invocation owner resume rest top
    | unprinted reply owner line resume rest top =>
        rw [top, List.forall_mem_cons] at frames
        exact ⟨conforms, ⟨none, rfl⟩, frames.2⟩
    | throw thrown invocation owner resume rest top =>
        rw [top, List.forall_mem_cons] at frames
        exact ⟨conforms, ⟨none, rfl⟩, List.forall_mem_cons.mpr ⟨trivial, frames.2⟩⟩
  continues := by
    intro history activity machine events next after reported continues
    have conforms := conforms_invariant.continues history reported.conforms continues
    have frames := reported.frames
    have owes : ∃ owed, next.Owes owed := by
      obtain ⟨owed, owes⟩ := reported.activity
      rcases continues.reported reported owes with ⟨-, still⟩ | ⟨rfl, -⟩
      · exact ⟨owed, still⟩
      · exact ⟨none, rfl⟩
    refine ⟨conforms, owes, ?_⟩
    cases continues with
    | methodTells effect | settlingTells effect =>
        obtain ⟨-, -, same, -⟩ := machine.effect_frame effect
        exact same ▸ frames
    | methodAsks | startsBatch | startsNext => exact List.forall_mem_cons.mpr ⟨trivial, frames⟩
    | settlingAsks call next outcome =>
        obtain ⟨-, reporting, -, waits⟩ := reported.activity
        exact List.forall_mem_cons.mpr ⟨⟨reporting, waits⟩, frames⟩
    | methodEnds | settlingEnds | applies | adopts | returns | resumesCaller | pumpsAgain
    | endsBatch => exact frames

theorem start_reported (id : Nat) (config : SessionConfig) :
    Reported config [] .idle (Machine.start id config : Machine φ) :=
  ⟨start_conforms id config, ⟨none, rfl⟩, by simp [start]⟩

theorem reported_append {later : List (Event φ)} (silent : events.filterMap Event.printed? = []) :
    reported (machine, events ++ later) = reported (machine, later) := by
  simp [reported, silent]

/-- Until it is the environment's turn, the library prints the error that it owes and
nothing else. -/
theorem Finishes.reported {owed : Option ScriptError}
    (run : Finishes activity machine events after)
    (before : Reported config history activity machine) (owes : activity.Owes owed) :
    Machine.reported (after, events) = owed.toList.map (Console.errorLine ·.message) := by
  induction run generalizing history owed with
  | idle machine =>
      cases owes
      exact reported_silent rfl
  | step piece rest ih =>
      have between := reported_invariant.continues history before piece
      rcases piece.reported before owes with ⟨silent, still⟩ | ⟨rfl, printed⟩
      · rw [reported_append silent]
        exact ih between still
      · obtain ⟨rfl, rfl⟩ := rest.of_idle
        rw [List.append_nil]
        exact printed

/-- An answer goes on with the application of a completion. -/
def Settles (machine : Machine φ) (move : Move φ) : Prop :=
  ∃ reply call next outcome frames,
    move = .answer reply ∧ machine.frames = .settling call next outcome :: frames

theorem Settles.reported {move : Move φ} (settles : machine.Settles move)
    (before : Reported config history .idle machine) :
    Machine.reported (machine.step move) =
      (machine.refusal? move).toList.map (Console.errorLine ·.message) := by
  obtain ⟨reply, call, next, outcome, frames, rfl, top⟩ := settles
  have begins : Begins machine (.answer reply) [] (.settling (next (reply call)) outcome)
      (machine.returnTo frames) := .answerSettling machine reply call next outcome frames top
  have waits := before.frames _ (by rw [top]; exact List.mem_cons_self)
  obtain ⟨reporting, allowed, later⟩ := waits
  have owes : (Activity.settling (next (reply call)) outcome).Owes
      (machine.refusal? (.answer reply)) := by
    refine ⟨_, ?_, later (reply call)⟩
    simp only [refusal?, top]
    -- Only the answer to the request can be a refusal; the other call is the line itself.
    cases reporting with
    | requesting =>
        obtain ⟨request, rfl⟩ := allowed
        cases answer : reply (.socket request) <;> simp [answer] <;> rfl
    | failed error =>
        cases allowed
        rfl
    | spent => cases allowed
  have step : machine.step (.answer reply) =
      (machine.returnTo frames).advanceSettling (next (reply call)) outcome := by
    simp only [Machine.step, answer, top]
    rfl
  rw [step]
  exact (advanceSettling_finishes _ _ _).reported
    (reported_invariant.begins history before begins) owes

theorem refusal?_eq_none {move : Move φ} (settles : ¬ machine.Settles move) :
    machine.refusal? move = none := by
  cases move with
  | answer reply =>
      cases top : machine.frames with
      | nil => simp only [refusal?, top]
      | cons frame frames =>
          cases frame with
          | settling call next outcome => exact (settles ⟨_, _, _, _, _, rfl, top⟩).elim
          | method | script | reporting => simp only [refusal?, top]
  | call | complete | invoke | finish => rfl

/-- A move that does not go on with a completion prints at most the exception of a function
of the script. -/
theorem Begins.reported {move : Move φ} (begins : Begins machine move events activity after)
    (settles : ¬ machine.Settles move) :
    (events.filterMap Event.printed? = [] ∧ activity.Owes none) ∨
      activity = .idle ∧ Machine.reported (after, events) = [] := by
  cases begins with
  | answerSettling reply call next outcome frames top =>
      exact (settles ⟨_, _, _, _, _, rfl, top⟩).elim
  | throw => exact .inr ⟨rfl, rfl⟩
  | ignored | busy | call | completeLater | complete | invoke | invokeNothing | answerMethod
  | printed | unprinted | finish => exact .inl ⟨rfl, rfl⟩

/-- A move prints the error of the request that it refuses, and nothing else on behalf of
completions. -/
theorem step_reported (before : Reported config history .idle machine) (move : Move φ) :
    reported (machine.step move) =
      (machine.refusal? move).toList.map (Console.errorLine ·.message) := by
  by_cases settles : machine.Settles move
  · exact settles.reported before
  · obtain ⟨begun, activity, between, finished, begins, finishes, same⟩ :=
      (machine.step_turn move).split
    have observed : machine.step move = ((machine.step move).1, begun ++ finished) :=
      congrArg (Prod.mk _) same
    have kept := reported_invariant.begins history before begins
    rw [refusal?_eq_none settles, observed]
    rcases begins.reported settles with ⟨silent, owes⟩ | ⟨rfl, silent⟩
    · rw [reported_append silent]
      exact finishes.reported kept owes
    · obtain ⟨rfl, ended⟩ := finishes.of_idle
      rw [ended, List.append_nil]
      exact silent

theorem reports_eq (before : Reported config history .idle machine) (moves : List (Move φ)) :
    machine.reports moves = (machine.refusals moves).map (Console.errorLine ·.message) := by
  induction moves generalizing machine history with
  | nil => rfl
  | cons move rest ih =>
      have later := ih (reported_invariant.step history before move)
      simp only [reports, refusals, step_reported before move, later, List.map_append]

/-- The script that a session runs has its error printed as the configuration says. For a
completion whose request is refused, one line is printed in any case; so its errors are
reported as the configuration says only if it asks for reports, or if there are none. -/
theorem reported_as_configured_iff (environment : HostEnvironment κ σ) (session : Session κ)
    (script : Update κ (Session κ) α) (state : σ) (id : Nat) (config : SessionConfig)
    (moves : List (Move φ)) :
    let ended := ((script.on session).run environment state).1
    let machine : Machine φ := start id config
    HostProgram.printed environment (session.run script) state =
      HostProgram.printed environment (script.on session) state ++
        ended.2.config.reports (failures ended.1) ∧
    machine.reports moves = (machine.refusals moves).map (Console.errorLine ·.message) ∧
    (machine.reports moves = config.reports (machine.refusals moves) ↔
      config.reportErrorsToConsole = true ∨ machine.refusals moves = []) := by
  intro ended machine
  have printed := reports_eq (start_reported id config) moves
  refine ⟨session.run_printed environment script state, printed, ?_⟩
  rw [show machine.reports moves = (machine.refusals moves).map _ from printed,
    SessionConfig.reports]
  cases asked : config.reportErrorsToConsole <;> simp

def refusedReadMoves : List (Move Nat) :=
  [.call .createSocket, .answer (NativeTable.replies {}),
    .call (.onData 1 0), .answer (NativeTable.replies {}),
    .complete ⟨0, .read ⟨1⟩⟩ (some [97]),
    .answer (NativeTable.replies { emulator.failures := [⟨"read", 0, "no more"⟩] })]

/-- A session that wants no reports prints the error of a refused read. -/
theorem refused_read_printed :
    let machine : Machine Nat := start 0 { reportErrorsToConsole := false }
    machine.refusals refusedReadMoves = [.host ⟨"read", "no more"⟩] ∧
      machine.reports refusedReadMoves = ["error: host call `read` failed: no more\r\n"] := by
  decide +kernel

end Machine

end Engine

end EmuScript
