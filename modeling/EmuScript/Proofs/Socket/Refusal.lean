import EmuScript.Proofs.Outcome
import EmuScript.Proofs.Socket.Conduct
import EmuScript.Socket.Server

/-!
# Refused requests

A request that the emulator refuses should leave a socket or a server as it was. It does,
except for the two that install a handler before they ask: the handler of a refused `onData`
or `onConnection` stays in the place of the one before. Later completions show the
difference exactly if data or a client arrive before another handler is given.
-/

set_option autoImplicit false

namespace EmuScript

open Program

variable {κ σ τ ι : Type}

/-! ## Runs from two objects -/

/-- The handlers that operations on an object run, listed by operation. -/
def runs (environment : HostEnvironment κ σ) (update : ι → Update κ τ Unit) :
    List ι → τ → σ → List (List (Signal κ))
  | [], _, _ => []
  | operation :: rest, object, state =>
      let ended := (update operation).outcome environment object state
      ended.trace.signals :: runs environment update rest ended.object ended.state

/-- One of the operations shows a difference before one of them settles it. -/
inductive Exposed (environment : HostEnvironment κ σ) (update : ι → Update κ τ Unit)
    (settles : ι → Prop) (shows : ι → τ → σ → Prop) : List ι → τ → σ → Prop
  | now {operation : ι} {rest : List ι} {object : τ} {state : σ}
      (shown : shows operation object state) :
      Exposed environment update settles shows (operation :: rest) object state
  | later {operation : ι} {rest : List ι} {object : τ} {state : σ}
      (unsettled : ¬ settles operation)
      (exposed : Exposed environment update settles shows rest
        ((update operation).outcome environment object state).object
        ((update operation).outcome environment object state).state) :
      Exposed environment update settles shows (operation :: rest) object state

/-- How a difference of two objects fares: an operation shows it, settles it, or passes it
on. -/
structure Difference (environment : HostEnvironment κ σ) (update : ι → Update κ τ Unit)
    (settles : ι → Prop) (shows : ι → τ → σ → Prop) (apart : τ → τ → Prop) : Prop where
  shown : ∀ operation first second state, apart first second → shows operation first state →
    ((update operation).outcome environment first state).trace.signals ≠
      ((update operation).outcome environment second state).trace.signals
  settled : ∀ operation first second state, apart first second → settles operation →
    ¬ shows operation first state ∧
      (update operation).outcome environment first state =
        (update operation).outcome environment second state
  passed : ∀ operation first second state, apart first second → ¬ settles operation →
    ¬ shows operation first state →
    let one := (update operation).outcome environment first state
    let other := (update operation).outcome environment second state
    one.trace = other.trace ∧ one.state = other.state ∧ apart one.object other.object

theorem Difference.runs_eq_iff {environment : HostEnvironment κ σ} {update : ι → Update κ τ Unit}
    {settles : ι → Prop} {shows : ι → τ → σ → Prop} {apart : τ → τ → Prop}
    (difference : Difference environment update settles shows apart) (operations : List ι)
    {first second : τ} (state : σ) (differ : apart first second) :
    runs environment update operations first state =
        runs environment update operations second state ↔
      ¬ Exposed environment update settles shows operations first state := by
  -- While the difference is neither shown nor settled, both runs are in the same state and
  -- see the same, and the objects stay apart.
  induction operations generalizing first second state with
  | nil => exact ⟨fun _ => nofun, fun _ => rfl⟩
  | cons operation rest ih =>
      by_cases shown : shows operation first state
      · refine ⟨fun same => ?_, fun hidden => (hidden (.now shown)).elim⟩
        exact (difference.shown operation first second state differ shown
          (List.cons_eq_cons.mp same).1).elim
      · by_cases settled : settles operation
        · obtain ⟨-, same⟩ := difference.settled operation first second state differ settled
          have hidden : ¬ Exposed environment update settles shows (operation :: rest) first
              state := by
            rintro (now | ⟨unsettled, -⟩)
            · exact shown now
            · exact unsettled settled
          simp only [runs, same, hidden, not_false_iff]
        · obtain ⟨trace, between, apart⟩ :=
            difference.passed operation first second state differ settled shown
          have step : Exposed environment update settles shows (operation :: rest) first state ↔
              Exposed environment update settles shows rest
                ((update operation).outcome environment first state).object
                ((update operation).outcome environment first state).state := by
            constructor
            · rintro (now | ⟨-, exposed⟩)
              · exact (shown now).elim
              · exact exposed
            · exact .later settled
          rw [step, ← ih _ apart]
          simp only [runs, trace, between, List.cons.injEq, true_and]

/-- An object that a handler may have been given to, and the object before that, have the same
runs unless the handler is another one and shows. -/
theorem runs_eq_iff_of_given {environment : HostEnvironment κ σ} {update : ι → Update κ τ Unit}
    {settles : ι → Prop} {shows : ι → τ → σ → Prop} {handler? : τ → Option κ} {put : κ → τ → τ}
    (differences : ∀ handler, Difference environment update settles shows fun first second =>
      handler? first ≠ some handler ∧ second = put handler first)
    {before after : τ} {given : Option κ}
    (same_iff : after = before ↔ ∀ handler, given = some handler → handler? before = some handler)
    (left : ∀ handler, given = some handler → after = put handler before)
    (operations : List ι) (state : σ) :
    runs environment update operations after state =
        runs environment update operations before state ↔
      after = before ∨ ¬ Exposed environment update settles shows operations before state := by
  by_cases same : after = before
  · simp [same]
  · obtain ⟨handler, own, other⟩ : ∃ handler, given = some handler ∧
        handler? before ≠ some handler := by
      simpa [same_iff] using same
    rw [eq_comm, (differences handler).runs_eq_iff operations state ⟨other, left handler own⟩]
    simp [same]

/-- An update that does the same on two objects, up to a change of the object. -/
theorem Update.outcome_of_on {α : Type} {update : Update κ τ α} {first second : τ}
    (change : τ → τ)
    (same : update.on second = (update.on first).bind fun ended => done (ended.1, change ended.2))
    (environment : HostEnvironment κ σ) (state : σ) :
    update.outcome environment second state =
      { update.outcome environment first state with
        object := change (update.outcome environment first state).object } := by
  simp only [Update.outcome, same, run_bind, trace_bind]
  simp [run, trace]

/-! ## Sockets -/

namespace Socket

theorem dataHandler_or_eq_iff (socket : Socket κ) (given : Option κ) :
    { socket with dataHandler := given.or socket.dataHandler } = socket ↔
      ∀ handler, given = some handler → socket.dataHandler = some handler := by
  cases socket
  cases given <;> simp [eq_comm]

namespace Operation

def dataGiven : Operation κ → Option κ
  | onData handler => some handler
  | connect _ _ _ | deliverConnect | onClose _ | deliverRead _ | write _ _ | deliverWrite | close =>
      none

/-- Data arrive, and the emulator takes the request for more. -/
def TakesData (environment : HostEnvironment κ σ) (operation : Operation κ) (socket : Socket κ)
    (state : σ) : Prop :=
  ∃ data, operation = deliverRead (some data) ∧
    (environment.answer (.socket (.read socket.fd socket.bufferSize)) state).1 = .ok ()

theorem of_refused {environment : HostEnvironment κ σ} {operation : Operation κ}
    {socket : Socket κ} {state : σ} {error : ScriptError}
    (refused : (operation.update.outcome environment socket state).result = .error error) :
    (∃ cause, error = .host cause) ∧
      (operation.update.outcome environment socket state).object =
        { socket with dataHandler := operation.dataGiven.or socket.dataHandler } := by
  have conduct : Conduct socket (operation.observed environment socket state) :=
    operation.observed_conduct socket state
  have result : (operation.observed environment socket state).result = .error error := refused
  have own : (operation.observed environment socket state).operation = operation := rfl
  -- The conduct of a socket is about observations, whose parts must be free to be told apart.
  change _ ∧ (operation.observed environment socket state).after = _
  generalize operation.observed environment socket state = observation at conduct result own ⊢
  cases conduct with
  | connectRefused | onDataRefused | lost | writeRefused | closeRefused =>
      cases result
      subst own
      exact ⟨⟨_, rfl⟩, rfl⟩
  | _ => cases result

theorem dataHandler_kept {operation : Operation κ} (other : operation.dataGiven = none)
    (environment : HostEnvironment κ σ) (socket : Socket κ) (state : σ) :
    (operation.update.outcome environment socket state).object.dataHandler =
      socket.dataHandler := by
  have conduct : Conduct socket (operation.observed environment socket state) :=
    operation.observed_conduct socket state
  have own : (operation.observed environment socket state).operation = operation := rfl
  change (operation.observed environment socket state).after.dataHandler = _
  generalize operation.observed environment socket state = observation at conduct own ⊢
  cases conduct with
  | onDataTaken | onDataRefused =>
      subst own
      cases other
  | _ => rfl

theorem update_on_dataHandler {operation : Operation κ} (handler : κ) (socket : Socket κ)
    (other : operation.dataGiven = none)
    (silent : ∀ data, operation ≠ deliverRead (some data)) :
    operation.update.on { socket with dataHandler := some handler } =
      (operation.update.on socket).bind fun ended =>
        done (ended.1, { ended.2 with dataHandler := some handler }) := by
  -- The flag and the handlers are what the programs branch on.
  cases socket with
  | mk fd connected bufferSize defaultHost defaultPort data closeHandler connectHandler pending =>
  cases operation with
  | onData given => cases other
  | onClose given => rfl
  | connect host port given =>
      cases connected with
      | true => rfl
      | false =>
          refine congrArg (Program.ask _) (funext fun reply => ?_)
          cases reply <;> rfl
  | deliverConnect => cases connectHandler <;> rfl
  | deliverRead chunk =>
      cases chunk with
      | some bytes => exact (silent bytes rfl).elim
      | none => cases closeHandler <;> rfl
  | write bytes given =>
      refine congrArg (Program.ask _) (funext fun reply => ?_)
      cases reply <;> rfl
  | deliverWrite =>
      cases pending with
      | nil => rfl
      | cons oldest rest => cases oldest <;> rfl
  | close =>
      refine congrArg (Program.ask _) (funext fun reply => ?_)
      cases reply <;> rfl

theorem deliverRead_taken {environment : HostEnvironment κ σ} (socket : Socket κ) {state : σ}
    (taken : (environment.answer (.socket (.read socket.fd socket.bufferSize)) state).1 = .ok ())
    (data : Bytes) :
    ((deliverRead (some data)).update.outcome environment socket state).trace.signals =
      socket.dataHandler.toList.map (.received · data) := by
  simp only [Update.outcome, update, deliverRead_some_on, trace, run_ask, taken, emitTo_on]
  cases socket.dataHandler with
  | none => rfl
  | some handler => rfl

theorem deliverRead_refused {environment : HostEnvironment κ σ} (socket : Socket κ) {state : σ}
    {error : HostError}
    (refused : (environment.answer (.socket (.read socket.fd socket.bufferSize)) state).1 =
      .error error) (data : Bytes) :
    (deliverRead (some data)).update.outcome environment socket state =
      ⟨[.asked (.socket (.read socket.fd socket.bufferSize)) (.error error)],
        .error (.host error), socket,
        (environment.answer (.socket (.read socket.fd socket.bufferSize)) state).2⟩ := by
  simp only [Update.outcome, update, deliverRead_some_on, trace, run_ask, refused]
  rfl

/-- Another data handler is shown by the next data that are taken, and settled by the next
handler. -/
theorem dataHandler_difference (environment : HostEnvironment κ σ) (handler : κ) :
    Difference environment update (fun operation => operation.dataGiven.isSome)
      (TakesData environment) fun first second =>
        first.dataHandler ≠ some handler ∧ second = { first with dataHandler := some handler } where
  shown operation first second state apart shown := by
    obtain ⟨differ, rfl⟩ := apart
    obtain ⟨data, rfl, taken⟩ := shown
    rw [deliverRead_taken first taken,
      deliverRead_taken { first with dataHandler := some handler } taken]
    cases present : first.dataHandler with
    | none => simp
    | some other => simpa [present] using differ
  settled operation first second state apart settled := by
    obtain ⟨-, rfl⟩ := apart
    cases operation with
    | onData given => exact ⟨by simp [TakesData], rfl⟩
    | _ => cases settled
  passed operation first second state apart unsettled hidden := by
    obtain ⟨differ, rfl⟩ := apart
    have other : operation.dataGiven = none := Option.not_isSome_iff_eq_none.mp unsettled
    by_cases data : ∃ data, operation = deliverRead (some data)
    · obtain ⟨data, rfl⟩ := data
      cases reply : (environment.answer (.socket (.read first.fd first.bufferSize)) state).1 with
      | ok value => exact (hidden ⟨data, rfl, reply⟩).elim
      | error error =>
          rw [deliverRead_refused first reply,
            deliverRead_refused { first with dataHandler := some handler } reply]
          exact ⟨rfl, rfl, differ, rfl⟩
    · -- Nothing else looks at the data handler.
      have same := Update.outcome_of_on (fun socket : Socket κ => { socket with dataHandler := some handler })
        (update_on_dataHandler handler first other fun bytes same => data ⟨bytes, same⟩)
        environment state
      rw [same]
      exact ⟨rfl, rfl, dataHandler_kept other environment first state ▸ differ, rfl⟩

end Operation

end Socket

/-! ## Servers -/

namespace Server

inductive Operation (κ : Type) where
  | listen (port : UInt16)
  | onConnection (handler : κ)
  | deliverAccept (client : SocketFd)

theorem connectionHandler_or_eq_iff (server : Server κ) (given : Option κ) :
    { server with connectionHandler := given.or server.connectionHandler } = server ↔
      ∀ handler, given = some handler → server.connectionHandler = some handler := by
  cases server
  cases given <;> simp [eq_comm]

theorem listen_on (port : UInt16) (server : Server κ) :
    (listen port).on server =
      .ask (.socket (.listen server.fd port)) fun
        | .ok () =>
            .tell (.log ⟨.debug, s!"server {server.fd.value.toNat}: listening on {port.toNat}"⟩)
              (.done (.ok (), server))
        | .error error => .done (.error (.host error), server) := by
  refine congrArg (Program.ask _) (funext fun reply => ?_)
  cases reply with
  | ok value => rfl
  | error error => rfl

theorem acceptNext_on (server : Server κ) :
    acceptNext.on server =
      .ask (.socket (.accept server.fd)) fun reply =>
        .done (reply.mapError .host, server) := by
  refine congrArg (Program.ask _) (funext fun reply => ?_)
  cases reply with
  | ok value => rfl
  | error error => rfl

theorem onConnection_on (handler : κ) (server : Server κ) :
    (onConnection handler).on server =
      acceptNext.on { server with connectionHandler := some handler } := rfl

theorem deliverAccept_on (client : SocketFd) (server : Server κ) :
    (deliverAccept client).on server =
      .tell (.log ⟨.debug,
        s!"server {server.fd.value.toNat}: accepted client {client.value.toNat}"⟩)
        (match server.connectionHandler with
        | none => acceptNext.on server
        | some handler =>
            .tell (.signal (.accepted handler (Socket.accepted client server.config)))
              (acceptNext.on server)) := by
  obtain ⟨fd, config, handler⟩ := server
  cases handler with
  | none => rfl
  | some handler => rfl

namespace Operation

def update : Operation κ → Update κ (Server κ) Unit
  | listen port => Server.listen port
  | onConnection handler => Server.onConnection handler
  | deliverAccept client => Server.deliverAccept client

def handlerGiven : Operation κ → Option κ
  | onConnection handler => some handler
  | listen _ | deliverAccept _ => none

/-- A client arrives. The handler runs also when the request for the next one is refused. -/
def BringsClient (operation : Operation κ) : Prop :=
  ∃ client, operation = deliverAccept client

/-- A server's operations fail with errors of the emulator only. Whatever they are answered,
they change nothing but the handler. -/
theorem update_ends (operation : Operation κ) (server : Server κ) :
    (operation.update.on server).Meets {
      ends := fun ended =>
        (∀ error, ended.1 = .error error → ∃ cause, error = .host cause) ∧
          ended.2 =
            { server with
              connectionHandler := operation.handlerGiven.or server.connectionHandler } } := by
  have asked (server : Server κ) : (acceptNext.on server).Meets {
      ends := fun ended =>
        (∀ error, ended.1 = .error error → ∃ cause, error = .host cause) ∧ ended.2 = server } := by
    rw [acceptNext_on]
    refine ⟨trivial, fun reply => ⟨fun error failed => ?_, rfl⟩⟩
    cases reply with
    | ok value => cases failed
    | error cause => cases failed; exact ⟨cause, rfl⟩
  cases operation with
  | listen port =>
      rw [update, listen_on]
      refine ⟨trivial, fun reply => ?_⟩
      cases reply with
      | ok value => exact ⟨trivial, nofun, rfl⟩
      | error cause => exact ⟨fun error failed => by cases failed; exact ⟨cause, rfl⟩, rfl⟩
  | onConnection handler =>
      rw [update, onConnection_on]
      exact asked _
  | deliverAccept client =>
      rw [update, deliverAccept_on]
      refine ⟨trivial, ?_⟩
      obtain ⟨fd, config, handler⟩ := server
      cases handler with
      | none => exact asked _
      | some handler => exact ⟨trivial, asked _⟩

theorem update_on_connectionHandler (port : UInt16) (handler : κ) (server : Server κ) :
    (listen port).update.on { server with connectionHandler := some handler } =
      ((listen port).update.on server).bind fun ended =>
        done (ended.1, { ended.2 with connectionHandler := some handler }) := by
  refine congrArg (Program.ask _) (funext fun reply => ?_)
  cases reply with
  | ok value => rfl
  | error error => rfl

theorem deliverAccept_signals (environment : HostEnvironment κ σ) (client : SocketFd)
    (server : Server κ) (state : σ) :
    ((deliverAccept client).update.outcome environment server state).trace.signals =
      server.connectionHandler.toList.map
        (.accepted · (Socket.accepted client server.config)) := by
  simp only [Update.outcome, update, deliverAccept_on, trace]
  cases server.connectionHandler with
  | none => simp only [acceptNext_on]; rfl
  | some handler => simp only [acceptNext_on]; rfl

/-- Another connection handler is shown by the next client, and settled by the next
handler. -/
theorem connectionHandler_difference (environment : HostEnvironment κ σ) (handler : κ) :
    Difference environment update (fun operation => operation.handlerGiven.isSome)
      (fun operation _ _ => operation.BringsClient) fun first second =>
        first.connectionHandler ≠ some handler ∧
          second = { first with connectionHandler := some handler } where
  shown operation first second state apart shown := by
    obtain ⟨differ, rfl⟩ := apart
    obtain ⟨client, rfl⟩ := shown
    rw [deliverAccept_signals, deliverAccept_signals]
    cases present : first.connectionHandler with
    | none => simp
    | some other => simpa [present] using differ
  settled operation first second state apart settled := by
    obtain ⟨-, rfl⟩ := apart
    cases operation with
    | onConnection given => exact ⟨by simp [BringsClient], rfl⟩
    | listen | deliverAccept => cases settled
  passed operation first second state apart unsettled hidden := by
    obtain ⟨differ, rfl⟩ := apart
    cases operation with
    | onConnection given => exact (unsettled rfl).elim
    | deliverAccept client => exact (hidden ⟨client, rfl⟩).elim
    | listen port =>
        have same := Update.outcome_of_on
          (fun server : Server κ => { server with connectionHandler := some handler })
          (update_on_connectionHandler port handler first) environment state
        have kept : ((listen port).update.outcome environment first state).object = first :=
          ((update_ends (listen port) first).run_trace environment state).1.2
        rw [same]
        exact ⟨rfl, rfl, kept.symm ▸ differ, rfl⟩

end Operation

end Server

/-! ## Refusals -/

/-- A request that is refused fails with an error of the emulator and leaves the object as it
was, but for the handler that came with it. The handlers that are run later are those that
would have been run without the request, exactly if the handler was in place before or no
data that are taken, or no client, arrive before another one is given. -/
theorem refusals_shown_iff (environment : HostEnvironment κ σ) (state : σ) :
    (∀ (operation : Socket.Operation κ) (socket : Socket κ) (error : ScriptError),
      let ended := operation.update.outcome environment socket state
      ended.result = .error error →
        (∃ cause, error = .host cause) ∧
        ended.object =
          { socket with dataHandler := operation.dataGiven.or socket.dataHandler } ∧
        (ended.object = socket ↔
          ∀ handler, operation.dataGiven = some handler → socket.dataHandler = some handler) ∧
        ∀ later,
          runs environment Socket.Operation.update later ended.object ended.state =
              runs environment Socket.Operation.update later socket ended.state ↔
            ended.object = socket ∨
              ¬ Exposed environment Socket.Operation.update (·.dataGiven.isSome)
                (Socket.Operation.TakesData environment) later socket ended.state) ∧
    (∀ (operation : Server.Operation κ) (server : Server κ) (error : ScriptError),
      let ended := operation.update.outcome environment server state
      ended.result = .error error →
        (∃ cause, error = .host cause) ∧
        ended.object =
          { server with
            connectionHandler := operation.handlerGiven.or server.connectionHandler } ∧
        (ended.object = server ↔
          ∀ handler, operation.handlerGiven = some handler →
            server.connectionHandler = some handler) ∧
        ∀ later,
          runs environment Server.Operation.update later ended.object ended.state =
              runs environment Server.Operation.update later server ended.state ↔
            ended.object = server ∨
              ¬ Exposed environment Server.Operation.update (·.handlerGiven.isSome)
                (fun operation _ _ => operation.BringsClient) later server ended.state) := by
  constructor
  · intro operation socket error ended refused
    obtain ⟨cause, left⟩ := Socket.Operation.of_refused refused
    have left : ended.object =
        { socket with dataHandler := operation.dataGiven.or socket.dataHandler } := left
    have same_iff := left ▸ socket.dataHandler_or_eq_iff operation.dataGiven
    refine ⟨cause, left, same_iff, fun later => ?_⟩
    refine runs_eq_iff_of_given (Socket.Operation.dataHandler_difference environment) same_iff
      (fun handler given => ?_) later ended.state
    rw [left, given]
    rfl
  · intro operation server error ended refused
    obtain ⟨failed, left⟩ := ((operation.update_ends server).run_trace environment state).1
    have left : ended.object =
        { server with
          connectionHandler := operation.handlerGiven.or server.connectionHandler } := left
    have same_iff := left ▸ server.connectionHandler_or_eq_iff operation.handlerGiven
    refine ⟨failed error refused, left, same_iff, fun later => ?_⟩
    refine runs_eq_iff_of_given (Server.Operation.connectionHandler_difference environment) same_iff
      (fun handler given => ?_) later ended.state
    rw [left, given]
    rfl

/-- An emulator that refuses requests where the list says so. -/
def wary : HostEnvironment String (Emulator String × List Bool) where
  answer call state :=
    if state.2.head? = some false then (.error ⟨call.primitive, "busy"⟩, state.1, state.2.tail)
    else
      let (reply, emulator) := state.1.serve call
      (reply, emulator, state.2.tail)
  note _ state := state

/-- Both handlers are refused and stay. The next data and the next client show it, unless a
third handler is given first. -/
theorem refusals_shown_iff_of_wary :
    let socket : Socket String := { Socket.ofFd ⟨1⟩ true {} with dataHandler := some "first" }
    let server : Server String := { fd := ⟨2⟩, config := {}, connectionHandler := some "first" }
    let unread := (Socket.Operation.onData "second").update.outcome wary socket ({}, [false])
    let unserved := (Server.Operation.onConnection "second").update.outcome wary server ({}, [false])
    unread.object = { socket with dataHandler := some "second" } ∧
      runs wary Socket.Operation.update [.deliverRead (some [97])] unread.object unread.state ≠
        runs wary Socket.Operation.update [.deliverRead (some [97])] socket unread.state ∧
      runs wary Socket.Operation.update [.onData "third", .deliverRead (some [97])]
          unread.object unread.state =
        runs wary Socket.Operation.update [.onData "third", .deliverRead (some [97])]
          socket unread.state ∧
      unserved.object = { server with connectionHandler := some "second" } ∧
      runs wary Server.Operation.update [.listen 80, .deliverAccept ⟨3⟩]
          unserved.object unserved.state ≠
        runs wary Server.Operation.update [.listen 80, .deliverAccept ⟨3⟩]
          server unserved.state := by
  intro socket server unread unserved
  obtain ⟨sockets, servers⟩ := refusals_shown_iff wary ({}, [false])
  obtain ⟨-, reading, readingSame, reads⟩ :=
    sockets (.onData "second") socket (.host ⟨"read", "busy"⟩) (by decide +kernel)
  obtain ⟨-, serving, servingSame, serves⟩ :=
    servers (.onConnection "second") server (.host ⟨"sockAccept", "busy"⟩) (by decide +kernel)
  have readingOther : unread.object ≠ socket := fun same =>
    absurd (readingSame.mp same "second" rfl) (by decide)
  have servingOther : unserved.object ≠ server := fun same =>
    absurd (servingSame.mp same "second" rfl) (by decide)
  refine ⟨reading, fun same => ?_, (reads _).mpr (.inr ?_), serving, fun same => ?_⟩
  · refine ((reads _).mp same).elim readingOther fun hidden => hidden (.now ⟨[97], rfl, ?_⟩)
    decide +kernel
  · rintro (⟨_, taken, -⟩ | ⟨unsettled, -⟩)
    · cases taken
    · exact unsettled rfl
  · refine ((serves _).mp same).elim servingOther fun hidden => hidden (.later (by decide) ?_)
    exact .now ⟨⟨3⟩, rfl⟩

/-- A read is under way when a second data handler is given and refused. The data go to
it. -/
theorem refused_handler_receives :
    let environment := Emulator.environment String
    let reading := (Socket.Operation.onData "first").update.outcome environment
      (Socket.ofFd ⟨1⟩ false {}) {}
    let refused := (Socket.Operation.onData "second").update.outcome environment reading.object
      (Emulator.injectFailure ⟨"read", 0, "injected failure"⟩ reading.state)
    let healed : Emulator String := { refused.state with failures := [] }
    let arrival : List (Socket.Operation String) := [.deliverRead (some [97])]
    reading.result = .ok () ∧
      refused.result = .error (.host ⟨"read", "injected failure"⟩) ∧
      refused.object ≠ reading.object ∧
      runs environment Socket.Operation.update arrival reading.object healed =
        [[.received "first" [97]]] ∧
      runs environment Socket.Operation.update arrival refused.object healed =
        [[.received "second" [97]]] := by
  intro environment reading refused healed arrival
  refine ⟨by decide +kernel, by decide +kernel, fun same => ?_, by rfl, by rfl⟩
  have handlers := congrArg Socket.dataHandler same
  revert handlers
  decide +kernel

end EmuScript
