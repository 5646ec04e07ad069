import EmuScript.Proofs.Socket.Writes
import Mathlib.Data.List.Induction

/-!
# What operations do to a socket

Every operation on a socket has a few outcomes, which its answers from the emulator
tell apart. Each of them is given here as a whole: what the emulator sees, the result,
and the socket afterwards. A socket's life is a list of such outcomes in which each
begins where the one before has ended.
-/

set_option autoImplicit false

namespace EmuScript.Socket

open Program

variable {κ σ : Type}

/-! ## Operations that make a request -/

theorem connect_on (host : Option String) (port : Option UInt16) (handler : κ)
    (socket : Socket κ) (idle : socket.connected = false) :
    (connect host port handler).on socket =
      let target := host.getD socket.defaultHost
      let port := port.getD socket.defaultPort
      .ask (.socket (.connect socket.fd target port)) fun
        | .ok () =>
            .tell (.log ⟨.debug,
              s!"socket {socket.fd.value.toNat}: connecting to {target}:{port.toNat}"⟩)
              (.done (.ok (), { socket with connectHandler := some handler }))
        | .error error => .done (.error (.host error), socket) := by
  cases socket
  cases idle
  refine congrArg (Program.ask _) (funext fun reply => ?_)
  cases reply with
  | ok value => rfl
  | error error => rfl

theorem onData_on (handler : κ) (socket : Socket κ) :
    (onData handler).on socket =
      let socket := { socket with dataHandler := some handler }
      .ask (.socket (.read socket.fd socket.bufferSize)) fun
        | .ok () => .done (.ok (), socket)
        | .error error => .done (.error (.host error), socket) := by
  refine congrArg (Program.ask _) (funext fun reply => ?_)
  cases reply with
  | ok value => rfl
  | error error => rfl

theorem deliverRead_some_on (data : Bytes) (socket : Socket κ) :
    (deliverRead (some data)).on socket =
      .ask (.socket (.read socket.fd socket.bufferSize)) fun
        | .ok () => (Update.emitTo socket.dataHandler (.received · data)).on socket
        | .error error => .done (.error (.host error), socket) := by
  refine congrArg (Program.ask _) (funext fun reply => ?_)
  cases reply with
  | ok value => rfl
  | error error => rfl

theorem close_on (socket : Socket κ) :
    close.on socket =
      .ask (.socket (.close socket.fd)) fun
        | .ok () => .done (.ok (), { socket with connected := false })
        | .error error => .done (.error (.host error), socket) := by
  refine congrArg (Program.ask _) (funext fun reply => ?_)
  cases reply with
  | ok value => rfl
  | error error => rfl

theorem emitTo_on (handler : Option κ) (signal : κ → Signal κ) (socket : Socket κ) :
    (Update.emitTo handler signal).on socket =
      match handler with
      | none => .done (.ok (), socket)
      | some handler => .tell (.signal (signal handler)) (.done (.ok (), socket)) := by
  cases handler with
  | none => rfl
  | some handler => rfl

/-! ## Outcomes -/

/-- What the emulator sees of a handler that is run, if there is one. -/
def shown (handler : Option κ) (signal : κ → Signal κ) :
    List (Happening (HostCall κ) HostCall.Reply (Notice κ)) :=
  handler.toList.map fun handler => .told (.signal (signal handler))

/-- The outcomes of the operations on a socket. -/
inductive Conduct (socket : Socket κ) : Observation κ → Prop where
  | connectSkipped (host : Option String) (port : Option UInt16) (handler : κ)
      (connected : socket.connected = true) :
      Conduct socket ⟨.connect host port handler, socket, [], .ok (), socket⟩
  | connectTaken (host : Option String) (port : Option UInt16) (handler : κ) (record : LogRecord)
      (idle : socket.connected = false) :
      Conduct socket ⟨.connect host port handler, socket,
        [.asked (.socket (.connect socket.fd (host.getD socket.defaultHost)
          (port.getD socket.defaultPort))) (.ok ()), .told (.log record)],
        .ok (), { socket with connectHandler := some handler }⟩
  | connectRefused (host : Option String) (port : Option UInt16) (handler : κ)
      (error : HostError) (idle : socket.connected = false) :
      Conduct socket ⟨.connect host port handler, socket,
        [.asked (.socket (.connect socket.fd (host.getD socket.defaultHost)
          (port.getD socket.defaultPort))) (.error error)],
        .error (.host error), socket⟩
  | connected :
      Conduct socket ⟨.deliverConnect, socket, shown socket.connectHandler .connected, .ok (),
        { socket with connected := true }⟩
  | onDataTaken (handler : κ) :
      Conduct socket ⟨.onData handler, socket,
        [.asked (.socket (.read socket.fd socket.bufferSize)) (.ok ())],
        .ok (), { socket with dataHandler := some handler }⟩
  | onDataRefused (handler : κ) (error : HostError) :
      Conduct socket ⟨.onData handler, socket,
        [.asked (.socket (.read socket.fd socket.bufferSize)) (.error error)],
        .error (.host error), { socket with dataHandler := some handler }⟩
  | onClose (handler : κ) :
      Conduct socket ⟨.onClose handler, socket, [], .ok (),
        { socket with closeHandler := some handler }⟩
  | ended (record : LogRecord) :
      Conduct socket ⟨.deliverRead none, socket,
        .told (.log record) :: shown socket.closeHandler .closed, .ok (),
        { socket with connected := false }⟩
  | received (data : Bytes) :
      Conduct socket ⟨.deliverRead (some data), socket,
        .asked (.socket (.read socket.fd socket.bufferSize)) (.ok ()) ::
          shown socket.dataHandler (.received · data),
        .ok (), socket⟩
  | lost (data : Bytes) (error : HostError) :
      Conduct socket ⟨.deliverRead (some data), socket,
        [.asked (.socket (.read socket.fd socket.bufferSize)) (.error error)],
        .error (.host error), socket⟩
  | writeTaken (data : Bytes) (handler : Option κ) :
      Conduct socket ⟨.write data handler, socket,
        [.asked (.socket (.write socket.fd data)) (.ok ())], .ok (),
        { socket with pendingWrites := socket.pendingWrites ++ [handler] }⟩
  | writeRefused (data : Bytes) (handler : Option κ) (error : HostError) :
      Conduct socket ⟨.write data handler, socket,
        [.asked (.socket (.write socket.fd data)) (.error error)], .error (.host error), socket⟩
  | written (handler : Option κ) (rest : List (Option κ))
      (pending : socket.pendingWrites = handler :: rest) :
      Conduct socket ⟨.deliverWrite, socket, shown handler .written, .ok (),
        { socket with pendingWrites := rest }⟩
  | nothingWritten (record : LogRecord) (pending : socket.pendingWrites = []) :
      Conduct socket ⟨.deliverWrite, socket, [.told (.log record)], .ok (), socket⟩
  | closed :
      Conduct socket ⟨.close, socket, [.asked (.socket (.close socket.fd)) (.ok ())], .ok (),
        { socket with connected := false }⟩
  | closeRefused (error : HostError) :
      Conduct socket ⟨.close, socket, [.asked (.socket (.close socket.fd)) (.error error)],
        .error (.host error), socket⟩

theorem Conduct.before_eq {socket : Socket κ} {observation : Observation κ}
    (conduct : Conduct socket observation) : observation.before = socket := by
  cases conduct <;> rfl

variable {environment : HostEnvironment κ σ}

theorem Operation.observed_conduct (operation : Operation κ) (socket : Socket κ) (state : σ) :
    Conduct socket (operation.observed environment socket state) := by
  cases operation with
  | connect host port handler =>
      cases connected : socket.connected with
      | true =>
          have skipped : (Operation.connect host port handler).observed environment socket state =
              ⟨.connect host port handler, socket, [], .ok (), socket⟩ := by
            cases socket
            cases connected
            rfl
          rw [skipped]
          exact .connectSkipped host port handler connected
      | false =>
          rw [Operation.observed, Operation.update, connect_on host port handler socket connected]
          simp only [run_ask, trace]
          cases (environment.answer (.socket (.connect socket.fd (host.getD socket.defaultHost)
            (port.getD socket.defaultPort))) state).1 with
          | ok value => exact .connectTaken host port handler _ connected
          | error error => exact .connectRefused host port handler error connected
  | deliverConnect =>
      cases socket with
      | mk fd connected bufferSize defaultHost defaultPort dataHandler closeHandler handler =>
          cases handler <;> exact .connected
  | onData handler =>
      rw [Operation.observed, Operation.update, onData_on]
      simp only [run_ask, trace]
      cases (environment.answer (.socket (.read socket.fd socket.bufferSize)) state).1 with
      | ok value => exact .onDataTaken handler
      | error error => exact .onDataRefused handler error
  | onClose handler => exact .onClose handler
  | deliverRead data =>
      cases data with
      | none =>
          cases socket with
          | mk fd connected bufferSize defaultHost defaultPort dataHandler handler =>
              cases handler <;> exact .ended _
      | some data =>
          rw [Operation.observed, Operation.update, deliverRead_some_on]
          simp only [run_ask, trace]
          cases (environment.answer (.socket (.read socket.fd socket.bufferSize)) state).1 with
          | error error => exact .lost data error
          | ok value =>
              have received : Conduct socket _ := .received data
              cases handler : socket.dataHandler with
              | none => simpa [emitTo_on, run, trace, shown, handler] using received
              | some handler => simpa [emitTo_on, run, trace, shown, handler] using received
  | write data handler =>
      rw [Operation.observed, Operation.update, write_on]
      simp only [run_ask, trace]
      cases (environment.answer (.socket (.write socket.fd data)) state).1 with
      | ok value => exact .writeTaken data handler
      | error error => exact .writeRefused data handler error
  | deliverWrite =>
      rw [Operation.observed, Operation.update, deliverWrite_on]
      cases pending : socket.pendingWrites with
      | nil => exact .nothingWritten _ pending
      | cons oldest rest =>
          have written : Conduct socket _ := .written oldest rest pending
          cases oldest <;> exact written
  | close =>
      rw [Operation.observed, Operation.update, close_on]
      simp only [run_ask, trace]
      cases (environment.answer (.socket (.close socket.fd)) state).1 with
      | ok value => exact .closed
      | error error => exact .closeRefused error

/-! ## Lives -/

/-- The observations are those of one socket, each beginning where the one before has
ended. -/
def Lives : Socket κ → List (Observation κ) → Prop
  | _, [] => True
  | socket, observation :: rest => Conduct socket observation ∧ Lives observation.after rest

theorem history_lives (operations : List (Operation κ)) (socket : Socket κ) (state : σ) :
    Lives socket (history environment operations socket state) := by
  induction operations generalizing socket state with
  | nil => exact trivial
  | cons operation rest ih => exact ⟨operation.observed_conduct socket state, ih _ _⟩

theorem latest_append (socket : Socket κ) (past later : List (Observation κ)) :
    latest socket (past ++ later) = latest (latest socket past) later := by
  induction past generalizing socket with
  | nil => rfl
  | cons observation rest ih => exact ih observation.after

theorem lives_append {socket : Socket κ} {past later : List (Observation κ)} :
    Lives socket (past ++ later) ↔ Lives socket past ∧ Lives (latest socket past) later := by
  induction past generalizing socket with
  | nil => simp [Lives, latest]
  | cons observation rest ih => exact (and_congr_right fun _ => ih).trans and_assoc.symm

/-- The next observation in a life begins where the ones before it have ended. -/
theorem Lives.next {socket : Socket κ} {history past : List (Observation κ)}
    {observation : Observation κ} (lives : Lives socket history)
    (isPrefix : past ++ [observation] <+: history) :
    Lives socket past ∧ Conduct (latest socket past) observation := by
  obtain ⟨later, rfl⟩ := isPrefix
  obtain ⟨before, conduct, -⟩ := lives_append.mp (List.append_assoc past _ later ▸ lives)
  exact ⟨before, conduct⟩

theorem Lives.of_prefix {socket : Socket κ} {history past : List (Observation κ)}
    (lives : Lives socket history) (isPrefix : past <+: history) : Lives socket past := by
  obtain ⟨later, rfl⟩ := isPrefix
  exact (lives_append.mp lives).1

theorem prefix_of_mem {history : List (Observation κ)} {observation : Observation κ}
    (member : observation ∈ history) : ∃ past, past ++ [observation] <+: history := by
  obtain ⟨past, later, rfl⟩ := List.append_of_mem member
  exact ⟨past, later, by simp⟩

/-- What every outcome preserves holds throughout a life. -/
theorem Lives.preserves {socket : Socket κ} {history : List (Observation κ)}
    (lives : Lives socket history) (holds : List (Observation κ) → Socket κ → Prop)
    (first : holds [] socket)
    (step : ∀ past socket observation, holds past socket → Conduct socket observation →
      holds (past ++ [observation]) observation.after) :
    holds history (latest socket history) := by
  induction history using List.reverseRecOn with
  | nil => exact first
  | append_singleton past observation ih =>
      obtain ⟨before, conduct, -⟩ := lives_append.mp lives
      rw [latest_append]
      exact step past _ observation (ih before) conduct

end EmuScript.Socket
