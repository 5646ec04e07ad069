import EmuScript.Proofs.Host
import EmuScript.Socket.Request

/-!
# Operations on a socket

All that can be done to a socket, as one type. Two of the operations concern writes;
what they ask and tell is known exactly. The others leave the writes under way alone,
and they run no handler but those that the socket has been given for its connection,
its data and its end.
-/

set_option autoImplicit false

namespace EmuScript.Socket

open Program

variable {κ : Type}

/-- A handler is in place for connections, data or the end of the stream. -/
def HasHandler (socket : Socket κ) (handler : κ) : Prop :=
  some handler ∈ [socket.connectHandler, socket.dataHandler, socket.closeHandler]

theorem not_hasHandler_ofFd (fd : SocketFd) (connected : Bool) (config : SessionConfig)
    (handler : κ) : ¬ (ofFd fd connected config).HasHandler handler := by
  simp [HasHandler, ofFd]

inductive Operation (κ : Type) where
  | connect (host : Option String) (port : Option UInt16) (handler : κ)
  | deliverConnect
  | onData (handler : κ)
  | onClose (handler : κ)
  | deliverRead (data : Option Bytes)
  | write (data : Bytes) (handler : Option κ)
  | deliverWrite
  | close

namespace Operation

def update : Operation κ → Update κ (Socket κ) Unit
  | connect host port handler => Socket.connect host port handler
  | deliverConnect => Socket.deliverConnect
  | onData handler => Socket.onData handler
  | onClose handler => Socket.onClose handler
  | deliverRead data => Socket.deliverRead data
  | write data handler => Socket.write data handler
  | deliverWrite => Socket.deliverWrite
  | close => Socket.close

/-- The handler that an operation puts in place. -/
def given : Operation κ → Option κ
  | connect _ _ handler | onData handler | onClose handler => some handler
  | deliverConnect | deliverRead _ | write _ _ | deliverWrite | close => none

def ConcernsWrites : Operation κ → Prop
  | write _ _ | deliverWrite => True
  | connect _ _ _ | deliverConnect | onData _ | onClose _ | deliverRead _ | close => False

end Operation

/-! ## Operations that concern writes -/

theorem write_on (data : Bytes) (handler : Option κ) (socket : Socket κ) :
    (write data handler).on socket =
      .ask (.socket (.write socket.fd data)) fun
        | .ok () =>
            .done (.ok (), { socket with pendingWrites := socket.pendingWrites ++ [handler] })
        | .error error => .done (.error (.host error), socket) := by
  refine congrArg (Program.ask _) (funext fun reply => ?_)
  cases reply with
  | ok value => rfl
  | error error => rfl

theorem deliverWrite_on (socket : Socket κ) :
    deliverWrite.on socket =
      match socket.pendingWrites with
      | [] =>
          .tell (.log ⟨.warn,
            s!"socket {socket.fd.value.toNat}: write completed with none outstanding"⟩)
            (.done (.ok (), socket))
      | none :: rest => .done (.ok (), { socket with pendingWrites := rest })
      | some handler :: rest =>
          .tell (.signal (.written handler))
            (.done (.ok (), { socket with pendingWrites := rest })) := by
  cases socket with
  | mk fd connected bufferSize defaultHost defaultPort onData onClose onConnect pending =>
      cases pending with
      | nil => rfl
      | cons oldest rest =>
          cases oldest with
          | none => rfl
          | some handler => rfl

/-! ## The other operations -/

/-- The signals that a socket sends to a handler of its connection, data or end. -/
inductive Streams (handler : κ) : Signal κ → Prop where
  | connected : Streams handler (.connected handler)
  | received (data : Bytes) : Streams handler (.received handler data)
  | closed : Streams handler (.closed handler)

/-- A program spares the writes of a socket, given one more handler. -/
def sparing (given : Option κ) (socket : Socket κ) :
    Contract (HostCall κ) (Notice κ) (Except ScriptError Unit × Socket κ) where
  asks call := ∀ fd data, call ≠ .socket (.write fd data)
  tells notice := ∀ signal, notice = .signal signal →
    ∃ handler, socket.HasHandler handler ∧ Streams handler signal
  ends ended :=
    ended.2.fd = socket.fd ∧ ended.2.pendingWrites = socket.pendingWrites ∧
      ∀ handler, ended.2.HasHandler handler → given = some handler ∨ socket.HasHandler handler

private theorem sparing_log (given : Option κ) (socket : Socket κ) (record : LogRecord) :
    (sparing given socket).tells (.log record) := by
  intro signal told
  cases told

private theorem sparing_signal {given : Option κ} {socket : Socket κ} {handler : κ}
    {signal : Signal κ} (has : socket.HasHandler handler) (streams : Streams handler signal) :
    (sparing given socket).tells (.signal signal) := by
  intro other told
  cases told
  exact ⟨handler, has, streams⟩

theorem Operation.update_spares (operation : Operation κ) (other : ¬ operation.ConcernsWrites)
    (socket : Socket κ) :
    (operation.update.on socket).Meets (sparing operation.given socket) := by
  have kept {given : Option κ} (handler : κ) (has : socket.HasHandler handler) :
      given = some handler ∨ socket.HasHandler handler := .inr has
  -- The flag and the handlers are what the programs branch on.
  cases socket with
  | mk fd connected bufferSize defaultHost defaultPort dataHandler closeHandler connectHandler =>
  cases operation with
  | write data handler => exact (other trivial).elim
  | deliverWrite => exact (other trivial).elim
  | connect host port handler =>
      cases connected with
      | true => exact ⟨rfl, rfl, kept⟩
      | false =>
          refine ⟨by simp [sparing], fun reply => ?_⟩
          cases reply with
          | ok value => exact ⟨sparing_log _ _ _, rfl, rfl, by grind [HasHandler, given]⟩
          | error error => exact ⟨rfl, rfl, kept⟩
  | deliverConnect =>
      cases connectHandler with
      | none => exact ⟨rfl, rfl, kept⟩
      | some handler =>
          exact ⟨sparing_signal (by simp [HasHandler]) .connected, rfl, rfl, kept⟩
  | onData handler =>
      refine ⟨by simp [sparing], fun reply => ?_⟩
      cases reply with
      | ok value => exact ⟨rfl, rfl, by grind [HasHandler, given]⟩
      | error error => exact ⟨rfl, rfl, by grind [HasHandler, given]⟩
  | onClose handler => exact ⟨rfl, rfl, by grind [HasHandler, given]⟩
  | deliverRead data =>
      cases data with
      | none =>
          refine ⟨sparing_log _ _ _, ?_⟩
          cases closeHandler with
          | none => exact ⟨rfl, rfl, kept⟩
          | some handler =>
              exact ⟨sparing_signal (by simp [HasHandler]) .closed, rfl, rfl, kept⟩
      | some bytes =>
          refine ⟨by simp [sparing], fun reply => ?_⟩
          cases reply with
          | error error => exact ⟨rfl, rfl, kept⟩
          | ok value =>
              cases dataHandler with
              | none => exact ⟨rfl, rfl, kept⟩
              | some handler =>
                  exact ⟨sparing_signal (by simp [HasHandler]) (.received bytes), rfl, rfl, kept⟩
  | close =>
      refine ⟨by simp [sparing], fun reply => ?_⟩
      cases reply with
      | ok value => exact ⟨rfl, rfl, kept⟩
      | error error => exact ⟨rfl, rfl, kept⟩

end EmuScript.Socket
