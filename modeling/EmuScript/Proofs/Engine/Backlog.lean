import EmuScript.Proofs.Engine.Upkeep
import EmuScript.Proofs.Socket.Operation
import Mathlib.Logic.Function.Basic

/-!
# Writes under way

The sockets of a bridge keep the functions that were given with the writes under way,
and those that were given for connections, data and new clients. Here it is said what
the programs of a bridge do to either: a method adds the function of its write once the
emulator has taken the write, the completion of a write removes the oldest function of
its socket and calls it, and all other programs leave the writes alone.
-/

set_option autoImplicit false

namespace EmuScript

/-! ## Sockets and servers -/

/-- A socket as it is at first: without writes and handlers. -/
def Socket.Blank {κ : Type} (socket : Socket κ) : Prop :=
  socket.pendingWrites = [] ∧ ∀ handler, ¬ socket.HasHandler handler

theorem Socket.blank_ofFd {κ : Type} (fd : SocketFd) (connected : Bool) (config : SessionConfig) :
    (ofFd fd connected config : Socket κ).Blank :=
  ⟨rfl, not_hasHandler_ofFd fd connected config⟩

namespace Server

variable {κ : Type}

/-- A program asks for no write, shows new clients to the handler of a server only, and
puts no handler in its place but the given one. -/
def sparing (given : Option κ) (server : Server κ) :
    Contract (HostCall κ) (Notice κ) (Except ScriptError Unit × Server κ) where
  asks call := ∀ fd data, call ≠ .socket (.write fd data)
  tells notice := ∀ signal, notice = .signal signal → ∃ handler client,
    server.connectionHandler = some handler ∧
      signal = .accepted handler (Socket.accepted client server.config)
  ends ended := ∀ handler, ended.2.connectionHandler = some handler →
    given = some handler ∨ server.connectionHandler = some handler

theorem listen_spares (port : UInt16) (server : Server κ) :
    ((listen port).on server).Meets (sparing none server) := by
  refine ⟨by simp [sparing], fun reply => ?_⟩
  cases reply with
  | ok value => exact ⟨by simp [sparing], fun _ has => .inr has⟩
  | error error => exact fun _ has => .inr has

theorem onConnection_spares (handler : κ) (server : Server κ) :
    ((onConnection handler).on server).Meets (sparing (some handler) server) := by
  refine ⟨by simp [sparing], fun reply => ?_⟩
  cases reply with
  | ok value => exact fun _ has => .inl has
  | error error => exact fun _ has => .inl has

theorem deliverAccept_spares (client : SocketFd) (server : Server κ) :
    ((deliverAccept client).on server).Meets (sparing none server) := by
  have asks (next : HostCall.Reply (.socket (.accept server.fd)) →
      HostProgram κ (Except ScriptError Unit × Server κ))
      (same : ∀ reply, ∃ result, next reply = .done (result, server)) :
      (Program.ask (.socket (.accept server.fd)) next).Meets (sparing none server) := by
    refine ⟨by simp [sparing], fun reply => ?_⟩
    obtain ⟨result, ended⟩ := same reply
    rw [ended]
    exact fun _ has => .inr has
  cases server with
  | mk fd config connectionHandler =>
      cases connectionHandler with
      | none =>
          refine ⟨by simp [sparing], asks _ fun reply => ?_⟩
          cases reply <;> exact ⟨_, rfl⟩
      | some handler =>
          refine ⟨by simp [sparing], ⟨?_, asks _ fun reply => ?_⟩⟩
          · rintro signal ⟨⟩
            exact ⟨handler, client, rfl, rfl⟩
          · cases reply <;> exact ⟨_, rfl⟩

end Server

namespace Engine

open Program

variable {φ α β : Type}

/-! ## Duties -/

/-- The descriptor to which a request writes. -/
def Ticket.writes? (ticket : Ticket) : Option SocketFd :=
  match ticket.request with
  | .write fd => some fd
  | .connect _ | .accept _ | .read _ => none

def NativeCall.writes? (call : NativeCall φ) : Option SocketFd :=
  call.ticket?.bind Ticket.writes?

/-- A handler calls no function of the script but those that are given. -/
def Closure.Within (given : φ → Prop) (handler : Closure φ) : Prop :=
  ∀ callback, handler = .deferred callback → given callback

/-- What is known of the functions of the script that a bridge keeps, and what a program
may do with them. -/
structure Duty (φ : Type) where
  /-- The functions that were given for connections, data and new clients. -/
  given : φ → Prop
  /-- These functions may be called. -/
  streams : Prop
  /-- The function that is given with the write that is still to be asked for. -/
  offers : Option (Option φ) := none
  /-- The functions that remain to be called for completed writes. -/
  due : List φ := []
  /-- The functions that were given with the writes under way on a socket, oldest first. -/
  backlog : SocketFd → List (Option φ)

namespace Duty

def Permits (duty : Duty φ) : Signal (Closure φ) → Prop
  | .connected handler | .received handler _ | .closed handler =>
      duty.streams ∧ handler.Within duty.given
  | .accepted handler client => duty.streams ∧ handler.Within duty.given ∧ client.Blank
  | .written handler => ∃ callback, handler = .deferred callback ∧ duty.due.head? = some callback
  | .hook _ _ => False

def told (duty : Duty φ) : Effect φ → Duty φ
  | .notice (.signal (.written _)) => { duty with due := duty.due.tail }
  | _ => duty

theorem told_silent (duty : Duty φ) {effect : Effect φ}
    (silent : ∀ signal, effect ≠ .notice (.signal signal)) : duty.told effect = duty := by
  cases effect with
  | notice notice =>
      cases notice with
      | log record => rfl
      | signal signal => exact (silent signal rfl).elim
  | consoleLog | keepProcedure | dropProcedure | opened => rfl

def answered (duty : Duty φ) (call : NativeCall φ) (reply : NativeCall.Reply call) : Duty φ :=
  match call.writes?, reply with
  | some fd, .ok _ =>
      { duty with
        offers := none
        backlog := Function.update duty.backlog fd (duty.backlog fd ++ duty.offers.toList) }
  | _, _ => { duty with offers := none }

/-- No write is to be asked for, and none has completed. -/
def Plain (duty : Duty φ) : Prop :=
  duty.offers = none ∧ duty.due = []

theorem Plain.told {duty : Duty φ} (plain : duty.Plain) {effect : Effect φ}
    (permitted : ∀ signal, effect = .notice (.signal signal) → duty.Permits signal) :
    duty.told effect = duty := by
  by_cases silent : ∀ signal, effect ≠ .notice (.signal signal)
  · exact duty.told_silent silent
  · obtain ⟨signal, rfl⟩ : ∃ signal, effect = .notice (.signal signal) := by simpa using silent
    cases signal with
    | written handler =>
        obtain ⟨callback, -, next⟩ := permitted _ rfl
        simp [plain.2] at next
    | _ => rfl

theorem Plain.answered {duty : Duty φ} (plain : duty.Plain) {call : NativeCall φ}
    (other : call.writes? = none) (reply : NativeCall.Reply call) :
    duty.answered call reply = duty := by
  cases duty
  cases plain.1
  simp [Duty.answered, other]

end Duty

/-- The functions that a bridge keeps are those that it should keep. -/
structure Bridge.Keeps (given : φ → Prop) (backlog : SocketFd → List (Option φ))
    (bridge : Bridge φ) : Prop where
  writes : ∀ fd : SocketFd, (bridge.sockets.find? fd.value).elim [] (·.pendingWrites) =
    (backlog fd).map (·.map .deferred)
  sockets : ∀ key socket, bridge.sockets.find? key = some socket →
    ∀ handler, socket.HasHandler handler → handler.Within given
  servers : ∀ key server, bridge.servers.find? key = some server →
    ∀ handler, server.connectionHandler = some handler → handler.Within given

/-- A program does its duty. A socket that it opens takes a place where no writes are
under way. -/
def Tends : Duty φ → NativeProgram φ (α × Bridge φ) → Prop
  | duty, .done ended => duty.due = [] ∧ ended.2.Keeps duty.given duty.backlog
  | duty, .tell effect rest =>
      (∀ signal, effect = .notice (.signal signal) → duty.Permits signal) ∧
        ((∀ fd, effect.opened? = some (.socket fd) → duty.backlog fd = []) →
          Tends (duty.told effect) rest)
  | duty, .ask call next =>
      duty.due = [] ∧ (call.writes?.isSome → duty.offers.isSome) ∧
        ∀ reply, Tends (duty.answered call reply) (next reply)

/-! ## Programs that leave the writes alone -/

section Sparing

/-- A program opens nothing and asks for no write. -/
def Duty.sparing (duty : Duty φ) (ends : α → Prop) : Contract (NativeCall φ) (Effect φ) α where
  asks call := call.writes? = none
  tells
    | .notice (.signal signal) => duty.Permits signal
    | .opened _ => False
    | _ => True
  ends

/-- The same of a program over host calls. -/
def Duty.hosted (duty : Duty φ) (ends : α → Prop) :
    Contract (HostCall (Closure φ)) (Notice (Closure φ)) α where
  asks call := ∀ fd data, call ≠ .socket (.write fd data)
  tells notice := ∀ signal, notice = .signal signal → duty.Permits signal
  ends

variable {duty : Duty φ}

theorem sparing_bind {program : NativeProgram φ β} {next : β → NativeProgram φ α}
    {between : β → Prop} {ends : α → Prop} (first : program.Meets (duty.sparing between))
    (rest : ∀ value, between value → (next value).Meets (duty.sparing ends)) :
    (program >>= next).Meets (duty.sparing ends) :=
  meets_bind.mpr (first.weaken (fun _ => id) (fun _ => id) rest)

theorem tends_bind {program : NativeProgram φ β} {next : β → NativeProgram φ (α × Bridge φ)}
    {ends : β → Prop} (plain : duty.Plain) (first : program.Meets (duty.sparing ends))
    (rest : ∀ value, ends value → Tends duty (next value)) : Tends duty (program >>= next) := by
  induction program with
  | done value => exact rest value first
  | tell effect later ih =>
      obtain ⟨allowed, first⟩ := first
      have permitted : ∀ signal, effect = .notice (.signal signal) → duty.Permits signal := by
        rintro signal rfl
        exact allowed
      refine ⟨permitted, fun _ => ?_⟩
      rw [plain.told permitted]
      exact ih first
  | ask call later ih =>
      obtain ⟨other, first⟩ := first
      have none : call.writes? = none := other
      refine ⟨plain.2, by simp [none], fun reply => ?_⟩
      rw [plain.answered other]
      exact ih reply (first reply)

theorem tends_of_sparing {program : NativeProgram φ (α × Bridge φ)} (plain : duty.Plain)
    (spares : program.Meets (duty.sparing fun ended => ended.2.Keeps duty.given duty.backlog)) :
    Tends duty program := by
  have tends : Tends duty (program >>= done) :=
    tends_bind plain spares fun ended keeps => ⟨plain.2, keeps⟩
  rwa [bind_eq, bind_done_right] at tends

/-- What stays within an empty scope has nothing to do with writes. -/
theorem hosted_of_confines {program : HostProgram (Closure φ) α} {ends : α → Prop}
    (confined : Scope.Confines {} program ends) : program.Meets (duty.hosted ends) := by
  refine Meets.weaken confined ?_ (fun _ told signal same => (told signal same).elim) fun _ => id
  rintro call permits fd data rfl
  exact permits (.write fd) rfl

theorem Adapter.lower_spares {program : HostProgram (Closure φ) α} {ends : α → Prop}
    (hosted : program.Meets (duty.hosted ends)) (adapter : Adapter φ) :
    (lower program adapter).Meets (duty.sparing fun ended => ends ended.1) := by
  induction program generalizing adapter with
  | done value => exact hosted
  | tell notice rest ih =>
      refine ⟨?_, ih hosted.2 adapter⟩
      cases notice with
      | log record => trivial
      | signal signal => exact hosted.1 signal rfl
  | ask call next ih =>
      obtain ⟨other, hosted⟩ := hosted
      refine meets_bind.mpr ((serve_requests call adapter).weaken ?_ (fun _ => False.elim) ?_)
      · intro native requests
        cases handed : native.ticket? with
        | none => simp [Duty.sparing, NativeCall.writes?, handed]
        | some ticket =>
            obtain ⟨serial, request⟩ := ticket
            have asked := requests _ handed
            -- Only a write of the library becomes the request of a write.
            cases request with
            | write fd =>
                cases call with
                | socket call =>
                    cases call with
                    | write fd data => exact (other fd data rfl).elim
                    | _ => cases asked
                | _ => cases asked
            | _ => simp [Duty.sparing, NativeCall.writes?, Ticket.writes?, handed]
      · exact fun (reply, after) _ => ih reply (hosted reply) after

namespace Bridge

variable {bridge after : Bridge φ} {given : φ → Prop}
  {backlog later : SocketFd → List (Option φ)}

theorem Keeps.same (keeps : bridge.Keeps given backlog)
    (sockets : ∀ key, after.sockets.find? key = bridge.sockets.find? key)
    (servers : ∀ key, after.servers.find? key = bridge.servers.find? key) :
    after.Keeps given backlog where
  writes fd := by rw [sockets]; exact keeps.writes fd
  sockets key := by rw [sockets]; exact keeps.sockets key
  servers key := by rw [servers]; exact keeps.servers key

/-- A socket is put in place, with writes of its own. -/
theorem Keeps.putSocket (keeps : bridge.Keeps given backlog) (fd : SocketFd)
    {socket : Socket (Closure φ)} (sockets : after.sockets = bridge.sockets.insert fd.value socket)
    (servers : after.servers = bridge.servers)
    (writes : socket.pendingWrites = (later fd).map (·.map .deferred))
    (others : ∀ other, other ≠ fd → later other = backlog other)
    (handlers : ∀ handler, socket.HasHandler handler → handler.Within given) :
    after.Keeps given later where
  writes other := by
    by_cases same : other = fd
    · subst same
      rw [sockets, Table.find?_insert_self]
      exact writes
    · have differ : other.value ≠ fd.value := fun equal => same (congrArg SocketFd.mk equal)
      rw [sockets, Table.find?_insert_of_ne _ _ differ, others other same]
      exact keeps.writes other
  sockets := by
    intro key found placed
    rw [sockets] at placed
    by_cases same : key = fd.value
    · rw [same, Table.find?_insert_self] at placed
      cases placed
      exact handlers
    · rw [Table.find?_insert_of_ne _ _ same] at placed
      exact keeps.sockets key found placed
  servers := by rw [servers]; exact keeps.servers

theorem Keeps.putServer (keeps : bridge.Keeps given backlog) {key : UInt32}
    {server : Server (Closure φ)} (sockets : after.sockets = bridge.sockets)
    (servers : after.servers = bridge.servers.insert key server)
    (handlers : ∀ handler, server.connectionHandler = some handler → handler.Within given) :
    after.Keeps given backlog where
  writes := by rw [sockets]; exact keeps.writes
  sockets := by rw [sockets]; exact keeps.sockets
  servers := by
    intro other found placed
    rw [servers] at placed
    by_cases same : other = key
    · rw [same, Table.find?_insert_self] at placed
      cases placed
      exact handlers
    · rw [Table.find?_insert_of_ne _ _ same] at placed
      exact keeps.servers other found placed

/-- A new socket takes a place where no writes are under way. -/
theorem Keeps.putNew (keeps : bridge.Keeps given backlog) {socket : Socket (Closure φ)}
    (blank : socket.Blank) (free : backlog socket.fd = []) :
    (bridge.putSocket socket).Keeps given backlog := by
  refine keeps.putSocket socket.fd rfl rfl ?_ (fun _ _ => rfl) fun handler has =>
    (blank.2 handler has).elim
  rw [blank.1, free]
  rfl

theorem through_spares {program : HostProgram (Closure φ) α} {ends : α → Prop}
    (hosted : program.Meets (duty.hosted ends)) (bridge : Bridge φ) :
    (through program bridge).Meets
      (duty.sparing fun ended => ends ended.1 ∧ ∃ adapter, ended.2 = { bridge with adapter }) := by
  refine sparing_bind (Adapter.lower_spares hosted bridge.adapter) ?_
  exact fun (value, adapter) ended => ⟨ended, adapter, rfl⟩

theorem perform_spares (duty : Duty φ) {action : Action (Closure φ) α} {ends : Except ScriptError α → Prop}
    (confined : Scope.Confines {} action.run ends)
    (keeps : bridge.Keeps duty.given duty.backlog) :
    (perform action bridge).Meets
      (duty.sparing fun ended => ends ended.1 ∧ ended.2.Keeps duty.given duty.backlog) := by
  refine (through_spares (hosted_of_confines confined) bridge).weaken (fun _ => id) (fun _ => id) ?_
  rintro ⟨value, after⟩ ⟨ended, adapter, rfl⟩
  exact ⟨ended, keeps.same (fun _ => rfl) fun _ => rfl⟩

/-- An operation that concerns no writes leaves the writes on its socket alone. -/
theorem onSocket_spares (operation : Socket.Operation (Closure φ))
    (other : ¬ operation.ConcernsWrites) (fd : UInt32) (streams : duty.streams)
    (new : ∀ handler, operation.given = some handler → handler.Within duty.given)
    (keeps : bridge.Keeps duty.given duty.backlog) :
    (onSocket fd operation.update bridge).Meets
      (duty.sparing fun ended => ended.2.Keeps duty.given duty.backlog) := by
  cases found : bridge.sockets.find? fd with
  | none =>
      simp only [onSocket, found]
      exact keeps
  | some socket =>
      have known := keeps.sockets fd socket found
      have hosted : (operation.update.on socket).Meets
          (duty.hosted (Socket.sparing operation.given socket).ends) := by
        refine (operation.update_spares other socket).weaken (fun _ => id) ?_ fun _ => id
        intro notice tells signal same
        obtain ⟨handler, has, sent⟩ := tells signal same
        cases sent with
        | connected | received | closed => exact ⟨streams, known handler has⟩
      simp only [onSocket, found]
      refine sparing_bind (through_spares hosted bridge) ?_
      rintro ⟨⟨result, socket⟩, after⟩ ⟨⟨-, writes, handlers⟩, adapter, rfl⟩
      refine keeps.putSocket ⟨fd⟩ rfl rfl ?_ (fun _ _ => rfl) fun handler has => ?_
      · have before := keeps.writes ⟨fd⟩
        rw [found] at before
        exact writes.trans before
      · exact (handlers handler has).elim (new handler) (known handler)

theorem onServer_spares {update : Update (Closure φ) (Server (Closure φ)) Unit}
    {given : Option (Closure φ)} (fd : UInt32) (streams : duty.streams)
    (spares : ∀ server, (update.on server).Meets (Server.sparing given server))
    (new : ∀ handler, given = some handler → handler.Within duty.given)
    (keeps : bridge.Keeps duty.given duty.backlog) :
    (onServer fd update bridge).Meets
      (duty.sparing fun ended => ended.2.Keeps duty.given duty.backlog) := by
  cases found : bridge.servers.find? fd with
  | none =>
      simp only [onServer, found]
      exact keeps
  | some server =>
      have known := keeps.servers fd server found
      have hosted : (update.on server).Meets (duty.hosted (Server.sparing given server).ends) := by
        refine (spares server).weaken (fun _ => id) ?_ fun _ => id
        intro notice tells signal same
        obtain ⟨handler, client, has, rfl⟩ := tells signal same
        exact ⟨streams, known handler has, Socket.blank_ofFd _ _ _⟩
      simp only [onServer, found]
      refine sparing_bind (through_spares hosted bridge) ?_
      rintro ⟨⟨result, server⟩, after⟩ ⟨handlers, adapter, rfl⟩
      refine keeps.putServer rfl rfl fun handler has => ?_
      exact (handlers handler has).elim (new handler) (known handler)

end Bridge

end Sparing

/-! ## Methods -/

theorem createSocket_blank {κ : Type} (config : SessionConfig) :
    Scope.Does {} (Socket.create config : Action κ _) Socket.Blank :=
  Scope.does_bind (Scope.does_plain rfl) fun _ _ => Scope.does_pure (Socket.blank_ofFd _ _ _)

theorem createServer_unattended {κ : Type} (port : Option UInt16) (config : SessionConfig) :
    Scope.Does {} (Server.create port config : Action κ _) (·.connectionHandler = none) := by
  refine Scope.does_bind (Scope.does_plain rfl) fun fd _ => ?_
  cases port with
  | none => exact Scope.does_pure rfl
  | some port =>
      have listened : Scope.Changes {} (·.connectionHandler = none)
          (Server.listen port : Update κ _ _) := listen_changes port
      refine Scope.does_bind (Scope.does_lift (listened { fd, config } rfl))
        fun (result, server) kept => ?_
      cases result with
      | ok value => exact Scope.does_pure kept.1
      | error error => exact Scope.does_throw error

namespace Method

/-- The function that a method puts in place for connections, data or new clients. -/
def given? : Method φ → Option φ
  | connect _ _ _ callback => callback
  | onData _ callback | onClose _ callback | onConnection _ callback => some callback
  | _ => none

/-- The function that is given with a write. -/
def offers : Method φ → Option (Option φ)
  | write _ _ callback => some callback
  | _ => none

/-- What a method is to do, given the functions that the bridge keeps. -/
def duty (method : Method φ) (given : φ → Prop) (backlog : SocketFd → List (Option φ)) : Duty φ where
  given
  streams := True
  offers := method.offers
  backlog

theorem write_run (fd : UInt32) (data : Bytes) (callback : Option φ) {bridge : Bridge φ}
    {socket : Socket (Closure φ)} (found : bridge.sockets.find? fd = some socket) :
    (write fd data callback).run bridge =
      .ask (.socket (.write socket.fd data ⟨bridge.adapter.ticketsIssued, .write socket.fd⟩)) fun reply =>
        let adapter := { bridge.adapter with ticketsIssued := bridge.adapter.ticketsIssued + 1 }
        match reply with
        | .ok () =>
            let socket :=
              { socket with pendingWrites := socket.pendingWrites ++ [callback.map .deferred] }
            .done (.ok .nothing,
              { bridge with adapter, sockets := bridge.sockets.insert fd socket })
        | .error thrown =>
            .done (.error (.script (.host (Adapter.failure "write" thrown))),
              { bridge with adapter, sockets := bridge.sockets.insert fd socket }) := by
  simp only [run, Bridge.onSocket, found]
  refine congrArg (Program.ask _) (funext fun reply => ?_)
  cases reply <;> rfl

variable {bridge : Bridge φ} {given : φ → Prop} {backlog : SocketFd → List (Option φ)}

theorem plain_of_offers {method : Method φ} (nothing : method.offers = none) :
    (method.duty given backlog).Plain :=
  ⟨nothing, rfl⟩

/-- A method that works on no socket or server leaves the writes alone. -/
theorem run_tends_of_endpoint {method : Method φ} (opens : ¬ method.Opens)
    (nowhere : method.endpoint = none) (nothing : method.offers = none) (keyed : bridge.Keyed)
    (keeps : bridge.Keeps given backlog) :
    Tends (method.duty given backlog) (method.run bridge) := by
  refine tends_of_sparing (plain_of_offers nothing) ?_
  refine (method.run_meets opens keyed).weaken ?_ ?_ ?_
  · intro call requests
    cases handed : call.ticket? with
    | none => simp [Duty.sparing, NativeCall.writes?, handed]
    | some ticket =>
        obtain ⟨here, -⟩ := requests ticket handed
        simp [nowhere] at here
  · intro effect tells
    cases effect with
    | notice notice =>
        cases notice with
        | log record => trivial
        | signal signal => exact tells.elim
    | opened endpoint => exact tells
    | consoleLog | keepProcedure | dropProcedure => trivial
  · intro ended follows
    rw [nowhere] at follows
    exact keeps.same (fun key => follows.sockets ⟨key⟩ (by simp))
      fun key => follows.servers ⟨key⟩ (by simp)

theorem onSocket_tends (method : Method φ) (nothing : method.offers = none)
    (operation : Socket.Operation (Closure φ)) (other : ¬ operation.ConcernsWrites) (fd : UInt32)
    (new : ∀ handler, operation.given = some handler → handler.Within given)
    (keeps : bridge.Keeps given backlog) :
    Tends (method.duty given backlog) (do
      let (result, bridge) ← Bridge.onSocket fd operation.update bridge
      return (objectResult .socket fd result, bridge)) :=
  tends_bind (plain_of_offers nothing) (Bridge.onSocket_spares operation other fd trivial new keeps)
    fun _ after => ⟨rfl, after⟩

/-- A write adds its function to those of its socket once the emulator has taken it. -/
theorem write_tends (fd : UInt32) (data : Bytes) (callback : Option φ) (keyed : bridge.Keyed)
    (keeps : bridge.Keeps given backlog) :
    Tends ((write fd data callback).duty given backlog) ((write fd data callback).run bridge) := by
  cases found : bridge.sockets.find? fd with
  | none =>
      simp only [run, Bridge.onSocket, found]
      exact ⟨rfl, keeps⟩
  | some socket =>
      have own : socket.fd = ⟨fd⟩ := keyed.sockets fd socket found
      have writes : socket.pendingWrites = (backlog ⟨fd⟩).map (·.map .deferred) := by
        have before := keeps.writes ⟨fd⟩
        rwa [found] at before
      rw [write_run fd data callback found]
      refine ⟨rfl, fun _ => rfl, fun reply => ?_⟩
      cases reply with
      | ok value =>
          refine ⟨rfl, keeps.putSocket ⟨fd⟩ rfl rfl ?_ ?_ (keeps.sockets fd socket found)⟩
          · simp [Duty.answered, NativeCall.writes?, NativeCall.ticket?, NativeSocketCall.ticket?,
              Ticket.writes?, own, duty, offers, writes]
          · intro other differ
            simp [Duty.answered, NativeCall.writes?, NativeCall.ticket?, NativeSocketCall.ticket?,
              Ticket.writes?, own, duty, differ]
      | error thrown =>
          exact ⟨rfl, keeps.putSocket ⟨fd⟩ rfl rfl writes (fun _ _ => rfl)
            (keeps.sockets fd socket found)⟩

theorem run_tends (method : Method φ) (keyed : bridge.Keyed)
    (new : ∀ callback, method.given? = some callback → given callback)
    (keeps : bridge.Keeps given backlog) :
    Tends (method.duty given backlog) (method.run bridge) := by
  have within {callback : φ} (known : method.given? = some callback) :
      (Closure.deferred callback).Within given := by
    rintro other ⟨⟩
    exact new callback known
  cases method with
  | service | on | off | clearHooks | spawn | threadState | suspendThread | resumeThread
  | stopThread => exact run_tends_of_endpoint id rfl rfl keyed keeps
  | write fd data callback => exact write_tends fd data callback keyed keeps
  | close fd => exact onSocket_tends _ rfl .close id fd (by simp [Socket.Operation.given]) keeps
  | onData fd callback =>
      refine onSocket_tends _ rfl (.onData (.deferred callback)) id fd ?_ keeps
      rintro handler ⟨⟩
      exact within rfl
  | onClose fd callback =>
      refine onSocket_tends _ rfl (.onClose (.deferred callback)) id fd ?_ keeps
      rintro handler ⟨⟩
      exact within rfl
  | connect fd host port callback =>
      have connects (handler : Closure φ) (known : handler.Within given) :=
        onSocket_tends (connect fd host port callback) rfl (.connect host port handler) id fd
          (fun _ same => Option.some.inj same ▸ known) keeps
      cases callback with
      | none => exact connects .silent (by simp [Closure.Within])
      | some callback => exact connects (.deferred callback) (within rfl)
  | listen fd port =>
      exact tends_bind ⟨rfl, rfl⟩ (Bridge.onServer_spares fd trivial (Server.listen_spares port)
        (by simp) keeps) fun _ after => ⟨rfl, after⟩
  | onConnection fd callback =>
      refine tends_bind ⟨rfl, rfl⟩ (Bridge.onServer_spares fd trivial
        (Server.onConnection_spares (Closure.deferred callback)) ?_ keeps) fun _ after => ⟨rfl, after⟩
      rintro handler ⟨⟩
      exact within rfl
  | createSocket =>
      have created := Bridge.perform_spares (createSocket.duty given backlog)
        (createSocket_blank bridge.session.config) keeps
      refine tends_bind ⟨rfl, rfl⟩ created ?_
      rintro ⟨result, after⟩ ⟨blank, keeps⟩
      cases result with
      | error error => exact ⟨rfl, keeps⟩
      | ok socket =>
          exact ⟨by simp, fun free => ⟨rfl, keeps.putNew (blank socket rfl) (free socket.fd rfl)⟩⟩
  | createServer port =>
      have created := Bridge.perform_spares ((createServer port).duty given backlog)
        (createServer_unattended port bridge.session.config) keeps
      refine tends_bind ⟨rfl, rfl⟩ created ?_
      rintro ⟨result, after⟩ ⟨unattended, keeps⟩
      cases result with
      | error error => exact ⟨rfl, keeps⟩
      | ok server =>
          have empty : server.connectionHandler = none := unattended server rfl
          exact ⟨by simp, fun _ => ⟨rfl, keeps.putServer rfl rfl (by simp [empty])⟩⟩

end Method

/-! ## Completions -/

/-- What the application of a completion is to do. A completed write is the oldest one of
its socket; its function is called, and no other. -/
def Completion.duty (completion : Completion) (given : φ → Prop)
    (backlog : SocketFd → List (Option φ)) : Duty φ :=
  match completion with
  | .written fd =>
      { given
        streams := False
        due := (backlog fd).head?.join.toList
        backlog := Function.update backlog fd (backlog fd).tail }
  | .connected _ | .received _ _ | .accepted _ _ => { given, streams := True, backlog }

namespace Bridge

variable {bridge : Bridge φ} {given : φ → Prop} {backlog : SocketFd → List (Option φ)}

/-- A bridge reports an error without any effect on what it keeps. -/
theorem report_tends {duty : Duty φ} (plain : duty.Plain)
    {completed : NativeProgram φ (Option (Except ScriptError Unit) × Bridge φ)}
    (spares : completed.Meets (duty.sparing fun ended => ended.2.Keeps duty.given duty.backlog)) :
    Tends duty (completed >>= fun
      | (some (.error error), bridge) => do
          match ← perform (Console.reportError error) bridge with
          | (.ok (), bridge) => return ((), bridge)
          | (.error _, bridge) =>
              Program.notify (.consoleLog s!"error: {error.message}")
              return ((), bridge)
      | (_, bridge) => return ((), bridge)) := by
  refine tends_bind plain spares ?_
  rintro ⟨_ | error | ⟨⟩, after⟩ keeps
  · exact ⟨plain.2, keeps⟩
  · refine tends_bind plain (perform_spares duty (reportError_does error) keeps) ?_
    rintro ⟨reported, last⟩ ⟨-, keeps⟩
    cases reported with
    | ok value => exact ⟨plain.2, keeps⟩
    | error failure => exact ⟨by simp, fun _ => ⟨plain.2, keeps⟩⟩
  · exact ⟨plain.2, keeps⟩

/-- The bridge after the oldest write of a socket has completed. -/
def popped (bridge : Bridge φ) (fd : SocketFd) (socket : Socket (Closure φ))
    (rest : List (Option φ)) : Bridge φ :=
  { bridge with
    sockets := bridge.sockets.insert fd.value
      { socket with pendingWrites := rest.map (·.map .deferred) } }

theorem written_tends {fd : SocketFd} {first : Option φ} {rest : List (Option φ)}
    (oldest : backlog fd = first :: rest) (keeps : bridge.Keeps given backlog) :
    Tends ((Completion.written fd).duty given backlog) (apply (.written fd) bridge) := by
  have writes := keeps.writes fd
  cases found : bridge.sockets.find? fd.value with
  | none => simp [found, oldest] at writes
  | some socket =>
      have pending : socket.pendingWrites = first.map .deferred :: rest.map (·.map .deferred) := by
        simpa [found, oldest] using writes
      have kept : Bridge.Keeps given (Function.update backlog fd rest) (popped bridge fd socket rest) := by
        refine keeps.putSocket fd rfl rfl (by simp) (fun other differ => by simp [differ]) ?_
        exact keeps.sockets _ socket found
      cases first with
      | none =>
          have completed : complete (.written fd) bridge =
              .done (some (.ok ()), popped bridge fd socket rest) := by
            simp only [complete, onSocket, found, through, Socket.deliverWrite_on, pending]
            rfl
          simp only [apply, completed, Completion.duty, oldest]
          exact ⟨rfl, kept⟩
      | some callback =>
          have completed : complete (.written fd) bridge =
              .tell (.notice (.signal (.written (.deferred callback))))
                (.done (some (.ok ()), popped bridge fd socket rest)) := by
            simp only [complete, onSocket, found, through, Socket.deliverWrite_on, pending]
            rfl
          simp only [apply, completed, Completion.duty, oldest]
          refine ⟨?_, fun _ => ⟨rfl, kept⟩⟩
          rintro signal ⟨⟩
          exact ⟨callback, rfl, rfl⟩

theorem apply_tends (completion : Completion)
    (known : ∀ fd, completion = .written fd → backlog fd ≠ []) (keeps : bridge.Keeps given backlog) :
    Tends (completion.duty given backlog) (apply completion bridge) := by
  cases completion with
  | written fd =>
      obtain ⟨first, rest, oldest⟩ := List.exists_cons_of_ne_nil (known fd rfl)
      exact written_tends oldest keeps
  | connected fd =>
      exact report_tends ⟨rfl, rfl⟩
        (onSocket_spares .deliverConnect id fd.value trivial (by simp [Socket.Operation.given]) keeps)
  | received fd data =>
      exact report_tends ⟨rfl, rfl⟩ (onSocket_spares (.deliverRead data) id fd.value trivial
        (by simp [Socket.Operation.given]) keeps)
  | accepted server client =>
      exact report_tends ⟨rfl, rfl⟩ (onServer_spares server.value trivial
        (Server.deliverAccept_spares client) (by simp) keeps)

end Bridge

end Engine

end EmuScript
