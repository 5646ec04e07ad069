import EmuScript.Engine.Machine
import EmuScript.Proofs.Engine.Exchange
import EmuScript.Proofs.Engine.Library

/-!
# Programs of a bridge

The programs of a bridge stay in the scope of what they work on: a method in that
of its socket or server, the application of a completion in that of the socket or
server to which it is delivered. They leave all other sockets and servers alone,
and each one stays under its own descriptor.
-/

set_option autoImplicit false

namespace EmuScript.Engine

open Program Scope

variable {φ α : Type}

def Completion.endpoint : Completion → Endpoint
  | .connected fd | .received fd _ | .written fd => .socket fd
  | .accepted server _ => .server server

/-- The arguments with which a handler is called for a completion. -/
def Completion.arguments : Completion → List Argument
  | .connected _ | .written _ | .received _ none => []
  | .received _ (some data) => [.bytes data]
  | .accepted _ client => [.word client.value]

/-- The arguments with which the handler of a signal is called. -/
def argumentsOf {κ : Type} : Signal κ → List Argument
  | .connected _ | .closed _ | .written _ => []
  | .received _ data => [.bytes data]
  | .hook _ address => [.word address]
  | .accepted _ client => [.word client.fd.value]

/-- A scope for programs over native calls. None of them opens a socket or server. -/
def Scope.native (scope : Scope (Closure φ)) (ends : α → Prop) :
    Contract (NativeCall φ) (Effect φ) α where
  asks call := ∀ ticket, call.ticket? = some ticket → scope.requests ticket.request.endpoint
  tells
    | .notice (.signal signal) => scope.signals signal
    | .opened _ => False
    | _ => True
  ends

theorem native_bind {β : Type} {scope : Scope (Closure φ)} {program : NativeProgram φ α}
    {next : α → NativeProgram φ β} {between : α → Prop} {ends : β → Prop}
    (first : program.Meets (scope.native between))
    (rest : ∀ value, between value → (next value).Meets (scope.native ends)) :
    (program >>= next).Meets (scope.native ends) :=
  meets_bind.mpr (first.weaken (fun _ => id) (fun _ => id) rest)

/-! ## The adapter -/

namespace Adapter

/-- A step hands over tickets for one request only, and tells nothing. -/
def Requests (request : Option Request) (step : Step φ α) : Prop :=
  ∀ adapter, (step adapter).Meets
    { asks := fun call => ∀ ticket, call.ticket? = some ticket → request = some ticket.request
      tells := fun _ => False }

theorem serve_requests (call : HostCall (Closure φ)) :
    Requests (Request.of? call) (serve call) := by
  intro adapter
  cases carried : native? adapter.ticketsIssued call with
  | none =>
      obtain ⟨error, refused⟩ := serve_refused carried
      rw [refused]
      exact trivial
  | some native =>
      obtain ⟨exchange, asks⟩ := serve_carried carried
      rw [asks]
      refine ⟨fun ticket handed => ?_, fun _ => trivial⟩
      rw [native?_ticket carried] at handed
      obtain ⟨request, own, rfl⟩ := Option.map_eq_some_iff.mp handed
      exact own

theorem lower_meets {scope : Scope (Closure φ)} {program : HostProgram (Closure φ) α}
    {ends : α → Prop} (confined : scope.Confines program ends) (adapter : Adapter φ) :
    (lower program adapter).Meets (scope.native fun ended => ends ended.1) := by
  induction program generalizing adapter with
  | done value => exact confined
  | tell notice rest ih =>
      refine ⟨?_, ih confined.2 adapter⟩
      cases notice with
      | log record => trivial
      | signal signal => exact confined.1 signal rfl
  | ask call next ih =>
      obtain ⟨permitted, confined⟩ := confined
      refine meets_bind.mpr ((serve_requests call adapter).weaken ?_ (fun _ => False.elim) ?_)
      · exact fun native requests ticket handed => permitted _ (requests ticket handed)
      · exact fun (reply, after) _ => ih reply (confined reply) after

end Adapter

/-! ## Bridges -/

namespace Bridge

def Holds (bridge : Bridge φ) : Endpoint → Prop
  | .socket fd => (bridge.sockets.find? fd.value).isSome
  | .server fd => (bridge.servers.find? fd.value).isSome

/-- Every socket and server is in place under its own descriptor. -/
structure Keyed (bridge : Bridge φ) : Prop where
  sockets : ∀ key socket, bridge.sockets.find? key = some socket → socket.fd = ⟨key⟩
  servers : ∀ key server, bridge.servers.find? key = some server → server.fd = ⟨key⟩

/-- A bridge after work on one socket or server at most. -/
structure Follows (endpoint : Option Endpoint) (before after : Bridge φ) : Prop where
  keyed : after.Keyed
  holds : ∀ place, after.Holds place ↔ before.Holds place
  sockets : ∀ fd : SocketFd, endpoint ≠ some (.socket fd) →
    after.sockets.find? fd.value = before.sockets.find? fd.value
  servers : ∀ fd : SocketFd, endpoint ≠ some (.server fd) →
    after.servers.find? fd.value = before.servers.find? fd.value

variable {bridge before between after : Bridge φ} {endpoint : Option Endpoint}
  {scope : Scope (Closure φ)}

theorem Follows.same (keyed : before.Keyed) (sockets : after.sockets = before.sockets)
    (servers : after.servers = before.servers) : Follows endpoint before after where
  keyed := ⟨sockets ▸ keyed.sockets, servers ▸ keyed.servers⟩
  holds place := by cases place <;> simp only [Holds, sockets, servers]
  sockets _ _ := by rw [sockets]
  servers _ _ := by rw [servers]

theorem Follows.trans (first : Follows endpoint before between)
    (second : Follows endpoint between after) : Follows endpoint before after where
  keyed := second.keyed
  holds place := (second.holds place).trans (first.holds place)
  sockets fd other := (second.sockets fd other).trans (first.sockets fd other)
  servers fd other := (second.servers fd other).trans (first.servers fd other)

def putSocket (bridge : Bridge φ) (socket : Socket (Closure φ)) : Bridge φ :=
  { bridge with sockets := bridge.sockets.insert socket.fd.value socket }

def putServer (bridge : Bridge φ) (server : Server (Closure φ)) : Bridge φ :=
  { bridge with servers := bridge.servers.insert server.fd.value server }

theorem find?_putSocket (bridge : Bridge φ) (socket : Socket (Closure φ)) (key : UInt32) :
    (bridge.putSocket socket).sockets.find? key =
      if key = socket.fd.value then some socket else bridge.sockets.find? key := by
  split
  case isTrue same => rw [same]; exact Table.find?_insert_self _ _ _
  case isFalse differ => exact Table.find?_insert_of_ne _ _ differ

theorem find?_putServer (bridge : Bridge φ) (server : Server (Closure φ)) (key : UInt32) :
    (bridge.putServer server).servers.find? key =
      if key = server.fd.value then some server else bridge.servers.find? key := by
  split
  case isTrue same => rw [same]; exact Table.find?_insert_self _ _ _
  case isFalse differ => exact Table.find?_insert_of_ne _ _ differ

theorem Keyed.putSocket (keyed : bridge.Keyed) (socket : Socket (Closure φ)) :
    (bridge.putSocket socket).Keyed := by
  refine ⟨fun key found same => ?_, keyed.servers⟩
  rw [find?_putSocket] at same
  split at same
  case isTrue equal => cases same; rw [equal]
  case isFalse => exact keyed.sockets key found same

theorem Keyed.putServer (keyed : bridge.Keyed) (server : Server (Closure φ)) :
    (bridge.putServer server).Keyed := by
  refine ⟨keyed.sockets, fun key found same => ?_⟩
  rw [find?_putServer] at same
  split at same
  case isTrue equal => cases same; rw [equal]
  case isFalse => exact keyed.servers key found same

theorem holds_putSocket (bridge : Bridge φ) (socket : Socket (Closure φ)) (place : Endpoint) :
    (bridge.putSocket socket).Holds place ↔ place = .socket socket.fd ∨ bridge.Holds place := by
  cases place with
  | socket fd =>
      simp only [Holds, find?_putSocket, Endpoint.socket.injEq]
      split
      case isTrue same =>
        have equal : fd = socket.fd := congrArg SocketFd.mk same
        simp [equal]
      case isFalse differ =>
        have apart : fd ≠ socket.fd := fun equal => differ (by rw [equal])
        simp [apart]
  | server fd => simp [Holds, Bridge.putSocket]

theorem holds_putServer (bridge : Bridge φ) (server : Server (Closure φ)) (place : Endpoint) :
    (bridge.putServer server).Holds place ↔ place = .server server.fd ∨ bridge.Holds place := by
  cases place with
  | server fd =>
      simp only [Holds, find?_putServer, Endpoint.server.injEq]
      split
      case isTrue same =>
        have equal : fd = server.fd := congrArg SocketFd.mk same
        simp [equal]
      case isFalse differ =>
        have apart : fd ≠ server.fd := fun equal => differ (by rw [equal])
        simp [apart]
  | socket fd => simp [Holds, Bridge.putServer]

theorem Follows.putSocket (keyed : bridge.Keyed) {socket : Socket (Closure φ)}
    (held : bridge.Holds (.socket socket.fd)) :
    Follows (some (.socket socket.fd)) bridge (bridge.putSocket socket) where
  keyed := keyed.putSocket socket
  holds place := by
    rw [holds_putSocket]
    exact or_iff_right_of_imp fun same => same ▸ held
  sockets fd other := by
    have differ : fd.value ≠ socket.fd.value := by
      intro same
      have equal : fd = socket.fd := congrArg SocketFd.mk same
      exact other (by rw [equal])
    rw [find?_putSocket, if_neg differ]
  servers _ _ := rfl

theorem Follows.putServer (keyed : bridge.Keyed) {server : Server (Closure φ)}
    (held : bridge.Holds (.server server.fd)) :
    Follows (some (.server server.fd)) bridge (bridge.putServer server) where
  keyed := keyed.putServer server
  holds place := by
    rw [holds_putServer]
    exact or_iff_right_of_imp fun same => same ▸ held
  sockets _ _ := rfl
  servers fd other := by
    have differ : fd.value ≠ server.fd.value := by
      intro same
      have equal : fd = server.fd := congrArg SocketFd.mk same
      exact other (by rw [equal])
    rw [find?_putServer, if_neg differ]

theorem through_meets {program : HostProgram (Closure φ) α} {ends : α → Prop}
    (confined : scope.Confines program ends) (bridge : Bridge φ) :
    (through program bridge).Meets
      (scope.native fun ended => ends ended.1 ∧ ∃ adapter, ended.2 = { bridge with adapter }) := by
  refine native_bind (Adapter.lower_meets confined bridge.adapter) ?_
  exact fun (value, adapter) ended => ⟨ended, adapter, rfl⟩

theorem perform_meets (endpoint : Option Endpoint) {action : Action (Closure φ) α}
    (does : scope.Does action) (keyed : bridge.Keyed) :
    (perform action bridge).Meets (scope.native fun ended => Follows endpoint bridge ended.2) := by
  refine (through_meets does bridge).weaken (fun _ => id) (fun _ => id) ?_
  rintro ⟨value, after⟩ ⟨_, adapter, rfl⟩
  exact .same keyed rfl rfl

theorem onSession_meets (endpoint : Option Endpoint)
    {update : Update (Closure φ) (Session (Closure φ)) α}
    (changes : scope.Changes (fun _ => True) update) (keyed : bridge.Keyed) :
    (onSession update bridge).Meets
      (scope.native fun ended => Follows endpoint bridge ended.2) := by
  refine native_bind (through_meets (changes bridge.session trivial) bridge) ?_
  rintro ⟨⟨result, session⟩, after⟩ ⟨_, adapter, rfl⟩
  exact Follows.same keyed rfl rfl

theorem onThread_meets (endpoint : Option Endpoint) (key : UInt32)
    {update : Update (Closure φ) (Thread (Closure φ)) α}
    (changes : scope.Changes (fun _ => True) update) (keyed : bridge.Keyed) :
    (onThread key update bridge).Meets
      (scope.native fun ended => Follows endpoint bridge ended.2) := by
  cases found : bridge.threads.find? key with
  | none =>
      simp only [onThread, found]
      exact Follows.same keyed rfl rfl
  | some thread =>
      simp only [onThread, found]
      refine native_bind (through_meets (changes thread trivial) bridge) ?_
      rintro ⟨⟨result, thread⟩, after⟩ ⟨_, adapter, rfl⟩
      exact Follows.same keyed rfl rfl

theorem onSocket_meets {update : Update (Closure φ) (Socket (Closure φ)) α} {fd : UInt32}
    (changes : bridge.Holds (.socket ⟨fd⟩) → scope.Changes (·.fd = ⟨fd⟩) update)
    (keyed : bridge.Keyed) :
    (onSocket fd update bridge).Meets
      (scope.native fun ended => Follows (some (.socket ⟨fd⟩)) bridge ended.2) := by
  cases found : bridge.sockets.find? fd with
  | none =>
      simp only [onSocket, found]
      exact Follows.same keyed rfl rfl
  | some socket =>
      have held : bridge.Holds (.socket ⟨fd⟩) := by simp [Holds, found]
      simp only [onSocket, found]
      have own := keyed.sockets fd socket found
      refine native_bind (through_meets (changes held socket own) bridge) ?_
      rintro ⟨⟨result, socket⟩, after⟩ ⟨⟨own, _⟩, adapter, rfl⟩
      have key : fd = socket.fd.value := by rw [show socket.fd = ⟨fd⟩ from own]
      subst key
      have passed : Follows (some (.socket socket.fd)) bridge { bridge with adapter } :=
        .same keyed rfl rfl
      exact passed.trans (.putSocket passed.keyed held)

theorem onServer_meets {update : Update (Closure φ) (Server (Closure φ)) α} {fd : UInt32}
    (changes : bridge.Holds (.server ⟨fd⟩) → scope.Changes (·.fd = ⟨fd⟩) update)
    (keyed : bridge.Keyed) :
    (onServer fd update bridge).Meets
      (scope.native fun ended => Follows (some (.server ⟨fd⟩)) bridge ended.2) := by
  cases found : bridge.servers.find? fd with
  | none =>
      simp only [onServer, found]
      exact Follows.same keyed rfl rfl
  | some server =>
      have held : bridge.Holds (.server ⟨fd⟩) := by simp [Holds, found]
      simp only [onServer, found]
      have own := keyed.servers fd server found
      refine native_bind (through_meets (changes held server own) bridge) ?_
      rintro ⟨⟨result, server⟩, after⟩ ⟨⟨own, _⟩, adapter, rfl⟩
      have key : fd = server.fd.value := by rw [show server.fd = ⟨fd⟩ from own]
      subst key
      have passed : Follows (some (.server server.fd)) bridge { bridge with adapter } :=
        .same keyed rfl rfl
      exact passed.trans (.putServer passed.keyed held)

end Bridge

/-- What the application of a completion to a bridge may do: it makes requests for the
socket or server to which the completion is delivered, and calls handlers with what
the completion brings. -/
def Completion.scope (completion : Completion) (bridge : Bridge φ) : Scope (Closure φ) where
  requests place := place = completion.endpoint ∧ bridge.Holds place
  signals signal := argumentsOf signal = completion.arguments

namespace Bridge

variable {bridge : Bridge φ}

theorem complete_meets (completion : Completion) (keyed : bridge.Keyed) :
    (complete completion bridge).Meets ((completion.scope bridge).native fun ended =>
      Follows (some completion.endpoint) bridge ended.2) := by
  cases completion with
  | connected fd => exact onSocket_meets (fun _ => deliverConnect_changes fun _ => rfl) keyed
  | written fd => exact onSocket_meets (fun _ => deliverWrite_changes fun _ => rfl) keyed
  | received fd data =>
      refine onSocket_meets (fun held => ?_) keyed
      refine deliverRead_changes (by exact ⟨rfl, held⟩) data ?_ ?_
      · rintro rfl handler
        rfl
      · rintro bytes rfl handler
        rfl
  | accepted server client =>
      refine onServer_meets (fun held => ?_) keyed
      exact deliverAccept_changes (by exact ⟨rfl, held⟩) client fun _ _ => rfl

theorem apply_meets (completion : Completion) (keyed : bridge.Keyed) :
    (apply completion bridge).Meets ((completion.scope bridge).native fun ended =>
      Follows (some completion.endpoint) bridge ended.2) := by
  refine native_bind (complete_meets completion keyed) fun (result, between) follows => ?_
  match result with
  | none => exact follows
  | some (.ok ()) => exact follows
  | some (.error error) =>
      have reported : (perform (Console.reportError error) between).Meets
          ((completion.scope bridge).native fun ended =>
            Follows (some completion.endpoint) between ended.2) :=
        perform_meets _ (reportError_does error) follows.keyed
      refine native_bind reported fun (result, after) later => ?_
      cases result with
      | ok value => exact follows.trans later
      | error failure => exact ⟨trivial, follows.trans later⟩

end Bridge

/-! ## Methods -/

namespace Method

def endpoint : Method φ → Option Endpoint
  | connect fd _ _ _ | onData fd _ | onClose fd _ | write fd _ _ | close fd => some (.socket ⟨fd⟩)
  | listen fd _ | onConnection fd _ => some (.server ⟨fd⟩)
  | _ => none

def Opens : Method φ → Prop
  | createSocket | createServer _ => True
  | _ => False

/-- What a method may do: it makes requests for its socket or server, and gives no
signals. -/
def scope (method : Method φ) (bridge : Bridge φ) : Scope (Closure φ) where
  requests place := method.endpoint = some place ∧ bridge.Holds place

/-- A method works on its socket or server only, and makes requests for that one. -/
theorem run_meets {bridge : Bridge φ} (method : Method φ) (plain : ¬ method.Opens)
    (keyed : bridge.Keyed) :
    (method.run bridge).Meets
      ((method.scope bridge).native fun ended => bridge.Follows method.endpoint ended.2) := by
  cases method with
  | service request =>
      refine native_bind ?_ fun _ follows => follows
      exact Bridge.perform_meets none (service_does request) keyed
  | on kind tag callback =>
      refine native_bind ?_ fun _ follows => follows
      exact Bridge.onSession_meets none (updateHooks_changes (install_changes _ _ _)) keyed
  | off id =>
      refine native_bind ?_ fun _ follows => follows
      exact Bridge.onSession_meets none (updateHooks_changes (remove_changes id)) keyed
  | clearHooks =>
      refine native_bind ?_ fun _ follows => follows
      exact Bridge.onSession_meets none (updateHooks_changes clear_changes) keyed
  | connect fd host port callback =>
      refine native_bind ?_ fun _ follows => follows
      refine Bridge.onSocket_meets (fun held => ?_) keyed
      exact connect_changes (by exact ⟨rfl, held⟩) host port _
  | onData fd callback =>
      refine native_bind ?_ fun _ follows => follows
      exact Bridge.onSocket_meets (fun held => onData_changes (by exact ⟨rfl, held⟩) _) keyed
  | onClose fd callback =>
      refine native_bind ?_ fun _ follows => follows
      exact Bridge.onSocket_meets (fun _ => onClose_changes _) keyed
  | write fd data callback =>
      refine native_bind ?_ fun _ follows => follows
      exact Bridge.onSocket_meets (fun held => write_changes (by exact ⟨rfl, held⟩) data _) keyed
  | close fd =>
      refine native_bind ?_ fun _ follows => follows
      exact Bridge.onSocket_meets (fun _ => close_changes) keyed
  | listen fd port =>
      refine native_bind ?_ fun _ follows => follows
      exact Bridge.onServer_meets (fun _ => listen_changes port) keyed
  | onConnection fd callback =>
      refine native_bind ?_ fun _ follows => follows
      exact Bridge.onServer_meets (fun held => onConnection_changes (by exact ⟨rfl, held⟩) _) keyed
  | suspendThread key =>
      refine native_bind ?_ fun _ follows => follows
      exact Bridge.onThread_meets none key suspend_changes keyed
  | resumeThread key =>
      refine native_bind ?_ fun _ follows => follows
      exact Bridge.onThread_meets none key resume_changes keyed
  | stopThread key =>
      refine native_bind (Bridge.onThread_meets none key stop_changes keyed) ?_
      rintro ⟨result, after⟩ follows
      match result with
      | none => exact follows
      | some (.ok ()) => exact ⟨trivial, follows⟩
      | some (.error error) => exact follows
  | threadState key =>
      have follows : bridge.Follows none bridge := .same keyed rfl rfl
      cases found : bridge.threads.find? key with
      | none => simp only [run, found]; exact follows
      | some thread => simp only [run, found]; exact follows
  | spawn callback =>
      have counted : bridge.Follows none { bridge with nextThread := bridge.nextThread + 1 } :=
        .same keyed rfl rfl
      refine ⟨trivial, ?_⟩
      change (Bridge.perform _ _ >>= _).Meets _
      refine native_bind (Bridge.perform_meets none (spawn_does _) counted.keyed) ?_
      rintro ⟨result, after⟩ follows
      have begun : bridge.Follows none after := counted.trans follows
      cases result with
      | ok thread => exact begun.trans (.same begun.keyed rfl rfl)
      | error error => exact ⟨trivial, begun⟩
  | createSocket | createServer port => exact (plain trivial).elim

end Method

end EmuScript.Engine
