import EmuScript.Proofs.Engine.Furnishing
import EmuScript.Proofs.Engine.Upkeep
import Mathlib.Logic.Function.Basic

/-!
# Reception of clients

A server shows each new client to the function that was installed for its clients, and then
asks the emulator for the next one. Here it is said what the programs of a bridge do about
clients: a method may install a function, with a first request, and the completion of a
request calls the function that is installed now and makes one more request. All other
programs show no client and ask for none.
-/

set_option autoImplicit false

namespace EmuScript.Engine

open Program

variable {φ α β : Type}

/-! ## Requests for clients -/

/-- The server for which a request asks for a client. -/
def Ticket.accepts? (ticket : Ticket) : Option SocketFd :=
  match ticket.request with
  | .accept server => some server
  | .connect _ | .read _ | .write _ => none

theorem Ticket.accepts?_eq_some {ticket : Ticket} {server : SocketFd} :
    ticket.accepts? = some server ↔ ticket.request.endpoint = .server server := by
  obtain ⟨serial, request⟩ := ticket
  cases request <;> simp [accepts?, Request.endpoint]

def NativeCall.accepts? (call : NativeCall φ) : Option SocketFd :=
  call.ticket?.bind Ticket.accepts?

theorem NativeCall.accepts?_eq_none {call : NativeCall φ}
    (elsewhere : ∀ ticket, call.ticket? = some ticket →
      ∀ server, ticket.request.endpoint ≠ .server server) : call.accepts? = none := by
  refine Option.bind_eq_none_iff.mpr fun ticket handed => ?_
  exact Option.eq_none_iff_forall_ne_some.mpr fun server accepts =>
    elsewhere ticket handed server (Ticket.accepts?_eq_some.mp accepts)

/-- The calls that are made for a client, if a function was installed. -/
def clientCalls (client : SocketFd) (installed : Option φ) : List (Invocation φ) :=
  installed.toList.map (⟨·, [.word client.value]⟩)

/-! ## What is known of a bridge -/

/-- A bridge has all that was opened, furnished by the configuration, and calls for the
clients of each server the function that was installed. -/
structure Bridge.Hosts (config : SessionConfig) (installed : SocketFd → Option φ)
    (opened : List Endpoint) (bridge : Bridge φ) : Prop where
  furnished : bridge.Furnished config
  handlers : ∀ (fd : SocketFd) server, bridge.servers.find? fd.value = some server →
    server.connectionHandler = (installed fd).map .deferred
  known : ∀ fd, (installed fd).isSome → .server fd ∈ opened
  present : ∀ place ∈ opened, bridge.Holds place

namespace Bridge.Hosts

variable {config : SessionConfig} {installed : SocketFd → Option φ} {opened : List Endpoint}
  {bridge after : Bridge φ}

theorem unopened (config : SessionConfig) :
    Hosts config (fun _ => none) [] ({ session := { config } } : Bridge φ) where
  furnished := ⟨rfl, by rintro key socket ⟨⟩, by rintro key server ⟨⟩⟩
  handlers := by rintro fd server ⟨⟩
  known := by simp
  present := by simp

/-- Work on other objects than servers leaves the servers alone. -/
theorem follow (hosts : bridge.Hosts config installed opened) {endpoint : Option Endpoint}
    (follows : Follows endpoint bridge after) (elsewhere : ∀ fd, endpoint ≠ some (.server fd))
    (furnished : after.Furnished config) : after.Hosts config installed opened where
  furnished
  handlers fd server found := by
    rw [follows.servers fd (elsewhere fd)] at found
    exact hosts.handlers fd server found
  known := hosts.known
  present place member := (follows.holds place).mpr (hosts.present place member)

theorem adapt (hosts : bridge.Hosts config installed opened) (adapter : Adapter φ) :
    Hosts config installed opened { bridge with adapter } :=
  ⟨hosts.furnished.adapt adapter, hosts.handlers, hosts.known, hosts.present⟩

theorem putSocket (hosts : bridge.Hosts config installed opened) {socket : Socket (Closure φ)}
    (built : socket.BuiltFrom config) :
    (bridge.putSocket socket).Hosts config installed (opened ++ [.socket socket.fd]) where
  furnished := hosts.furnished.insertSocket _ built
  handlers := hosts.handlers
  known fd given := List.mem_append_left _ (hosts.known fd given)
  present place member := by
    rw [holds_putSocket]
    exact (List.mem_append.mp member).symm.imp List.mem_singleton.mp (hosts.present place)

theorem putServer (hosts : bridge.Hosts config installed opened) {server : Server (Closure φ)}
    (same : server.config = config) (unattended : server.connectionHandler = none)
    (fresh : .server server.fd ∉ opened) :
    (bridge.putServer server).Hosts config installed (opened ++ [.server server.fd]) where
  furnished := hosts.furnished.insertServer _ same
  handlers fd found placed := by
    rw [find?_putServer] at placed
    split at placed
    case isTrue equal =>
      have own : fd = server.fd := congrArg SocketFd.mk equal
      cases placed
      cases given : installed fd with
      | none => exact unattended
      | some callback => exact (fresh (own ▸ hosts.known fd (by simp [given]))).elim
    case isFalse => exact hosts.handlers fd found placed
  known fd given := List.mem_append_left _ (hosts.known fd given)
  present place member := by
    rw [holds_putServer]
    exact (List.mem_append.mp member).symm.imp List.mem_singleton.mp (hosts.present place)

theorem keepServer (hosts : bridge.Hosts config installed opened) (fd : SocketFd)
    {server : Server (Closure φ)} {later : SocketFd → Option φ} (same : server.config = config)
    (handler : server.connectionHandler = (later fd).map .deferred)
    (others : ∀ other, other ≠ fd → later other = installed other)
    (known : .server fd ∈ opened) :
    Hosts config later opened { bridge with servers := bridge.servers.insert fd.value server } where
  furnished := hosts.furnished.insertServer _ same
  handlers other found placed := by
    by_cases equal : other = fd
    · subst equal
      rw [Table.find?_insert_self] at placed
      cases placed
      exact handler
    · have differ : other.value ≠ fd.value := fun same => equal (congrArg SocketFd.mk same)
      rw [Table.find?_insert_of_ne _ _ differ] at placed
      rw [others other equal]
      exact hosts.handlers other found placed
  known other given := by
    by_cases equal : other = fd
    · exact equal ▸ known
    · rw [others other equal] at given
      exact hosts.known other given
  present place member := by
    cases place with
    | socket other => exact hosts.present _ member
    | server other =>
        by_cases equal : other.value = fd.value
        · simp [Holds, equal]
        · have held : (bridge.servers.find? other.value).isSome := hosts.present _ member
          rwa [Holds, Table.find?_insert_of_ne _ _ equal]

end Bridge.Hosts

/-! ## What a program is to do -/

/-- What is known of the clients of a bridge, and what a program is to do about them. -/
structure Reception (φ : Type) where
  config : SessionConfig
  /-- The functions that are installed for the clients of servers. -/
  installed : SocketFd → Option φ
  opened : List Endpoint
  /-- Functions may be called that are not for clients. -/
  streams : Prop
  /-- The calls that remain to be made for a client. -/
  due : List (Invocation φ) := []
  /-- The server for which a client is still to be asked for. -/
  arms : Option SocketFd := none
  /-- The function that is installed with this request. -/
  gives : Option φ := none

namespace Reception

def Permits (reception : Reception φ) : Signal (Closure φ) → Prop
  | .accepted handler client => client.BuiltFrom reception.config ∧ ∃ callback,
      handler = .deferred callback ∧
        reception.due.head? = some ⟨callback, [.word client.fd.value]⟩
  | _ => reception.streams

def told (reception : Reception φ) : Effect φ → Reception φ
  | .notice (.signal (.accepted _ _)) => { reception with due := reception.due.tail }
  | .opened endpoint => { reception with opened := reception.opened ++ [endpoint] }
  | _ => reception

/-- The functions that are installed once a request has been made for a server. -/
def installing (installed : SocketFd → Option φ) (arms : Option SocketFd) (gives : Option φ) :
    SocketFd → Option φ :=
  match arms, gives with
  | some server, some callback => Function.update installed server (some callback)
  | _, _ => installed

def asked (reception : Reception φ) : Reception φ :=
  { reception with
    installed := installing reception.installed reception.arms reception.gives
    arms := none
    gives := none }

/-- Nothing is to be done about clients. -/
structure Plain (reception : Reception φ) : Prop where
  due : reception.due = []
  arms : reception.arms = none
  gives : reception.gives = none

theorem Plain.asked {reception : Reception φ} (plain : reception.Plain) :
    reception.asked = reception := by
  cases reception
  cases plain.arms
  cases plain.gives
  rfl

theorem Plain.told {reception : Reception φ} (plain : reception.Plain) {effect : Effect φ}
    (unopened : effect.opened? = none)
    (permitted : ∀ signal, effect = .notice (.signal signal) → reception.Permits signal) :
    reception.told effect = reception := by
  cases effect with
  | notice notice =>
      cases notice with
      | log record => rfl
      | signal signal =>
          cases signal with
          | accepted handler client =>
              obtain ⟨-, callback, -, first⟩ := permitted _ rfl
              simp [plain.due] at first
          | _ => rfl
  | opened endpoint => cases unopened
  | _ => rfl

theorem told_silent (reception : Reception φ) {effect : Effect φ}
    (silent : ∀ signal, effect ≠ .notice (.signal signal)) :
    reception.told effect =
      { reception with opened := reception.opened ++ effect.opened?.toList } := by
  cases effect with
  | notice notice =>
      cases notice with
      | log record => simp [told, Effect.opened?]
      | signal signal => exact (silent signal rfl).elim
  | opened endpoint => rfl
  | consoleLog | keepProcedure | dropProcedure => simp [told, Effect.opened?]

/-- All is done, and the bridge is as it should be. -/
def Done (reception : Reception φ) (ended : α × Bridge φ) : Prop :=
  reception.due = [] ∧ reception.arms = none ∧
    ended.2.Hosts reception.config reception.installed reception.opened

/-- A program that does nothing about clients. -/
def plainly (reception : Reception φ) (ends : α → Prop) : Contract (NativeCall φ) (Effect φ) α where
  asks call := call.accepts? = none
  tells effect := effect.opened? = none ∧
    ∀ signal, effect = .notice (.signal signal) → reception.Permits signal
  ends

end Reception

/-- Nothing is to be done about clients, and no function is called. -/
abbrev Reception.unreceptive (config : SessionConfig) (installed : SocketFd → Option φ)
    (opened : List Endpoint) : Reception φ where
  config
  installed
  opened
  streams := False

theorem Reception.unreceptive_plain {config : SessionConfig} {installed : SocketFd → Option φ}
    {opened : List Endpoint} : (unreceptive config installed opened).Plain :=
  ⟨rfl, rfl, rfl⟩

/-- A program receives clients as it should. What it opens was not opened before. -/
def Receives (ends : Reception φ → α → Prop) : Reception φ → NativeProgram φ α → Prop
  | reception, .done value => ends reception value
  | reception, .tell effect rest =>
      (∀ signal, effect = .notice (.signal signal) → reception.Permits signal) ∧
        ((∀ endpoint, effect.opened? = some endpoint → endpoint ∉ reception.opened) →
          Receives ends (reception.told effect) rest)
  | reception, .ask call next =>
      reception.due = [] ∧ call.accepts? = reception.arms ∧
        ∀ reply, Receives ends reception.asked (next reply)

section Receives

variable {reception : Reception φ} {ends : Reception φ → α → Prop}

theorem receives_bind {program : NativeProgram φ β} {next : β → NativeProgram φ α}
    (first : Receives (fun reception value => Receives ends reception (next value)) reception
      program) : Receives ends reception (program >>= next) := by
  induction program generalizing reception with
  | done value => exact first
  | tell effect rest ih => exact ⟨first.1, fun fresh => ih (first.2 fresh)⟩
  | ask call rest ih => exact ⟨first.1, first.2.1, fun reply => ih reply (first.2.2 reply)⟩

theorem receives_plain (plain : reception.Plain) {program : NativeProgram φ α} {gives : α → Prop}
    (meets : program.Meets (reception.plainly gives))
    (ended : ∀ value, gives value → ends reception value) : Receives ends reception program := by
  induction program with
  | done value => exact ended value meets
  | tell effect rest ih =>
      obtain ⟨⟨unopened, permitted⟩, meets⟩ := meets
      refine ⟨permitted, fun _ => ?_⟩
      rw [plain.told unopened permitted]
      exact ih meets
  | ask call next ih =>
      obtain ⟨other, meets⟩ := meets
      refine ⟨plain.due, other.trans plain.arms.symm, fun reply => ?_⟩
      rw [plain.asked]
      exact ih reply (meets reply)

/-- A program does nothing about clients if it makes no request for a server. -/
theorem plainly_of_native (scope : Scope (Closure φ)) {program : NativeProgram φ α}
    {gives : α → Prop} (meets : program.Meets (scope.native gives))
    (elsewhere : ∀ fd, ¬ scope.requests (.server fd))
    (signals : ∀ signal, scope.signals signal → reception.Permits signal) :
    program.Meets (reception.plainly gives) := by
  refine meets.weaken ?_ ?_ fun _ => id
  · intro call requests
    refine NativeCall.accepts?_eq_none fun ticket handed server same => elsewhere server ?_
    rw [← same]
    exact requests ticket handed
  · intro effect tells
    cases effect with
    | notice notice =>
        refine ⟨rfl, ?_⟩
        rintro signal ⟨⟩
        exact signals signal tells
    | opened endpoint => exact tells.elim
    | consoleLog | keepProcedure | dropProcedure => exact ⟨rfl, by simp⟩

end Receives

open Reception

/-! ## Servers -/

section Servers

variable {reception : Reception φ}

/-- A server asks for its next client, whatever it has been asked for before. -/
theorem acceptNext_through (server : Server (Closure φ)) (bridge : Bridge φ) :
    Bridge.through (Server.acceptNext.on server) bridge =
      .ask (.socket (.accept server.fd ⟨bridge.adapter.ticketsIssued, .accept server.fd⟩))
        fun reply =>
          let adapter :=
            { bridge.adapter with ticketsIssued := bridge.adapter.ticketsIssued + 1 }
          let result := reply.mapError fun thrown => .host (Adapter.failure "sockAccept" thrown)
          .done ((result, server), { bridge with adapter }) := by
  refine congrArg (Program.ask _) (funext fun reply => ?_)
  cases reply <;> rfl

theorem acceptNext_receives {server : Server (Closure φ)} {bridge : Bridge φ}
    {ends : Reception φ → (Except ScriptError Unit × Server (Closure φ)) × Bridge φ → Prop}
    (due : reception.due = []) (arms : reception.arms = some server.fd)
    (after : ∀ result adapter, ends reception.asked ((result, server), { bridge with adapter })) :
    Receives ends reception (Bridge.through (Server.acceptNext.on server) bridge) := by
  rw [acceptNext_through]
  refine ⟨due, ?_, fun reply => after _ _⟩
  rw [arms]
  rfl

theorem onConnection_through (handler : Closure φ) (server : Server (Closure φ))
    (bridge : Bridge φ) :
    Bridge.through ((Server.onConnection handler).on server) bridge =
      Bridge.through (Server.acceptNext.on { server with connectionHandler := some handler })
        bridge := rfl

theorem deliverAccept_through (client : SocketFd) (server : Server (Closure φ))
    (bridge : Bridge φ) :
    Bridge.through ((Server.deliverAccept client).on server) bridge =
      .tell (.notice (.log ⟨.debug,
        s!"server {server.fd.value.toNat}: accepted client {client.value.toNat}"⟩))
        (match server.connectionHandler with
        | none => Bridge.through (Server.acceptNext.on server) bridge
        | some handler =>
            .tell (.notice (.signal (.accepted handler (Socket.accepted client server.config))))
              (Bridge.through (Server.acceptNext.on server) bridge)) := by
  obtain ⟨fd, config, handler⟩ := server
  cases handler <;> rfl

/-- A client is shown to the function that is installed, and the next one is asked for. -/
theorem deliverAccept_receives {config : SessionConfig} {installed : SocketFd → Option φ}
    {opened : List Endpoint} {server : Server (Closure φ)} {bridge : Bridge φ}
    {ends : Reception φ → (Except ScriptError Unit × Server (Closure φ)) × Bridge φ → Prop}
    (client : SocketFd) (same : server.config = config)
    (handler : server.connectionHandler = (installed server.fd).map .deferred)
    (after : ∀ result adapter,
      ends (unreceptive config installed opened) ((result, server), { bridge with adapter })) :
    Receives ends
      { unreceptive config installed opened with
        due := clientCalls client (installed server.fd)
        arms := some server.fd }
      (Bridge.through ((Server.deliverAccept client).on server) bridge) := by
  have asks : Receives ends { unreceptive config installed opened with arms := some server.fd }
      (Bridge.through (Server.acceptNext.on server) bridge) :=
    acceptNext_receives rfl rfl after
  rw [deliverAccept_through, handler, same]
  refine ⟨by simp, fun _ => ?_⟩
  cases installed server.fd with
  | none => exact asks
  | some callback =>
      refine ⟨?_, fun _ => asks⟩
      rintro signal ⟨⟩
      exact ⟨Socket.builtFrom_ofFd _ _ _, callback, rfl, rfl⟩

end Servers

/-! ## Methods -/

namespace Method

/-- The function that a method installs for the clients of a server. -/
def receiver? : Method φ → Option φ
  | onConnection _ callback => some callback
  | _ => none

variable {config : SessionConfig} {installed : SocketFd → Option φ} {opened : List Endpoint}
  {bridge : Bridge φ}

/-- A method that works on no server has nothing to do with clients. -/
theorem run_receives_elsewhere {method : Method φ} (opens : ¬ method.Opens)
    (elsewhere : ∀ fd, method.endpoint ≠ some (.server fd)) (fits : bridge.Fits opened)
    (hosts : bridge.Hosts config installed opened) :
    Receives Reception.Done (unreceptive config installed opened) (method.run bridge) := by
  have meets := (method.run_meets opens fits.keyed).and_ends (method.run_furnished hosts.furnished)
  refine receives_plain unreceptive_plain
    (plainly_of_native (method.scope bridge) meets ?_ fun _ => False.elim) ?_
  · exact fun fd requests => elsewhere fd requests.1
  · rintro ended ⟨follows, furnished⟩
    exact ⟨rfl, rfl, hosts.follow follows elsewhere furnished⟩

theorem listen_receives (fd : UInt32) (port : UInt16) (fits : bridge.Fits opened)
    (hosts : bridge.Hosts config installed opened) :
    Receives Reception.Done (unreceptive config installed opened)
      ((listen fd port).run bridge) := by
  cases found : bridge.servers.find? fd with
  | none =>
      simp only [run, Bridge.onServer, found]
      exact ⟨rfl, rfl, hosts⟩
  | some server =>
      have listened : Scope.Changes {} (· = server) (Server.listen port : Update (Closure φ) _ _) :=
        listen_changes port
      have meets := Bridge.through_meets (listened server rfl) bridge
      have held : bridge.Holds (.server ⟨fd⟩) := by simp [Bridge.Holds, found]
      simp only [run, Bridge.onServer, found]
      refine receives_bind (receives_bind (receives_plain unreceptive_plain
        (plainly_of_native {} meets (fun _ => id) fun _ => False.elim) ?_))
      rintro ⟨⟨result, same⟩, after⟩ ⟨⟨rfl, -⟩, adapter, rfl⟩
      refine ⟨rfl, rfl, (hosts.adapt adapter).keepServer ⟨fd⟩ ?_ ?_ (fun _ _ => rfl) ?_⟩
      · exact hosts.furnished.servers fd _ found
      · exact hosts.handlers ⟨fd⟩ _ found
      · exact fits.known _ held

theorem createSocket_receives (hosts : bridge.Hosts config installed opened) :
    Receives Reception.Done (unreceptive config installed opened) (createSocket.run bridge) := by
  have built : Scope.Does {} (Socket.create bridge.session.config : Action (Closure φ) _)
      (·.BuiltFrom config) := by
    rw [hosts.furnished.session]
    exact createSocket_builtFrom
  refine receives_bind (receives_plain unreceptive_plain
    (plainly_of_native {} (Bridge.through_meets built bridge) (fun _ => id) fun _ => False.elim) ?_)
  rintro ⟨result, after⟩ ⟨built, adapter, rfl⟩
  cases result with
  | ok socket =>
      refine ⟨by simp, fun _ => ⟨rfl, rfl, ?_⟩⟩
      exact (hosts.adapt adapter).putSocket (built socket rfl)
  | error error => exact ⟨rfl, rfl, hosts.adapt adapter⟩

theorem createServer_receives (port : Option UInt16)
    (hosts : bridge.Hosts config installed opened) :
    Receives Reception.Done (unreceptive config installed opened)
      ((createServer port).run bridge) := by
  have built : Scope.Does {} (Server.create port bridge.session.config : Action (Closure φ) _)
      (fun server => server.config = config ∧ server.connectionHandler = none) := by
    rw [hosts.furnished.session]
    exact createServer_blank port
  refine receives_bind (receives_plain unreceptive_plain
    (plainly_of_native {} (Bridge.through_meets built bridge) (fun _ => id) fun _ => False.elim) ?_)
  rintro ⟨result, after⟩ ⟨built, adapter, rfl⟩
  cases result with
  | ok server =>
      obtain ⟨same, unattended⟩ := built server rfl
      refine ⟨by simp, fun fresh => ⟨rfl, rfl, ?_⟩⟩
      exact (hosts.adapt adapter).putServer same unattended (fresh _ rfl)
  | error error => exact ⟨rfl, rfl, hosts.adapt adapter⟩

theorem onConnection_receives (fd : UInt32) (callback : φ) (fits : bridge.Fits opened)
    (hosts : bridge.Hosts config installed opened) :
    ∃ arms, Receives Reception.Done
      { unreceptive config installed opened with arms, gives := some callback }
      ((onConnection fd callback).run bridge) := by
  cases found : bridge.servers.find? fd with
  | none =>
      refine ⟨none, ?_⟩
      simp only [run, Bridge.onServer, found]
      exact ⟨rfl, rfl, hosts⟩
  | some server =>
      have own : server.fd = ⟨fd⟩ := fits.keyed.servers fd server found
      have held : bridge.Holds (.server ⟨fd⟩) := by simp [Bridge.Holds, found]
      refine ⟨some ⟨fd⟩, ?_⟩
      simp only [run, Bridge.onServer, found]
      refine receives_bind (receives_bind ?_)
      rw [onConnection_through]
      have same : server.config = config := hosts.furnished.servers fd server found
      refine acceptNext_receives rfl (congrArg some own.symm) fun result adapter => ⟨rfl, rfl, ?_⟩
      refine (hosts.adapt adapter).keepServer ⟨fd⟩ same ?_ (fun other differ => ?_) ?_
      · simp [Reception.asked, Reception.installing]
      · simp [Reception.asked, Reception.installing, differ]
      · exact fits.known _ held

theorem run_receives (method : Method φ) (fits : bridge.Fits opened)
    (hosts : bridge.Hosts config installed opened) :
    ∃ arms, (arms.isSome → method.receiver?.isSome) ∧ Receives Reception.Done
      { unreceptive config installed opened with arms, gives := method.receiver? }
      (method.run bridge) := by
  cases method with
  | onConnection fd callback =>
      obtain ⟨arms, receives⟩ := onConnection_receives fd callback fits hosts
      exact ⟨arms, fun _ => rfl, receives⟩
  | listen fd port => exact ⟨none, by simp, listen_receives fd port fits hosts⟩
  | createSocket => exact ⟨none, by simp, createSocket_receives hosts⟩
  | createServer port => exact ⟨none, by simp, createServer_receives port hosts⟩
  | _ => exact ⟨none, by simp, run_receives_elsewhere id (by simp [endpoint]) fits hosts⟩

end Method

/-! ## Completions -/

/-- The server whose client a completion brings. -/
def Completion.arms : Completion → Option SocketFd
  | .accepted server _ => some server
  | .connected _ | .received _ _ | .written _ => none

/-- The calls that are to be made for the client that a completion brings. -/
def Completion.due (installed : SocketFd → Option φ) : Completion → List (Invocation φ)
  | .accepted server client => clientCalls client (installed server)
  | .connected _ | .received _ _ | .written _ => []

/-- What the application of a completion is to do about clients. A client is shown to the
function that is installed now, and one more client is asked for. -/
def Completion.reception (completion : Completion) (config : SessionConfig)
    (installed : SocketFd → Option φ) (opened : List Endpoint) : Reception φ where
  config
  installed
  opened
  streams := completion.arms = none
  due := completion.due installed
  arms := completion.arms

namespace Bridge

variable {config : SessionConfig} {installed : SocketFd → Option φ} {opened : List Endpoint}
  {bridge : Bridge φ} {reception : Reception φ}

theorem report_receives (plain : reception.Plain) (error : ScriptError) {after : Bridge φ}
    (hosts : after.Hosts reception.config reception.installed reception.opened) :
    Receives Reception.Done reception (do
      match ← perform (Console.reportError error) after with
      | (.ok (), bridge) => return ((), bridge)
      | (.error _, bridge) =>
          Program.notify (.consoleLog s!"error: {error.message}")
          return ((), bridge)) := by
  have reported : Scope.Does {} (Console.reportError error : Action (Closure φ) _) :=
    reportError_does error
  refine receives_bind (receives_plain plain
    (plainly_of_native {} (through_meets reported after) (fun _ => id) fun _ => False.elim) ?_)
  rintro ⟨result, last⟩ ⟨-, adapter, rfl⟩
  have done : reception.Done ((), { after with adapter }) :=
    ⟨plain.due, plain.arms, hosts.adapt adapter⟩
  cases result with
  | ok value => exact done
  | error failure => exact ⟨by simp, fun _ => done⟩

/-- An emulator that refuses to look for the next client takes nothing back. -/
theorem accepted_receives {server client : SocketFd} (fits : bridge.Fits opened)
    (hosts : bridge.Hosts config installed opened) (known : .server server ∈ opened) :
    Receives Reception.Done ((Completion.accepted server client).reception config installed opened)
      (apply (.accepted server client) bridge) := by
  have held : (bridge.servers.find? server.value).isSome := hosts.present _ known
  obtain ⟨found, place⟩ := Option.isSome_iff_exists.mp held
  have own : found.fd = server := fits.keyed.servers _ _ place
  have same : found.config = config := hosts.furnished.servers _ _ place
  have handler := hosts.handlers server found place
  have kept (adapter : Adapter φ) : Hosts config installed opened
      { bridge with adapter, servers := bridge.servers.insert server.value found } :=
    (hosts.adapt adapter).keepServer server same handler (fun _ _ => rfl) known
  subst own
  simp only [apply, complete, onServer, place]
  have silent : (Completion.accepted found.fd client).reception config installed opened =
      { unreceptive config installed opened with
        due := clientCalls client (installed found.fd)
        arms := some found.fd } := by
    simp [Completion.reception, Completion.arms, Completion.due]
  rw [silent]
  refine receives_bind (receives_bind (deliverAccept_receives client same handler ?_))
  intro result adapter
  cases result with
  | ok value => exact ⟨rfl, rfl, kept adapter⟩
  | error error => exact report_receives unreceptive_plain error (kept adapter)

theorem apply_receives_elsewhere {completion : Completion} {fd : SocketFd}
    (elsewhere : completion.endpoint = .socket fd) (fits : bridge.Fits opened)
    (hosts : bridge.Hosts config installed opened) :
    Receives Reception.Done (completion.reception config installed opened)
      (apply completion bridge) := by
  have plain : (completion.reception config installed opened).Plain := by
    cases completion with
    | accepted => cases elsewhere
    | connected | received | written => exact ⟨rfl, rfl, rfl⟩
  have streams : completion.arms = none := plain.arms
  have meets := (apply_meets completion fits.keyed).and_ends
    (apply_furnished completion hosts.furnished)
  refine receives_plain plain (plainly_of_native (completion.scope bridge) meets ?_ ?_) ?_
  · rintro server ⟨same, -⟩
    simp [elsewhere] at same
  · intro signal same
    cases signal with
    | accepted handler client =>
        cases completion with
        | accepted => cases elsewhere
        | connected | written => simp [Completion.scope, argumentsOf, Completion.arguments] at same
        | received fd data =>
            cases data <;> simp [Completion.scope, argumentsOf, Completion.arguments] at same
    | _ => exact streams
  · rintro ended ⟨follows, furnished⟩
    exact ⟨plain.due, plain.arms, hosts.follow follows (by simp [elsewhere]) furnished⟩

theorem apply_receives (completion : Completion) (fits : bridge.Fits opened)
    (hosts : bridge.Hosts config installed opened) (known : completion.endpoint ∈ opened) :
    Receives Reception.Done (completion.reception config installed opened)
      (apply completion bridge) := by
  cases completion with
  | accepted server client => exact accepted_receives fits hosts known
  | connected | received | written => exact apply_receives_elsewhere rfl fits hosts

end Bridge

end EmuScript.Engine
