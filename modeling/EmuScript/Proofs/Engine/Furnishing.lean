import EmuScript.Proofs.Engine.Custody
import EmuScript.Proofs.Socket.Operation

/-!
# Objects of one configuration

The sockets and servers of a session take their sizes and defaults from its configuration.
No method and no completion changes them afterwards, whatever the emulator answers.
-/

set_option autoImplicit false

namespace EmuScript

open Program

variable {κ α β : Type}

/-- A socket has the sizes and defaults of a configuration. -/
def Socket.BuiltFrom (config : SessionConfig) (socket : Socket κ) : Prop :=
  socket.bufferSize = config.socketBufferSize ∧ socket.defaultHost = config.connectHost ∧
    socket.defaultPort = config.connectPort

theorem Socket.builtFrom_ofFd (fd : SocketFd) (connected : Bool) (config : SessionConfig) :
    (ofFd fd connected config : Socket κ).BuiltFrom config :=
  ⟨rfl, rfl, rfl⟩

namespace Engine

open Scope

/-! ## The library -/

/-- The scope of a program of which only the end is of interest. -/
def Scope.wide : Scope κ where
  requests _ := True
  signals _ := True

theorem Scope.permits_wide (call : HostCall κ) : Scope.wide.Permits call :=
  fun _ _ => trivial

theorem Scope.confines_wide (program : HostProgram κ α) : wide.Confines program fun _ => True :=
  (meets_of_ends (fun _ => trivial) program).weaken (fun _ _ _ _ => trivial)
    (fun _ _ _ _ => trivial) fun _ => id

section Library

variable {config : SessionConfig}

theorem operation_builtFrom (operation : Socket.Operation κ) :
    Scope.wide.Changes (·.BuiltFrom config) operation.update := by
  cases operation with
  | connect host port handler =>
      refine changes_bind changes_get fun socket _ => ?_
      cases socket.connected with
      | true => exact changes_pure trivial
      | false =>
          refine changes_bind (changes_ask (permits_wide _)) fun _ _ => ?_
          exact changes_bind (changes_log _ _) fun _ _ => changes_modify fun _ built => built
  | deliverConnect =>
      refine changes_bind (changes_modify fun _ built => built) fun _ _ => ?_
      exact changes_bind changes_get fun _ _ => changes_emitTo fun _ => trivial
  | onData handler =>
      refine changes_bind (changes_modify fun _ built => built) fun _ _ => ?_
      exact changes_bind changes_get fun _ _ => changes_ask (permits_wide _)
  | onClose handler => exact changes_modify fun _ built => built
  | deliverRead data =>
      cases data with
      | none =>
          refine changes_bind (changes_modify fun _ built => built) fun _ _ => ?_
          refine changes_bind changes_get fun _ _ => changes_bind (changes_log _ _) fun _ _ => ?_
          exact changes_bind changes_get fun _ _ => changes_emitTo fun _ => trivial
      | some data =>
          have asks : Scope.wide.Changes (·.BuiltFrom config) (Socket.readNext : Update κ _ _) :=
            changes_bind changes_get fun _ _ => changes_ask (permits_wide _)
          exact changes_bind asks fun _ _ => changes_bind changes_get fun _ _ =>
            changes_emitTo fun _ => trivial
  | write data handler =>
      refine changes_bind changes_get fun _ _ => ?_
      refine changes_bind (changes_ask (permits_wide _)) fun _ _ => ?_
      exact changes_modify fun _ built => built
  | deliverWrite =>
      refine changes_bind changes_get fun socket built => ?_
      cases socket.pendingWrites with
      | nil => exact changes_log _ _
      | cons handler rest =>
          exact changes_bind (changes_set built) fun _ _ => changes_emitTo fun _ => trivial
  | close =>
      refine changes_bind changes_get fun _ _ => ?_
      refine changes_bind (changes_ask (permits_wide _)) fun _ _ => ?_
      exact changes_modify fun _ built => built

theorem createSocket_builtFrom :
    Scope.Does {} (Socket.create config : Action κ _) (·.BuiltFrom config) :=
  does_bind (does_plain rfl) fun _ _ => does_pure (Socket.builtFrom_ofFd _ _ _)

/-- A new server follows the configuration, and has no function for its clients. -/
theorem createServer_blank (port : Option UInt16) :
    Scope.Does {} (Server.create port config : Action κ _) fun server =>
      server.config = config ∧ server.connectionHandler = none := by
  refine does_bind (does_plain rfl) fun fd _ => ?_
  cases port with
  | none => exact does_pure ⟨rfl, rfl⟩
  | some port =>
      have listened : Scope.Changes {} (fun server : Server κ =>
          server.config = config ∧ server.connectionHandler = none) (Server.listen port) :=
        listen_changes port
      have kept := does_lift (listened { fd, config } ⟨rfl, rfl⟩)
      refine does_bind kept fun (result, server) kept => ?_
      cases result with
      | ok value => exact does_pure kept.1
      | error error => exact does_throw error

theorem onConnection_config (handler : κ) :
    Scope.wide.Changes (·.config = config) (Server.onConnection handler) :=
  changes_bind (changes_modify fun _ same => same) fun _ _ =>
    changes_bind changes_get fun _ _ => changes_ask (permits_wide _)

theorem deliverAccept_config (client : SocketFd) :
    Scope.wide.Changes (·.config = config) (Server.deliverAccept client : Update κ _ _) := by
  refine changes_bind changes_get fun _ _ => changes_bind (changes_log _ _) fun _ _ => ?_
  refine changes_bind (changes_emitTo fun _ => trivial) fun _ _ => ?_
  exact changes_bind changes_get fun _ _ => changes_ask (permits_wide _)

theorem updateHooks_config (update : Update κ (HookRegistry κ) α) :
    Scope.wide.Changes (·.config = config) (Session.updateHooks update) :=
  fun session same =>
    confines_bind (confines_wide (update.on session.hooks)) fun _ _ => ⟨same, fun _ _ => trivial⟩

end Library

/-! ## Bridges -/

variable {φ : Type}

/-- The session of a bridge has a configuration, and its sockets and servers follow it. -/
structure Bridge.Furnished (config : SessionConfig) (bridge : Bridge φ) : Prop where
  session : bridge.session.config = config
  sockets : ∀ key socket, bridge.sockets.find? key = some socket → socket.BuiltFrom config
  servers : ∀ key server, bridge.servers.find? key = some server → server.config = config

namespace Bridge

variable {config : SessionConfig} {bridge after : Bridge φ}

/-- A program ends with a bridge on which all objects follow the configuration. -/
abbrev furnishing (config : SessionConfig) :
    Contract (NativeCall φ) (Effect φ) (α × Bridge φ) where
  ends ended := ended.2.Furnished config

theorem furnishing_bind {program : NativeProgram φ α} {next : α → NativeProgram φ (β × Bridge φ)}
    {ends : α → Prop} (first : program.Meets { ends })
    (rest : ∀ value, ends value → (next value).Meets (furnishing config)) :
    (program >>= next).Meets (furnishing config) :=
  meets_bind.mpr (first.weaken (fun _ => id) (fun _ => id) rest)

theorem through_ends {scope : Scope (Closure φ)} {program : HostProgram (Closure φ) α}
    {ends : α → Prop} (confined : scope.Confines program ends) (bridge : Bridge φ) :
    (through program bridge).Meets
      { ends := fun ended => ends ended.1 ∧ ∃ adapter, ended.2 = { bridge with adapter } } :=
  (through_meets confined bridge).weaken (fun _ _ => trivial) (fun _ _ => trivial) fun _ => id

theorem Furnished.same (furnished : bridge.Furnished config)
    (session : after.session = bridge.session) (sockets : after.sockets = bridge.sockets) (servers : after.servers = bridge.servers) :
    after.Furnished config :=
  ⟨session ▸ furnished.session, sockets ▸ furnished.sockets, servers ▸ furnished.servers⟩

theorem Furnished.adapt (furnished : bridge.Furnished config) (adapter : Adapter φ) :
    Furnished config { bridge with adapter } :=
  furnished.same rfl rfl rfl

theorem Furnished.insertSocket (furnished : bridge.Furnished config) (key : UInt32)
    {socket : Socket (Closure φ)} (built : socket.BuiltFrom config) :
    Furnished config { bridge with sockets := bridge.sockets.insert key socket } :=
  { furnished with
    sockets := by
      intro other found placed
      by_cases same : other = key
      · rw [same, Table.find?_insert_self] at placed
        cases placed
        exact built
      · rw [Table.find?_insert_of_ne _ _ same] at placed
        exact furnished.sockets other found placed }

theorem Furnished.insertServer (furnished : bridge.Furnished config) (key : UInt32)
    {server : Server (Closure φ)} (built : server.config = config) :
    Furnished config { bridge with servers := bridge.servers.insert key server } :=
  { furnished with
    servers := by
      intro other found placed
      by_cases same : other = key
      · rw [same, Table.find?_insert_self] at placed
        cases placed
        exact built
      · rw [Table.find?_insert_of_ne _ _ same] at placed
        exact furnished.servers other found placed }

theorem onSocket_furnished (fd : UInt32) (operation : Socket.Operation (Closure φ))
    (furnished : bridge.Furnished config) :
    (onSocket fd operation.update bridge).Meets (furnishing config) := by
  cases found : bridge.sockets.find? fd with
  | none =>
      simp only [onSocket, found]
      exact furnished
  | some socket =>
      simp only [onSocket, found]
      have built := furnished.sockets fd socket found
      refine furnishing_bind (through_ends (operation_builtFrom operation socket built) bridge) ?_
      rintro ⟨⟨result, socket⟩, after⟩ ⟨⟨built, -⟩, adapter, rfl⟩
      exact (furnished.adapt adapter).insertSocket fd built

theorem onServer_furnished (fd : UInt32) {update : Update (Closure φ) (Server (Closure φ)) α}
    (keeps : Scope.wide.Changes (·.config = config) update) (furnished : bridge.Furnished config) :
    (onServer fd update bridge).Meets (furnishing config) := by
  cases found : bridge.servers.find? fd with
  | none =>
      simp only [onServer, found]
      exact furnished
  | some server =>
      simp only [onServer, found]
      have same := furnished.servers fd server found
      refine furnishing_bind (through_ends (keeps server same) bridge) ?_
      rintro ⟨⟨result, server⟩, after⟩ ⟨⟨same, -⟩, adapter, rfl⟩
      exact (furnished.adapt adapter).insertServer fd same

theorem onSession_furnished {update : Update (Closure φ) (Session (Closure φ)) α}
    (keeps : Scope.wide.Changes (·.config = config) update) (furnished : bridge.Furnished config) :
    (onSession update bridge).Meets (furnishing config) := by
  refine furnishing_bind (through_ends (keeps bridge.session furnished.session) bridge) ?_
  rintro ⟨⟨result, session⟩, after⟩ ⟨⟨same, -⟩, adapter, rfl⟩
  exact ⟨same, furnished.sockets, furnished.servers⟩

theorem onThread_furnished (key : UInt32) (update : Update (Closure φ) (Thread (Closure φ)) α)
    (furnished : bridge.Furnished config) :
    (onThread key update bridge).Meets (furnishing config) := by
  cases found : bridge.threads.find? key with
  | none =>
      simp only [onThread, found]
      exact furnished
  | some thread =>
      simp only [onThread, found]
      refine furnishing_bind (through_ends (confines_wide (update.on thread)) bridge) ?_
      rintro ⟨⟨result, thread⟩, after⟩ ⟨-, adapter, rfl⟩
      exact furnished.same rfl rfl rfl

theorem perform_furnished (action : Action (Closure φ) α) (furnished : bridge.Furnished config) :
    (perform action bridge).Meets (furnishing config) := by
  refine (through_ends (confines_wide action.run) bridge).weaken (fun _ => id) (fun _ => id) ?_
  rintro ⟨result, after⟩ ⟨-, adapter, rfl⟩
  exact furnished.adapt adapter

theorem complete_furnished (completion : Completion) (furnished : bridge.Furnished config) :
    (complete completion bridge).Meets (furnishing config) := by
  cases completion with
  | connected fd => exact onSocket_furnished fd.value .deliverConnect furnished
  | received fd data => exact onSocket_furnished fd.value (.deliverRead data) furnished
  | written fd => exact onSocket_furnished fd.value .deliverWrite furnished
  | accepted server client =>
      exact onServer_furnished server.value (deliverAccept_config client) furnished

theorem apply_furnished (completion : Completion) (furnished : bridge.Furnished config) :
    (apply completion bridge).Meets (furnishing config) := by
  refine furnishing_bind (complete_furnished completion furnished) ?_
  rintro ⟨_ | error | ⟨⟩, between⟩ furnished
  · exact furnished
  · refine furnishing_bind (perform_furnished (Console.reportError error) furnished) ?_
    rintro ⟨reported, after⟩ furnished
    cases reported with
    | ok value => exact furnished
    | error failure => exact ⟨trivial, furnished⟩
  · exact furnished

end Bridge

theorem Method.run_furnished {config : SessionConfig} {bridge : Bridge φ} (method : Method φ)
    (furnished : bridge.Furnished config) :
    (method.run bridge).Meets (Bridge.furnishing config) := by
  cases method with
  | service request =>
      exact Bridge.furnishing_bind (Bridge.perform_furnished _ furnished) fun _ after => after
  | on | off | clearHooks =>
      exact Bridge.furnishing_bind
        (Bridge.onSession_furnished (updateHooks_config _) furnished) fun _ after => after
  | connect fd host port callback =>
      exact Bridge.furnishing_bind
        (Bridge.onSocket_furnished fd (.connect host port _) furnished) fun _ after => after
  | onData fd callback =>
      exact Bridge.furnishing_bind
        (Bridge.onSocket_furnished fd (.onData _) furnished) fun _ after => after
  | onClose fd callback =>
      exact Bridge.furnishing_bind
        (Bridge.onSocket_furnished fd (.onClose _) furnished) fun _ after => after
  | write fd data callback =>
      exact Bridge.furnishing_bind
        (Bridge.onSocket_furnished fd (.write data _) furnished) fun _ after => after
  | close fd =>
      exact Bridge.furnishing_bind (Bridge.onSocket_furnished fd .close furnished)
        fun _ after => after
  | listen fd port =>
      exact Bridge.furnishing_bind
        (Bridge.onServer_furnished fd (listen_changes port) furnished) fun _ after => after
  | onConnection fd callback =>
      exact Bridge.furnishing_bind
        (Bridge.onServer_furnished fd (onConnection_config _) furnished) fun _ after => after
  | suspendThread key | resumeThread key =>
      exact Bridge.furnishing_bind (Bridge.onThread_furnished key _ furnished) fun _ after => after
  | stopThread key =>
      refine Bridge.furnishing_bind (Bridge.onThread_furnished key _ furnished) ?_
      rintro ⟨_ | _ | ⟨⟩, after⟩ furnished
      · exact furnished
      · exact furnished
      · exact ⟨trivial, furnished⟩
  | threadState key =>
      cases found : bridge.threads.find? key with
      | none =>
          simp only [run, found]
          exact furnished
      | some thread =>
          simp only [run, found]
          exact furnished
  | spawn callback =>
      refine ⟨trivial, ?_⟩
      change (Bridge.perform _ _ >>= _).Meets _
      refine Bridge.furnishing_bind
        (Bridge.perform_furnished _ (furnished.same rfl rfl rfl)) ?_
      rintro ⟨result, after⟩ furnished
      cases result with
      | ok thread => exact furnished.same rfl rfl rfl
      | error error => exact ⟨trivial, furnished⟩
  | createSocket =>
      have built : Scope.Does {} (Socket.create bridge.session.config : Action (Closure φ) _)
          (·.BuiltFrom config) := by
        rw [furnished.session]
        exact createSocket_builtFrom
      refine Bridge.furnishing_bind (Bridge.through_ends built bridge) ?_
      rintro ⟨result, after⟩ ⟨built, adapter, rfl⟩
      have kept := furnished.adapt adapter
      cases result with
      | ok socket => exact ⟨trivial, kept.insertSocket _ (built socket rfl)⟩
      | error error => exact kept
  | createServer port =>
      have built : Scope.Does {} (Server.create port bridge.session.config : Action (Closure φ) _)
          fun server => server.config = config ∧ server.connectionHandler = none := by
        rw [furnished.session]
        exact createServer_blank port
      refine Bridge.furnishing_bind (Bridge.through_ends built bridge) ?_
      rintro ⟨result, after⟩ ⟨built, adapter, rfl⟩
      have kept := furnished.adapt adapter
      cases result with
      | ok server => exact ⟨trivial, kept.insertServer _ (built server rfl).1⟩
      | error error => exact kept

end Engine

end EmuScript
