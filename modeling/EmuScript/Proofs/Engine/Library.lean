import EmuScript.Engine.Method
import EmuScript.Proofs.Engine.Scope

/-!
# The library within scopes

Services, hooks and threads make no requests and give no signals. What works on
a socket makes requests for that socket only, and what works on a server for that
server only; both leave the descriptor as it is. The delivery of a completion
gives signals that carry what the completion brings.
-/

set_option autoImplicit false

namespace EmuScript.Engine

open Scope

variable {κ : Type}

namespace Scope

variable {scope : Scope κ} {σ : Type} {keeps : σ → Prop}

theorem permits_plain {call : HostCall κ} (plain : Request.of? call = none) :
    scope.Permits call := by
  simp [Permits, plain]

theorem does_plain {call : HostCall κ} (plain : Request.of? call = none) :
    scope.Does (Action.ask call) :=
  does_ask (permits_plain plain)

theorem changes_plain {call : HostCall κ} (plain : Request.of? call = none) :
    scope.Changes keeps (Update.ask call) :=
  changes_ask (permits_plain plain)

theorem permits_own {call : HostCall κ} {request : Request} (own : Request.of? call = some request)
    (allowed : scope.requests request.endpoint) : scope.Permits call := by
  intro other same
  rw [own] at same
  cases same
  exact allowed

end Scope

/-! ## Services -/

section Services

variable {scope : Scope κ}

theorem readGeneralNamed_does (name : String) : scope.Does (Register.readGeneralNamed name) := by
  refine does_bind (does_getOrThrow _ _) fun target _ => ?_
  cases target with
  | general index => exact does_plain rfl
  | programCounter => exact does_plain rfl

theorem writeGeneralNamed_does (name : String) (value : UInt32) :
    scope.Does (Register.writeGeneralNamed name value) := by
  refine does_bind (does_getOrThrow _ _) fun target _ => ?_
  cases target with
  | general index => exact does_plain rfl
  | programCounter => exact does_plain rfl

theorem readFloatNamed_does (name : String) : scope.Does (Register.readFloatNamed name) :=
  does_bind (does_getOrThrow _ _) fun _ _ => does_plain rfl

theorem writeFloatNamed_does (name : String) (value : Numeric.Single) :
    scope.Does (Register.writeFloatNamed name value) :=
  does_bind (does_getOrThrow _ _) fun _ _ => does_plain rfl

theorem readValue_does (space : MemorySpace) (address : UInt32) (type : PrimitiveType) :
    scope.Does (readValue space address type) := by
  cases encoded : type.encoding with
  | integer bits signed =>
      simp only [readValue, encoded]
      exact does_bind (does_plain rfl) fun _ _ => does_pure trivial
  | floating double =>
      simp only [readValue, encoded]
      exact does_bind (does_plain rfl) fun _ _ => does_pure trivial

theorem writeValue_does (space : MemorySpace) (address : UInt32) (type : PrimitiveType)
    (value : Value) : scope.Does (writeValue space address type value) := by
  cases encoded : type.encoding with
  | integer bits signed =>
      simp only [writeValue, encoded]
      exact does_plain rfl
  | floating double =>
      simp only [writeValue, encoded]
      exact does_plain rfl

theorem getProperty_does (object : BoundObject) (name : String) : scope.Does (object.get name) :=
  does_bind (does_getOrThrow _ _) fun _ _ => readValue_does _ _ _

theorem setProperty_does (object : BoundObject) (name : String) (value : Value) :
    scope.Does (object.set name value) :=
  does_bind (does_getOrThrow _ _) fun _ _ => writeValue_does _ _ _ _

theorem breakHere_does : scope.Does Debugger.breakHere :=
  does_bind (does_plain rfl) fun _ _ =>
    does_bind (does_plain rfl) fun _ _ =>
      does_bind (does_plain rfl) fun _ _ => does_log _ _

theorem reportError_does (error : ScriptError) : scope.Does (Console.reportError error) :=
  does_bind (does_log _ _) fun _ _ => does_plain rfl

theorem service_does (request : Service) : scope.Does (request.action (κ := κ)) := by
  cases request with
  | readGeneralNamed name => exact does_map _ (readGeneralNamed_does name)
  | writeGeneralNamed name value => exact does_map _ (writeGeneralNamed_does name value)
  | readFloatNamed name => exact does_map _ (readFloatNamed_does name)
  | writeFloatNamed name value => exact does_map _ (writeFloatNamed_does name value)
  | readMemory type address => exact does_map _ (readValue_does _ _ _)
  | writeMemory type address number => exact does_map _ (writeValue_does _ _ _ _)
  | readRom type address => exact does_map _ (readValue_does _ _ _)
  | writeRom address value double =>
      cases double <;> exact does_map _ (writeValue_does _ _ _ _)
  | readBound object name => exact does_map _ (getProperty_does object name)
  | writeBound object name value => exact does_map _ (setProperty_does object name value)
  | breakHere => exact does_map _ breakHere_does
  | _ => exact does_map _ (does_plain rfl)

end Services

/-! ## Hooks and threads -/

section Hooks

variable {scope : Scope κ}

theorem install_changes (kind : HookKind) (tag : UInt32) (callback : κ) :
    scope.Changes (fun _ => True) (HookRegistry.install kind tag callback) := by
  refine changes_bind changes_get fun _ _ => ?_
  refine changes_bind (changes_modify fun _ _ => trivial) fun _ _ => ?_
  refine changes_bind (changes_plain rfl) fun _ _ => ?_
  refine changes_bind (changes_log _ _) fun _ _ => ?_
  exact changes_bind (changes_modify fun _ _ => trivial) fun _ _ => changes_pure trivial

theorem remove_changes (id : CallbackId) :
    scope.Changes (fun _ => True) (HookRegistry.remove id : Update κ _ _) := by
  refine changes_bind changes_get fun _ _ => ?_
  refine changes_bind (changes_getOrThrow _ _) fun _ _ => ?_
  refine changes_bind (changes_plain rfl) fun _ _ => ?_
  refine changes_bind (changes_log _ _) fun _ _ => ?_
  exact changes_bind (changes_modify fun _ _ => trivial) fun _ _ => changes_pure trivial

theorem removeAll_changes (ids : List CallbackId) :
    scope.Changes (fun _ => True) (HookRegistry.removeAll ids : Update κ _ _) := by
  induction ids with
  | nil => exact changes_pure trivial
  | cons id rest ih => exact changes_bind (remove_changes id) fun _ _ => ih

theorem clear_changes : scope.Changes (fun _ => True) (HookRegistry.clear : Update κ _ _) :=
  changes_bind changes_get fun _ _ => removeAll_changes _

theorem updateHooks_changes {α : Type} {update : Update κ (HookRegistry κ) α}
    (changes : scope.Changes (fun _ => True) update) :
    scope.Changes (fun _ => True) (Session.updateHooks update) := by
  intro session _
  exact confines_bind (changes session.hooks trivial) fun _ _ => ⟨trivial, fun _ _ => trivial⟩

end Hooks

section Threads

variable {scope : Scope κ} {keeps : Thread κ → Prop}

theorem requireState_changes (operation : String) (allowed : List ThreadState) :
    scope.Changes keeps (Thread.requireState operation allowed) := by
  refine changes_bind changes_get fun thread _ => ?_
  by_cases member : thread.state ∈ allowed
  · simp only [member, if_true]
    exact changes_pure trivial
  · simp only [member, if_false]
    exact changes_bind (changes_log _ _) fun _ _ => changes_throw _

theorem requireHandle_changes (operation : String) (allowed : List ThreadState) :
    scope.Changes keeps (Thread.requireHandle operation allowed) := by
  refine changes_bind (requireState_changes operation allowed) fun _ _ => ?_
  refine changes_bind changes_get fun thread _ => ?_
  intro object kept
  exact (changes_getOrThrow thread.handle _ object kept).weaken
    fun _ ended => ⟨ended.1, fun _ _ => trivial⟩

theorem enter_changes (state : ThreadState) :
    scope.Changes (fun _ => True) (Thread.enter state : Update κ _ _) := by
  refine changes_bind changes_get fun _ _ => ?_
  exact changes_bind (changes_log _ _) fun _ _ => changes_modify fun _ _ => trivial

theorem start_changes : scope.Changes (fun _ => True) (Thread.start : Update κ _ _) := by
  refine changes_bind (requireState_changes _ _) fun _ _ => ?_
  refine changes_bind changes_get fun _ _ => ?_
  refine changes_bind (changes_plain rfl) fun _ _ => ?_
  exact changes_bind (changes_modify fun _ _ => trivial) fun _ _ => enter_changes _

theorem suspend_changes : scope.Changes (fun _ => True) (Thread.suspend : Update κ _ _) := by
  refine changes_bind (requireHandle_changes _ _) fun _ _ => ?_
  exact changes_bind (changes_plain rfl) fun _ _ => enter_changes _

theorem resume_changes : scope.Changes (fun _ => True) (Thread.resume : Update κ _ _) := by
  refine changes_bind (requireHandle_changes _ _) fun _ _ => ?_
  exact changes_bind (changes_plain rfl) fun _ _ => enter_changes _

theorem stop_changes : scope.Changes (fun _ => True) (Thread.stop : Update κ _ _) := by
  refine changes_bind (requireState_changes _ _) fun _ _ => ?_
  refine changes_bind changes_get fun thread _ => ?_
  by_cases running : thread.state = .running
  · simp only [running, if_true]
    refine changes_bind (requireHandle_changes _ _) fun _ _ => ?_
    exact changes_bind (changes_plain rfl) fun _ _ => enter_changes _
  · simp only [running, if_false]
    exact enter_changes _

theorem spawn_does (procedure : κ) : scope.Does (Thread.spawn procedure) := by
  refine does_bind (does_lift (start_changes { procedure } trivial)) fun (result, thread) _ => ?_
  cases result with
  | ok value => exact does_pure trivial
  | error error => exact does_throw error

end Threads

/-! ## Sockets and servers -/

section Sockets

variable {scope : Scope κ} {fd : SocketFd}

theorem createSocket_does (config : SessionConfig) : scope.Does (Socket.create config) :=
  does_bind (does_plain rfl) fun _ _ => does_pure trivial

theorem connect_changes (own : scope.requests (.socket fd)) (host : Option String)
    (port : Option UInt16) (handler : κ) :
    scope.Changes (·.fd = fd) (Socket.connect host port handler) := by
  refine changes_bind changes_get fun socket same => ?_
  cases connected : socket.connected with
  | true => exact changes_pure trivial
  | false =>
      refine changes_bind (changes_ask (permits_own rfl (same ▸ own))) fun _ _ => ?_
      exact changes_bind (changes_log _ _) fun _ _ => changes_modify fun _ same => same

theorem readNext_changes (own : scope.requests (.socket fd)) :
    scope.Changes (·.fd = fd) (Socket.readNext : Update κ _ _) :=
  changes_bind changes_get fun _ same => changes_ask (permits_own rfl (same ▸ own))

theorem onData_changes (own : scope.requests (.socket fd)) (handler : κ) :
    scope.Changes (·.fd = fd) (Socket.onData handler) :=
  changes_bind (changes_modify fun _ same => same) fun _ _ => readNext_changes own

theorem onClose_changes (handler : κ) : scope.Changes (·.fd = fd) (Socket.onClose handler) :=
  changes_modify fun _ same => same

theorem write_changes (own : scope.requests (.socket fd)) (data : Bytes)
    (handler : Option κ) : scope.Changes (·.fd = fd) (Socket.write data handler) := by
  refine changes_bind changes_get fun socket same => ?_
  refine changes_bind (changes_ask (permits_own rfl (same ▸ own))) fun _ _ => ?_
  exact changes_modify fun _ same => same

theorem close_changes : scope.Changes (·.fd = fd) (Socket.close : Update κ _ _) := by
  refine changes_bind changes_get fun _ _ => ?_
  exact changes_bind (changes_plain rfl) fun _ _ => changes_modify fun _ same => same

theorem deliverConnect_changes (connected : ∀ handler, scope.signals (.connected handler)) :
    scope.Changes (·.fd = fd) (Socket.deliverConnect : Update κ _ _) := by
  refine changes_bind (changes_modify fun _ same => same) fun _ _ => ?_
  exact changes_bind changes_get fun _ _ => changes_emitTo connected

theorem deliverRead_changes (own : scope.requests (.socket fd)) (data : Option Bytes)
    (closed : data = none → ∀ handler, scope.signals (.closed handler))
    (received : ∀ bytes, data = some bytes → ∀ handler, scope.signals (.received handler bytes)) :
    scope.Changes (·.fd = fd) (Socket.deliverRead data : Update κ _ _) := by
  cases data with
  | none =>
      refine changes_bind (changes_modify fun _ same => same) fun _ _ => ?_
      refine changes_bind changes_get fun _ _ => ?_
      refine changes_bind (changes_log _ _) fun _ _ => ?_
      exact changes_bind changes_get fun _ _ => changes_emitTo (closed rfl)
  | some bytes =>
      refine changes_bind (readNext_changes own) fun _ _ => ?_
      exact changes_bind changes_get fun _ _ => changes_emitTo (received bytes rfl)

theorem deliverWrite_changes (written : ∀ handler, scope.signals (.written handler)) :
    scope.Changes (·.fd = fd) (Socket.deliverWrite : Update κ _ _) := by
  refine changes_bind changes_get fun socket same => ?_
  cases pending : socket.pendingWrites with
  | nil => exact changes_log _ _
  | cons handler rest => exact changes_bind (changes_set same) fun _ _ => changes_emitTo written

theorem listen_changes {keeps : Server κ → Prop} (port : UInt16) :
    scope.Changes keeps (Server.listen port : Update κ _ _) := by
  refine changes_bind changes_get fun _ _ => ?_
  exact changes_bind (changes_plain rfl) fun _ _ => changes_log _ _

theorem createServer_does (port : Option UInt16) (config : SessionConfig) :
    scope.Does (Server.create port config) := by
  refine does_bind (does_plain rfl) fun fd _ => ?_
  cases port with
  | none => exact does_pure trivial
  | some port =>
      have listened : scope.Changes (fun _ => True) (Server.listen port) := listen_changes port
      refine does_bind (does_lift (listened { fd, config } trivial)) fun (result, server) _ => ?_
      cases result with
      | ok value => exact does_pure trivial
      | error error => exact does_throw error

theorem acceptNext_changes (own : scope.requests (.server fd)) :
    scope.Changes (·.fd = fd) (Server.acceptNext : Update κ _ _) :=
  changes_bind changes_get fun _ same => changes_ask (permits_own rfl (same ▸ own))

theorem onConnection_changes (own : scope.requests (.server fd)) (handler : κ) :
    scope.Changes (·.fd = fd) (Server.onConnection handler) :=
  changes_bind (changes_modify fun _ same => same) fun _ _ => acceptNext_changes own

theorem deliverAccept_changes (own : scope.requests (.server fd)) (client : SocketFd)
    (accepted : ∀ handler config,
      scope.signals (.accepted handler (Socket.accepted client config))) :
    scope.Changes (·.fd = fd) (Server.deliverAccept client : Update κ _ _) := by
  refine changes_bind changes_get fun server _ => ?_
  refine changes_bind (changes_log _ _) fun _ _ => ?_
  refine changes_bind (changes_emitTo fun handler => accepted handler server.config) fun _ _ => ?_
  exact acceptNext_changes own

end Sockets

end EmuScript.Engine
