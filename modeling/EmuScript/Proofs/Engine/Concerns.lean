import EmuScript.Proofs.Engine.Procedures

/-!
# Calls by concern

Every part of the library makes calls of one concern only: services, hooks, sockets or
threads. So all that has to do with threads stays as it is while another part works: the
threads of a bridge, the functions retained for them and the procedures under their keys.
-/

set_option autoImplicit false

namespace EmuScript

variable {κ σ α β : Type}

inductive Concern where
  | service | hook | socket | thread
  deriving DecidableEq

/-- What a call is for. A pause of the script itself is for no thread. -/
def HostCall.concern : HostCall κ → Concern
  | .register _ | .memory _ | .console _ | .system _ | .thread (.sleep _) => .service
  | .hook _ => .hook
  | .socket _ => .socket
  | .thread (.create _) | .thread (.suspend _) | .thread (.resume _) | .thread (.terminate _) =>
      .thread

/-- A program makes calls of one concern only. -/
abbrev HostProgram.Serves (concern : Concern) (program : HostProgram κ α) : Prop :=
  program.Meets { asks := fun call => call.concern = concern }

def Action.Serves (concern : Concern) (action : Action κ α) : Prop :=
  HostProgram.Serves concern action.run

def Update.Serves (concern : Concern) (update : Update κ σ α) : Prop :=
  ∀ object, HostProgram.Serves concern (update.on object)

variable {subject : Concern}

theorem HostProgram.serves_bind {program : HostProgram κ α} {next : α → HostProgram κ β}
    (first : HostProgram.Serves subject program)
    (rest : ∀ value, HostProgram.Serves subject (next value)) :
    HostProgram.Serves subject (program >>= next) :=
  Program.meets_bind.mpr (first.weaken (fun _ => id) (fun _ => id) fun value _ => rest value)

/-! ## Actions -/

namespace Action

theorem serves_pure (value : α) : (pure value : Action κ α).Serves subject :=
  trivial

theorem serves_bind {action : Action κ α} {next : α → Action κ β} (first : action.Serves subject)
    (rest : ∀ value, (next value).Serves subject) : (action >>= next).Serves subject := by
  refine HostProgram.serves_bind first fun result => ?_
  cases result with
  | ok value => exact rest value
  | error error => exact trivial

theorem serves_map (change : α → β) {action : Action κ α} (first : action.Serves subject) :
    (change <$> action).Serves subject := by
  refine HostProgram.serves_bind first fun result => ?_
  cases result <;> exact trivial

theorem serves_ask {call : HostCall κ} (own : call.concern = subject) :
    (Action.ask call).Serves subject :=
  ⟨own, fun _ => trivial⟩

theorem serves_log (level : LogLevel) (text : String) :
    (Action.log level text : Action κ Unit).Serves subject :=
  ⟨trivial, trivial⟩

theorem serves_emit (signal : Signal κ) : (Action.emit signal).Serves subject :=
  ⟨trivial, trivial⟩

theorem serves_getOrThrow (value : Option α) (error : ScriptError) :
    (getOrThrow value error : Action κ α).Serves subject := by
  cases value <;> exact trivial

end Action

/-! ## Updates -/

namespace Update

theorem serves_pure (value : α) : (pure value : Update κ σ α).Serves subject :=
  fun _ => trivial

theorem serves_bind {update : Update κ σ α} {next : α → Update κ σ β}
    (first : update.Serves subject) (rest : ∀ value, (next value).Serves subject) :
    (update >>= next).Serves subject := by
  intro object
  refine HostProgram.serves_bind (first object) fun (result, after) => ?_
  cases result with
  | ok value => exact rest value after
  | error error => exact trivial

theorem serves_get : (get : Update κ σ σ).Serves subject :=
  fun _ => trivial

theorem serves_set (object : σ) : (set object : Update κ σ PUnit).Serves subject :=
  fun _ => trivial

theorem serves_modify (change : σ → σ) : (modify change : Update κ σ PUnit).Serves subject :=
  fun _ => trivial

theorem serves_ofAction {action : Action κ α} (serves : action.Serves subject) :
    (ofAction action : Update κ σ α).Serves subject :=
  fun _ => HostProgram.serves_bind serves fun _ => trivial

theorem serves_ask {call : HostCall κ} (own : call.concern = subject) :
    (ask call : Update κ σ call.Answer).Serves subject :=
  serves_ofAction (Action.serves_ask own)

theorem serves_log (level : LogLevel) (text : String) :
    (log level text : Update κ σ Unit).Serves subject :=
  serves_ofAction (Action.serves_log level text)

theorem serves_getOrThrow (value : Option α) (error : ScriptError) :
    (getOrThrow value error : Update κ σ α).Serves subject :=
  serves_ofAction (Action.serves_getOrThrow value error)

theorem serves_emitTo (handler : Option κ) (signal : κ → Signal κ) :
    (emitTo handler signal : Update κ σ Unit).Serves subject := by
  cases handler with
  | none => exact serves_pure ()
  | some handler => exact serves_ofAction (Action.serves_emit (signal handler))

end Update

/-! ## The library -/

section Services

open EmuScript.Action

theorem readValue_serves (space : MemorySpace) (address : UInt32) (type : PrimitiveType) :
    (readValue space address type : Action κ Value).Serves .service := by
  cases coded : type.encoding with
  | integer | floating =>
      simp only [readValue, coded]
      exact serves_bind (serves_ask rfl) fun _ => serves_pure _

theorem writeValue_serves (space : MemorySpace) (address : UInt32) (type : PrimitiveType)
    (value : Value) : (writeValue space address type value : Action κ Unit).Serves .service := by
  cases coded : type.encoding with
  | integer | floating =>
      simp only [writeValue, coded]
      exact serves_ask rfl

theorem reportError_serves (error : ScriptError) :
    (Console.reportError error : Action κ Unit).Serves .service :=
  serves_bind (serves_log _ _) fun _ => serves_ask rfl

theorem breakHere_serves : (Debugger.breakHere : Action κ Unit).Serves .service :=
  serves_bind (serves_ask rfl) fun _ =>
    serves_bind (serves_ask rfl) fun _ => serves_bind (serves_ask rfl) fun _ => serves_log _ _

open Engine in
theorem service_serves (request : Service) :
    (request.action : Action κ Engine.Answer).Serves .service := by
  cases request with
  | readGeneralNamed name | writeGeneralNamed name value =>
      refine serves_map _ (serves_bind (serves_getOrThrow _ _) fun target => ?_)
      cases target <;> exact serves_ask rfl
  | readFloatNamed name | writeFloatNamed name value =>
      exact serves_map _ (serves_bind (serves_getOrThrow _ _) fun _ => serves_ask rfl)
  | readMemory | readRom => exact serves_map _ (readValue_serves _ _ _)
  | writeMemory => exact serves_map _ (writeValue_serves _ _ _ _)
  | writeRom address value double =>
      cases double <;> exact serves_map _ (writeValue_serves _ _ _ _)
  | readBound =>
      exact serves_map _ (serves_bind (serves_getOrThrow _ _) fun _ => readValue_serves _ _ _)
  | writeBound =>
      exact serves_map _ (serves_bind (serves_getOrThrow _ _) fun _ => writeValue_serves _ _ _ _)
  | breakHere => exact serves_map _ breakHere_serves
  | _ => exact serves_map _ (serves_ask rfl)

end Services

section Hooks

open Update

theorem install_serves (kind : HookKind) (tag : UInt32) (callback : κ) :
    (HookRegistry.install kind tag callback).Serves .hook :=
  serves_bind serves_get fun _ => serves_bind (serves_modify _) fun _ =>
    serves_bind (serves_ask rfl) fun _ => serves_bind (serves_log _ _) fun _ =>
      serves_bind (serves_modify _) fun _ => serves_pure _

theorem remove_serves (id : CallbackId) :
    (HookRegistry.remove id : Update κ (HookRegistry κ) _).Serves .hook :=
  serves_bind serves_get fun _ => serves_bind (serves_getOrThrow _ _) fun _ =>
    serves_bind (serves_ask rfl) fun _ => serves_bind (serves_log _ _) fun _ =>
      serves_bind (serves_modify _) fun _ => serves_pure _

theorem removeAll_serves (ids : List CallbackId) :
    (HookRegistry.removeAll ids : Update κ (HookRegistry κ) Unit).Serves .hook := by
  induction ids with
  | nil => exact serves_pure ()
  | cons id rest ih => exact serves_bind (remove_serves id) fun _ => ih

theorem updateHooks_serves {update : Update κ (HookRegistry κ) α} (serves : update.Serves .hook) :
    (Session.updateHooks update).Serves .hook :=
  fun session => HostProgram.serves_bind (serves session.hooks) fun _ => trivial

end Hooks

section Sockets

open Update

theorem createSocket_serves (config : SessionConfig) :
    (Socket.create config : Action κ (Socket κ)).Serves .socket :=
  Action.serves_bind (Action.serves_ask rfl) fun _ => Action.serves_pure _

theorem readNext_serves : (Socket.readNext : Update κ (Socket κ) Unit).Serves .socket :=
  serves_bind serves_get fun _ => serves_ask rfl

theorem connect_serves (host : Option String) (port : Option UInt16) (handler : κ) :
    (Socket.connect host port handler).Serves .socket := by
  refine serves_bind serves_get fun socket => ?_
  cases socket.connected with
  | true => exact serves_pure ()
  | false =>
      exact serves_bind (serves_ask rfl) fun _ =>
        serves_bind (serves_log _ _) fun _ => serves_modify _

theorem onData_serves (handler : κ) : (Socket.onData handler).Serves .socket :=
  serves_bind (serves_modify _) fun _ => readNext_serves

theorem write_serves (data : Bytes) (handler : Option κ) :
    (Socket.write data handler).Serves .socket :=
  serves_bind serves_get fun _ => serves_bind (serves_ask rfl) fun _ => serves_modify _

theorem close_serves : (Socket.close : Update κ (Socket κ) Unit).Serves .socket :=
  serves_bind serves_get fun _ => serves_bind (serves_ask rfl) fun _ => serves_modify _

theorem deliverConnect_serves :
    (Socket.deliverConnect : Update κ (Socket κ) Unit).Serves .socket :=
  serves_bind (serves_modify _) fun _ => serves_bind serves_get fun _ => serves_emitTo _ _

theorem deliverRead_serves (data : Option Bytes) :
    (Socket.deliverRead data : Update κ (Socket κ) Unit).Serves .socket := by
  cases data with
  | none =>
      exact serves_bind (serves_modify _) fun _ => serves_bind serves_get fun _ =>
        serves_bind (serves_log _ _) fun _ => serves_bind serves_get fun _ => serves_emitTo _ _
  | some data =>
      exact serves_bind readNext_serves fun _ => serves_bind serves_get fun _ => serves_emitTo _ _

theorem deliverWrite_serves : (Socket.deliverWrite : Update κ (Socket κ) Unit).Serves .socket := by
  refine serves_bind serves_get fun socket => ?_
  cases socket.pendingWrites with
  | nil => exact serves_log _ _
  | cons handler rest => exact serves_bind (serves_set _) fun _ => serves_emitTo _ _

theorem listen_serves (port : UInt16) :
    (Server.listen port : Update κ (Server κ) Unit).Serves .socket :=
  serves_bind serves_get fun _ => serves_bind (serves_ask rfl) fun _ => serves_log _ _

theorem createServer_serves (port : Option UInt16) (config : SessionConfig) :
    (Server.create port config : Action κ (Server κ)).Serves .socket := by
  refine Action.serves_bind (Action.serves_ask rfl) fun fd => ?_
  cases port with
  | none => exact Action.serves_pure _
  | some port =>
      refine HostProgram.serves_bind
        (HostProgram.serves_bind (listen_serves port _) fun _ => trivial) ?_
      rintro (error | ⟨error | value, server⟩) <;> exact trivial

theorem acceptNext_serves : (Server.acceptNext : Update κ (Server κ) Unit).Serves .socket :=
  serves_bind serves_get fun _ => serves_ask rfl

theorem onConnection_serves (handler : κ) : (Server.onConnection handler).Serves .socket :=
  serves_bind (serves_modify _) fun _ => acceptNext_serves

theorem deliverAccept_serves (client : SocketFd) :
    (Server.deliverAccept client : Update κ (Server κ) Unit).Serves .socket :=
  serves_bind serves_get fun _ => serves_bind (serves_log _ _) fun _ =>
    serves_bind (serves_emitTo _ _) fun _ => acceptNext_serves

end Sockets

/-! ## Native calls -/

namespace Engine

variable {φ : Type}

def NativeCall.concern : NativeCall φ → Concern
  | register _ | memory _ | console _ | system _ | thread (.sleep _) => .service
  | hook _ => .hook
  | socket _ => .socket
  | thread (.create _) | thread (.suspend _) | thread (.resume _) | thread (.terminate _) => .thread

namespace Adapter

/-- A step makes calls of one concern, and unless that is threads the functions retained for
threads stay as they are. -/
def Serves (subject : Concern) (step : Adapter φ → NativeProgram φ (α × Adapter φ)) : Prop :=
  ∀ adapter, (step adapter).Meets {
    asks := fun call => call.concern = subject
    tells := fun effect => effect.key? = none
    ends := fun ended => subject ≠ .thread → ended.2.threads = adapter.threads }

theorem native?_concern {serial : Nat} {call : HostCall (Closure φ)} {native : NativeCall φ}
    (carried : native? serial call = some native) : native.concern = call.concern := by
  cases call with
  | register | console | system | hook => cases carried; rfl
  | thread call => cases call <;> cases carried <;> rfl
  | memory call =>
      obtain ⟨memory, -, rfl⟩ := Option.map_eq_some_iff.mp carried
      rfl
  | socket call =>
      obtain ⟨socket, -, rfl⟩ := Option.map_eq_some_iff.mp carried
      rfl

theorem serve_serves (call : HostCall (Closure φ)) : Serves call.concern (serve call) := by
  intro adapter
  cases carried : native? adapter.ticketsIssued call with
  | none =>
      obtain ⟨error, refused⟩ := serve_refused carried
      rw [refused]
      exact fun _ => rfl
  | some native =>
      obtain ⟨exchange, asks⟩ := serve_carried carried
      rw [asks]
      refine ⟨native?_concern carried, fun reply other => ?_⟩
      rcases exchange.retained with kept | ⟨procedure, rfl⟩ | ⟨handle, rfl⟩
      · exact kept reply
      · exact (other rfl).elim
      · exact (other rfl).elim

theorem lower_serves {program : HostProgram (Closure φ) α}
    (serves : HostProgram.Serves subject program) : Serves subject (lower program) := by
  induction program with
  | done value => exact fun _ _ => rfl
  | tell notice rest ih => exact fun adapter => ⟨rfl, ih serves.2 adapter⟩
  | ask call next ih =>
      obtain ⟨own, later⟩ := serves
      subst own
      refine fun adapter => Program.meets_bind.mpr ((serve_serves call adapter).weaken
        (fun _ => id) (fun _ => id) fun (reply, between) kept => ?_)
      exact (ih reply (later reply) between).weaken (fun _ => id) (fun _ => id)
        fun ended same other => (same other).trans (kept other)

end Adapter

/-! ## Bridges -/

/-- Two bridges do not differ in what has to do with threads. -/
structure Bridge.KeepsThreads (before after : Bridge φ) : Prop where
  threads : after.threads = before.threads
  nextThread : after.nextThread = before.nextThread
  retained : after.adapter.threads = before.adapter.threads

namespace Bridge

/-- What a program may do that has nothing to do with threads. -/
def beside (ends : α → Prop) : Contract (NativeCall φ) (Effect φ) α where
  asks := fun call => call.concern ≠ .thread
  tells effect := effect.key? = none
  ends

/-- A step works beside the threads. -/
def Spares (step : Step φ α) : Prop :=
  ∀ bridge, (step bridge).Meets (beside fun ended => bridge.KeepsThreads ended.2)

theorem KeepsThreads.refl (bridge : Bridge φ) : bridge.KeepsThreads bridge :=
  ⟨rfl, rfl, rfl⟩

theorem KeepsThreads.trans {first second third : Bridge φ} (early : first.KeepsThreads second)
    (late : second.KeepsThreads third) : first.KeepsThreads third :=
  ⟨late.threads.trans early.threads, late.nextThread.trans early.nextThread,
    late.retained.trans early.retained⟩

theorem beside_bind {bridge : Bridge φ} {program : NativeProgram φ (α × Bridge φ)}
    {next : α × Bridge φ → NativeProgram φ (β × Bridge φ)}
    (first : program.Meets (beside fun ended => bridge.KeepsThreads ended.2))
    (rest : ∀ value, bridge.KeepsThreads value.2 →
      (next value).Meets (beside fun ended => bridge.KeepsThreads ended.2)) :
    (program >>= next).Meets (beside fun ended => bridge.KeepsThreads ended.2) :=
  Program.meets_bind.mpr (first.weaken (fun _ => id) (fun _ => id) rest)

theorem spares_through {program : HostProgram (Closure φ) α}
    (serves : HostProgram.Serves subject program) (other : subject ≠ .thread) :
    Spares (through program) := by
  refine fun bridge => Program.meets_bind.mpr ((Adapter.lower_serves serves bridge.adapter).weaken
    (fun call own same => other (own.symm.trans same)) (fun _ => id) fun ended kept => ?_)
  exact ⟨rfl, rfl, kept other⟩

theorem spares_onSession {update : Update (Closure φ) (Session (Closure φ)) α}
    (serves : update.Serves subject) (other : subject ≠ .thread) : Spares (onSession update) :=
  fun bridge => beside_bind (spares_through (serves bridge.session) other bridge) fun _ kept =>
    ⟨kept.threads, kept.nextThread, kept.retained⟩

theorem spares_onSocket (fd : UInt32) {update : Update (Closure φ) (Socket (Closure φ)) α}
    (serves : update.Serves .socket) : Spares (onSocket fd update) := by
  intro bridge
  cases found : bridge.sockets.find? fd with
  | none =>
      simp only [onSocket, found]
      exact KeepsThreads.refl bridge
  | some socket =>
      simp only [onSocket, found]
      exact beside_bind (spares_through (serves socket) (by decide) bridge) fun _ kept =>
        ⟨kept.threads, kept.nextThread, kept.retained⟩

theorem spares_onServer (fd : UInt32) {update : Update (Closure φ) (Server (Closure φ)) α}
    (serves : update.Serves .socket) : Spares (onServer fd update) := by
  intro bridge
  cases found : bridge.servers.find? fd with
  | none =>
      simp only [onServer, found]
      exact KeepsThreads.refl bridge
  | some server =>
      simp only [onServer, found]
      exact beside_bind (spares_through (serves server) (by decide) bridge) fun _ kept =>
        ⟨kept.threads, kept.nextThread, kept.retained⟩

theorem complete_spares (completion : Completion) : Spares (complete (φ := φ) completion) := by
  cases completion with
  | connected fd => exact spares_onSocket _ deliverConnect_serves
  | received fd data => exact spares_onSocket _ (deliverRead_serves data)
  | written fd => exact spares_onSocket _ deliverWrite_serves
  | accepted server client => exact spares_onServer _ (deliverAccept_serves client)

/-- Completions work beside the threads, also when their errors are reported. -/
theorem apply_spares (completion : Completion) : Spares (apply (φ := φ) completion) := by
  refine fun bridge => beside_bind (complete_spares completion bridge) ?_
  rintro ⟨result, between⟩ kept
  match result with
  | none | some (.ok ()) => exact kept
  | some (.error error) =>
      have reported : (perform (Console.reportError error) between).Meets
          (beside fun ended => bridge.KeepsThreads ended.2) :=
        (spares_through (reportError_serves error) (by decide) between).weaken (fun _ => id)
          (fun _ => id) fun _ later => kept.trans later
      refine beside_bind reported ?_
      rintro ⟨printed, after⟩ kept
      cases printed with
      | ok value => exact kept
      | error failure => exact ⟨rfl, kept⟩

end Bridge

/-- Methods by which a script starts, pauses and stops threads. -/
def Method.onThreads : Method φ → Bool
  | spawn _ | suspendThread _ | resumeThread _ | stopThread _ => true
  | _ => false

/-- All other methods work beside the threads. -/
theorem Method.run_spares {method : Method φ} (other : method.onThreads = false) :
    Bridge.Spares method.run := by
  intro bridge
  have done {γ : Type} {program : NativeProgram φ (γ × Bridge φ)}
      (spares : program.Meets (Bridge.beside fun ended => bridge.KeepsThreads ended.2))
      (finish : γ → Except Failure Answer) :
      (program >>= fun ended => pure (finish ended.1, ended.2)).Meets
        (Bridge.beside fun ended => bridge.KeepsThreads ended.2) :=
    Bridge.beside_bind spares fun _ kept => kept
  cases method with
  | spawn | suspendThread | resumeThread | stopThread => cases other
  | service request =>
      exact done (Bridge.spares_through (service_serves request) (by decide) bridge) _
  | on kind tag callback =>
      exact done (Bridge.spares_onSession (updateHooks_serves (install_serves kind tag _))
        (by decide) bridge) _
  | off id =>
      exact done (Bridge.spares_onSession (updateHooks_serves (remove_serves id)) (by decide)
        bridge) _
  | clearHooks =>
      exact done (Bridge.spares_onSession (updateHooks_serves
        (Update.serves_bind Update.serves_get fun _ => removeAll_serves _)) (by decide) bridge) _
  | connect fd host port callback =>
      exact done (Bridge.spares_onSocket fd (connect_serves host port _) bridge) _
  | onData fd callback => exact done (Bridge.spares_onSocket fd (onData_serves _) bridge) _
  | onClose fd callback =>
      exact done (Bridge.spares_onSocket fd (Update.serves_modify _) bridge) _
  | write fd data callback =>
      exact done (Bridge.spares_onSocket fd (write_serves data _) bridge) _
  | close fd => exact done (Bridge.spares_onSocket fd close_serves bridge) _
  | listen fd port => exact done (Bridge.spares_onServer fd (listen_serves port) bridge) _
  | onConnection fd callback =>
      exact done (Bridge.spares_onServer fd (onConnection_serves _) bridge) _
  | createSocket =>
      refine Bridge.beside_bind
        (Bridge.spares_through (createSocket_serves _) (by decide) bridge) ?_
      rintro ⟨result, after⟩ kept
      cases result with
      | ok socket => exact ⟨rfl, ⟨kept.threads, kept.nextThread, kept.retained⟩⟩
      | error error => exact kept
  | createServer port =>
      refine Bridge.beside_bind
        (Bridge.spares_through (createServer_serves port _) (by decide) bridge) ?_
      rintro ⟨result, after⟩ kept
      cases result with
      | ok server => exact ⟨rfl, ⟨kept.threads, kept.nextThread, kept.retained⟩⟩
      | error error => exact kept
  | threadState key =>
      simp only [run]
      cases bridge.threads.find? key <;> exact .refl bridge

end Engine

end EmuScript
