import EmuScript.Proofs.Engine.Reception
import EmuScript.Proofs.Socket.Conduct

/-!
# Sizes of reads

The configuration says how many bytes a read asks for. The emulator takes sizes of one word,
so if that many bytes do not fit in a word no socket can ask it to read: no read is under
way then, and none completes.
-/

set_option autoImplicit false

namespace EmuScript

open Program Engine

/-- The emulator can be told how many bytes a read asks for. -/
def SessionConfig.ReadsFit (config : SessionConfig) : Prop :=
  (Adapter.wordSize? config.socketBufferSize).isSome

/-- If the call is a read, it asks for as many bytes as the configuration says. -/
def HostCall.SizedBy {κ : Type} (config : SessionConfig) (call : HostCall κ) : Prop :=
  ∀ fd size, call = .socket (.read fd size) → size = config.socketBufferSize

namespace Engine

variable {κ φ α β : Type} {config : SessionConfig}

def Request.Sized (config : SessionConfig) : Request → Prop
  | read _ => config.ReadsFit
  | connect _ | accept _ | write _ => True

def Completion.Sized (config : SessionConfig) : Completion → Prop
  | received _ _ => config.ReadsFit
  | connected _ | written _ | accepted _ _ => True

theorem Request.sized_iff {request : Request} :
    request.Sized config ↔ ∀ fd, request = .read fd → config.ReadsFit := by
  cases request <;> simp [Sized]

theorem Request.Sized.completion {request : Request} (sized : request.Sized config)
    (payload : request.Payload) : (request.completion payload).Sized config := by
  cases request with
  | read => exact sized
  | connect | accept | write => exact trivial

/-! ## Sockets -/

theorem emitTo_meets {asks : HostCall κ → Prop} (handler : Option κ) (signal : κ → Signal κ)
    (socket : Socket κ) : ((Update.emitTo handler signal).on socket).Meets { asks } := by
  rw [Socket.emitTo_on]
  cases handler with
  | none => exact trivial
  | some handler => exact ⟨trivial, trivial⟩

theorem operation_sized (operation : Socket.Operation κ) {socket : Socket κ}
    (built : socket.BuiltFrom config) :
    (operation.update.on socket).Meets { asks := HostCall.SizedBy config } := by
  have reads : HostCall.SizedBy config
      (.socket (.read socket.fd socket.bufferSize) : HostCall κ) := by
    rintro fd size ⟨⟩
    exact built.1
  cases operation with
  | onClose handler => exact trivial
  | deliverConnect => exact emitTo_meets _ _ { socket with connected := true }
  | connect host port handler =>
      cases connected : socket.connected with
      | true =>
          obtain ⟨fd, _⟩ := socket
          cases connected
          exact trivial
      | false =>
          rw [Socket.Operation.update, Socket.connect_on _ _ _ _ connected]
          refine ⟨by rintro fd size ⟨⟩, fun reply => ?_⟩
          cases reply with
          | ok value => exact ⟨trivial, trivial⟩
          | error error => exact trivial
  | onData handler =>
      rw [Socket.Operation.update, Socket.onData_on]
      refine ⟨reads, fun reply => ?_⟩
      cases reply <;> exact trivial
  | deliverRead data =>
      cases data with
      | none => exact ⟨trivial, emitTo_meets _ _ { socket with connected := false }⟩
      | some data =>
          rw [Socket.Operation.update, Socket.deliverRead_some_on]
          refine ⟨reads, fun reply => ?_⟩
          cases reply with
          | ok value => exact emitTo_meets _ _ socket
          | error error => exact trivial
  | write data handler =>
      rw [Socket.Operation.update, Socket.write_on]
      refine ⟨by rintro fd size ⟨⟩, fun reply => ?_⟩
      cases reply <;> exact trivial
  | deliverWrite =>
      rw [Socket.Operation.update, Socket.deliverWrite_on]
      rcases socket.pendingWrites with _ | ⟨_ | handler, rest⟩
      · exact ⟨trivial, trivial⟩
      · exact trivial
      · exact ⟨trivial, trivial⟩
  | close =>
      rw [Socket.Operation.update, Socket.close_on]
      refine ⟨by rintro fd size ⟨⟩, fun reply => ?_⟩
      cases reply <;> exact trivial

/-! ## The adapter -/

/-- The request that a native call makes, if any, has a size that fits. -/
def NativeCall.Sized (config : SessionConfig) (call : NativeCall φ) : Prop :=
  ∀ ticket, call.ticket? = some ticket → ticket.request.Sized config

theorem Adapter.serve_sized {call : HostCall (Closure φ)} (sized : call.SizedBy config)
    (adapter : Adapter φ) : (serve call adapter).Meets { asks := NativeCall.Sized config } := by
  by_cases fits : config.ReadsFit
  · refine (serve_requests call adapter).weaken ?_ (fun _ => False.elim) fun _ => id
    exact fun native _ ticket _ => Request.sized_iff.mpr fun _ _ => fits
  · by_cases reads : ∃ fd size, call = .socket (.read fd size)
    · -- The adapter refuses such a read itself, before it has asked the emulator.
      obtain ⟨fd, size, rfl⟩ := reads
      have large : wordSize? size = none := by
        rw [sized fd size rfl]
        exact Option.not_isSome_iff_eq_none.mp fits
      simp only [serve, serveSocket, large]
      exact trivial
    · refine (serve_requests call adapter).weaken ?_ (fun _ => False.elim) fun _ => id
      intro native requests ticket handed
      refine Request.sized_iff.mpr fun fd same => (reads ?_).elim
      have asked := requests ticket handed
      rw [same] at asked
      cases call with
      | socket call =>
          cases call with
          | read fd size => exact ⟨fd, size, rfl⟩
          | create | connect | listen | accept | write | close => simp [Request.of?] at asked
      | register | memory | hook | console | system | thread => simp [Request.of?] at asked

theorem Adapter.lower_sized {program : HostProgram (Closure φ) α}
    (sized : program.Meets { asks := HostCall.SizedBy config }) (adapter : Adapter φ) :
    (lower program adapter).Meets { asks := NativeCall.Sized config } := by
  induction program generalizing adapter with
  | done value => exact trivial
  | tell notice rest ih => exact ⟨trivial, ih sized.2 adapter⟩
  | ask call next ih =>
      refine meets_bind.mpr ((serve_sized sized.1 adapter).weaken (fun _ => id) (fun _ => id) ?_)
      exact fun (reply, after) _ => ih reply (sized.2 reply) after

/-! ## Bridges -/

/-- The client that a signal shows, if any, follows the configuration. -/
def Shows (config : SessionConfig) (signal : Signal κ) : Prop :=
  ∀ handler client, signal = .accepted handler client → client.BuiltFrom config

/-- What a program may do in a session with a configuration. -/
abbrev heeding (config : SessionConfig) : Contract (NativeCall φ) (Effect φ) α where
  asks := NativeCall.Sized config
  tells effect := ∀ signal, effect = .notice (.signal signal) → Shows config signal

/-- A program heeds the configuration and leaves a bridge that follows it. -/
abbrev conforming (config : SessionConfig) :
    Contract (NativeCall φ) (Effect φ) (α × Bridge φ) :=
  { (heeding config : Contract (NativeCall φ) (Effect φ) (α × Bridge φ)) with
    ends := fun ended => ended.2.Furnished config }

theorem conforms_bind {program : NativeProgram φ (α × Bridge φ)}
    {next : α × Bridge φ → NativeProgram φ (β × Bridge φ)}
    (first : program.Meets (conforming config))
    (rest : ∀ value, value.2.Furnished config → (next value).Meets (conforming config)) :
    (program >>= next).Meets (conforming config) :=
  meets_bind.mpr (first.weaken (fun _ => id) (fun _ => id) rest)

theorem conforms_of_sized {program : NativeProgram φ (α × Bridge φ)} {scope : Scope (Closure φ)}
    {ends : α × Bridge φ → Prop} (sized : program.Meets { asks := NativeCall.Sized config })
    (meets : program.Meets (scope.native ends))
    (shown : ∀ signal, scope.signals signal → Shows config signal)
    (furnished : program.Meets (Bridge.furnishing config)) : program.Meets (conforming config) := by
  refine ((sized.and meets).and furnished).weaken (fun _ asked => asked.1.1) ?_
    fun _ ended => ended.2
  rintro effect ⟨⟨-, told⟩, -⟩ signal rfl
  exact shown signal told

theorem sized_of_scope {program : NativeProgram φ α} {scope : Scope (Closure φ)} {ends : α → Prop}
    (meets : program.Meets (scope.native ends)) (elsewhere : ∀ fd, ¬ scope.requests (.socket fd)) :
    program.Meets { asks := NativeCall.Sized config } := by
  refine meets.weaken ?_ (fun _ _ => trivial) fun _ _ => trivial
  intro call requests ticket handed
  refine Request.sized_iff.mpr fun fd same => (elsewhere fd ?_).elim
  have asked := requests ticket handed
  rwa [same] at asked

theorem sized_bind {program : NativeProgram φ α} {next : α → NativeProgram φ β}
    (first : program.Meets { asks := NativeCall.Sized config })
    (rest : ∀ value, (next value).Meets { asks := NativeCall.Sized config }) :
    (program >>= next).Meets { asks := NativeCall.Sized config } :=
  meets_bind.mpr (first.weaken (fun _ => id) (fun _ => id) fun value _ => rest value)

/-- A server shows clients that follow its own configuration. -/
theorem deliverAccept_shows (client : SocketFd) :
    Scope.Changes { requests := fun _ => True, signals := Shows config } (·.config = config)
      (Server.deliverAccept client : Update κ _ _) := by
  refine Scope.changes_bind Scope.changes_get fun server same => ?_
  refine Scope.changes_bind (Scope.changes_log _ _) fun _ _ => ?_
  refine Scope.changes_bind (Scope.changes_emitTo fun handler => ?_) fun _ _ => ?_
  · rintro _ _ ⟨⟩
    exact same ▸ Socket.builtFrom_ofFd _ _ _
  · exact Scope.changes_bind Scope.changes_get fun _ _ => Scope.changes_ask fun _ _ => trivial

namespace Bridge

variable {bridge : Bridge φ}

theorem onSocket_sized (fd : UInt32) (operation : Socket.Operation (Closure φ))
    (furnished : bridge.Furnished config) :
    (onSocket fd operation.update bridge).Meets { asks := NativeCall.Sized config } := by
  cases found : bridge.sockets.find? fd with
  | none =>
      simp only [onSocket, found]
      exact trivial
  | some socket =>
      simp only [onSocket, found]
      have built := furnished.sockets fd socket found
      refine sized_bind ?_ fun _ => trivial
      exact sized_bind (Adapter.lower_sized (operation_sized operation built) _) fun _ => trivial

theorem perform_conforms {action : Action (Closure φ) α} (does : Scope.Does {} action)
    (furnished : bridge.Furnished config) : (perform action bridge).Meets (conforming config) := by
  have meets := through_meets does bridge
  exact conforms_of_sized (sized_of_scope meets fun _ => id) meets (fun _ => False.elim)
    (perform_furnished action furnished)

theorem deliverAccept_conforms (server client : SocketFd) (furnished : bridge.Furnished config)
    (keyed : bridge.Keyed) :
    (complete (.accepted server client) bridge).Meets (conforming config) := by
  have sized : (complete (.accepted server client) bridge).Meets
      { asks := NativeCall.Sized config } := by
    refine sized_of_scope (complete_meets _ keyed) fun fd requests => ?_
    simp [Completion.scope, Completion.endpoint] at requests
  have shows : (complete (.accepted server client) bridge).Meets
      (Scope.native { requests := fun _ => True, signals := Shows config } fun _ => True) := by
    cases found : bridge.servers.find? server.value with
    | none =>
        simp only [complete, onServer, found]
        exact trivial
    | some object =>
        simp only [complete, onServer, found]
        have same := furnished.servers _ _ found
        exact native_bind (through_meets (deliverAccept_shows client object same) bridge)
          fun _ _ => trivial
  exact conforms_of_sized sized shows (fun _ => id) (complete_furnished _ furnished)

theorem complete_conforms (completion : Completion) (furnished : bridge.Furnished config)
    (keyed : bridge.Keyed) : (complete completion bridge).Meets (conforming config) := by
  have meets := complete_meets completion keyed
  have ends := complete_furnished completion furnished
  cases completion with
  | accepted server client => exact deliverAccept_conforms server client furnished keyed
  | connected fd =>
      refine conforms_of_sized (onSocket_sized fd.value .deliverConnect furnished) meets ?_ ends
      rintro signal same _ _ rfl
      cases same
  | written fd =>
      refine conforms_of_sized (onSocket_sized fd.value .deliverWrite furnished) meets ?_ ends
      rintro signal same _ _ rfl
      cases same
  | received fd data =>
      refine conforms_of_sized (onSocket_sized fd.value (.deliverRead data) furnished) meets ?_ ends
      rintro signal same _ _ rfl
      cases data <;> cases same

theorem apply_conforms (completion : Completion) (furnished : bridge.Furnished config)
    (keyed : bridge.Keyed) : (apply completion bridge).Meets (conforming config) := by
  refine conforms_bind (complete_conforms completion furnished keyed) ?_
  rintro ⟨_ | error | ⟨⟩, between⟩ furnished
  · exact furnished
  · refine conforms_bind (perform_conforms (reportError_does error) furnished) ?_
    rintro ⟨reported, after⟩ furnished
    cases reported with
    | ok value => exact furnished
    | error failure => exact ⟨by simp, furnished⟩
  · exact furnished

end Bridge

namespace Method

variable {bridge : Bridge φ}

/-- A method that opens nothing and works on no socket reads nothing. -/
theorem run_conforms_elsewhere {method : Method φ} (opens : ¬ method.Opens)
    (elsewhere : ∀ fd, method.endpoint ≠ some (.socket fd)) (furnished : bridge.Furnished config)
    (keyed : bridge.Keyed) : (method.run bridge).Meets (conforming config) := by
  have meets := method.run_meets opens keyed
  exact conforms_of_sized (sized_of_scope meets fun fd requests => elsewhere fd requests.1) meets
    (fun _ => False.elim) (method.run_furnished furnished)

theorem onSocket_conforms {method : Method φ} (opens : ¬ method.Opens) (fd : UInt32)
    (operation : Socket.Operation (Closure φ))
    (runs : ∃ finish : Option (Except ScriptError Unit) × Bridge φ →
        Except Failure Answer × Bridge φ,
      method.run bridge = Bridge.onSocket fd operation.update bridge >>= fun ended =>
        pure (finish ended))
    (furnished : bridge.Furnished config) (keyed : bridge.Keyed) :
    (method.run bridge).Meets (conforming config) := by
  have sized : (method.run bridge).Meets { asks := NativeCall.Sized config } := by
    obtain ⟨finish, same⟩ := runs
    rw [same]
    exact sized_bind (Bridge.onSocket_sized fd operation furnished) fun _ => trivial
  exact conforms_of_sized sized (method.run_meets opens keyed) (fun _ => False.elim)
    (method.run_furnished furnished)

theorem opens_conforms {method : Method φ} {action : Action (Closure φ) α}
    {next : Except ScriptError α × Bridge φ → NativeProgram φ (Except Failure Answer × Bridge φ)}
    (does : Scope.Does {} action) (runs : method.run bridge = Bridge.perform action bridge >>= next)
    (rest : ∀ value, (next value).Meets (heeding config)) (furnished : bridge.Furnished config) :
    (method.run bridge).Meets (conforming config) := by
  have heeds : (method.run bridge).Meets (heeding config) := by
    rw [runs]
    exact meets_bind.mpr ((Bridge.perform_conforms does furnished).weaken (fun _ => id)
      (fun _ => id) fun value _ => rest value)
  exact (heeds.and_ends (method.run_furnished furnished)).weaken (fun _ => id) (fun _ => id)
    fun _ ended => ended.2

theorem run_conforms (method : Method φ) (furnished : bridge.Furnished config)
    (keyed : bridge.Keyed) : (method.run bridge).Meets (conforming config) := by
  cases method with
  | connect fd host port callback =>
      exact onSocket_conforms id fd (.connect host port _) ⟨_, rfl⟩ furnished keyed
  | onData fd callback => exact onSocket_conforms id fd (.onData _) ⟨_, rfl⟩ furnished keyed
  | onClose fd callback => exact onSocket_conforms id fd (.onClose _) ⟨_, rfl⟩ furnished keyed
  | write fd data callback =>
      exact onSocket_conforms id fd (.write data _) ⟨_, rfl⟩ furnished keyed
  | close fd => exact onSocket_conforms id fd .close ⟨_, rfl⟩ furnished keyed
  | createSocket =>
      refine opens_conforms (createSocket_does bridge.session.config) rfl ?_ furnished
      rintro ⟨result, after⟩
      cases result with
      | ok socket => exact ⟨by simp, trivial⟩
      | error error => exact trivial
  | createServer port =>
      refine opens_conforms (createServer_does port bridge.session.config) rfl ?_ furnished
      rintro ⟨result, after⟩
      cases result with
      | ok server => exact ⟨by simp, trivial⟩
      | error error => exact trivial
  | _ => exact run_conforms_elsewhere id (by simp [endpoint]) furnished keyed

end Method

/-! ## Runs -/

def Frame.Conforms (config : SessionConfig) : Frame φ → Prop
  | .method _ next => ∀ reply, (next reply).Meets (conforming config)
  | .settling _ next _ => ∀ reply, (next reply).Meets (conforming config)
  | .script _ _ _ | .reporting _ _ _ => True

def Activity.Conforms (config : SessionConfig) : Activity φ → Prop
  | .method program => program.Meets (conforming config)
  | .settling program _ => program.Meets (conforming config)
  | .pumping bridge _ => bridge.Furnished config
  | .idle | .resuming _ => True

namespace Machine

/-- All that a session works on follows its configuration, and no read is under way or has
completed if the size of reads does not fit. -/
structure Conforms (config : SessionConfig) (history : List (Event φ)) (activity : Activity φ)
    (machine : Machine φ) : Prop where
  upheld : Upheld history activity machine
  activity : activity.Conforms config
  bridge : ∀ bridge, machine.bridge = some bridge → bridge.Furnished config
  adopted : ∀ socket ∈ machine.adopted, socket.BuiltFrom config
  tickets : ∀ ticket ∈ machine.tickets, ticket.request.Sized config
  queue : ∀ completion ∈ machine.queue, completion.Sized config
  frames : ∀ frame ∈ machine.frames, frame.Conforms config

namespace Conforms

variable {history : List (Event φ)} {machine : Machine φ}

theorem effect_adopted {effect : Effect φ}
    (adopted : ∀ socket ∈ machine.adopted, socket.BuiltFrom config)
    (shown : ∀ signal, effect = .notice (.signal signal) → Shows config signal) :
    ∀ socket ∈ (machine.effect effect).1.adopted, socket.BuiltFrom config := by
  cases effect with
  | consoleLog | keepProcedure | dropProcedure | opened => exact adopted
  | notice notice =>
      cases notice with
      | log record => exact adopted
      | signal signal =>
          cases signal with
          | hook handler | connected handler | received handler | closed handler
          | written handler => cases handler <;> exact adopted
          | accepted handler client =>
              have built := shown _ rfl handler client rfl
              have more : ∀ socket ∈ machine.adopted ++ [client], socket.BuiltFrom config := by
                simpa [or_imp, forall_and] using ⟨adopted, built⟩
              cases handler <;> exact more

theorem tell {activity next : Activity φ} (conforms : Conforms config history activity machine)
    {effect : Effect φ} (upheld : Upheld (history ++ (machine.effect effect).2) next
      (machine.effect effect).1)
    (shown : ∀ signal, effect = .notice (.signal signal) → Shows config signal)
    (current : next.Conforms config) :
    Conforms config (history ++ (machine.effect effect).2) next (machine.effect effect).1 := by
  obtain ⟨bridge, queue, frames, tickets, -⟩ := machine.effect_frame effect
  exact ⟨upheld, current, bridge ▸ conforms.bridge, effect_adopted conforms.adopted shown,
    tickets ▸ conforms.tickets, queue ▸ conforms.queue, frames ▸ conforms.frames⟩

theorem ask {activity : Activity φ} (conforms : Conforms config history activity machine)
    {call : NativeCall φ} {frame : Frame φ} {events : List (Event φ)} {owner : Nat}
    (upheld : Upheld events .idle (machine.ask owner call frame).1)
    (sized : call.Sized config) (waits : frame.Conforms config) :
    Conforms config events .idle (machine.ask owner call frame).1 where
  upheld
  activity := trivial
  bridge := conforms.bridge
  adopted := conforms.adopted
  tickets := by
    intro ticket member
    rcases List.mem_append.mp member with new | before
    · exact sized ticket (Option.mem_toList.mp new)
    · exact conforms.tickets ticket before
  queue := conforms.queue
  frames := List.forall_mem_cons.mpr ⟨waits, conforms.frames⟩

end Conforms

theorem conforms_invariant : Invariant (Conforms (φ := φ) config) where
  begins := by
    intro history machine move events activity after conforms begins
    have upheld := upheld_invariant.begins history conforms.upheld begins
    have frames := conforms.frames
    cases begins with
    | ignored | busy | invokeNothing => exact { conforms with upheld, activity := trivial }
    | call method bridge free =>
        have keyed := (conforms.upheld.bridge bridge free).keyed
        exact { conforms with
          upheld
          activity := method.run_conforms (conforms.bridge bridge free) keyed
          bridge := by simp [hold] }
    | completeLater ticket payload known held =>
        have sized := (conforms.tickets ticket known).completion payload
        exact { conforms with
          upheld
          activity := trivial
          tickets := fun other member => conforms.tickets other (List.mem_of_mem_erase member)
          queue := List.forall_mem_append.mpr ⟨conforms.queue, by simpa using sized⟩ }
    | complete ticket payload bridge known free =>
        have sized := (conforms.tickets ticket known).completion payload
        exact { conforms with
          upheld
          activity := conforms.bridge bridge free
          bridge := by simp [hold]
          tickets := fun other member => conforms.tickets other (List.mem_of_mem_erase member)
          queue := List.forall_mem_append.mpr ⟨conforms.queue, by simpa using sized⟩ }
    | invoke closure arguments invocation owner =>
        exact { conforms with
          upheld
          activity := trivial
          frames := List.forall_mem_cons.mpr ⟨trivial, frames⟩ }
    | answerMethod reply call next rest top | answerSettling reply call next outcome rest top =>
        rw [top, List.forall_mem_cons] at frames
        exact { conforms with upheld, activity := frames.1 (reply call), frames := frames.2 }
    | printed reply owner line resume rest top | finish invocation owner resume rest top
    | unprinted reply owner line resume rest top =>
        rw [top, List.forall_mem_cons] at frames
        exact { conforms with upheld, activity := trivial, frames := frames.2 }
    | throw thrown invocation owner resume rest top =>
        rw [top, List.forall_mem_cons] at frames
        exact { conforms with
          upheld
          activity := trivial
          frames := List.forall_mem_cons.mpr ⟨trivial, frames.2⟩ }
  continues := by
    intro history activity machine events next after conforms continues
    have upheld := upheld_invariant.continues history conforms.upheld continues
    have current := conforms.activity
    have frames := conforms.frames
    cases continues with
    | methodTells effect rest => exact conforms.tell upheld current.1 current.2
    | settlingTells effect rest outcome => exact conforms.tell upheld current.1 current.2
    | methodAsks call next => exact conforms.ask upheld current.1 current.2
    | settlingAsks call next outcome => exact conforms.ask upheld current.1 current.2
    | methodEnds result bridge =>
        exact { conforms with upheld, activity := current, bridge := by simp [hold] }
    | settlingEnds bridge outcome => exact { conforms with upheld, activity := current }
    | applies bridge outcome completion rest queued =>
        have keyed := conforms.upheld.activity.keyed
        exact { conforms with
          upheld
          activity := Bridge.apply_conforms completion current keyed
          queue := fun other member =>
            conforms.queue other (queued ▸ List.mem_cons_of_mem completion member) }
    | adopts bridge outcome socket rest settled accepted =>
        -- The only socket that a bridge gets from outside is a client that a server has shown.
        have built := conforms.adopted
        rw [accepted, List.forall_mem_cons] at built
        exact { conforms with
          upheld
          activity := Bridge.Furnished.insertSocket current _ built.1
          adopted := built.2 }
    | returns bridge outcome settled adopted quiet =>
        exact { conforms with
          upheld
          activity := trivial
          bridge := by
            rintro _ ⟨⟩
            exact current }
    | startsBatch bridge outcome first rest settled adopted called =>
        exact { conforms with
          upheld
          activity := trivial
          bridge := by
            rintro _ ⟨⟩
            exact current
          frames := List.forall_mem_cons.mpr ⟨trivial, frames⟩ }
    | resumesCaller | endsBatch => exact { conforms with upheld, activity := trivial }
    | startsNext first rest outcome =>
        exact { conforms with
          upheld
          activity := trivial
          frames := List.forall_mem_cons.mpr ⟨trivial, frames⟩ }
    | pumpsAgain outcome bridge free =>
        exact { conforms with
          upheld
          activity := conforms.bridge bridge free
          bridge := by simp [hold] }

theorem start_conforms (id : Nat) (config : SessionConfig) :
    Conforms config [] .idle (Machine.start id config : Machine φ) where
  upheld := start_upheld id config
  activity := trivial
  bridge := by
    rintro _ ⟨⟩
    exact ⟨rfl, by rintro key socket ⟨⟩, by rintro key server ⟨⟩⟩
  adopted := by simp [start]
  tickets := by simp [start]
  queue := by simp [start]
  frames := by simp [start]

end Machine

end Engine

end EmuScript
