import EmuScript.Proofs.Engine.Concerns
import EmuScript.Proofs.Hook.Retention
import EmuScript.Proofs.Outcome

/-!
# Servers that are not created

To create a server takes a descriptor and then, with a port, a request to listen on it. The
descriptor is not closed when the emulator refuses this request, and nobody else knows it. A
script creates servers by native calls, in which the adapter opens and closes just what the
library does.
-/

set_option autoImplicit false

namespace EmuScript

open Engine Program

variable {κ φ σ α : Type}

/-! ## Descriptors in use -/

inductive DescriptorUse where
  | opened (fd : SocketFd)
  | closed (fd : SocketFd)
  deriving DecidableEq

/-- The descriptors that were opened and not passed on to be closed. -/
def leftOpen (uses : List DescriptorUse) : List SocketFd :=
  uses.filterMap fun
    | .opened fd => if .closed fd ∈ uses then none else some fd
    | .closed _ => none

/-- What becomes of a descriptor by a call. A refused close counts, since the descriptor was
passed on. -/
def HostCall.use? : (call : HostCall κ) → call.Reply → Option DescriptorUse
  | .socket .create, .ok fd => some (.opened fd)
  | .socket (.close fd), _ => some (.closed fd)
  | _, _ => none

def Engine.NativeCall.use? : (call : NativeCall φ) → call.Reply → Option DescriptorUse
  | .socket .create, .ok fd => some (.opened fd)
  | .socket (.close fd), _ => some (.closed fd)
  | _, _ => none

def HostTrace.uses (trace : HostTrace κ) : List DescriptorUse :=
  trace.filterMap fun
    | .asked call reply => call.use? reply
    | .told _ => none

theorem HostTrace.uses_cons_asked (call : HostCall κ) (reply : call.Reply) (rest : HostTrace κ) :
    uses (.asked call reply :: rest) = (call.use? reply).toList ++ uses rest := by
  cases used : call.use? reply <;> simp [uses, used]

abbrev NativeTrace (φ : Type) : Type :=
  List (Happening (NativeCall φ) NativeCall.Reply (Effect φ))

def NativeTrace.uses (trace : NativeTrace φ) : List DescriptorUse :=
  trace.filterMap fun
    | .asked call reply => call.use? reply
    | .told _ => none

theorem NativeTrace.uses_append (first second : NativeTrace φ) :
    uses (first ++ second) = uses first ++ uses second :=
  List.filterMap_append

/-- A program that fails has passed on every descriptor that it has opened. -/
def ClosesOnFailure {ε : Type} (result : Except ε α) (uses : List DescriptorUse) : Prop :=
  (∃ error, result = .error error) → leftOpen uses = []

/-! ## The adapter -/

theorem Engine.NativeCall.use?_eq_none {call : NativeCall φ} (other : call.concern ≠ .socket)
    (reply : call.Reply) : call.use? reply = none := by
  cases call with
  | socket call => exact (other rfl).elim
  | register | memory | hook | console | system | thread => rfl

namespace NativeEnvironment

variable (native : NativeEnvironment φ σ)

theorem uses_eq_nil {subject : Concern} (other : subject ≠ .socket)
    {step : Adapter φ → NativeProgram φ (α × Adapter φ)} (serves : Adapter.Serves subject step)
    (adapter : Adapter φ) (state : σ) : NativeTrace.uses ((step adapter).trace native state) = [] := by
  obtain ⟨-, within⟩ := (serves adapter).run_trace native state
  refine List.filterMap_eq_nil_iff.mpr fun happening member => ?_
  cases happening with
  | asked call reply =>
      have own : call.concern = subject := within _ member
      exact NativeCall.use?_eq_none (own ▸ other) reply
  | told effect => rfl

theorem serveSocket_uses (call : SocketCall) (adapter : Adapter φ) (state : σ) :
    NativeTrace.uses ((Adapter.serve (.socket call) adapter).trace native state) =
      (HostCall.use? (.socket call : HostCall (Closure φ))
        (native.viaAdapter.answer (.socket call) (adapter, state)).1).toList := by
  cases call with
  | create =>
      have asked : (Adapter.serve (.socket .create) adapter).trace native state =
          [.asked (.socket .create) (native.answer (.socket .create) state).1] := rfl
      have replied : (native.viaAdapter.answer (.socket .create) (adapter, state)).1 =
          (native.answer (.socket .create) state).1.mapError (Adapter.failure "sockCreate") := rfl
      rw [asked, replied]
      cases (native.answer (.socket .create) state).1 <;> rfl
  | connect | listen | accept | write | close => rfl
  | read fd size =>
      simp only [viaAdapter, Adapter.serve, Adapter.serveSocket]
      cases Adapter.wordSize? size <;> rfl

/-- The adapter opens and closes descriptors just as the call asks for. -/
theorem serve_uses (call : HostCall (Closure φ)) (adapter : Adapter φ) (state : σ) :
    NativeTrace.uses ((Adapter.serve call adapter).trace native state) =
      (call.use? (native.viaAdapter.answer call (adapter, state)).1).toList := by
  by_cases socket : call.concern = .socket
  · cases call with
    | socket call => exact native.serveSocket_uses call adapter state
    | thread call => cases call <;> cases socket
    | register | memory | hook | console | system => cases socket
  · rw [native.uses_eq_nil socket (Adapter.serve_serves call) adapter state]
    cases call with
    | socket call => exact (socket rfl).elim
    | register | memory | hook | console | system | thread => rfl

/-- The native calls of a program open and close the descriptors that the program does. -/
theorem lower_uses (program : HostProgram (Closure φ) α) (adapter : Adapter φ) (state : σ) :
    NativeTrace.uses ((Adapter.lower program adapter).trace native state) =
      HostTrace.uses (program.trace native.viaAdapter (adapter, state)) := by
  induction program generalizing adapter state with
  | done value => rfl
  | tell notice rest ih => exact ih adapter (native.note (.notice notice) state)
  | ask call next ih =>
      rw [Adapter.lower, trace_bind, NativeTrace.uses_append, serve_uses, ih]
      exact (HostTrace.uses_cons_asked call _ _).symm

end NativeEnvironment

/-! ## The emulator refuses to listen -/

/-- A descriptor is opened for a port, and the emulator refuses to listen on it. -/
def HostEnvironment.RefusesListen (environment : HostEnvironment κ σ) (port : Option UInt16)
    (state : σ) : Prop :=
  let created := environment.answer (.socket .create) state
  ∃ fd number error, created.1 = .ok fd ∧ port = some number ∧
    (environment.answer (.socket (.listen fd number)) created.2).1 = .error error

def NativeEnvironment.RefusesListen (native : NativeEnvironment φ σ) (port : Option UInt16)
    (state : σ) : Prop :=
  let created := native.answer (.socket .create) state
  ∃ fd number thrown, created.1 = .ok fd ∧ port = some number ∧
    (native.answer (.socket (.listen fd number)) created.2).1 = .error thrown

theorem NativeEnvironment.viaAdapter_refusesListen (native : NativeEnvironment φ σ)
    (port : Option UInt16) (adapter : Adapter φ) (state : σ) :
    native.viaAdapter.RefusesListen port (adapter, state) ↔ native.RefusesListen port state := by
  have created (fd : SocketFd) :
      (native.viaAdapter.answer (.socket .create) (adapter, state)).1 = .ok fd ↔
        (native.answer (.socket .create) state).1 = .ok fd := by
    change (native.answer (.socket .create) state).1.mapError (Adapter.failure "sockCreate") = _ ↔ _
    cases (native.answer (.socket .create) state).1 <;> simp
  have refused (fd : SocketFd) (number : UInt16) (state : σ) :
      (∃ error, (native.viaAdapter.answer (.socket (.listen fd number)) (adapter, state)).1 =
          .error error) ↔
        ∃ thrown, (native.answer (.socket (.listen fd number)) state).1 = .error thrown := by
    change (∃ error, (native.answer (.socket (.listen fd number)) state).1.mapError
      (Adapter.failure "sockListen") = .error error) ↔ _
    cases (native.answer (.socket (.listen fd number)) state).1 <;> simp
  refine exists_congr fun fd => exists_congr fun number => ?_
  simp only [exists_and_left]
  exact and_congr (created fd) (and_congr Iff.rfl (refused fd number _))

/-! ## The creation of a server -/

theorem Server.create_run (port : Option UInt16) (config : SessionConfig) :
    (Server.create port config : Action κ (Server κ)).run =
      .ask (.socket .create) fun
        | .error error => .done (.error (.host error))
        | .ok fd =>
            match port with
            | none => .done (.ok { fd, config })
            | some port =>
                .ask (.socket (.listen fd port)) fun
                  | .error error => .done (.error (.host error))
                  | .ok () =>
                      .tell (.log ⟨.debug, s!"server {fd.value.toNat}: listening on {port.toNat}"⟩)
                        (.done (.ok { fd, config })) := by
  refine congrArg (Program.ask _) (funext fun reply => ?_)
  cases reply with
  | error error => rfl
  | ok fd =>
      cases port with
      | none => rfl
      | some port =>
          refine congrArg (Program.ask _) (funext fun reply => ?_)
          cases reply <;> rfl

/-- What a creation may come to, and what it opens and closes. -/
inductive Creation (refused : Prop) : Except ScriptError (Server κ) → List DescriptorUse → Prop where
  | nothing (error : ScriptError) (fine : ¬ refused) : Creation refused (.error error) []
  | created (server : Server κ) (fine : ¬ refused) :
      Creation refused (.ok server) [.opened server.fd]
  | stranded (fd : SocketFd) (error : ScriptError) (strands : refused) :
      Creation refused (.error error) [.opened fd]

theorem Creation.closesOnFailure_iff {refused : Prop} {result : Except ScriptError (Server κ)}
    {uses : List DescriptorUse} (creation : Creation refused result uses) :
    ClosesOnFailure result uses ↔ ¬ refused := by
  cases creation with
  | nothing error fine => exact iff_of_true (fun _ => rfl) fine
  | created server fine => exact iff_of_true (by rintro ⟨error, ⟨⟩⟩) fine
  | stranded fd error strands =>
      refine iff_of_false (fun closes => ?_) (not_not_intro strands)
      cases closes ⟨error, rfl⟩

theorem HostEnvironment.creation (environment : HostEnvironment κ σ) (port : Option UInt16)
    (config : SessionConfig) (state : σ) :
    let program := (Server.create port config : Action κ (Server κ)).run
    Creation (environment.RefusesListen port state) (program.run environment state).1
      (HostTrace.uses (program.trace environment state)) := by
  rw [Server.create_run, RefusesListen]
  simp only [run_ask, trace_ask]
  rcases environment.answer (.socket .create) state with ⟨error | fd, after⟩
  · exact .nothing _ (by simp)
  · cases port with
    | none => exact .created ⟨fd, config, none⟩ (by simp)
    | some port =>
        simp only [run_ask, trace_ask]
        rcases listened : environment.answer (.socket (.listen fd port)) after with
          ⟨error | value, later⟩
        · -- The error goes to the caller, who has no server to close.
          exact .stranded fd _ ⟨fd, port, error, rfl, rfl, by rw [listened]⟩
        · exact .created ⟨fd, config, none⟩ (by simp [listened])

/-! ## The creation by a script -/

namespace Engine.Method

/-- The bridge keeps a server that was created. -/
def enrol (bridge : Bridge φ) :
    Except ScriptError (Server (Closure φ)) × Adapter φ →
      NativeProgram φ (Except Failure Answer × Bridge φ)
  | (.ok server, adapter) =>
      .tell (.opened (.server server.fd)) (.done (.ok (.word server.fd.value),
        { bridge with adapter, servers := bridge.servers.insert server.fd.value server }))
  | (.error error, adapter) => .done (.error (.script error), { bridge with adapter })

theorem createServer_run (port : Option UInt16) (bridge : Bridge φ) :
    (Method.createServer port).run bridge =
      (Adapter.lower (bridge.session.createServer port).run bridge.adapter).bind (enrol bridge) := by
  refine (bind_assoc _ _ _).trans (congrArg (Program.bind _) (funext fun (result, adapter) => ?_))
  cases result <;> rfl

theorem enrol_uses (native : NativeEnvironment φ σ) (bridge : Bridge φ)
    (ended : Except ScriptError (Server (Closure φ)) × Adapter φ) (state : σ) :
    NativeTrace.uses ((enrol bridge ended).trace native state) = [] := by
  obtain ⟨error | server, adapter⟩ := ended <;> rfl

theorem enrol_fails_iff (native : NativeEnvironment φ σ) (bridge : Bridge φ)
    (ended : Except ScriptError (Server (Closure φ)) × Adapter φ) (state : σ) :
    (∃ failure, ((enrol bridge ended).run native state).1.1 = .error failure) ↔
      ∃ error, ended.1 = .error error := by
  obtain ⟨error | server, adapter⟩ := ended
  · exact iff_of_true ⟨_, rfl⟩ ⟨error, rfl⟩
  · exact iff_of_false (by rintro ⟨failure, ⟨⟩⟩) (by rintro ⟨error, ⟨⟩⟩)

/-- A script is told of a failure just if the library is, and the native calls open and close
what the library does. -/
theorem createServer_closesOnFailure_iff (native : NativeEnvironment φ σ) (port : Option UInt16)
    (bridge : Bridge φ) (state : σ) :
    let program := (Method.createServer port).run bridge
    let creation := (bridge.session.createServer port).run
    ClosesOnFailure (program.run native state).1.1
        (NativeTrace.uses (program.trace native state)) ↔
      ClosesOnFailure (creation.run native.viaAdapter (bridge.adapter, state)).1
        (HostTrace.uses (creation.trace native.viaAdapter (bridge.adapter, state))) := by
  intro program creation
  have uses : NativeTrace.uses (program.trace native state) =
      HostTrace.uses (creation.trace native.viaAdapter (bridge.adapter, state)) := by
    rw [show program = _ from createServer_run port bridge, trace_bind, NativeTrace.uses_append,
      native.lower_uses, enrol_uses, List.append_nil]
  have fails_iff : (∃ failure, (program.run native state).1.1 = .error failure) ↔
      ∃ error, (creation.run native.viaAdapter (bridge.adapter, state)).1 = .error error := by
    rw [show program = _ from createServer_run port bridge, run_bind, native.lower_run]
    exact enrol_fails_iff native bridge _ _
  rw [ClosesOnFailure, ClosesOnFailure, uses, fails_iff]

end Engine.Method

/-- A creation that fails has closed what it has opened, unless the emulator has opened a
descriptor and refuses to listen on it. So it is for the library with any configuration, for a
session and for a script. -/
theorem failed_creations_closed_iff {τ : Type} (environment : HostEnvironment κ σ)
    (native : NativeEnvironment φ τ) (port : Option UInt16) (config : SessionConfig)
    (session : Session κ) (bridge : Bridge φ) (state : σ) (table : τ) :
    let creation := (Server.create port config : Action κ (Server κ)).run
    let ofSession := (session.createServer port).run
    let ofScript := (Method.createServer port).run bridge
    (ClosesOnFailure (creation.run environment state).1
        (HostTrace.uses (creation.trace environment state)) ↔
      ¬ environment.RefusesListen port state) ∧
    (ClosesOnFailure (ofSession.run environment state).1
        (HostTrace.uses (ofSession.trace environment state)) ↔
      ¬ environment.RefusesListen port state) ∧
    (ClosesOnFailure (ofScript.run native table).1.1
        (NativeTrace.uses (ofScript.trace native table)) ↔
      ¬ native.RefusesListen port table) := by
  intro creation ofSession ofScript
  refine ⟨?_, ?_, ?_⟩
  · exact (environment.creation port config state).closesOnFailure_iff
  · exact (environment.creation port session.config state).closesOnFailure_iff
  · refine (Method.createServer_closesOnFailure_iff native port bridge table).trans ?_
    rw [← native.viaAdapter_refusesListen port bridge.adapter table]
    exact (native.viaAdapter.creation port bridge.session.config _).closesOnFailure_iff

/-- The port is in use: the creation fails, and the descriptor it has opened stays open. -/
theorem refused_server_stays_open :
    let emulator : Emulator Nat := { failures := [⟨"sockListen", 0, "port in use"⟩] }
    let program := (Server.create (some 80) {} : Action Nat (Server Nat)).run
    let result := (program.run (Emulator.environment Nat) emulator).1
    let uses := HostTrace.uses (program.trace (Emulator.environment Nat) emulator)
    result.toOption.isNone ∧ uses = [.opened ⟨1⟩] ∧ leftOpen uses = [⟨1⟩] ∧
      ¬ ClosesOnFailure result uses := by
  intro emulator program result uses
  have stays : leftOpen uses = [⟨1⟩] := by decide +kernel
  have failed : result = .error (.host ⟨"sockListen", "port in use"⟩) := rfl
  refine ⟨by rw [failed]; rfl, by decide +kernel, stays, fun closes => ?_⟩
  have none : leftOpen uses = [] := closes ⟨_, failed⟩
  cases stays.symm.trans none

end EmuScript
