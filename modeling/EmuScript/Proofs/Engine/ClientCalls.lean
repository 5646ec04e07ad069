import EmuScript.Emulator.NativeTable
import EmuScript.Proofs.Engine.Clients
import EmuScript.Proofs.Engine.Delivery
import EmuScript.Proofs.Engine.WriteCalls

/-!
# Calls for clients

The function that is installed for the clients of a server is called once for each client
that comes, whether or not the emulator then agrees to look for the next one. It finds the
client's socket in the session. Once all methods and completion functions have returned, the
requests under way for a server are those that the emulator has taken from methods, less
those that it has refused when a client had come.
-/

set_option autoImplicit false

namespace EmuScript.Engine

open Program

variable {φ α : Type}

/-! ## Methods on known sockets -/

theorem Bridge.onSocket_finds {bridge : Bridge φ} {fd : UInt32}
    (known : bridge.Holds (.socket ⟨fd⟩)) (update : Update (Closure φ) (Socket (Closure φ)) α) :
    (onSocket fd update bridge).Meets { ends := fun ended => ended.1.isSome } := by
  obtain ⟨socket, found⟩ := Option.isSome_iff_exists.mp known
  simp only [onSocket, found]
  exact meets_bind_of_ends fun _ => rfl

/-- A session rejects a call because it does not know the descriptor. -/
def Failure.Unknown : Failure → Prop
  | .unknownDescriptor _ _ => True
  | .script _ | .busy => False

theorem Method.objectResult_known {kind : DescriptorKind} {number : UInt32}
    {result : Option (Except ScriptError α)} (known : result.isSome) :
    ∀ failure, objectResult kind number result = .error failure → ¬ failure.Unknown := by
  obtain ⟨result, rfl⟩ := Option.isSome_iff_exists.mp known
  rintro failure rejected unknown
  cases result with
  | ok value => cases rejected
  | error error =>
      cases rejected
      exact unknown

/-- A call on a socket that the session holds is not rejected as one on an unknown
descriptor. -/
theorem Method.run_known {bridge : Bridge φ} {method : Method φ} {fd : SocketFd}
    (works : method.endpoint = some (.socket fd)) (known : bridge.Holds (.socket fd)) :
    (method.run bridge).Meets
      { ends := fun ended => ∀ failure, ended.1 = .error failure → ¬ failure.Unknown } := by
  cases method with
  | connect | onData | onClose | write | close =>
      cases works
      refine meets_bind.mpr ((Bridge.onSocket_finds known _).weaken (fun _ => id) (fun _ => id) ?_)
      exact fun ended found => objectResult_known found
  | _ => cases works

/-! ## Runs -/

/-- The requests for clients, and the calls for those that have come, are as the log has
them. -/
structure ClientLog.Received (log : ClientLog φ) (run : Machine.Observed φ) : Prop where
  ledger : (Ledger.ofEvents run.2).Mirrors run
  /-- Every request for a client that the emulator was asked for is in the log. -/
  listed : (log.all.map (·.ticket)).Perm ((handedTickets run.2).filter (·.accepts?.isSome))
  distinct : (handedTickets run.2).Nodup
  heard : log.heard.length = (Ledger.ofEvents run.2).applied.length
  /-- The bridge is free while a queued call is under way, and when nothing is. -/
  free : run.1.AtRest ∨ (∃ invocation, run.1.Inside invocation) → run.1.bridge.isSome
  /-- The log has the functions that are installed. -/
  handlers : ∀ bridge, run.1.bridge = some bridge → ∀ (fd : SocketFd) server,
    bridge.servers.find? fd.value = some server →
      server.connectionHandler = (log.installed fd).map .deferred
  /-- No client is shown twice, or to another function than the one that was installed when
  the completion was applied that brought it. -/
  once : ∀ (index : Nat) server client,
    (Ledger.ofEvents run.2).applied[index]? = some (.accepted server client) →
      callsAged (index + 1) (Ledger.ofEvents run.2).started <+:
        clientCalls client log.heard[index]?.join
  /-- Once all methods and completion functions have returned, every client was shown. -/
  done : run.1.AtRest →
    run.2.filterMap Event.sent? = run.2.filterMap Event.applied? ∧
    ∀ (index : Nat) server client,
      (Ledger.ofEvents run.2).applied[index]? = some (.accepted server client) →
        callsAged (index + 1) (Ledger.ofEvents run.2).started =
          clientCalls client log.heard[index]?.join
  /-- The socket of a client that was shown has been opened for it, and is at hand. -/
  usable : ∀ bridge, run.1.bridge = some bridge → ∀ call ∈ (Ledger.ofEvents run.2).started,
    ∀ server client, call.cause = some (.accepted server client) →
      OpenedSince call.age run.2 (.socket client) ∧
      (∃ host socket, bridge.servers.find? server.value = some host ∧
        bridge.sockets.find? client.value = some socket ∧ socket.fd = client ∧
        socket.BuiltFrom host.config) ∧
      ∀ method : Method φ, method.endpoint = some (.socket client) →
        (method.run bridge).Meets
          { ends := fun ended => ∀ failure, ended.1 = .error failure → ¬ failure.Unknown }
  /-- As many requests for a server are under way as the emulator has taken from methods, less
  those that it has refused when a client had come. -/
  balanced : run.1.AtRest → ∀ server,
    (log.outstanding (completedTickets run.2) server).length + (log.lapsed server).length =
      (log.requested server).length

namespace ClientLog.Agrees

variable {log : ClientLog φ} {history : List (Event φ)}

/-- The calls that have begun for a client are among those that are to be made for it. -/
theorem started_within (fits : log.Fits [] none history) {index : Nat} {server client : SocketFd}
    (caused : (Ledger.ofEvents history).applied[index]? = some (.accepted server client)) :
    callsAged (index + 1) (Ledger.ofEvents history).started <+:
      clientCalls client log.heard[index]?.join := by
  have calls := fits.calls index server client caused
  rw [ite_self, List.append_nil] at calls
  have ordered := callsAged_perm (index + 1) (Ledger.order_perm history)
  rw [calls, Ledger.order, callsAged_append] at ordered
  exact ⟨_, eq_clientCalls_of_perm ordered⟩

theorem started_of_perm (fits : log.Fits [] none history) {index : Nat} {server client : SocketFd}
    (caused : (Ledger.ofEvents history).applied[index]? = some (.accepted server client))
    (settled : (Ledger.ofEvents history).started.Perm (Ledger.ofEvents history).queued) :
    callsAged (index + 1) (Ledger.ofEvents history).started =
      clientCalls client log.heard[index]?.join := by
  have calls := fits.calls index server client caused
  rw [ite_self, List.append_nil] at calls
  have ordered := callsAged_perm (index + 1) settled
  rw [calls] at ordered
  exact eq_clientCalls_of_perm ordered

end ClientLog.Agrees

namespace Machine

/-- A completion that was applied is for a place that was opened. -/
theorem Known.opened_of_applied {history : List (Event φ)} {activity : Activity φ}
    {machine : Machine φ} (known : Known history activity machine) {completion : Completion}
    (applied : completion ∈ history.filterMap Event.applied?) :
    completion.endpoint ∈ openings history := by
  have yields := completedTickets_yield known.genuine
  have sent : completion ∈ history.filterMap Event.sent? := by
    rw [known.accounts.sent]
    exact List.mem_append_left _ applied
  obtain ⟨index, bound, rfl⟩ := List.mem_iff_getElem.mp sent
  have own := yields.get (yields.length_eq ▸ bound) bound
  simp only [List.get_eq_getElem] at own
  rw [own.endpoint]
  exact known.opened_of_completed (List.getElem_mem _)

/-- The socket of a client that was shown is at hand when the bridge is free. -/
theorem Attends.socket_of_started {config : SessionConfig} {log : ClientLog φ}
    {history : List (Event φ)} {machine : Machine φ}
    (attends : Attends config log history .idle machine) {bridge : Bridge φ}
    (free : machine.bridge = some bridge) {call : Queued φ}
    (started : call ∈ (Ledger.ofEvents history).started) {server client : SocketFd}
    (caused : call.cause = some (.accepted server client)) :
    OpenedSince call.age history (.socket client) ∧
      ∃ host socket, bridge.servers.find? server.value = some host ∧
        bridge.sockets.find? client.value = some socket ∧ socket.fd = client ∧
        socket.BuiltFrom host.config := by
  have hosts := attends.bridge bridge free
  have keyed := (attends.known.upheld.bridge bridge free).keyed
  have queued := Ledger.mem_queued started
  obtain ⟨-, -, adopted⟩ := attends.known.upheld.sound.2 (by simp [free])
  -- No socket waits for the bridge any more, and so the client's has its place.
  have since : OpenedSince call.age history (.socket client) := by
    simpa [adopted] using attends.usable call queued server client caused
  have applied : Completion.accepted server client ∈ history.filterMap Event.applied? := by
    have dated := ((Ledger.queued_dated history).1 call queued).2
    rw [caused, Ledger.applied_eq] at dated
    exact List.mem_of_mem_take (List.mem_of_getLast? dated.symm)
  have serves : (bridge.servers.find? server.value).isSome :=
    hosts.present _ (attends.known.opened_of_applied applied)
  have holds : (bridge.sockets.find? client.value).isSome := hosts.present _ since.opened
  obtain ⟨host, place⟩ := Option.isSome_iff_exists.mp serves
  obtain ⟨socket, found⟩ := Option.isSome_iff_exists.mp holds
  refine ⟨since, host, socket, place, found, keyed.sockets _ _ found, ?_⟩
  rw [hosts.furnished.servers _ _ place]
  exact hosts.furnished.sockets _ _ found

/-- If no descriptor is given out twice, and the emulator completes no request that it has
refused, then each client that comes is shown once to the function that was installed, which
finds its socket, and no request for a client is lost. -/
theorem clients_received_once (id : Nat) (config : SessionConfig) (moves : List (Move φ))
    (distinct : (openings ((start id config : Machine φ).steps moves).2).Nodup)
    (lawful : (ClientLog.ofMoves id config moves).Lawful
      (completedTickets ((start id config : Machine φ).steps moves).2)) :
    (ClientLog.ofMoves id config moves).Received ((start id config : Machine φ).steps moves) := by
  have attends := run_attends id config distinct
  have known := attends.known
  have sound := known.upheld.sound
  have unique := known.ticketed.handed_nodup
  obtain ⟨due, arms, fits, rfl, rfl⟩ := attends.current
  exact
    { ledger := ledger_mirrors id config moves
      listed := fits.listed
      distinct := unique
      heard := fits.length
      free := by
        rintro (rest | ⟨invocation, inside⟩)
        · exact sound.free_of_rest rest
        · exact sound.free_of_inside inside
      handlers := fun bridge free => (attends.bridge bridge free).handlers
      once := fun index server client caused => fits.started_within caused
      done := fun rest => by
        obtain ⟨queue, -, -⟩ := sound.2 (sound.free_of_rest rest)
        refine ⟨by rw [known.accounts.sent, queue, List.append_nil], ?_⟩
        exact fun index server client caused =>
          fits.started_of_perm caused (known.accounts.started_of_rest rest)
      usable := fun bridge free call started server client caused => by
        obtain ⟨since, found⟩ := attends.socket_of_started free started caused
        have holds := (attends.bridge bridge free).present _ since.opened
        exact ⟨since, found, fun method works => method.run_known works holds⟩
      balanced := fun rest server => by
        have vacant := attends.vacant fun frame member => by simp [rest frame member]
        rw [ClientLog.Fits, known.accounts.served_of_rest known.genuine rest] at fits
        exact fits.outstanding_add_lapsed vacant unique known.ticketed.completed_nodup
          known.ticketed.completed_handed lawful server }

/-- Two clients come to a server while a method runs. The emulator refuses to look for the
next one after the first has come, and agrees after the second. The function is replaced
before that, and writes to both clients when it is called for the first one. -/
def refusedMoves : List (Move Nat) :=
  [.call (.createServer none), .answer (NativeTable.replies {}),
    .call (.onConnection 1 10), .answer (NativeTable.replies {}),
    .call (.onConnection 1 20), .answer (NativeTable.replies {}),
    .call (.service .pause),
    .complete ⟨0, .accept ⟨1⟩⟩ ⟨2⟩, .complete ⟨1, .accept ⟨1⟩⟩ ⟨3⟩,
    .answer (NativeTable.replies {}),
    .answer fun _ => .error .undefined, .answer (NativeTable.replies {}),
    .answer (NativeTable.replies {}),
    .call (.write 2 [] none), .answer (NativeTable.replies {}),
    .call (.write 3 [] none), .answer (NativeTable.replies {}),
    .finish none, .finish none]

/-- The second function is called for both clients, and one of the two requests of methods
has lapsed. -/
theorem clients_received_once_of_refused :
    let run := (start 0 {} : Machine Nat).steps refusedMoves
    let log := ClientLog.ofMoves 0 {} refusedMoves
    (openings run.2).Nodup ∧ log.Lawful (completedTickets run.2) ∧ log.Received run ∧
    run.1.AtRest ∧
    (run.2.filterMap Event.started?).map (fun call => (call.callback, call.arguments)) =
      [(20, [.word 2]), (20, [.word 3])] ∧
    (log.requested ⟨1⟩).length = 2 ∧ (log.lapsed ⟨1⟩).length = 1 ∧
    (log.outstanding (completedTickets run.2) ⟨1⟩).length = 1 := by
  intro run log
  have distinct : (openings run.2).Nodup := by decide +kernel
  have lawful : log.Lawful (completedTickets run.2) := by decide +kernel
  have finished : run.1.frames.isEmpty := by decide +kernel
  have rest : run.1.AtRest := by simp [AtRest, List.isEmpty_iff.mp finished]
  exact ⟨distinct, lawful, clients_received_once 0 {} refusedMoves distinct lawful, rest,
    by decide +kernel, by decide +kernel, by decide +kernel, by decide +kernel⟩

end Machine

end EmuScript.Engine
