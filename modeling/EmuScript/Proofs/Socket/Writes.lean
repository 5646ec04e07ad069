import EmuScript.Proofs.Socket.Operation

/-!
# Completions of writes

A socket that lives through any operations, against any emulator, runs the handlers of
its accepted writes one by one, each at the completion of its own write. The writes
that have completed and those under way are always the accepted ones, in their order.
-/

set_option autoImplicit false

namespace EmuScript.Socket

open Program

variable {κ σ : Type}

/-! ## Histories -/

/-- An operation as it took place: what it did to the socket, and what the emulator saw
of it meanwhile. -/
structure Observation (κ : Type) where
  operation : Operation κ
  before : Socket κ
  trace : List (Happening (HostCall κ) HostCall.Reply (Notice κ))
  result : Except ScriptError Unit
  after : Socket κ

namespace Observation

/-- The emulator has taken a write. -/
def granted (observation : Observation κ) : Bool :=
  observation.trace.any fun
    | .asked (.socket (.write _ _)) (.ok _) => true
    | _ => false

/-- The handler of a write, if it has one, once the emulator has taken the write. -/
def accepted? (observation : Observation κ) : Option (Option κ) :=
  match observation.operation with
  | .write _ handler => if observation.granted then some handler else none
  | _ => none

/-- A completion finds a write under way. -/
def completes (observation : Observation κ) : Bool :=
  match observation.operation with
  | .deliverWrite => !observation.before.pendingWrites.isEmpty
  | _ => false

/-- The handler of the write that a completion finds. -/
def completed? (observation : Observation κ) : Option (Option κ) :=
  if observation.completes then observation.before.pendingWrites.head? else none

/-- The handlers that an operation runs. -/
def signals (observation : Observation κ) : List (Signal κ) :=
  observation.trace.filterMap fun
    | .told (.signal signal) => some signal
    | _ => none

end Observation

variable (environment : HostEnvironment κ σ)

def Operation.observed (operation : Operation κ) (socket : Socket κ) (state : σ) :
    Observation κ :=
  let program := operation.update.on socket
  let ended := (program.run environment state).1
  ⟨operation, socket, program.trace environment state, ended.1, ended.2⟩

/-- Operations on a socket, one after another. -/
def history : List (Operation κ) → Socket κ → σ → List (Observation κ)
  | [], _, _ => []
  | operation :: rest, socket, state =>
      let observation := operation.observed environment socket state
      observation :: history rest observation.after
        ((operation.update.on socket).run environment state).2

/-- The socket after a history. -/
def latest : Socket κ → List (Observation κ) → Socket κ
  | socket, [] => socket
  | _, observation :: rest => latest observation.after rest

variable {environment}

/-! ## One operation -/

/-- What every operation does to the queue of writes and to the handlers. -/
structure Observation.Lawful (observation : Observation κ) : Prop where
  queue : observation.before.pendingWrites ++ observation.accepted?.toList =
    observation.completed?.toList ++ observation.after.pendingWrites
  completion : observation.completes = true → ∃ handler, observation.completed? = some handler ∧
    observation.signals = handler.toList.map .written
  streams : observation.completes = false → ∀ signal ∈ observation.signals,
    ∃ handler, observation.before.HasHandler handler ∧ Streams handler signal
  handlers : ∀ handler, observation.after.HasHandler handler →
    observation.operation.given = some handler ∨ observation.before.HasHandler handler
  spurious : observation.operation = .deliverWrite → observation.completes = false →
    observation.result = .ok () ∧ observation.after = observation.before ∧
      ∃ record, observation.trace = [.told (.log record)]
  request : ∀ data handler, observation.operation = .write data handler →
    ∃ reply, observation.trace = [.asked (.socket (.write observation.before.fd data)) reply] ∧
      observation.result = reply.mapError .host

/-- A write succeeds exactly if the emulator takes it. -/
theorem Observation.Lawful.result_iff {observation : Observation κ} (lawful : observation.Lawful)
    {data : Bytes} {handler : Option κ} (writes : observation.operation = .write data handler) :
    observation.result = .ok () ↔ observation.granted = true := by
  obtain ⟨reply, asked, answered⟩ := lawful.request data handler writes
  rw [answered, Observation.granted, asked]
  cases reply with
  | ok value => exact ⟨fun _ => rfl, fun _ => rfl⟩
  | error error =>
      constructor
      · intro succeeded
        cases succeeded
      · intro taken
        cases taken

private theorem lawful_write (data : Bytes) (handler : Option κ) (socket : Socket κ) (state : σ) :
    ((Operation.write data handler).observed environment socket state).Lawful := by
  cases reply : (environment.answer (.socket (.write socket.fd data)) state).1 with
  | ok value =>
      have observed : (Operation.write data handler).observed environment socket state =
          ⟨.write data handler, socket, [.asked (.socket (.write socket.fd data)) (.ok value)],
            .ok (), { socket with pendingWrites := socket.pendingWrites ++ [handler] }⟩ := by
        simp [Operation.observed, Operation.update, write_on, trace, run, reply]
      rw [observed]
      refine ⟨rfl, ?_, ?_, fun _ has => .inr has, ?_, ?_⟩
      · simp [Observation.completes]
      · simp [Observation.signals]
      · simp
      · intro other given writes
        cases writes
        exact ⟨.ok value, rfl, rfl⟩
  | error error =>
      have observed : (Operation.write data handler).observed environment socket state =
          ⟨.write data handler, socket, [.asked (.socket (.write socket.fd data)) (.error error)],
            .error (.host error), socket⟩ := by
        simp [Operation.observed, Operation.update, write_on, trace, run, reply]
      rw [observed]
      refine ⟨List.append_nil _, ?_, ?_, fun _ has => .inr has, ?_, ?_⟩
      · simp [Observation.completes]
      · simp [Observation.signals]
      · simp
      · intro other given writes
        cases writes
        exact ⟨.error error, rfl, rfl⟩

private theorem lawful_deliverWrite (socket : Socket κ) (state : σ) :
    (Operation.deliverWrite.observed environment socket state).Lawful := by
  cases pending : socket.pendingWrites with
  | nil =>
      have observed : Operation.deliverWrite.observed environment socket state =
          ⟨.deliverWrite, socket, [.told (.log ⟨.warn,
            s!"socket {socket.fd.value.toNat}: write completed with none outstanding"⟩)],
            .ok (), socket⟩ := by
        simp [Operation.observed, Operation.update, deliverWrite_on, trace, run, pending]
      rw [observed]
      refine ⟨?_, ?_, ?_, fun _ has => .inr has, fun _ _ => ⟨rfl, rfl, _, rfl⟩, ?_⟩
      · simp [Observation.accepted?, Observation.completed?, Observation.completes, pending]
      · simp [Observation.completes, pending]
      · simp [Observation.signals]
      · intro data handler writes
        cases writes
  | cons oldest rest =>
      have observed : Operation.deliverWrite.observed environment socket state =
          ⟨.deliverWrite, socket, oldest.toList.map fun handler => .told (.signal (.written handler)),
            .ok (), { socket with pendingWrites := rest }⟩ := by
        cases oldest <;>
          simp [Operation.observed, Operation.update, deliverWrite_on, trace, run, pending]
      have completes : (Operation.deliverWrite.observed environment socket state).completes = true := by
        simp [observed, Observation.completes, pending]
      have completed : (Operation.deliverWrite.observed environment socket state).completed? =
          some oldest := by
        rw [Observation.completed?, if_pos completes, observed]
        exact congrArg List.head? pending
      refine ⟨?_, fun _ => ⟨oldest, completed, ?_⟩, ?_, ?_, ?_, ?_⟩
      · rw [completed, observed]
        exact (List.append_nil _).trans pending
      · rw [observed]
        cases oldest <;> rfl
      · simp [completes]
      · rw [observed]
        exact fun _ has => .inr has
      · simp [completes]
      · intro data handler writes
        cases writes

private theorem lawful_other (operation : Operation κ) (other : ¬ operation.ConcernsWrites)
    (socket : Socket κ) (state : σ) :
    (operation.observed environment socket state).Lawful := by
  obtain ⟨⟨-, writes, handlers⟩, within⟩ :=
    (operation.update_spares other socket).run_trace environment state
  have accepted : (operation.observed environment socket state).accepted? = none := by
    cases operation with
    | write data handler => exact (other trivial).elim
    | _ => rfl
  have completes : (operation.observed environment socket state).completes = false := by
    cases operation with
    | deliverWrite => exact (other trivial).elim
    | _ => rfl
  refine ⟨?_, ?_, ?_, handlers, ?_, ?_⟩
  · rw [accepted, Observation.completed?, completes]
    exact (List.append_nil _).trans writes.symm
  · simp [completes]
  · rintro - signal signalled
    obtain ⟨happening, happened, shows⟩ := List.mem_filterMap.mp signalled
    cases happening with
    | asked call reply => cases shows
    | told notice =>
        cases notice with
        | log record => cases shows
        | signal told =>
            cases shows
            exact within _ happened signal rfl
  · rintro rfl
    exact (other trivial).elim
  · rintro data handler rfl
    exact (other trivial).elim

theorem Operation.observed_lawful (operation : Operation κ) (socket : Socket κ) (state : σ) :
    (operation.observed environment socket state).Lawful := by
  cases operation with
  | write data handler => exact lawful_write data handler socket state
  | deliverWrite => exact lawful_deliverWrite socket state
  | _ => exact lawful_other _ id socket state

/-! ## Any number of operations -/

theorem history_lawful (operations : List (Operation κ)) (socket : Socket κ) (state : σ) :
    ∀ observation ∈ history environment operations socket state, observation.Lawful := by
  induction operations generalizing socket state with
  | nil => simp [history]
  | cons operation rest ih =>
      exact List.forall_mem_cons.mpr ⟨operation.observed_lawful socket state, ih _ _⟩

private theorem filterMap_cons_toList {α β : Type} (f : α → Option β) (value : α)
    (rest : List α) : (value :: rest).filterMap f = (f value).toList ++ rest.filterMap f := by
  cases shown : f value with
  | none => simp [shown]
  | some result => simp [shown]

/-- The writes under way at first and those accepted since have completed or are under way
at last, in this order. -/
theorem history_pendingWrites (operations : List (Operation κ)) (socket : Socket κ) (state : σ) :
    socket.pendingWrites ++ (history environment operations socket state).filterMap (·.accepted?) =
      (history environment operations socket state).filterMap (·.completed?) ++
        (latest socket (history environment operations socket state)).pendingWrites := by
  induction operations generalizing socket state with
  | nil => exact List.append_nil _
  | cons operation rest ih =>
      have lawful : (operation.observed environment socket state).Lawful :=
        operation.observed_lawful socket state
      have queue : socket.pendingWrites ++ _ = _ := lawful.queue
      simp only [history, latest, filterMap_cons_toList, List.append_assoc, ← ih]
      rw [← List.append_assoc, queue, List.append_assoc]

/-- Each completion that finds a write runs the handler of that write and nothing else. -/
theorem completions_signals {history : List (Observation κ)}
    (lawful : ∀ observation ∈ history, observation.Lawful) :
    (history.filter (·.completes)).map (·.signals) =
      (history.filterMap (·.completed?)).map fun handler => handler.toList.map .written := by
  induction history with
  | nil => rfl
  | cons observation rest ih =>
      obtain ⟨first, others⟩ := List.forall_mem_cons.mp lawful
      cases completes : observation.completes with
      | true =>
          obtain ⟨handler, completed, signals⟩ := first.completion completes
          rw [List.filter_cons_of_pos completes, List.filterMap_cons_some completed, List.map_cons,
            List.map_cons, signals, ih others]
      | false =>
          have completed : observation.completed? = none := by simp [Observation.completed?, completes]
          rw [List.filter_cons_of_neg (by simp [completes]), List.filterMap_cons_none completed,
            ih others]

/-- The handlers that a history runs beside those of writes were put in place by its
operations, or were there before. -/
theorem history_handlers (operations : List (Operation κ)) (socket : Socket κ) (state : σ) :
    ∀ observation ∈ history environment operations socket state,
      ∀ handler, observation.before.HasHandler handler →
        (∃ operation ∈ operations, operation.given = some handler) ∨ socket.HasHandler handler := by
  induction operations generalizing socket state with
  | nil => simp [history]
  | cons operation rest ih =>
      refine List.forall_mem_cons.mpr ⟨fun handler has => .inr has, ?_⟩
      intro observation observed handler has
      obtain ⟨later, member, given⟩ | has := ih _ _ observation observed handler has
      · exact .inl ⟨later, .tail _ member, given⟩
      · obtain given | has := (operation.observed_lawful socket state).handlers handler has
        · exact .inl ⟨operation, .head _, given⟩
        · exact .inr has

/-- Completions run the handlers of the accepted writes, each its own and in order; the
handler of a refused write is never run; what is under way is what was accepted and has
not completed. A write asks the emulator once, for its own data, and the answer is its
result. -/
theorem write_handlers_run_in_order (environment : HostEnvironment κ σ) (fd : SocketFd)
    (connected : Bool) (config : SessionConfig) (operations : List (Operation κ)) (state : σ) :
    let socket : Socket κ := ofFd fd connected config
    let history := history environment operations socket state
    let accepted := history.filterMap (·.accepted?)
    let completions := history.filter (·.completes)
    completions.length ≤ accepted.length ∧
      completions.map (·.signals) = (accepted.take completions.length).map
        (fun handler => handler.toList.map .written) ∧
      (∀ observation ∈ history, observation.completes = false →
        ∀ signal ∈ observation.signals, ∃ handler, Streams handler signal ∧
          ∃ operation ∈ operations, operation.given = some handler) ∧
      (∀ observation ∈ history, observation.operation = .deliverWrite →
        observation.completes = false →
          observation.result = .ok () ∧ observation.after = observation.before ∧
            ∃ record, observation.trace = [.told (.log record)]) ∧
      (latest socket history).pendingWrites.length = accepted.length - completions.length ∧
      ∀ observation ∈ history, ∀ data handler, observation.operation = .write data handler →
        (observation.result = .ok () ↔ observation.granted = true) ∧
          ∃ reply, observation.trace =
              [.asked (.socket (.write observation.before.fd data)) reply] ∧
            observation.result = reply.mapError .host := by
  intro socket history accepted completions
  have lawful : ∀ observation ∈ history, observation.Lawful :=
    history_lawful operations socket state
  have queue : accepted = history.filterMap (·.completed?) ++ (latest socket history).pendingWrites :=
    history_pendingWrites operations socket state
  have signals : completions.map (·.signals) = _ := completions_signals lawful
  have completed : completions.length = (history.filterMap (·.completed?)).length := by
    simpa using congrArg List.length signals
  have taken : accepted.take completions.length = history.filterMap (·.completed?) := by
    rw [queue, completed, List.take_left]
  have total : accepted.length = completions.length + (latest socket history).pendingWrites.length := by
    rw [queue, List.length_append, completed]
  refine ⟨by omega, by rw [taken, signals], ?_, ?_, by omega, ?_⟩
  · intro observation observed completes signal signalled
    obtain ⟨handler, has, streams⟩ := (lawful observation observed).streams completes signal signalled
    obtain given | has := history_handlers operations socket state observation observed handler has
    · exact ⟨handler, streams, given⟩
    · exact (not_hasHandler_ofFd fd connected config handler has).elim
  · intro observation observed delivered completes
    exact (lawful observation observed).spurious delivered completes
  · intro observation observed data handler writes
    exact ⟨(lawful observation observed).result_iff writes,
      (lawful observation observed).request data handler writes⟩

end EmuScript.Socket
