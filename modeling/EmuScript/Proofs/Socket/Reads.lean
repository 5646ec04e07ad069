import EmuScript.Proofs.Socket.Conduct
import Mathlib.Data.List.Basic

/-!
# The read loop

A data handler starts a loop of reads: each chunk of data asks for the next one before
the handler runs, and the loop ends with the stream or when a read is refused. The
reads that are outstanding can be counted from the loops that were started and those
that have ended, and the handlers get exactly the chunks whose next read was taken.
-/

set_option autoImplicit false

namespace EmuScript.Socket

open Program

variable {κ σ : Type}

/-! ## What is seen of reads -/

abbrev Sight (κ : Type) : Type :=
  Happening (HostCall κ) HostCall.Reply (Notice κ)

/-- The data handler that an operation puts in place. -/
def Operation.reader? : Operation κ → Option κ
  | onData handler => some handler
  | _ => none

/-- The handler for the end of the stream that an operation puts in place. -/
def Operation.closer? : Operation κ → Option κ
  | onClose handler => some handler
  | _ => none

namespace Observation

def readTaken : Sight κ → Bool
  | .asked (.socket (.read _ _)) (.ok _) => true
  | _ => false

def readRefused : Sight κ → Bool
  | .asked (.socket (.read _ _)) (.error _) => true
  | _ => false

def startsReading (observation : Observation κ) : Bool :=
  observation.operation.reader?.isSome

def completesRead (observation : Observation κ) : Bool :=
  match observation.operation with
  | .deliverRead _ => true
  | _ => false

def endsStream (observation : Observation κ) : Bool :=
  match observation.operation with
  | .deliverRead none => true
  | _ => false

def readsTaken (observation : Observation κ) : Nat :=
  observation.trace.countP readTaken

def readsRefused (observation : Observation κ) : Nat :=
  observation.trace.countP readRefused

/-- A chunk has arrived, and the read that was to follow is refused. -/
def breaksOff (observation : Observation κ) : Bool :=
  observation.completesRead && 0 < observation.readsRefused

/-- The data of a completion whose next read is taken. -/
def chunk? (observation : Observation κ) : Option Bytes :=
  match observation.operation with
  | .deliverRead (some data) => if 0 < observation.readsTaken then some data else none
  | _ => none

def dataCalls (observation : Observation κ) : List (κ × Bytes) :=
  observation.signals.filterMap fun
    | .received handler data => some (handler, data)
    | _ => none

end Observation

def takenReads (past : List (Observation κ)) : Nat :=
  (past.flatMap (·.trace)).countP Observation.readTaken

def refusedReads (past : List (Observation κ)) : Nat :=
  (past.flatMap (·.trace)).countP Observation.readRefused

/-- The reads that were taken and have not completed. -/
def outstandingReads (past : List (Observation κ)) : Nat :=
  takenReads past - past.countP (·.completesRead)

/-- The emulator completes no read that is not outstanding. -/
def CompletesOutstanding (history : List (Observation κ)) : Prop :=
  ∀ index (bound : index < history.length), history[index].completesRead →
    0 < outstandingReads (history.take index)

instance : DecidablePred (CompletesOutstanding (κ := κ)) := fun history =>
  inferInstanceAs (Decidable (∀ index (_ : index < history.length), _ → _))

/-- The chunks whose next read is taken, each with the handler that was put in place
last; `reader` is the one at first. -/
def dueCalls : Option κ → List (Observation κ) → List (Option κ × Bytes)
  | _, [] => []
  | reader, observation :: rest =>
      observation.chunk?.toList.map (reader, ·) ++
        dueCalls (observation.operation.reader?.or reader) rest

/-! ## One operation -/

section Shown

variable (handler : Option κ) (signal : κ → Signal κ)

theorem countP_readTaken_shown : (shown handler signal).countP Observation.readTaken = 0 := by
  cases handler <;> rfl

theorem countP_readRefused_shown : (shown handler signal).countP Observation.readRefused = 0 := by
  cases handler <;> rfl

theorem not_asked_shown (call : HostCall κ) (reply : call.Reply) :
    .asked call reply ∉ shown handler signal := by
  cases handler <;> simp [shown]

end Shown

namespace Conduct

variable {socket : Socket κ} {observation : Observation κ}

/-- A read is asked for where a loop starts, and where one goes on after a chunk. -/
theorem counts_reads (conduct : Conduct socket observation) :
    observation.readsTaken + observation.readsRefused + observation.endsStream.toNat =
      observation.startsReading.toNat + observation.completesRead.toNat := by
  cases conduct with
  | connected | ended | received | written =>
      simp only [Observation.readsTaken, Observation.readsRefused, List.countP_cons,
        countP_readTaken_shown, countP_readRefused_shown]
      rfl
  | _ => rfl

/-- A refused read keeps a loop from starting or breaks it off. -/
theorem counts_refusals (conduct : Conduct socket observation)
    (starts : observation.startsReading → observation.result = .ok ()) :
    observation.readsRefused = observation.breaksOff.toNat := by
  cases conduct with
  | connected | ended | received | written =>
      simp only [Observation.breaksOff, Observation.readsRefused, List.countP_cons,
        countP_readRefused_shown]
      rfl
  | onDataRefused handler error => cases starts rfl
  | _ => rfl

theorem reader_after (conduct : Conduct socket observation) :
    observation.after.dataHandler = observation.operation.reader?.or socket.dataHandler := by
  cases conduct <;> rfl

theorem closer_after (conduct : Conduct socket observation) :
    observation.after.closeHandler = observation.operation.closer?.or socket.closeHandler := by
  cases conduct <;> rfl

/-- The chunk of a completion goes to the data handler, if there is one. -/
theorem dataCalls_eq (conduct : Conduct socket observation)
    (reads : observation.chunk?.isSome → socket.dataHandler.isSome) :
    observation.dataCalls.map (fun call => (some call.1, call.2)) =
      observation.chunk?.toList.map (socket.dataHandler, ·) := by
  cases conduct with
  | received data =>
      cases handler : socket.dataHandler with
      | none =>
          rw [handler] at reads
          exact (Bool.false_ne_true (reads rfl)).elim
      | some handler => rfl
  | connected => cases handler : socket.connectHandler <;> rfl
  | ended record => cases handler : socket.closeHandler <;> rfl
  | written handler rest pending => cases handler <;> rfl
  | _ => rfl

/-- A data handler is run after the next read was asked for, and nothing else happens. -/
theorem trace_of_received (conduct : Conduct socket observation) {handler : κ} {data : Bytes}
    (told : .told (.signal (.received handler data)) ∈ observation.trace) :
    observation.trace = [.asked (.socket (.read socket.fd socket.bufferSize)) (.ok ()),
      .told (.signal (.received handler data))] := by
  cases conduct with
  | received bytes =>
      cases reads : socket.dataHandler with
      | none => simp [shown, reads] at told
      | some reader =>
          obtain ⟨rfl, rfl⟩ : handler = reader ∧ data = bytes := by simpa [shown, reads] using told
          rfl
  | _ => simp [shown] at told

/-- The end of the stream is the end of the loop. -/
theorem endsStream_spec (conduct : Conduct socket observation) (ends : observation.endsStream) :
    (∀ call reply, .asked call reply ∉ observation.trace) ∧
      observation.after.connected = false ∧
      observation.signals = socket.closeHandler.toList.map .closed := by
  cases conduct with
  | ended record =>
      refine ⟨fun call reply => ?_, rfl, ?_⟩
      · simp [not_asked_shown]
      · cases handler : socket.closeHandler <;> rfl
  | _ => cases ends

end Conduct

/-! ## Whole lives -/

theorem takenReads_concat (past : List (Observation κ)) (observation : Observation κ) :
    takenReads (past ++ [observation]) = takenReads past + observation.readsTaken := by
  simp [takenReads, Observation.readsTaken]

theorem refusedReads_concat (past : List (Observation κ)) (observation : Observation κ) :
    refusedReads (past ++ [observation]) = refusedReads past + observation.readsRefused := by
  simp [refusedReads, Observation.readsRefused]

theorem countP_concat {α : Type} (counts : α → Bool) (items : List α) (last : α) :
    (items ++ [last]).countP counts = items.countP counts + (counts last).toNat := by
  cases counted : counts last <;> simp [List.countP_append, counted]

/-- Completions never outnumber what was taken, if each of them finds one under way. -/
theorem countP_le_of_taken {history past : List (Observation κ)}
    {completes : Observation κ → Bool} {taken : List (Observation κ) → Nat}
    (grows : ∀ past observation, taken past ≤ taken (past ++ [observation]))
    (each : ∀ past observation, past ++ [observation] <+: history → completes observation →
      past.countP completes < taken past)
    (isPrefix : past <+: history) : past.countP completes ≤ taken past := by
  induction past using List.reverseRecOn with
  | nil => exact Nat.zero_le _
  | append_singleton earlier observation ih =>
      have before := ih ((List.prefix_append earlier [observation]).trans isPrefix)
      refine Nat.le_trans ?_ (grows earlier observation)
      rw [countP_concat]
      cases completed : completes observation with
      | false => exact before
      | true => exact each earlier observation isPrefix completed

namespace Lives

variable {socket : Socket κ} {history : List (Observation κ)}

/-- Every read that was asked for belongs to a loop that was started or went on. -/
theorem counts_reads (lives : Lives socket history) :
    takenReads history + refusedReads history + history.countP (·.endsStream) =
      history.countP (·.startsReading) + history.countP (·.completesRead) := by
  refine lives.preserves (fun past _ =>
    takenReads past + refusedReads past + past.countP (·.endsStream) =
      past.countP (·.startsReading) + past.countP (·.completesRead)) rfl ?_
  intro past socket observation counted conduct
  have last := conduct.counts_reads
  simp only [takenReads_concat, refusedReads_concat, countP_concat]
  omega

/-- If every loop could be started, the refused reads are those that break one off. -/
theorem counts_refusals (lives : Lives socket history)
    (starts : ∀ observation ∈ history, observation.startsReading → observation.result = .ok ()) :
    refusedReads history = history.countP (·.breaksOff) := by
  induction history using List.reverseRecOn with
  | nil => rfl
  | append_singleton past observation ih =>
      obtain ⟨before, conduct⟩ := lives.next (List.prefix_refl _)
      obtain ⟨earlier, last⟩ := List.forall_mem_append.mp starts
      rw [refusedReads_concat, countP_concat, ih before earlier,
        conduct.counts_refusals (last observation (List.mem_singleton_self _))]

/-- Once a loop was started there is a data handler. -/
theorem reader_of_started (lives : Lives socket history)
    (started : 0 < history.countP (·.startsReading)) :
    (latest socket history).dataHandler.isSome := by
  refine lives.preserves (fun past socket =>
    0 < past.countP (·.startsReading) → socket.dataHandler.isSome) nofun ?_ started
  intro past socket observation before conduct started
  rw [conduct.reader_after]
  cases given : observation.operation.reader? with
  | some handler => rfl
  | none =>
      rw [countP_concat, Observation.startsReading, given] at started
      exact before started

/-- The close handler is the one that was put in place last. -/
theorem closer_eq (lives : Lives socket history) :
    (latest socket history).closeHandler =
      (history.filterMap (·.operation.closer?)).getLast?.or socket.closeHandler := by
  refine lives.preserves (fun past later => later.closeHandler =
    (past.filterMap (·.operation.closer?)).getLast?.or socket.closeHandler) rfl ?_
  intro past later observation before conduct
  rw [conduct.closer_after, before, List.filterMap_append]
  cases given : observation.operation.closer? <;> simp [given]

/-- Data handlers are called with exactly the chunks that are due to them, if there is a
handler whenever a chunk arrives. -/
theorem dataCalls_due (lives : Lives socket history)
    (reads : ∀ observation ∈ history, observation.chunk?.isSome →
      observation.before.dataHandler.isSome) :
    (history.flatMap (·.dataCalls)).map (fun call => (some call.1, call.2)) =
      dueCalls socket.dataHandler history := by
  induction history generalizing socket with
  | nil => rfl
  | cons observation rest ih =>
      obtain ⟨conduct, later⟩ := lives
      obtain ⟨first, others⟩ := List.forall_mem_cons.mp reads
      rw [conduct.before_eq] at first
      rw [List.flatMap_cons, List.map_append, conduct.dataCalls_eq first, ih later others,
        conduct.reader_after]
      rfl

end Lives

theorem CompletesOutstanding.next {history past : List (Observation κ)}
    {observation : Observation κ} (completes : CompletesOutstanding history)
    (isPrefix : past ++ [observation] <+: history) (completed : observation.completesRead) :
    0 < outstandingReads past := by
  obtain ⟨later, rfl⟩ := isPrefix
  have found := completes past.length (by simp) (by simpa using completed)
  simpa using found

/-- The completions never outnumber the reads that were taken. -/
theorem CompletesOutstanding.countP_le {history past : List (Observation κ)}
    (completes : CompletesOutstanding history) (isPrefix : past <+: history) :
    past.countP (·.completesRead) ≤ takenReads past := by
  refine countP_le_of_taken (fun earlier observation => ?_) (fun earlier observation => ?_) isPrefix
  · rw [takenReads_concat]
    exact Nat.le_add_right _ _
  · intro before completed
    exact Nat.lt_of_sub_pos (completes.next before completed)

/-- The outstanding reads are those of the loops that were started and have not ended.
Data handlers are called with exactly the chunks whose next read was taken, in order,
each chunk once, after that read, and by the handler that was put in place last. The end
of the stream asks for nothing, disconnects the socket and runs the close handler. -/
theorem read_loops_accounted (environment : HostEnvironment κ σ) (fd : SocketFd)
    (connected : Bool) (config : SessionConfig) (operations : List (Operation κ)) (state : σ)
    (starts : ∀ observation ∈ history environment operations (ofFd fd connected config) state,
      observation.startsReading → observation.result = .ok ())
    (completes : CompletesOutstanding
      (history environment operations (ofFd fd connected config) state)) :
    let history := history environment operations (ofFd fd connected config) state
    (∀ past, past <+: history →
      past.countP (·.completesRead) ≤ takenReads past ∧
      outstandingReads past + past.countP (·.endsStream) + past.countP (·.breaksOff) =
        past.countP (·.startsReading)) ∧
    (history.flatMap (·.dataCalls)).map (fun call => (some call.1, call.2)) =
      dueCalls none history ∧
    (∀ observation ∈ history, ∀ handler data,
      .told (.signal (.received handler data)) ∈ observation.trace →
        observation.trace =
          [.asked (.socket (.read observation.before.fd observation.before.bufferSize)) (.ok ()),
            .told (.signal (.received handler data))]) ∧
    ∀ past observation, past ++ [observation] <+: history → observation.endsStream →
      (∀ call reply, .asked call reply ∉ observation.trace) ∧
      observation.after.connected = false ∧
      observation.signals =
        (past.filterMap (·.operation.closer?)).getLast?.toList.map .closed := by
  intro history
  have lives : Lives (ofFd fd connected config) history := history_lives operations _ state
  have counts : ∀ past, past <+: history →
      past.countP (·.completesRead) ≤ takenReads past ∧
      outstandingReads past + past.countP (·.endsStream) + past.countP (·.breaksOff) =
        past.countP (·.startsReading) := by
    intro past isPrefix
    have bound := completes.countP_le isPrefix
    have reads := (lives.of_prefix isPrefix).counts_reads
    have refusals := (lives.of_prefix isPrefix).counts_refusals
      fun observation member => starts observation (isPrefix.subset member)
    refine ⟨bound, ?_⟩
    simp only [outstandingReads]
    omega
  have reads : ∀ observation ∈ history, observation.chunk?.isSome →
      observation.before.dataHandler.isSome := by
    -- A chunk completes an outstanding read, so a loop was started and has left its handler.
    intro observation member arrived
    obtain ⟨past, isPrefix⟩ := prefix_of_mem member
    have before : past <+: history := (List.prefix_append past _).trans isPrefix
    obtain ⟨_, conduct⟩ := lives.next isPrefix
    have completed : observation.completesRead := by
      cases conduct <;> first | rfl | cases arrived
    have outstanding := completes.next isPrefix completed
    have started : 0 < past.countP (·.startsReading) := by
      have counted := (counts past before).2
      omega
    rw [conduct.before_eq]
    exact (lives.of_prefix before).reader_of_started started
  refine ⟨counts, lives.dataCalls_due reads, ?_, ?_⟩
  · intro observation member handler data told
    obtain ⟨past, isPrefix⟩ := prefix_of_mem member
    obtain ⟨_, conduct⟩ := lives.next isPrefix
    rw [conduct.before_eq]
    exact conduct.trace_of_received told
  · intro past observation isPrefix ends
    obtain ⟨before, conduct⟩ := lives.next isPrefix
    have closer := before.closer_eq
    rw [show (ofFd fd connected config : Socket κ).closeHandler = none from rfl,
      Option.or_none] at closer
    rw [← closer]
    exact conduct.endsStream_spec ends

/-- Two loops are started; a chunk each, then a read is refused, and the stream ends. -/
def readingOperations : List (Operation Nat) :=
  [.onClose 7, .onData 1, .deliverRead (some [10]), .onData 2, .deliverRead (some [20]),
    .deliverRead (some [30]), .deliverRead none]

def readingHistory : List (Observation Nat) :=
  history (Emulator.environment Nat) readingOperations (ofFd ⟨1⟩ true {})
    { failures := [⟨"read", 4, "refused"⟩] }

theorem read_loops_accounted_of_two :
    (∀ observation ∈ readingHistory, observation.startsReading → observation.result = .ok ()) ∧
    CompletesOutstanding readingHistory ∧
    outstandingReads (readingHistory.take 5) = 2 ∧ outstandingReads readingHistory = 0 ∧
    readingHistory.flatMap (·.dataCalls) = [(1, [10]), (2, [20])] := by
  have starts : ∀ observation ∈ readingHistory, observation.startsReading →
      observation.result = .ok () := by decide +kernel
  have completes : CompletesOutstanding readingHistory := by decide +kernel
  obtain ⟨counts, calls, _⟩ := read_loops_accounted (Emulator.environment Nat) ⟨1⟩ true {}
    readingOperations { failures := [⟨"read", 4, "refused"⟩] } starts completes
  refine ⟨starts, completes, ?_, ?_, ?_⟩
  · have both := (counts _ (List.take_prefix 5 readingHistory)).2
    have started : (readingHistory.take 5).countP (·.startsReading) = 2 := by decide +kernel
    have ended : (readingHistory.take 5).countP (·.endsStream) = 0 := by decide +kernel
    have broken : (readingHistory.take 5).countP (·.breaksOff) = 0 := by decide +kernel
    omega
  · have both := (counts _ (List.prefix_refl readingHistory)).2
    have started : readingHistory.countP (·.startsReading) = 2 := by decide +kernel
    have ended : readingHistory.countP (·.endsStream) = 1 := by decide +kernel
    have broken : readingHistory.countP (·.breaksOff) = 1 := by decide +kernel
    omega
  · have due : dueCalls none readingHistory = [(some 1, [10]), (some 2, [20])] := by
      decide +kernel
    have injective : Function.Injective fun call : Nat × Bytes => (some call.1, call.2) := by
      intro first second same
      simpa [Prod.ext_iff] using same
    exact List.map_injective_iff.mpr injective (calls.trans due)

end EmuScript.Socket
