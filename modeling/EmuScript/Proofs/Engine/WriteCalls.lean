import EmuScript.Emulator.NativeTable
import EmuScript.Proofs.Engine.Writes
import Mathlib.Data.List.Infix

/-!
# Calls for writes

Every function that was given with a write which the emulator has taken is called once
if the write has completed, and not at all otherwise. A function that was given with a
write which the emulator has rejected is not called for it.
-/

set_option autoImplicit false

namespace EmuScript.Engine

variable {φ : Type}

/-- The calls that have begun because a request has completed. -/
def callsMade (history : List (Event φ)) (ticket : Ticket) : List (Invocation φ) :=
  callsOf (completedTickets history) (Ledger.ofEvents history).started ticket

/-- The functions that were given with the writes of a log are called as the ledger says:
each one for its own write, and once if this write has completed. -/
structure WriteLog.CalledBack (log : WriteLog φ) (given : List φ) (run : Machine.Observed φ) :
    Prop where
  ledger : (Ledger.ofEvents run.2).Mirrors run
  /-- Every write that the emulator was asked for is in the log. -/
  listed : (log.all.map (·.ticket)).Perm ((handedTickets run.2).filter (·.writes?.isSome))
  distinct : (handedTickets run.2).Nodup
  once : ∀ write ∈ log.accepted, callsMade run.2 write.ticket <+: write.calls
  pending : ∀ write ∈ log.all, write.ticket ∉ completedTickets run.2 →
    callsMade run.2 write.ticket = []
  unanswered : ∀ write ∈ log.asked, callsMade run.2 write.ticket = []
  rejected : ∀ write ∈ log.rejected, write.ticket ∉ completedTickets run.2
  done : run.1.AtRest → log.asked = none ∧ ∀ write ∈ log.accepted,
    write.ticket ∈ completedTickets run.2 → callsMade run.2 write.ticket = write.calls
  /-- The completion that has caused a call is one of the request it is counted for. -/
  caused : ∀ call ∈ (Ledger.ofEvents run.2).started, ∀ ticket,
    call.trigger (completedTickets run.2) = some ticket →
      ∃ completion, call.cause = some completion ∧ ticket.Yields completion
  /-- A function is called for no other write than its own. -/
  origin : ∀ call ∈ (Ledger.ofEvents run.2).started,
    (∃ write ∈ log.accepted, call.trigger (completedTickets run.2) = some write.ticket ∧
      write.callback = some call.invocation.callback) ∨
    call.invocation.callback ∈ given ∧
      ∀ ticket, call.trigger (completedTickets run.2) = some ticket → ticket.writes? = none
  /-- A function is called after the completion that causes the call was sent. -/
  sentFirst : ∀ past, past <+: run.2 → ∀ call ∈ (Ledger.ofEvents past).started,
    ∃ ticket ∈ completedTickets past, call.trigger (completedTickets run.2) = some ticket

theorem Ledger.mem_queued {history : List (Event φ)} {call : Queued φ}
    (started : call ∈ (ofEvents history).started) : call ∈ (ofEvents history).queued :=
  (order_perm history).subset (List.mem_append_left _ started)

/-- A call that has begun was caused by a completion which was sent before. -/
theorem Ledger.Mirrors.sent_of_started {run : Machine.Observed φ}
    (mirrors : (Ledger.ofEvents run.2).Mirrors run) (sentFirst : SentFirst run.2)
    (genuine : ∀ event ∈ run.2, event.Genuine) {past : List (Event φ)} (before : past <+: run.2)
    {call : Queued φ} (started : call ∈ (ofEvents past).started) :
    ∃ ticket ∈ completedTickets past, call.trigger (completedTickets run.2) = some ticket := by
  have queued := mem_queued started
  have dated : call.age ≤ (completedTickets past).length := by
    have applied := ((queued_dated past).1 call queued).1
    rw [applied_eq] at applied
    have sent := (sentFirst past before).length_le
    have yields := completedTickets_yield fun event member => genuine event (before.subset member)
    rw [yields.length_eq]
    omega
  have member := (queued_grows before).subset queued
  -- The call has arguments, which are those of the completion that caused it.
  have positive : call.age ≠ 0 := by
    intro first
    have cause := (mirrors.dated call member).2
    rw [first, List.take_zero, List.getLast?_nil] at cause
    simpa [cause] using mirrors.brought call member
  rw [trigger_of_earlier (completedTickets_grow before) dated]
  have some : ((completedTickets past).take call.age).getLast?.isSome := by
    rw [List.getLast?_isSome, ← List.length_pos_iff, List.length_take]
    omega
  obtain ⟨ticket, caused⟩ := Option.isSome_iff_exists.mp some
  exact ⟨ticket, mem_of_trigger caused, caused⟩

theorem Machine.Accounts.trigger_yields {history : List (Event φ)} {activity : Activity φ}
    {machine : Machine φ} (accounts : Accounts history activity machine)
    (genuine : ∀ event ∈ history, event.Genuine) {call : Queued φ}
    (dated : Ledger.Dated (history.filterMap Event.applied?) call) {ticket : Ticket}
    (caused : call.trigger (completedTickets history) = some ticket) :
    ∃ completion, call.cause = some completion ∧ ticket.Yields completion := by
  have yields := completedTickets_yield genuine
  rw [accounts.sent] at yields
  have taken := List.forall₂_take call.age yields
  rw [List.take_append_of_le_length dated.1] at taken
  have last := List.rel_reverse taken
  rw [Queued.trigger, List.getLast?_eq_head?_reverse, List.head?_eq_some_iff] at caused
  obtain ⟨earlier, first⟩ := caused
  rw [first] at last
  rw [dated.2, List.getLast?_eq_head?_reverse]
  obtain ⟨completion, others, own, -, listed⟩ := List.forall₂_cons_left_iff.mp last
  exact ⟨completion, by rw [listed, List.head?_cons], own⟩

namespace WriteLog.Agrees

variable {log : WriteLog φ} {given : φ → Prop} {history : List (Event φ)}

theorem started_unserved (fits : log.Fits given [] history) {ticket : Ticket}
    (unserved : ticket ∉ servedTickets history) : callsMade history ticket = [] := by
  have queued := fits.callsOf_unserved unserved
  have ordered := callsOf_perm (completedTickets history) (Ledger.order_perm history) ticket
  rw [queued, Ledger.order, callsOf_append] at ordered
  exact (List.append_eq_nil_iff.mp ordered.eq_nil).1

/-- The calls that have begun for a write are among those that are to be made for it. -/
theorem started_within (fits : log.Fits given [] history) {write : WriteRequest φ}
    (accepted : write ∈ log.accepted) : callsMade history write.ticket <+: write.calls := by
  by_cases served : write.ticket ∈ servedTickets history
  · have calls := fits.calls_settled accepted
    rw [if_pos served] at calls
    have ordered := callsOf_perm (completedTickets history) (Ledger.order_perm history) write.ticket
    rw [calls, Ledger.order, callsOf_append] at ordered
    exact ⟨_, write.eq_calls_of_perm ordered⟩
  · rw [fits.started_unserved served]
    exact List.nil_prefix

theorem rejected_incomplete (fits : log.Fits given [] history)
    (distinct : (handedTickets history).Nodup) {write : WriteRequest φ}
    (rejected : write ∈ log.rejected) : write.ticket ∉ completedTickets history := by
  intro completed
  have member : write ∈ log.all := by simp [all, rejected]
  obtain ⟨-, fd, writes⟩ := fits.writes member
  have taken := (fits.inOrder fd).subset (mem_writesOn.mpr ⟨completed, writes⟩)
  have apart : ((log.rejected ++ (log.accepted ++ log.asked.toList)).map (·.ticket)).Nodup := by
    refine (List.Perm.map _ ?_).nodup_iff.mp (fits.distinct distinct)
    rw [all, ← List.append_assoc]
    exact List.perm_append_comm.append_right _
  rw [List.map_append] at apart
  exact (List.nodup_append.mp apart).2.2 _ (List.mem_map_of_mem rejected) _
    (mem_writesOn.mp taken).1 rfl

end WriteLog.Agrees

namespace Machine

theorem Accounts.served_of_rest {history : List (Event φ)} {machine : Machine φ}
    (accounts : Accounts history .idle machine) (genuine : ∀ event ∈ history, event.Genuine)
    (rest : machine.AtRest) : servedTickets history = completedTickets history := by
  obtain ⟨queue, -, -⟩ := accounts.sound.2 (accounts.sound.free_of_rest rest)
  have sent := (completedTickets_yield genuine).length_eq
  rw [accounts.sent, queue, List.append_nil] at sent
  rw [servedTickets, ← sent, List.take_length]

/-- Nothing waits to be called. -/
theorem Accounts.started_of_rest {history : List (Event φ)} {machine : Machine φ}
    (accounts : Accounts history .idle machine) (rest : machine.AtRest) :
    (Ledger.ofEvents history).started.Perm (Ledger.ofEvents history).queued := by
  obtain ⟨-, settled, -⟩ := accounts.sound.2 (accounts.sound.free_of_rest rest)
  have ready : (Ledger.ofEvents history).ready = [] :=
    List.map_eq_nil_iff.mp (accounts.ready.trans settled)
  have waiting : (Ledger.ofEvents history).waiting = [] :=
    List.map_eq_nil_iff.mp (accounts.waiting.trans rest.waiting)
  simpa [Ledger.order, ready, waiting] using Ledger.order_perm history

/-- If no descriptor is given out twice, and the emulator completes the writes that it
takes on each socket in the order in which it was asked for them, and none that it
rejects, then each function given with a write that it takes is called once if the write
has completed, and not at all otherwise or before; and no function is called for a write
that it rejects. -/
theorem write_callbacks_run_once (id : Nat) (config : SessionConfig) (moves : List (Move φ))
    (distinct : (openings ((start id config : Machine φ).steps moves).2).Nodup)
    (inOrder : WriteLog.AlwaysInOrder id config moves) :
    (WriteLog.ofMoves id config moves).CalledBack (moves.filterMap Move.given?)
      ((start id config : Machine φ).steps moves) := by
  have new : ∀ move ∈ moves, ∀ callback, move.given? = some callback →
      callback ∈ moves.filterMap Move.given? :=
    fun move member callback given => List.mem_filterMap.mpr ⟨move, member, given⟩
  have tracks := run_tracks id config new inOrder distinct
  have mirrors := ledger_mirrors (φ := φ) id config moves
  obtain ⟨-, sentFirst⟩ := sentFirst_invariant.run ⟨start_accounts id config, start_sentFirst⟩ moves
  obtain ⟨due, fits, quiet⟩ := tracks.current
  cases quiet
  have accounts := tracks.known.accounts
  have genuine := tracks.known.genuine
  have unique := tracks.known.ticketed.handed_nodup
  exact
    { ledger := mirrors
      listed := fits.listed
      distinct := unique
      once := fun write accepted => fits.started_within accepted
      pending := fun write _ pending =>
        fits.started_unserved fun served => pending (fits.progress.subset served)
      unanswered := fun write asked => fits.started_unserved (fits.asked_unserved unique asked)
      rejected := fun write rejected => fits.rejected_incomplete unique rejected
      done := by
        intro rest
        refine ⟨tracks.vacant fun frame member => ?_, fun write accepted completed => ?_⟩
        · rw [rest frame member]
          rfl
        · have calls := fits.calls_settled accepted
          rw [accounts.served_of_rest genuine rest, if_pos completed] at calls
          refine write.eq_calls_of_perm ?_
          rw [← calls]
          exact callsOf_perm _ (accounts.started_of_rest rest) _
      caused := fun call started ticket caused => by
        have dated := mirrors.dated call (Ledger.mem_queued started)
        rw [mirrors.applied] at dated
        exact accounts.trigger_yields genuine dated caused
      origin := fun call started => fits.origin call (Ledger.mem_queued started)
      sentFirst := fun past before call started =>
        mirrors.sent_of_started sentFirst genuine before started }

/-- A write completes before the emulator has returned from it. The function given with it
writes four times: the emulator rejects the first of these writes, completes the next two,
of which only the second has a function, and leaves the last one under way. -/
def mixedMoves : List (Move Nat) :=
  [.call .createSocket, .answer (NativeTable.replies {}),
    .call (.write 1 [] (some 0)), .complete ⟨0, .write ⟨1⟩⟩ (), .answer (NativeTable.replies {}),
    .call (.write 1 [] (some 1)), .answer fun _ => .error .undefined,
    .call (.write 1 [] none), .answer (NativeTable.replies {}),
    .call (.write 1 [] (some 2)), .answer (NativeTable.replies {}),
    .call (.write 1 [] (some 3)), .answer (NativeTable.replies {}),
    .finish none,
    .complete ⟨2, .write ⟨1⟩⟩ (), .complete ⟨3, .write ⟨1⟩⟩ (), .finish none]

/-- The functions given with the first and the fourth write are called. -/
theorem write_callbacks_run_once_of_mixed :
    let run := (start 0 {} : Machine Nat).steps mixedMoves
    (openings run.2).Nodup ∧ WriteLog.AlwaysInOrder 0 {} mixedMoves ∧
    (WriteLog.ofMoves 0 {} mixedMoves).CalledBack [] run ∧ run.1.AtRest ∧
    (WriteLog.ofMoves 0 {} mixedMoves).accepted.map (·.callback) =
      [some 0, none, some 2, some 3] ∧
    (WriteLog.ofMoves 0 {} mixedMoves).rejected.map (·.callback) = [some 1] ∧
    (run.2.filterMap Event.started?).map (·.callback) = [0, 2] := by
  intro run
  have distinct : (openings run.2).Nodup := by decide +kernel
  have inOrder : WriteLog.AlwaysInOrder 0 {} mixedMoves := by
    have always : ∀ past ∈ mixedMoves.inits, (WriteLog.ofMoves 0 {} past).InOrder
        (completedTickets ((start 0 {} : Machine Nat).steps past).2) := by decide +kernel
    exact fun past before => always past ((List.mem_inits _ _).mpr before)
  have finished : run.1.frames.isEmpty := by decide +kernel
  have rest : run.1.AtRest := by simp [AtRest, List.isEmpty_iff.mp finished]
  exact ⟨distinct, inOrder, write_callbacks_run_once 0 {} mixedMoves distinct inOrder, rest,
    by decide +kernel, by decide +kernel, by decide +kernel⟩

end Machine

end EmuScript.Engine
