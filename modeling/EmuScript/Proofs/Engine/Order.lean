import EmuScript.Emulator.NativeTable
import EmuScript.Proofs.Engine.Delivery
import EmuScript.Proofs.Engine.Upkeep

/-!
# The order of queued calls

The calls that the completions of one socket or server have caused are queued in
the order of these completions. They also begin in this order unless a completion
is applied while calls of an earlier batch still wait: its call begins before
those. A function of the script brings this about when it calls a method, or makes
the emulator complete a request, in the middle of its batch.
-/

set_option autoImplicit false

namespace EmuScript.Engine

variable {φ : Type}

def Queued.For (endpoint : Endpoint) (call : Queued φ) : Prop :=
  call.cause.map Completion.endpoint = some endpoint

instance (endpoint : Endpoint) (call : Queued φ) : Decidable (call.For endpoint) :=
  inferInstanceAs (Decidable (_ = _))

def callsFor (endpoint : Endpoint) (calls : List (Queued φ)) : List (Queued φ) :=
  calls.filter fun call => call.For endpoint

@[simp] theorem callsFor_append (endpoint : Endpoint) (first second : List (Queued φ)) :
    callsFor endpoint (first ++ second) = callsFor endpoint first ++ callsFor endpoint second :=
  List.filter_append _ _

@[simp] theorem callsFor_nil (endpoint : Endpoint) :
    callsFor endpoint ([] : List (Queued φ)) = [] :=
  rfl

theorem callsFor_own {endpoint : Endpoint} {call : Queued φ} (own : call.For endpoint)
    (rest : List (Queued φ)) :
    callsFor endpoint (call :: rest) = call :: callsFor endpoint rest :=
  List.filter_cons_of_pos (decide_eq_true own)

theorem callsFor_other {endpoint : Endpoint} {call : Queued φ} (other : ¬ call.For endpoint)
    (rest : List (Queued φ)) : callsFor endpoint (call :: rest) = callsFor endpoint rest :=
  List.filter_cons_of_neg (by simpa using other)

/-- An element put into the middle of a list is not moved to its end unless it is there. -/
theorem append_cons_eq_concat_iff {α : Type} {before after whole : List α} {item : α}
    (fresh : item ∉ after) :
    before ++ item :: after = whole ++ [item] ↔ before ++ after = whole ∧ after = [] := by
  cases after using List.reverseRecOn with
  | nil => simp
  | append_singleton rest last =>
      constructor
      · intro same
        have split : (before ++ item :: rest) ++ [last] = whole ++ [item] := by simpa using same
        obtain ⟨_, ends⟩ := List.append_inj' split rfl
        exact (fresh (by simp [List.head_eq_of_cons_eq ends])).elim
      · rintro ⟨_, empty⟩
        simp at empty

namespace Ledger

/-- No call is queued for the socket or server while an earlier call for it waits in
its batch. -/
def Undisturbed (endpoint : Endpoint) : List (Event φ) → Prop :=
  Throughout fun history event => ∀ invocation, event = .deferred invocation →
    ((ofEvents history).newcomer invocation).For endpoint →
      callsFor endpoint (ofEvents history).waiting = []

theorem place_lt (events : List (Event φ)) :
    ∀ call ∈ (ofEvents events).queued, call.place < (ofEvents events).queued.length := by
  induction events using List.reverseRecOn with
  | nil => simp [ofEvents]
  | append_singleton history event ih =>
      rw [ofEvents_append]
      cases event with
      | deferred invocation =>
          intro call member
          simp only [List.foldl_cons, List.foldl_nil, record, List.length_append,
            List.length_singleton] at member ⊢
          rcases List.mem_append.mp member with before | new
          · exact Nat.lt_succ_of_lt (ih call before)
          · cases List.mem_singleton.mp new
            exact Nat.lt_succ_self _
      | started invocation =>
          cases next : (ofEvents history).ready ++ (ofEvents history).waiting <;>
            simpa [record, next] using ih
      | _ => exact ih

theorem newcomer_fresh (events : List (Event φ)) (invocation : Invocation φ) :
    (ofEvents events).newcomer invocation ∉ (ofEvents events).waiting := by
  intro member
  have listed : (ofEvents events).newcomer invocation ∈ (ofEvents events).order := by
    simp [order, member]
  exact Nat.lt_irrefl _ (place_lt events _ ((order_perm events).mem_iff.mp listed))

/-- The calls for one socket or server are in the order in which they were queued if
and only if none of them was queued before the rest of a batch. -/
theorem order_eq_queued_iff (endpoint : Endpoint) (events : List (Event φ)) :
    callsFor endpoint (ofEvents events).order = callsFor endpoint (ofEvents events).queued ↔
      Undisturbed endpoint events := by
  induction events using List.reverseRecOn with
  | nil => simp [ofEvents, order, Undisturbed, throughout_nil]
  | append_singleton history event ih =>
      rw [Undisturbed, throughout_concat, ← Undisturbed, ← ih, ofEvents_append]
      cases event with
      | started invocation =>
          have neutral : Event.Neutral (.started invocation) := trivial
          simp [record_started_order, (record_neutral _ neutral).2]
      | deferred invocation =>
          -- The call goes to the end of `queued`, but before what waits in `order`.
          have queued : ((ofEvents history).record (.deferred invocation)).queued =
              (ofEvents history).queued ++ [(ofEvents history).newcomer invocation] := rfl
          have begins : (ofEvents history).order =
              (ofEvents history).started ++ (ofEvents history).ready ++
                (ofEvents history).waiting :=
            (List.append_assoc _ _ _).symm
          rw [List.foldl_cons, List.foldl_nil, record_deferred_order, queued, begins,
            callsFor_append, callsFor_append, callsFor_append]
          by_cases own : ((ofEvents history).newcomer invocation).For endpoint
          · have fresh : (ofEvents history).newcomer invocation ∉
                callsFor endpoint (ofEvents history).waiting := fun member =>
              newcomer_fresh history invocation (List.mem_filter.mp member).1
            rw [callsFor_own own, callsFor_own own, callsFor_nil,
              append_cons_eq_concat_iff fresh]
            simp [own]
          · rw [callsFor_other own, callsFor_other own, callsFor_nil, List.append_nil]
            simp [own]
      | _ => simp [record, order]

theorem applied_eq (events : List (Event φ)) :
    (ofEvents events).applied = events.filterMap Event.applied? := by
  induction events using List.reverseRecOn with
  | nil => rfl
  | append_singleton history event ih =>
      rw [ofEvents_append, List.filterMap_append, ← ih]
      cases event with
      | started invocation =>
          cases next : (ofEvents history).ready ++ (ofEvents history).waiting <;>
            simp [record, next, List.filterMap_cons, Event.applied?]
      | _ => simp [record, List.filterMap_cons, Event.applied?]

/-- A call is dated by the completions of which the last one caused it. -/
def Dated (applied : List Completion) (call : Queued φ) : Prop :=
  call.age ≤ applied.length ∧ call.cause = (applied.take call.age).getLast?

theorem Dated.append {applied : List Completion} {call : Queued φ} (dated : Dated applied call)
    (more : List Completion) : Dated (applied ++ more) call := by
  refine ⟨Nat.le_trans dated.1 (by simp), ?_⟩
  rw [List.take_append_of_le_length dated.1]
  exact dated.2

/-- Calls are queued in the order of the completions that cause them. -/
theorem queued_dated (events : List (Event φ)) :
    (∀ call ∈ (ofEvents events).queued, Dated (ofEvents events).applied call) ∧
      (ofEvents events).queued.Pairwise fun earlier later => earlier.age ≤ later.age := by
  induction events using List.reverseRecOn with
  | nil => simp [ofEvents]
  | append_singleton history event ih =>
      obtain ⟨dated, sorted⟩ := ih
      rw [ofEvents_append]
      cases event with
      | applied completion => exact ⟨fun call member => (dated call member).append _, sorted⟩
      | deferred invocation =>
          have newest : Dated (ofEvents history).applied ((ofEvents history).newcomer invocation) :=
            ⟨Nat.le_refl _, by simp [newcomer]⟩
          simp only [List.foldl_cons, List.foldl_nil, record, List.forall_mem_append,
            List.forall_mem_singleton, List.pairwise_append]
          refine ⟨⟨dated, newest⟩, sorted, List.pairwise_singleton _ _, fun call member => ?_⟩
          exact (dated call member).1
      | started invocation =>
          cases next : (ofEvents history).ready ++ (ofEvents history).waiting <;>
            simpa [record, next] using ⟨dated, sorted⟩
      | _ => exact ⟨dated, sorted⟩

/-- A ledger gives account of a run: its entries are what was observed and what the
session has in hand, every call is there once, has the arguments of the completion
that caused it, and was queued in the order of these completions. -/
structure Mirrors (ledger : Ledger φ) (run : Machine.Observed φ) : Prop where
  applied : ledger.applied = run.2.filterMap Event.applied?
  queued : ledger.queued.map (·.invocation) = run.2.filterMap Event.deferred?
  started : ledger.started.map (·.invocation) = run.2.filterMap Event.started?
  ready : ledger.ready.map (·.invocation) = run.1.ready
  waiting : ledger.waiting.map (·.invocation) = run.1.waiting
  complete : ledger.order.Perm ledger.queued
  dated : ∀ call ∈ ledger.queued, Dated ledger.applied call
  sorted : ledger.queued.Pairwise fun earlier later => earlier.age ≤ later.age
  brought : ∀ call ∈ ledger.queued,
    some call.invocation.arguments = call.cause.map Completion.arguments

end Ledger

namespace Machine

theorem ledger_mirrors (id : Nat) (config : SessionConfig) (moves : List (Move φ)) :
    let run := (start id config : Machine φ).steps moves
    (Ledger.ofEvents run.2).Mirrors run := by
  intro run
  have accounts : Accounts run.2 .idle run.1 :=
    accounts_invariant.run (start_accounts id config) moves
  have upheld : Upheld run.2 .idle run.1 := upheld_invariant.run (start_upheld id config) moves
  obtain ⟨dated, sorted⟩ := Ledger.queued_dated run.2
  exact
    { applied := Ledger.applied_eq run.2
      queued := Ledger.queued_invocations run.2
      started := accounts.started
      ready := accounts.ready
      waiting := accounts.waiting
      complete := Ledger.order_perm run.2
      dated
      sorted
      brought := upheld.queued }

/-- The queued calls for a socket or server begin in the order of the completions that
cause them as long as none is queued before the rest of an earlier batch. Once all
methods and completion functions have returned, they have begun in this order only
then. -/
theorem calls_in_order_iff (id : Nat) (config : SessionConfig) (moves : List (Move φ))
    (endpoint : Endpoint) :
    let run := (start id config : Machine φ).steps moves
    let ledger := Ledger.ofEvents run.2
    ledger.Mirrors run ∧
    (Ledger.Undisturbed endpoint run.2 →
      callsFor endpoint ledger.started <+: callsFor endpoint ledger.queued) ∧
    (run.1.AtRest → (callsFor endpoint ledger.started = callsFor endpoint ledger.queued ↔
      Ledger.Undisturbed endpoint run.2)) := by
  intro run ledger
  have mirrors : ledger.Mirrors run := ledger_mirrors id config moves
  have ordered := Ledger.order_eq_queued_iff endpoint run.2
  refine ⟨mirrors, fun undisturbed => ?_, fun rest => ?_⟩
  · have whole := ordered.mpr undisturbed
    rw [Ledger.order, callsFor_append] at whole
    exact ⟨_, whole⟩
  · have sound : Sound .idle run.1 := sound_invariant.run (start_sound id config) moves
    obtain ⟨_, settled, _⟩ := sound.2 (sound.free_of_rest rest)
    have ready : ledger.ready = [] := List.map_eq_nil_iff.mp (mirrors.ready.trans settled)
    have waiting : ledger.waiting = [] :=
      List.map_eq_nil_iff.mp (mirrors.waiting.trans rest.waiting)
    have begun : ledger.order = ledger.started := by simp [Ledger.order, ready, waiting]
    rw [← begun]
    exact ordered

/-- Two writes complete while a method runs; the function given with the first of them
writes once more, and this write completes at once. -/
def overtakingMoves : List (Move Nat) :=
  [.call .createSocket, .answer (NativeTable.replies {}),
    .call (.write 1 [] (some 0)), .answer (NativeTable.replies {}),
    .call (.write 1 [] (some 1)), .answer (NativeTable.replies {}),
    .call (.service .pause),
    .complete ⟨0, .write ⟨1⟩⟩ (), .complete ⟨1, .write ⟨1⟩⟩ (),
    .answer (NativeTable.replies {}),
    .call (.write 1 [] (some 2)), .complete ⟨2, .write ⟨1⟩⟩ (), .answer (NativeTable.replies {}),
    .finish none, .finish none, .finish none]

/-- The writes complete in the order in which they were asked for, but the function given
with the last one is called before the one given with the second. -/
theorem call_overtakes_batch :
    let run := (start 0 {} : Machine Nat).steps overtakingMoves
    run.1.AtRest ∧
    run.2.filterMap Event.applied? = [.written ⟨1⟩, .written ⟨1⟩, .written ⟨1⟩] ∧
    (run.2.filterMap Event.deferred?).map (·.callback) = [0, 1, 2] ∧
    (run.2.filterMap Event.started?).map (·.callback) = [0, 2, 1] := by
  intro run
  have finished : run.1.frames.isEmpty := by decide +kernel
  have rest : run.1.AtRest := by simp [AtRest, List.isEmpty_iff.mp finished]
  exact ⟨rest, by decide +kernel, by decide +kernel, by decide +kernel⟩

end Machine

end EmuScript.Engine
