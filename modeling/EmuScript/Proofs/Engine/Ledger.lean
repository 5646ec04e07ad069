import EmuScript.Proofs.Engine.Hold
import Mathlib.Data.List.Induction

/-!
# The ledger of queued calls

A ledger is drawn up from what was observed of a session. It gives every queued
call of a function of the script its place, names the completion that was being
applied when the call was queued, and keeps the calls that have begun, in their
order, apart from those that have not. The entries of a session's ledger are the
calls that the session has in hand.
-/

set_option autoImplicit false

namespace EmuScript.Engine

variable {φ : Type}

/-- What holds of every item of a list together with those before it. -/
def Throughout {α : Type} (holds : List α → α → Prop) (items : List α) : Prop :=
  ∀ history item later, items = history ++ item :: later → holds history item

theorem throughout_nil {α : Type} (holds : List α → α → Prop) : Throughout holds [] := by
  intro history item later split
  simp at split

theorem throughout_concat {α : Type} (holds : List α → α → Prop) (items : List α) (last : α) :
    Throughout holds (items ++ [last]) ↔ Throughout holds items ∧ holds items last := by
  constructor
  · intro throughout
    refine ⟨fun history item later split => ?_, throughout items last [] rfl⟩
    exact throughout history item (later ++ [last]) (by simp [split])
  · rintro ⟨before, holdsLast⟩ history item later split
    cases later using List.reverseRecOn with
    | nil =>
        obtain ⟨rfl, same⟩ := List.append_inj' split rfl
        exact List.head_eq_of_cons_eq same ▸ holdsLast
    | append_singleton rest other =>
        rw [← List.cons_append, ← List.append_assoc] at split
        obtain ⟨earlier, _⟩ := List.append_inj' split rfl
        exact before history item rest earlier

namespace Event

def sent? : Event φ → Option Completion
  | .sent _ completion => some completion
  | _ => none

def applied? : Event φ → Option Completion
  | .applied completion => some completion
  | _ => none

def deferred? : Event φ → Option (Invocation φ)
  | .deferred invocation => some invocation
  | _ => none

def started? : Event φ → Option (Invocation φ)
  | .started invocation => some invocation
  | _ => none

/-- Neither a completion nor a queued call takes part in the event. -/
def Quiet : Event φ → Prop
  | .log _ | .consoleLog _ | .opened _ | .entered _ | .asked _ _ | .returned _ | .ended => True
  | .sent _ _ | .applied _ | .deferred _ | .started _ => False

end Event

/-- A queued call of a function of the script. -/
structure Queued (φ : Type) where
  /-- The number of calls that were queued before. -/
  place : Nat
  /-- The number of completions that were applied before, with the one that caused the
  call. -/
  age : Nat
  /-- The completion that was applied last. -/
  cause : Option Completion
  invocation : Invocation φ

structure Ledger (φ : Type) where
  applied : List Completion := []
  /-- All calls that were ever queued, oldest first. -/
  queued : List (Queued φ) := []
  /-- The calls that have begun, oldest first. -/
  started : List (Queued φ) := []
  /-- The calls that wait for the bridge to be free. -/
  ready : List (Queued φ) := []
  /-- The calls that wait for the one before them in their batch to end, those of
  the innermost batch first. -/
  waiting : List (Queued φ) := []

namespace Ledger

def newcomer (ledger : Ledger φ) (invocation : Invocation φ) : Queued φ where
  place := ledger.queued.length
  age := ledger.applied.length
  cause := ledger.applied.getLast?
  invocation

/-- One more event. A call that begins is the first of those that are ready, and
the others become its batch; or else it is the next one of a batch. -/
def record (ledger : Ledger φ) : Event φ → Ledger φ
  | .applied completion => { ledger with applied := ledger.applied ++ [completion] }
  | .deferred invocation =>
      let call := ledger.newcomer invocation
      { ledger with queued := ledger.queued ++ [call], ready := ledger.ready ++ [call] }
  | .started _ =>
      match ledger.ready ++ ledger.waiting with
      | [] => ledger
      | first :: rest =>
          { ledger with started := ledger.started ++ [first], ready := [], waiting := rest }
  | _ => ledger

def ofEvents (events : List (Event φ)) : Ledger φ :=
  events.foldl record {}

/-- The calls in the order in which they begin, if no more calls are queued. -/
def order (ledger : Ledger φ) : List (Queued φ) :=
  ledger.started ++ (ledger.ready ++ ledger.waiting)

theorem ofEvents_append (history events : List (Event φ)) :
    ofEvents (history ++ events) = events.foldl record (ofEvents history) :=
  List.foldl_append

theorem record_quiet (ledger : Ledger φ) {event : Event φ} (quiet : event.Quiet) :
    ledger.record event = ledger := by
  cases event <;> first | rfl | exact quiet.elim

theorem foldl_record_quiet (ledger : Ledger φ) {events : List (Event φ)}
    (quiet : ∀ event ∈ events, event.Quiet) : events.foldl record ledger = ledger := by
  induction events with
  | nil => rfl
  | cons event rest ih =>
      rw [List.forall_mem_cons] at quiet
      rw [List.foldl_cons, ledger.record_quiet quiet.1, ih quiet.2]

theorem ofEvents_quiet (history : List (Event φ)) {events : List (Event φ)}
    (quiet : ∀ event ∈ events, event.Quiet) : ofEvents (history ++ events) = ofEvents history := by
  rw [ofEvents_append, foldl_record_quiet _ quiet]

theorem record_started_order (ledger : Ledger φ) (invocation : Invocation φ) :
    (ledger.record (.started invocation)).order = ledger.order := by
  cases next : ledger.ready ++ ledger.waiting with
  | nil => simp [record, next]
  | cons first rest => simp [record, order, next]

/-- A call that is queued comes in front of the rest of every batch. -/
theorem record_deferred_order (ledger : Ledger φ) (invocation : Invocation φ) :
    (ledger.record (.deferred invocation)).order =
      ledger.started ++ ledger.ready ++ ledger.newcomer invocation :: ledger.waiting := by
  simp [record, order]

theorem record_perm {ledger : Ledger φ} (listed : ledger.order.Perm ledger.queued)
    (event : Event φ) : (ledger.record event).order.Perm (ledger.record event).queued := by
  cases event with
  | started invocation =>
      rw [record_started_order]
      cases next : ledger.ready ++ ledger.waiting <;> simpa [record, next] using listed
  | deferred invocation =>
      rw [record_deferred_order]
      refine List.perm_middle.trans ?_
      simp only [record, List.append_assoc]
      exact (List.Perm.cons _ listed).trans (List.perm_append_singleton _ _).symm
  | _ => exact listed

/-- Every call has its one place in the order. -/
theorem order_perm (events : List (Event φ)) :
    (ofEvents events).order.Perm (ofEvents events).queued := by
  induction events using List.reverseRecOn with
  | nil => exact .nil
  | append_singleton history event ih =>
      rw [ofEvents_append]
      exact record_perm ih event

theorem queued_invocations (events : List (Event φ)) :
    (ofEvents events).queued.map (·.invocation) = events.filterMap Event.deferred? := by
  induction events using List.reverseRecOn with
  | nil => rfl
  | append_singleton history event ih =>
      rw [ofEvents_append, List.filterMap_append, ← ih]
      cases event with
      | started invocation =>
          cases next : (ofEvents history).ready ++ (ofEvents history).waiting <;>
            simp [record, next, Event.deferred?]
      | _ => simp [record, newcomer, Event.deferred?]

theorem record_queued_grows (ledger : Ledger φ) (event : Event φ) :
    ledger.queued <+: (ledger.record event).queued := by
  cases event with
  | deferred invocation => exact List.prefix_append _ _
  | started invocation => cases next : ledger.ready ++ ledger.waiting <;> simp [record, next]
  | _ => exact List.prefix_refl _

/-- Calls that were queued stay on record. -/
theorem queued_grows {past history : List (Event φ)} (before : past <+: history) :
    (ofEvents past).queued <+: (ofEvents history).queued := by
  obtain ⟨later, rfl⟩ := before
  induction later using List.reverseRecOn with
  | nil => simp
  | append_singleton events event ih =>
      rw [← List.append_assoc, ofEvents_append]
      exact ih.trans (record_queued_grows _ event)

end Ledger

theorem filterMap_quiet {β : Type} {observe : Event φ → Option β} {events : List (Event φ)}
    (unseen : ∀ event : Event φ, event.Quiet → observe event = none)
    (quiet : ∀ event ∈ events, event.Quiet) : events.filterMap observe = [] :=
  List.filterMap_eq_nil_iff.mpr fun event member => unseen event (quiet event member)

/-- The rest of the batch that is called after a function of the script. -/
def Resume.waiting : Resume φ → List (Invocation φ)
  | .batch rest _ => rest
  | .caller => []

def Frame.waiting (frame : Frame φ) : List (Invocation φ) :=
  frame.resume?.elim [] Resume.waiting

def Activity.waiting : Activity φ → List (Invocation φ)
  | .resuming resume => resume.waiting
  | .idle | .method _ | .settling _ _ | .pumping _ _ => []

/-- The calls that wait for others in their batches. -/
def Machine.waiting (machine : Machine φ) : List (Invocation φ) :=
  machine.frames.flatMap Frame.waiting

namespace Machine

/-- The completions and calls that were observed are those that are done and those
that the session has in hand. -/
structure Accounts (history : List (Event φ)) (activity : Activity φ) (machine : Machine φ) :
    Prop where
  sound : Sound activity machine
  sent : history.filterMap Event.sent? = history.filterMap Event.applied? ++ machine.queue
  started : (Ledger.ofEvents history).started.map (·.invocation) =
    history.filterMap Event.started?
  ready : (Ledger.ofEvents history).ready.map (·.invocation) = machine.ready
  waiting : (Ledger.ofEvents history).waiting.map (·.invocation) =
    activity.waiting ++ machine.waiting

namespace Accounts

variable {history events : List (Event φ)} {activity next : Activity φ} {machine after : Machine φ}

theorem quiet (accounts : Accounts history activity machine) (sound : Sound next after)
    (quiet : ∀ event ∈ events, event.Quiet) (queue : after.queue = machine.queue)
    (ready : after.ready = machine.ready)
    (waiting : next.waiting ++ after.waiting = activity.waiting ++ machine.waiting) :
    Accounts (history ++ events) next after := by
  have unseen {β : Type} (observe : Event φ → Option β)
      (none : ∀ event : Event φ, event.Quiet → observe event = none) :
      (history ++ events).filterMap observe = history.filterMap observe := by
    rw [List.filterMap_append, filterMap_quiet none quiet, List.append_nil]
  have noSent := unseen Event.sent? fun event => by cases event <;> simp [Event.Quiet, Event.sent?]
  have noApplied := unseen Event.applied? fun event => by
    cases event <;> simp [Event.Quiet, Event.applied?]
  have noStarted := unseen Event.started? fun event => by
    cases event <;> simp [Event.Quiet, Event.started?]
  have same := Ledger.ofEvents_quiet history quiet
  exact
    { sound
      sent := by rw [noSent, noApplied, queue, accounts.sent]
      started := by rw [same, noStarted, accounts.started]
      ready := by rw [same, ready, accounts.ready]
      waiting := by rw [same, waiting, accounts.waiting] }

theorem send {completion : Completion} (ticket : Ticket)
    (accounts : Accounts history activity machine) (sound : Sound next after)
    (queue : after.queue = machine.queue ++ [completion]) (ready : after.ready = machine.ready)
    (waiting : next.waiting ++ after.waiting = activity.waiting ++ machine.waiting) :
    Accounts (history ++ [.sent ticket completion]) next after := by
  have same : Ledger.ofEvents (history ++ [.sent ticket completion]) = Ledger.ofEvents history := by
    simp [Ledger.ofEvents_append, Ledger.record]
  exact
    { sound
      sent := by simp [List.filterMap_cons, Event.sent?, Event.applied?, accounts.sent, queue]
      started := by rw [same, accounts.started]; simp [Event.started?]
      ready := by rw [same, ready, accounts.ready]
      waiting := by rw [same, waiting, accounts.waiting] }

theorem defer {invocation : Invocation φ} (accounts : Accounts history activity machine)
    (sound : Sound next after) (queue : after.queue = machine.queue)
    (ready : after.ready = machine.ready ++ [invocation])
    (waiting : next.waiting ++ after.waiting = activity.waiting ++ machine.waiting) :
    Accounts (history ++ [.deferred invocation]) next after := by
  have entry : Ledger.ofEvents (history ++ [.deferred invocation]) =
      (Ledger.ofEvents history).record (.deferred invocation) := Ledger.ofEvents_append _ _
  exact
    { sound
      sent := by simp [List.filterMap_cons, Event.sent?, Event.applied?, accounts.sent, queue]
      started := by rw [entry]; simp [Ledger.record, Event.started?, accounts.started]
      ready := by rw [entry]; simp [Ledger.record, Ledger.newcomer, ready, accounts.ready]
      waiting := by rw [entry, waiting]; exact accounts.waiting }

/-- A queued call begins, and the others that are at hand wait for it. -/
theorem start {invocation : Invocation φ} {rest : List (Invocation φ)}
    (accounts : Accounts history activity machine) (sound : Sound next after)
    (first : machine.ready ++ (activity.waiting ++ machine.waiting) = invocation :: rest)
    (queue : after.queue = machine.queue) (ready : after.ready = [])
    (waiting : next.waiting ++ after.waiting = rest) :
    Accounts (history ++ [.started invocation]) next after := by
  have entry : Ledger.ofEvents (history ++ [.started invocation]) =
      (Ledger.ofEvents history).record (.started invocation) := Ledger.ofEvents_append _ _
  have calls : ((Ledger.ofEvents history).ready ++ (Ledger.ofEvents history).waiting).map
      (·.invocation) = invocation :: rest := by
    rw [List.map_append, accounts.ready, accounts.waiting, first]
  obtain ⟨call, others, listed, same, later⟩ := List.map_eq_cons_iff.mp calls
  exact
    { sound
      sent := by simp [List.filterMap_cons, Event.sent?, Event.applied?, accounts.sent, queue]
      started := by
        rw [entry]
        simp [Ledger.record, listed, Event.started?, accounts.started, same]
      ready := by rw [entry, ready]; simp [Ledger.record, listed]
      waiting := by rw [entry, waiting, ← later]; simp [Ledger.record, listed] }

theorem apply {completion : Completion} {rest : List Completion}
    (accounts : Accounts history activity machine) (sound : Sound next after)
    (queued : machine.queue = completion :: rest) (queue : after.queue = rest)
    (ready : after.ready = machine.ready)
    (waiting : next.waiting ++ after.waiting = activity.waiting ++ machine.waiting) :
    Accounts (history ++ [.applied completion]) next after := by
  have entry : Ledger.ofEvents (history ++ [.applied completion]) =
      (Ledger.ofEvents history).record (.applied completion) := Ledger.ofEvents_append _ _
  exact
    { sound
      sent := by simp [Event.sent?, Event.applied?, accounts.sent, queued, queue]
      started := by rw [entry]; simp [Ledger.record, Event.started?, accounts.started]
      ready := by rw [entry, ready]; exact accounts.ready
      waiting := by rw [entry, waiting]; exact accounts.waiting }

end Accounts

theorem effect_ready (machine : Machine φ) (effect : Effect φ) :
    (∃ invocation, (machine.effect effect).2 = [.deferred invocation] ∧
      (machine.effect effect).1.ready = machine.ready ++ [invocation]) ∨
    (∀ event ∈ (machine.effect effect).2, event.Quiet) ∧
      (machine.effect effect).1.ready = machine.ready := by
  cases effect with
  | notice notice =>
      cases notice with
      | log record => simp [Machine.effect, Event.Quiet]
      | signal signal =>
          cases signal with
          | hook handler | connected handler | received handler | closed handler | written handler
          | accepted handler => cases handler <;> simp [Machine.effect, signal, Machine.defer]
  | consoleLog text => simp [Machine.effect, Event.Quiet]
  | keepProcedure key callback => simp [Machine.effect]
  | dropProcedure key => simp [Machine.effect]
  | opened endpoint => simp [Machine.effect, Event.Quiet]

theorem Accounts.tell {history : List (Event φ)} {activity next : Activity φ} {machine : Machine φ}
    (accounts : Accounts history activity machine) (effect : Effect φ)
    (sound : Sound next (machine.effect effect).1) (same : next.waiting = activity.waiting) :
    Accounts (history ++ (machine.effect effect).2) next (machine.effect effect).1 := by
  obtain ⟨_, queue, frames, _⟩ := machine.effect_frame effect
  have waiting : next.waiting ++ (machine.effect effect).1.waiting =
      activity.waiting ++ machine.waiting := by simp only [same, Machine.waiting, frames]
  rcases machine.effect_ready effect with ⟨invocation, event, ready⟩ | ⟨quiet, ready⟩
  · rw [event]
    exact accounts.defer sound queue ready waiting
  · exact accounts.quiet sound quiet queue ready waiting

theorem accounts_invariant : Invariant (Accounts (φ := φ)) where
  begins := by
    intro history machine move events activity after accounts begins
    have sound := sound_invariant.begins history accounts.sound begins
    cases begins with
    | ignored | busy | call | invokeNothing =>
        exact accounts.quiet sound (by simp [Event.Quiet]) rfl rfl rfl
    | completeLater ticket payload known held =>
        have sent := accounts.send ticket sound rfl rfl rfl
        have returned : ∀ event ∈ [Event.ended (φ := φ)], event.Quiet := by simp [Event.Quiet]
        simpa using sent.quiet sound returned rfl rfl rfl
    | complete ticket payload bridge known free => exact accounts.send ticket sound rfl rfl rfl
    | invoke closure arguments invocation owner =>
        exact accounts.quiet sound (by simp [Event.Quiet]) rfl rfl rfl
    | answerMethod reply call next frames top | answerSettling reply call next outcome frames top
    | printed reply owner line resume frames top | unprinted reply owner line resume frames top
    | finish invocation owner resume frames top | throw thrown invocation owner resume frames top =>
        refine accounts.quiet sound (by simp [Event.Quiet]) rfl rfl ?_
        simp [Machine.waiting, returnTo, top, Activity.waiting, Frame.waiting, Frame.resume?]
  continues := by
    intro history activity machine events next after accounts continues
    have sound := sound_invariant.continues history accounts.sound continues
    cases continues with
    | methodTells effect rest | settlingTells effect rest outcome =>
        exact accounts.tell effect sound rfl
    | methodAsks call next | settlingAsks call next outcome =>
        exact accounts.quiet sound (by simp [Event.Quiet]) rfl rfl rfl
    | methodEnds | settlingEnds | pumpsAgain | adopts =>
        exact accounts.quiet sound (by simp [Event.Quiet]) rfl rfl rfl
    | applies bridge outcome completion rest queued =>
        exact accounts.apply sound queued rfl rfl rfl
    | returns bridge outcome settled adopted quiet =>
        refine accounts.quiet sound ?_ rfl quiet.symm rfl
        cases outcome <;> simp [Event.Quiet, Outcome.returning]
    | startsBatch bridge outcome first rest settled adopted called =>
        have first : machine.ready ++ machine.waiting = first :: (rest ++ machine.waiting) := by
          rw [called, List.cons_append]
        exact accounts.start sound first rfl rfl rfl
    | resumesCaller => exact accounts.quiet sound (by simp [Event.Quiet]) rfl rfl rfl
    | startsNext first rest outcome =>
        -- Nothing is ready while a batch is called: it was taken when the batch began.
        obtain ⟨_, _, _, ready, _⟩ := accounts.sound
        have first : machine.ready ++ (first :: rest ++ machine.waiting) =
            first :: (rest ++ machine.waiting) := by
          rw [ready, List.nil_append, List.cons_append]
        exact accounts.start sound first rfl ready rfl
    | endsBatch outcome held =>
        refine accounts.quiet sound ?_ rfl rfl rfl
        cases outcome <;> simp [Event.Quiet, Outcome.returning]

theorem start_accounts (id : Nat) (config : SessionConfig) :
    Accounts [] .idle (Machine.start id config : Machine φ) where
  sound := start_sound id config
  sent := rfl
  started := rfl
  ready := rfl
  waiting := rfl

end Machine

end EmuScript.Engine
