import EmuScript.Emulator.NativeTable
import EmuScript.Proofs.Engine.Delivery
import EmuScript.Proofs.Engine.Upkeep
import Mathlib.Data.List.Forall2

/-!
# Whose completions these are

A completion names the descriptor of its request, and is applied to whatever is in
place under that descriptor by then. Here the sockets and servers that take one place
after another are told apart by their number, and a routing is drawn up from what was
observed: which of them made each request, and to which of them its completion was
applied. It is always the same one if and only if no place is taken anew while a
request of the one before is outstanding.
-/

set_option autoImplicit false

namespace EmuScript.Engine

variable {φ : Type}

/-- A request, and which of the sockets or servers at its endpoint has made it. -/
structure Pending where
  ticket : Ticket
  holder : Nat
  deriving DecidableEq

namespace Pending

def endpoint (pending : Pending) : Endpoint :=
  pending.ticket.request.endpoint

def Yields (pending : Pending) (completion : Completion) : Prop :=
  ∃ payload, completion = pending.ticket.request.completion payload

end Pending

/-- A completion that was applied, and to which of the sockets or servers at the
endpoint of its request. -/
structure Delivery where
  pending : Pending
  completion : Completion
  holder : Nat
  deriving DecidableEq

structure Routing where
  /-- The sockets and servers that were opened, oldest first. -/
  opened : List Endpoint := []
  /-- The requests whose completion functions were not called. -/
  asked : List Pending := []
  /-- The requests whose completions were not applied, oldest first. -/
  sent : List Pending := []
  delivered : List Delivery := []

namespace Routing

/-- The number of the socket or server that is in place. -/
def holder (routing : Routing) (endpoint : Endpoint) : Nat :=
  routing.opened.count endpoint

def outstanding (routing : Routing) : List Pending :=
  routing.asked ++ routing.sent

def record (routing : Routing) : Event φ → Routing
  | .opened endpoint => { routing with opened := routing.opened ++ [endpoint] }
  | .asked _ call =>
      match call.ticket? with
      | none => routing
      | some ticket =>
          let pending := ⟨ticket, routing.holder ticket.request.endpoint⟩
          { routing with asked := pending :: routing.asked }
  | .sent ticket _ =>
      match routing.asked.find? (·.ticket = ticket) with
      | none => routing
      | some pending =>
          { routing with
            asked := routing.asked.erase pending
            sent := routing.sent ++ [pending] }
  | .applied completion =>
      match routing.sent with
      | [] => routing
      | pending :: rest =>
          let delivery := ⟨pending, completion, routing.holder pending.endpoint⟩
          { routing with sent := rest, delivered := routing.delivered ++ [delivery] }
  | _ => routing

def ofEvents (events : List (Event φ)) : Routing :=
  events.foldl record {}

/-- Every completion was applied to the socket or server that made the request. -/
def Right (routing : Routing) : Prop :=
  ∀ delivery ∈ routing.delivered, delivery.holder = delivery.pending.holder

/-- Every outstanding request was made by the socket or server that is in place. -/
def Current (routing : Routing) : Prop :=
  ∀ pending ∈ routing.outstanding, pending.holder = routing.holder pending.endpoint

/-- No place is taken anew while a request of the one before is outstanding. -/
def Unshared : List (Event φ) → Prop :=
  Throughout fun history event => ∀ endpoint, event = .opened endpoint →
    ∀ pending ∈ (ofEvents history).outstanding, pending.endpoint ≠ endpoint

theorem ofEvents_append (history events : List (Event φ)) :
    ofEvents (history ++ events) = events.foldl record (ofEvents history) :=
  List.foldl_append

theorem ofEvents_concat (history : List (Event φ)) (event : Event φ) :
    ofEvents (history ++ [event]) = (ofEvents history).record event :=
  ofEvents_append history [event]

theorem record_opened (routing : Routing) (event : Event φ) :
    (routing.record event).opened = routing.opened ++ event.opened?.toList := by
  cases event with
  | asked owner call =>
      cases handed : call.ticket? <;> simp [record, handed, Event.opened?]
  | sent ticket completion =>
      cases found : routing.asked.find? (·.ticket = ticket) <;>
        simp [record, found, Event.opened?]
  | applied completion =>
      cases queued : routing.sent <;> simp [record, queued, Event.opened?]
  | _ => simp [record, Event.opened?]

theorem record_holder (routing : Routing) (event : Event φ) (closed : event.opened? = none)
    (endpoint : Endpoint) : (routing.record event).holder endpoint = routing.holder endpoint := by
  simp [holder, record_opened, closed]

theorem opened_eq (events : List (Event φ)) : (ofEvents events).opened = openings events := by
  induction events using List.reverseRecOn with
  | nil => rfl
  | append_singleton history event ih =>
      rw [ofEvents_concat, record_opened, ih, openings, openings, List.filterMap_append]
      cases event <;> rfl

/-- A request stays outstanding when its completion function is called. -/
theorem outstanding_sent (routing : Routing) (ticket : Ticket) (completion : Completion) :
    (routing.record (.sent ticket completion : Event φ)).outstanding.Perm routing.outstanding := by
  cases found : routing.asked.find? (·.ticket = ticket) with
  | none => simp [record, found]
  | some pending =>
      have member : pending ∈ routing.asked := List.mem_of_find?_eq_some found
      simp only [record, found, outstanding, ← List.append_assoc]
      refine (List.perm_append_singleton pending _).trans ?_
      rw [← List.cons_append]
      exact (List.perm_cons_erase member).symm.append_right _

theorem outstanding_asked (routing : Routing) (owner : Nat) {call : NativeCall φ} {ticket : Ticket}
    (handed : call.ticket? = some ticket) :
    (routing.record (.asked owner call)).outstanding =
      ⟨ticket, routing.holder ticket.request.endpoint⟩ :: routing.outstanding := by
  simp [record, handed, outstanding]

theorem outstanding_applied (routing : Routing) (completion : Completion) {pending : Pending}
    {rest : List Pending} (queued : routing.sent = pending :: rest) :
    routing.outstanding.Perm
      (pending :: (routing.record (.applied completion : Event φ)).outstanding) := by
  simp only [record, queued, outstanding]
  exact List.perm_middle

/-- No request was made by a socket or server that was opened later. -/
theorem holder_le (events : List (Event φ)) :
    ∀ pending ∈ (ofEvents events).outstanding,
      pending.holder ≤ (ofEvents events).holder pending.endpoint := by
  induction events using List.reverseRecOn with
  | nil => simp [ofEvents, outstanding]
  | append_singleton history event ih =>
      rw [ofEvents_concat]
      intro pending member
      have grown : (ofEvents history).holder pending.endpoint ≤
          ((ofEvents history).record event).holder pending.endpoint := by
        simp [holder, record_opened, List.count_append]
      cases event with
      | asked owner call =>
          cases handed : call.ticket? with
          | none =>
              simp only [record, handed] at member
              exact Nat.le_trans (ih pending member) grown
          | some ticket =>
              rw [outstanding_asked _ owner handed] at member
              rcases List.mem_cons.mp member with rfl | before
              · exact grown
              · exact Nat.le_trans (ih pending before) grown
      | sent ticket completion =>
          have before := (outstanding_sent _ ticket completion).mem_iff.mp member
          exact Nat.le_trans (ih pending before) grown
      | applied completion =>
          cases queued : (ofEvents history).sent with
          | nil =>
              simp only [record, queued] at member
              exact Nat.le_trans (ih pending member) grown
          | cons first rest =>
              have before := (outstanding_applied _ completion queued).mem_iff.mpr
                (List.mem_cons_of_mem first member)
              exact Nat.le_trans (ih pending before) grown
      | _ => exact Nat.le_trans (ih pending member) grown

/-- What one event does to deliveries and outstanding requests: it spoils them only by
taking a place anew while a request of the one before is outstanding. -/
theorem record_right_current {routing : Routing}
    (bounded : ∀ pending ∈ routing.outstanding, pending.holder ≤ routing.holder pending.endpoint)
    (event : Event φ) :
    (routing.record event).Right ∧ (routing.record event).Current ↔
      (routing.Right ∧ routing.Current) ∧ ∀ endpoint, event = .opened endpoint →
        ∀ pending ∈ routing.outstanding, pending.endpoint ≠ endpoint := by
  cases event with
  | opened endpoint =>
      have current : (routing.record (.opened endpoint : Event φ)).Current ↔
          routing.Current ∧ ∀ pending ∈ routing.outstanding, pending.endpoint ≠ endpoint := by
        -- The number of the holder goes up at this endpoint, and no request has a greater one.
        rw [Current, Current, ← forall₂_and]
        refine forall₂_congr fun pending member => ?_
        have bound := bounded pending member
        simp only [record, holder, List.count_append, List.count_singleton] at bound ⊢
        by_cases same : pending.endpoint = endpoint
        · simp [same] at bound ⊢
          omega
        · simp [same, Ne.symm same]
      rw [current]
      simp [record, Right, and_assoc]
  | asked owner call =>
      cases handed : call.ticket? with
      | none => simp [record, handed]
      | some ticket =>
          have current : (routing.record (.asked owner call)).Current ↔ routing.Current := by
            simp only [Current, outstanding_asked _ owner handed, List.forall_mem_cons,
              record_holder routing (.asked owner call) rfl]
            exact and_iff_right rfl
          rw [current]
          simp [record, handed, Right]
  | sent ticket completion =>
      have current : (routing.record (.sent ticket completion : Event φ)).Current ↔
          routing.Current := by
        simp only [Current, (outstanding_sent _ ticket completion).mem_iff,
          record_holder routing (.sent ticket completion : Event φ) rfl]
      rw [current]
      cases found : routing.asked.find? (·.ticket = ticket) <;> simp [record, found, Right]
  | applied completion =>
      cases queued : routing.sent with
      | nil => simp [record, queued]
      | cons pending rest =>
          have current : routing.Current ↔ pending.holder = routing.holder pending.endpoint ∧
              (routing.record (.applied completion : Event φ)).Current := by
            have split (other : Pending) := (outstanding_applied (φ := φ) routing completion
              queued).mem_iff (a := other)
            simp only [Current, record_holder routing (.applied completion : Event φ) rfl,
              split, List.forall_mem_cons]
          have right : (routing.record (.applied completion : Event φ)).Right ↔
              routing.Right ∧ routing.holder pending.endpoint = pending.holder := by
            simp [Right, record, queued, or_imp, forall_and]
          rw [current, right]
          simp [and_assoc, eq_comm]
  | _ => simp [record]

/-- The places are never shared if and only if every completion so far was applied to
the one that made the request, and every outstanding request was made by the one that
is in place. -/
theorem unshared_iff (events : List (Event φ)) :
    Unshared events ↔ (ofEvents events).Right ∧ (ofEvents events).Current := by
  induction events using List.reverseRecOn with
  | nil => simp [Unshared, throughout_nil, ofEvents, Right, Current, outstanding]
  | append_singleton history event ih =>
      rw [Unshared, throughout_concat, ← Unshared, ih, ofEvents_concat]
      exact (record_right_current (holder_le history) event).symm

end Routing

/-- No request is made, completed or served by the event. -/
def Event.Unrouted : Event φ → Prop
  | .sent _ _ | .applied _ => False
  | .asked _ call => call.ticket? = none
  | _ => True

theorem Event.Told.unrouted {event : Event φ} (told : event.Told) : event.Unrouted := by
  cases event <;> trivial

theorem Routing.record_unrouted (routing : Routing) {event : Event φ} (unrouted : event.Unrouted) :
    routing.record event = { routing with opened := routing.opened ++ event.opened?.toList } := by
  cases event with
  | sent | applied => exact unrouted.elim
  | asked owner call =>
      have none : call.ticket? = none := unrouted
      simp [record, none, Event.opened?]
  | _ => simp [record, Event.opened?]

/-- A routing gives account of a run: its requests are those that the session has in
hand, there is a delivery for every completion that was applied, and every request was
made by a socket or server that was in place. -/
structure Routing.Mirrors (routing : Routing) (history : List (Event φ)) (machine : Machine φ) :
    Prop where
  opened : routing.opened = history.filterMap Event.opened?
  tickets : (routing.asked.map (·.ticket)).Perm machine.tickets
  queue : List.Forall₂ Pending.Yields routing.sent machine.queue
  applied : routing.delivered.map (·.completion) = history.filterMap Event.applied?
  served : ∀ delivery ∈ routing.delivered,
    delivery.pending.Yields delivery.completion ∧ 0 < delivery.pending.holder
  placed : ∀ pending ∈ routing.outstanding, 0 < pending.holder

namespace Machine

structure Routes (history : List (Event φ)) (activity : Activity φ) (machine : Machine φ) :
    Prop where
  upheld : Upheld history activity machine
  mirrors : (Routing.ofEvents history).Mirrors history machine

namespace Routes

variable {history events : List (Event φ)} {activity next : Activity φ} {machine after : Machine φ}

theorem keep (routes : Routes history activity machine)
    (upheld : Upheld (history ++ events) next after)
    (unrouted : ∀ event ∈ events, event.Unrouted) (tickets : after.tickets = machine.tickets)
    (queue : after.queue = machine.queue) : Routes (history ++ events) next after := by
  have same : ∀ routing : Routing, ∃ opened,
      events.foldl Routing.record routing = { routing with opened } := by
    clear routes upheld
    induction events with
    | nil => exact fun routing => ⟨routing.opened, rfl⟩
    | cons event rest ih =>
        rw [List.forall_mem_cons] at unrouted
        intro routing
        obtain ⟨opened, later⟩ := ih unrouted.2 (routing.record event)
        refine ⟨opened, ?_⟩
        rw [List.foldl_cons, later, routing.record_unrouted unrouted.1]
  obtain ⟨opened, entry⟩ := same (Routing.ofEvents history)
  rw [← Routing.ofEvents_append] at entry
  refine ⟨upheld, ?_⟩
  exact
    { opened := Routing.opened_eq _
      tickets := by rw [entry, tickets]; exact routes.mirrors.tickets
      queue := by rw [entry, queue]; exact routes.mirrors.queue
      applied := by
        have none : events.filterMap Event.applied? = [] := by
          refine List.filterMap_eq_nil_iff.mpr fun event member => ?_
          have other := unrouted event member
          cases event <;> first | rfl | exact other.elim
        rw [entry, List.filterMap_append, none, List.append_nil]
        exact routes.mirrors.applied
      served := by rw [entry]; exact routes.mirrors.served
      placed := by rw [entry]; exact routes.mirrors.placed }

theorem ask (routes : Routes history activity machine) (owner : Nat) (call : NativeCall φ)
    (upheld : Upheld (history ++ [.asked owner call]) next after)
    (opened : ∀ ticket, call.ticket? = some ticket → ticket.request.endpoint ∈ openings history)
    (tickets : after.tickets = call.ticket?.toList ++ machine.tickets)
    (queue : after.queue = machine.queue) : Routes (history ++ [.asked owner call]) next after := by
  cases handed : call.ticket? with
  | none =>
      refine routes.keep upheld ?_ ?_ queue
      · simp [Event.Unrouted, handed]
      · simpa [handed] using tickets
  | some ticket =>
      have entry := Routing.ofEvents_concat history (.asked owner call)
      have placed : 0 < (Routing.ofEvents history).holder ticket.request.endpoint := by
        rw [Routing.holder, List.count_pos_iff, Routing.opened_eq]
        exact opened ticket handed
      refine ⟨upheld, Routing.opened_eq _, ?_, ?_, ?_, ?_, ?_⟩
      · rw [entry, tickets]
        simp only [Routing.record, handed, List.map_cons, Option.toList_some, List.singleton_append]
        exact routes.mirrors.tickets.cons ticket
      · rw [entry, queue]
        simpa only [Routing.record, handed] using routes.mirrors.queue
      · rw [entry]
        have applied := routes.mirrors.applied
        simpa [Routing.record, handed, List.filterMap_cons, Event.applied?] using applied
      · rw [entry]
        simpa only [Routing.record, handed] using routes.mirrors.served
      · rw [entry, Routing.outstanding_asked _ owner handed]
        exact List.forall_mem_cons.mpr ⟨placed, routes.mirrors.placed⟩

theorem send (routes : Routes history activity machine) {ticket : Ticket}
    (payload : ticket.request.Payload) (known : ticket ∈ machine.tickets)
    (upheld : Upheld (history ++ [.sent ticket (ticket.request.completion payload)]) next after)
    (tickets : after.tickets = machine.tickets.erase ticket)
    (queue : after.queue = machine.queue ++ [ticket.request.completion payload]) :
    Routes (history ++ [.sent ticket (ticket.request.completion payload)]) next after := by
  have entry := Routing.ofEvents_concat history
    (.sent ticket (ticket.request.completion payload) : Event φ)
  have listed := routes.mirrors.tickets.mem_iff.mpr known
  obtain ⟨asker, asked, same⟩ := List.mem_map.mp listed
  cases found : (Routing.ofEvents history).asked.find? (·.ticket = ticket) with
  | none =>
      have absent := List.find?_eq_none.mp found asker asked
      simp [same] at absent
  | some pending =>
      have own : pending.ticket = ticket := by simpa using List.find?_some found
      have member : pending ∈ (Routing.ofEvents history).asked := List.mem_of_find?_eq_some found
      refine ⟨upheld, Routing.opened_eq _, ?_, ?_, ?_, ?_, ?_⟩
      · rw [entry, tickets]
        simp only [Routing.record, found]
        -- Both lists lose one entry with this ticket, also if there were several.
        have split := (List.perm_cons_erase member).map (·.ticket)
        have rest := (split.symm.trans routes.mirrors.tickets).erase ticket
        simpa [own] using rest
      · rw [entry, queue]
        simp only [Routing.record, found]
        refine List.rel_append routes.mirrors.queue (.cons ?_ .nil)
        subst own
        exact ⟨payload, rfl⟩
      · rw [entry]
        have applied := routes.mirrors.applied
        simpa [Routing.record, found, List.filterMap_cons, Event.applied?] using applied
      · rw [entry]
        simpa only [Routing.record, found] using routes.mirrors.served
      · rw [entry]
        intro other outstanding
        have before := (Routing.outstanding_sent _ ticket _).mem_iff.mp outstanding
        exact routes.mirrors.placed other before

theorem apply (routes : Routes history activity machine) {completion : Completion}
    {rest : List Completion} (upheld : Upheld (history ++ [.applied completion]) next after)
    (queued : machine.queue = completion :: rest) (tickets : after.tickets = machine.tickets)
    (queue : after.queue = rest) : Routes (history ++ [.applied completion]) next after := by
  have entry := Routing.ofEvents_concat history (.applied completion : Event φ)
  have sent := routes.mirrors.queue
  rw [queued] at sent
  cases listed : (Routing.ofEvents history).sent with
  | nil =>
      rw [listed] at sent
      cases sent
  | cons pending others =>
      rw [listed] at sent
      obtain ⟨yields, later⟩ := List.forall₂_cons.mp sent
      have split := Routing.outstanding_applied (φ := φ) _ completion listed
      have placed : 0 < pending.holder :=
        routes.mirrors.placed pending (split.mem_iff.mpr List.mem_cons_self)
      refine ⟨upheld, Routing.opened_eq _, ?_, ?_, ?_, ?_, ?_⟩
      · rw [entry, tickets]
        simpa only [Routing.record, listed] using routes.mirrors.tickets
      · rw [entry, queue]
        simpa only [Routing.record, listed] using later
      · rw [entry]
        simp [Routing.record, listed, Event.applied?, routes.mirrors.applied]
      · rw [entry]
        simp only [Routing.record, listed, List.forall_mem_append, List.forall_mem_singleton]
        exact ⟨routes.mirrors.served, yields, placed⟩
      · rw [entry]
        intro other outstanding
        have before := split.mem_iff.mpr (List.mem_cons_of_mem pending outstanding)
        exact routes.mirrors.placed other before

end Routes

theorem routes_invariant : Invariant (Routes (φ := φ)) where
  begins := by
    intro history machine move events activity after routes begins
    have upheld := upheld_invariant.begins history routes.upheld begins
    cases begins with
    | ignored | busy | call | invoke | invokeNothing | answerMethod | answerSettling | printed
    | unprinted | finish => exact routes.keep upheld (by simp [Event.Unrouted]) rfl rfl
    | throw =>
        exact routes.keep upheld (by simp [Event.Unrouted, NativeCall.ticket?]) rfl rfl
    | completeLater ticket payload known held =>
        have received := routes.upheld.keep upheld.sound
          (by simp [Event.Neutral] : ∀ event ∈ [.sent ticket (ticket.request.completion payload)],
            Event.Neutral event) trivial routes.upheld.bridge routes.upheld.frames
        have sent := routes.send payload known received rfl rfl
        rw [← List.singleton_append, ← List.append_assoc] at upheld ⊢
        exact sent.keep upheld (by simp [Event.Unrouted]) rfl rfl
    | complete ticket payload bridge known free => exact routes.send payload known upheld rfl rfl
  continues := by
    intro history activity machine events next after routes continues
    have upheld := upheld_invariant.continues history routes.upheld continues
    have told (effect : Effect φ) : ∀ event ∈ (machine.effect effect).2, event.Unrouted :=
      fun event member => (machine.effect_told effect event member).unrouted
    cases continues with
    | methodTells effect rest | settlingTells effect rest outcome =>
        obtain ⟨_, queue, _, tickets, _⟩ := machine.effect_frame effect
        exact routes.keep upheld (told effect) tickets queue
    | methodAsks call next | settlingAsks call next outcome =>
        exact routes.ask machine.id call upheld routes.upheld.activity.1 rfl rfl
    | applies bridge outcome completion rest queued => exact routes.apply upheld queued rfl rfl
    | methodEnds | settlingEnds | adopts | startsBatch | resumesCaller | startsNext | pumpsAgain =>
        exact routes.keep upheld (by simp [Event.Unrouted]) rfl rfl
    | returns bridge outcome | endsBatch outcome =>
        refine routes.keep upheld ?_ rfl rfl
        cases outcome <;> simp [Outcome.returning, Event.Unrouted]

theorem start_routes (id : Nat) (config : SessionConfig) :
    Routes [] .idle (Machine.start id config : Machine φ) where
  upheld := start_upheld id config
  mirrors :=
    { opened := rfl
      tickets := .nil
      queue := .nil
      applied := rfl
      served := by simp [Routing.ofEvents]
      placed := by simp [Routing.ofEvents, Routing.outstanding] }

/-- Every completion is applied to the socket or server in place under its descriptor
and leaves all others alone. So far this was always the one that made the request, and
it will be for all outstanding requests, if and only if no place was taken anew while a
request of the one before was outstanding. -/
theorem completions_reach_askers_iff (id : Nat) (config : SessionConfig) (moves : List (Move φ)) :
    let run := (start id config : Machine φ).steps moves
    let routing := Routing.ofEvents run.2
    routing.Mirrors run.2 run.1 ∧
    (∀ bridge completion, run.1.bridge = some bridge →
      (Bridge.apply completion bridge).Meets ((completion.scope bridge).native fun ended =>
        bridge.Follows (some completion.endpoint) ended.2)) ∧
    (routing.Right ∧ routing.Current ↔ Routing.Unshared run.2) ∧
    (run.1.AtRest → run.1.tickets = [] → (routing.Right ↔ Routing.Unshared run.2)) := by
  intro run routing
  have routes : Routes run.2 .idle run.1 := routes_invariant.run (start_routes id config) moves
  have unshared : routing.Right ∧ routing.Current ↔ Routing.Unshared run.2 :=
    (Routing.unshared_iff run.2).symm
  refine ⟨routes.mirrors, ?_, unshared, ?_⟩
  · intro bridge completion free
    exact Bridge.apply_meets completion (routes.upheld.bridge bridge free).keyed
  · intro rest called
    obtain ⟨queue, _⟩ := routes.upheld.sound.2 (routes.upheld.sound.free_of_rest rest)
    have asked : routing.asked = [] := by
      have none := routes.mirrors.tickets
      rw [called] at none
      exact List.map_eq_nil_iff.mp none.eq_nil
    have sent : routing.sent = [] := by
      have none := routes.mirrors.queue
      rw [queue] at none
      exact List.forall₂_nil_right_iff.mp none
    have current : routing.Current := by simp [Routing.Current, Routing.outstanding, asked, sent]
    rw [← unshared]
    exact (and_iff_left current).symm

/-- A socket is closed while a write is under way, and a server accepts a client under
its descriptor, which writes as well. -/
def sharingMoves : List (Move Nat) :=
  let second : NativeTable Nat := { emulator := { socketsCreated := 1 } }
  [.call .createSocket, .answer (NativeTable.replies {}),
    .call (.write 1 [] (some 0)), .answer (NativeTable.replies {}),
    .call (.close 1), .answer (NativeTable.replies {}),
    .call (.createServer none), .answer second.replies,
    .call (.onConnection 2 9), .answer (NativeTable.replies {}),
    .complete ⟨1, .accept ⟨2⟩⟩ ⟨1⟩, .answer (NativeTable.replies {}), .finish none,
    .call (.write 1 [] (some 1)), .answer (NativeTable.replies {}),
    .complete ⟨0, .write ⟨1⟩⟩ (), .finish none]

/-- The completion of the write to the first socket runs the function that was given
with the write to the second, which is still under way. -/
theorem completion_misses_asker :
    let run := (start 0 {} : Machine Nat).steps sharingMoves
    run.1.AtRest ∧
    (Routing.ofEvents run.2).delivered =
      [⟨⟨⟨1, .accept ⟨2⟩⟩, 1⟩, .accepted ⟨2⟩ ⟨1⟩, 1⟩,
        ⟨⟨⟨0, .write ⟨1⟩⟩, 1⟩, .written ⟨1⟩, 2⟩] ∧
    (run.2.filterMap Event.started?).map (·.callback) = [9, 1] ∧
    ⟨3, .write ⟨1⟩⟩ ∈ run.1.tickets := by
  intro run
  have finished : run.1.frames.isEmpty := by decide +kernel
  have rest : run.1.AtRest := by simp [AtRest, List.isEmpty_iff.mp finished]
  exact ⟨rest, by decide +kernel, by decide +kernel, by decide +kernel⟩

end Machine

end EmuScript.Engine
