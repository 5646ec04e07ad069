import EmuScript.Proofs.Engine.Exchange
import EmuScript.Proofs.Engine.Ledger
import Mathlib.Data.List.Forall2
import Mathlib.Data.List.Nodup

/-!
# Tickets

The adapter numbers the tickets of its requests one after another, whatever it asks
for in between. No two requests of a session have the same ticket, therefore, and a
ticket that was handed out is at hand until its completion is sent. Completions are
applied in the order in which they were sent.
-/

set_option autoImplicit false

namespace EmuScript.Engine

open Program

variable {φ α β : Type}

/-- A program numbers its tickets from `count` on, and ends with their total. -/
def Numbers (total : α → Nat) : Nat → NativeProgram φ α → Prop
  | count, .done value => total value = count
  | count, .tell _ rest => Numbers total count rest
  | count, .ask call next =>
      (∀ ticket, call.ticket? = some ticket → ticket.serial = count) ∧
        ∀ reply, Numbers total (count + call.ticket?.toList.length) (next reply)

theorem numbers_bind {between : β → Nat} {total : α → Nat} {count : Nat}
    {program : NativeProgram φ β} {next : β → NativeProgram φ α}
    (first : Numbers between count program)
    (rest : ∀ value, Numbers total (between value) (next value)) :
    Numbers total count (program >>= next) := by
  induction program generalizing count with
  | done value =>
      cases first
      exact rest value
  | tell effect later ih => exact ih first
  | ask call later ih => exact ⟨first.1, fun reply => ih reply (first.2 reply)⟩

/-! ## The adapter -/

namespace Adapter

/-- A step of the adapter goes on with the numbers of the tickets. -/
def Counts (step : Step φ α) : Prop :=
  ∀ adapter, Numbers (·.2.ticketsIssued) adapter.ticketsIssued (step adapter)

theorem serve_counts (call : HostCall (Closure φ)) : Counts (serve call) := by
  intro adapter
  cases carried : native? adapter.ticketsIssued call with
  | none =>
      obtain ⟨error, refused⟩ := serve_refused carried
      rw [refused]
      rfl
  | some native =>
      obtain ⟨exchange, asks⟩ := serve_carried carried
      rw [asks]
      refine ⟨fun ticket handed => ?_, exchange.issued⟩
      rw [native?_ticket carried] at handed
      obtain ⟨request, -, rfl⟩ := Option.map_eq_some_iff.mp handed
      rfl

theorem lower_counts (program : HostProgram (Closure φ) α) (adapter : Adapter φ) :
    Numbers (·.2.ticketsIssued) adapter.ticketsIssued (lower program adapter) := by
  induction program generalizing adapter with
  | done value => rfl
  | tell notice rest ih => exact ih adapter
  | ask call next ih =>
      exact numbers_bind (serve_counts call adapter) fun (reply, after) => ih reply after

end Adapter

/-! ## Bridges -/

namespace Bridge

/-- A step of a bridge goes on with the numbers of the tickets. -/
def Counts (step : Step φ α) : Prop :=
  ∀ bridge, Numbers (·.2.adapter.ticketsIssued) bridge.adapter.ticketsIssued (step bridge)

theorem counts_through (program : HostProgram (Closure φ) α) : Counts (through program) :=
  fun bridge => numbers_bind (Adapter.lower_counts program bridge.adapter) fun _ => rfl

theorem counts_onSession (update : Update (Closure φ) (Session (Closure φ)) α) :
    Counts (onSession update) :=
  fun bridge => numbers_bind (counts_through _ bridge) fun _ => rfl

theorem counts_onSocket (fd : UInt32) (update : Update (Closure φ) (Socket (Closure φ)) α) :
    Counts (onSocket fd update) := by
  intro bridge
  cases found : bridge.sockets.find? fd with
  | none => simp [onSocket, found, pure_eq, Numbers]
  | some socket =>
      simp only [onSocket, found]
      exact numbers_bind (counts_through _ bridge) fun _ => rfl

theorem counts_onServer (fd : UInt32) (update : Update (Closure φ) (Server (Closure φ)) α) :
    Counts (onServer fd update) := by
  intro bridge
  cases found : bridge.servers.find? fd with
  | none => simp [onServer, found, pure_eq, Numbers]
  | some server =>
      simp only [onServer, found]
      exact numbers_bind (counts_through _ bridge) fun _ => rfl

theorem counts_onThread (key : UInt32) (update : Update (Closure φ) (Thread (Closure φ)) α) :
    Counts (onThread key update) := by
  intro bridge
  cases found : bridge.threads.find? key with
  | none => simp [onThread, found, pure_eq, Numbers]
  | some thread =>
      simp only [onThread, found]
      exact numbers_bind (counts_through _ bridge) fun _ => rfl

theorem apply_counts (completion : Completion) : Counts (apply (φ := φ) completion) := by
  intro bridge
  have completed : Counts (complete (φ := φ) completion) := by
    cases completion with
    | connected | received | written => exact counts_onSocket _ _
    | accepted => exact counts_onServer _ _
  refine numbers_bind (completed bridge) ?_
  rintro ⟨_ | error | ⟨⟩, after⟩
  · rfl
  · refine numbers_bind (counts_through _ after) ?_
    rintro ⟨reported, -⟩
    cases reported <;> rfl
  · rfl

end Bridge

theorem Method.run_counts (method : Method φ) : Bridge.Counts method.run := by
  intro bridge
  cases method with
  | service request => exact numbers_bind (Bridge.counts_through _ bridge) fun _ => rfl
  | on | off | clearHooks => exact numbers_bind (Bridge.counts_onSession _ bridge) fun _ => rfl
  | connect | onData | onClose | write | close =>
      exact numbers_bind (Bridge.counts_onSocket _ _ bridge) fun _ => rfl
  | listen | onConnection => exact numbers_bind (Bridge.counts_onServer _ _ bridge) fun _ => rfl
  | suspendThread | resumeThread =>
      exact numbers_bind (Bridge.counts_onThread _ _ bridge) fun _ => rfl
  | createSocket =>
      refine numbers_bind (Bridge.counts_through _ bridge) ?_
      rintro ⟨result, -⟩
      cases result <;> rfl
  | createServer port =>
      refine numbers_bind (Bridge.counts_through _ bridge) ?_
      rintro ⟨result, -⟩
      cases result <;> rfl
  | threadState key =>
      cases found : bridge.threads.find? key <;> simp [run, found, pure_eq, Numbers]
  | stopThread key =>
      refine numbers_bind (Bridge.counts_onThread _ _ bridge) ?_
      rintro ⟨_ | _ | ⟨⟩, -⟩ <;> rfl
  | spawn callback =>
      have started := Bridge.counts_through (Thread.spawn (.procedure bridge.nextThread)).run
        { bridge with nextThread := bridge.nextThread + 1 }
      change Numbers _ _ (Bridge.perform _ _ >>= _)
      refine numbers_bind started ?_
      rintro ⟨result, -⟩
      cases result <;> rfl

/-! ## Runs -/

namespace Event

/-- The ticket that a native function is called with. -/
def handed? : Event φ → Option Ticket
  | .asked _ call => call.ticket?
  | _ => none

/-- The ticket whose completion function is called. -/
def completed? : Event φ → Option Ticket
  | .sent ticket _ => some ticket
  | _ => none

end Event

/-- What a program tells of hands out no ticket, completes none and applies nothing. -/
theorem Machine.effect_unseen (machine : Machine φ) (effect : Effect φ) :
    (machine.effect effect).2.filterMap Event.handed? = [] ∧
      (machine.effect effect).2.filterMap Event.completed? = [] ∧
      ∀ event ∈ (machine.effect effect).2, event.applied? = none := by
  have unseen {β : Type} {observe : Event φ → Option β}
      (blind : ∀ event : Event φ, event.Told → observe event = none) :
      ∀ event ∈ (machine.effect effect).2, observe event = none :=
    fun event member => blind event (machine.effect_told effect event member)
  refine ⟨List.filterMap_eq_nil_iff.mpr (unseen ?_), List.filterMap_eq_nil_iff.mpr (unseen ?_),
    unseen ?_⟩
  · rintro ⟨⟩ told <;> first | rfl | exact told.elim
  · rintro ⟨⟩ told <;> first | rfl | exact told.elim
  · rintro ⟨⟩ told <;> first | rfl | exact told.elim

def handedTickets (history : List (Event φ)) : List Ticket :=
  history.filterMap Event.handed?

def completedTickets (history : List (Event φ)) : List Ticket :=
  history.filterMap Event.completed?

def Frame.Counts (count : Nat) : Frame φ → Prop
  | .method _ next => ∀ reply, Numbers (·.2.adapter.ticketsIssued) count (next reply)
  | .settling _ next _ => ∀ reply, Numbers (·.2.adapter.ticketsIssued) count (next reply)
  | .script _ _ _ | .reporting _ _ _ => True

def Activity.Counts (count : Nat) : Activity φ → Prop
  | .method program => Numbers (·.2.adapter.ticketsIssued) count program
  | .settling program _ => Numbers (·.2.adapter.ticketsIssued) count program
  | .pumping bridge _ => bridge.adapter.ticketsIssued = count
  | .idle | .resuming _ => True

theorem Frame.counts_of_called {frame : Frame φ} (called : frame.resume?.isSome) (count : Nat) :
    frame.Counts count := by
  cases frame with
  | method | settling => simp [Frame.resume?] at called
  | script | reporting => trivial

namespace Machine

/-- Tickets are numbered in the order in which they are handed out, and each one is at
hand or completed. -/
structure Ticketed (history : List (Event φ)) (activity : Activity φ) (machine : Machine φ) :
    Prop where
  sound : Sound activity machine
  serials : (handedTickets history).map (·.serial) = List.range (handedTickets history).length
  accounted : (machine.tickets ++ completedTickets history).Perm (handedTickets history)
  activity : activity.Counts (handedTickets history).length
  bridge : ∀ bridge, machine.bridge = some bridge →
    bridge.adapter.ticketsIssued = (handedTickets history).length
  frames : ∀ frame ∈ machine.frames, frame.Counts (handedTickets history).length

namespace Ticketed

variable {history events : List (Event φ)} {activity next : Activity φ} {machine after : Machine φ}

theorem handed_nodup (ticketed : Ticketed history activity machine) :
    (handedTickets history).Nodup := by
  refine .of_map (·.serial) ?_
  rw [ticketed.serials]
  exact List.nodup_range

theorem completed_nodup (ticketed : Ticketed history activity machine) :
    (completedTickets history).Nodup := by
  have distinct := ticketed.accounted.nodup_iff.mpr ticketed.handed_nodup
  exact distinct.sublist (List.sublist_append_right _ _)

theorem keep (ticketed : Ticketed history activity machine) (sound : Sound next after)
    (handed : events.filterMap Event.handed? = []) (completed : events.filterMap Event.completed? = [])
    (tickets : after.tickets = machine.tickets)
    (current : next.Counts (handedTickets history).length)
    (bridge : ∀ bridge, after.bridge = some bridge →
      bridge.adapter.ticketsIssued = (handedTickets history).length)
    (frames : ∀ frame ∈ after.frames, frame.Counts (handedTickets history).length) :
    Ticketed (history ++ events) next after := by
  have same : handedTickets (history ++ events) = handedTickets history := by
    rw [handedTickets, List.filterMap_append, handed, List.append_nil, handedTickets]
  have done : completedTickets (history ++ events) = completedTickets history := by
    rw [completedTickets, List.filterMap_append, completed, List.append_nil, completedTickets]
  exact
    { sound
      serials := by rw [same]; exact ticketed.serials
      accounted := by rw [same, done, tickets]; exact ticketed.accounted
      activity := by rwa [same]
      bridge := by rwa [same]
      frames := by rwa [same] }

theorem ask (ticketed : Ticketed history activity machine) (owner : Nat) (call : NativeCall φ)
    (sound : Sound .idle after)
    (serial : ∀ ticket, call.ticket? = some ticket → ticket.serial = (handedTickets history).length)
    (tickets : after.tickets = call.ticket?.toList ++ machine.tickets) (held : after.bridge = none)
    (frames : ∀ frame ∈ after.frames,
      frame.Counts ((handedTickets history).length + call.ticket?.toList.length)) :
    Ticketed (history ++ [.asked owner call]) .idle after := by
  have grown : handedTickets (history ++ [.asked owner call]) =
      handedTickets history ++ call.ticket?.toList := by
    cases handed : call.ticket? <;> simp [handedTickets, Event.handed?, handed]
  have done : completedTickets (history ++ [.asked owner call]) = completedTickets history := by
    simp [completedTickets, Event.completed?]
  refine ⟨sound, ?_, ?_, trivial, by simp [held], ?_⟩
  · rw [grown, List.map_append, ticketed.serials, List.length_append]
    cases handed : call.ticket? with
    | none => simp
    | some ticket => simp [List.range_succ, serial ticket handed]
  · rw [grown, done, tickets, List.append_assoc]
    exact List.perm_append_comm.trans (ticketed.accounted.append_right _)
  · rwa [grown, List.length_append]

theorem complete (ticketed : Ticketed history activity machine) {ticket : Ticket}
    (completion : Completion) (known : ticket ∈ machine.tickets) (sound : Sound next after)
    (tickets : after.tickets = machine.tickets.erase ticket)
    (current : next.Counts (handedTickets history).length)
    (bridge : ∀ bridge, after.bridge = some bridge →
      bridge.adapter.ticketsIssued = (handedTickets history).length)
    (frames : after.frames = machine.frames) :
    Ticketed (history ++ [.sent ticket completion]) next after := by
  have same : handedTickets (history ++ [.sent ticket completion]) = handedTickets history := by
    simp [handedTickets, Event.handed?]
  have done : completedTickets (history ++ [.sent ticket completion]) =
      completedTickets history ++ [ticket] := by
    simp [completedTickets, Event.completed?]
  refine ⟨sound, ?_, ?_, by rwa [same], by rwa [same], ?_⟩
  · rw [same]
    exact ticketed.serials
  · rw [same, done, tickets, ← List.append_assoc]
    have split := (List.perm_cons_erase known).append_right (completedTickets history)
    exact (List.perm_append_singleton ticket _).trans (split.symm.trans ticketed.accounted)
  · rw [same, frames]
    exact ticketed.frames

end Ticketed

theorem ticketed_invariant : Invariant (Ticketed (φ := φ)) where
  begins := by
    intro history machine move events activity after ticketed begins
    have sound := sound_invariant.begins history ticketed.sound begins
    have bridge := ticketed.bridge
    have frames := ticketed.frames
    cases begins with
    | ignored | busy | invokeNothing => exact ticketed.keep sound rfl rfl rfl trivial bridge frames
    | call method bridge free =>
        have counted := method.run_counts bridge
        rw [ticketed.bridge bridge free] at counted
        exact ticketed.keep sound rfl rfl rfl counted (by simp [hold]) frames
    | completeLater ticket payload known held =>
        have later := ticketed.complete (ticket.request.completion payload) known sound rfl trivial
          bridge rfl
        have returned : [Event.ended (φ := φ)].filterMap Event.handed? = [] := rfl
        simpa using later.keep sound returned rfl rfl trivial later.bridge later.frames
    | complete ticket payload bridge known free =>
        exact ticketed.complete _ known sound rfl (ticketed.bridge bridge free) (by simp [hold]) rfl
    | invoke =>
        exact ticketed.keep sound rfl rfl rfl trivial bridge
          (List.forall_mem_cons.mpr ⟨trivial, frames⟩)
    | answerMethod reply call next rest top | answerSettling reply call next outcome rest top =>
        rw [top, List.forall_mem_cons] at frames
        exact ticketed.keep sound rfl rfl rfl (frames.1 (reply call)) bridge frames.2
    | printed reply owner line resume rest top | finish invocation owner resume rest top
    | unprinted reply owner line resume rest top =>
        rw [top, List.forall_mem_cons] at frames
        exact ticketed.keep sound rfl rfl rfl trivial bridge frames.2
    | throw thrown invocation owner resume rest top =>
        rw [top, List.forall_mem_cons] at frames
        exact ticketed.keep sound rfl rfl rfl trivial bridge
          (List.forall_mem_cons.mpr ⟨trivial, frames.2⟩)
  continues := by
    intro history activity machine events next after ticketed continues
    have sound := sound_invariant.continues history ticketed.sound continues
    have current := ticketed.activity
    have bridge := ticketed.bridge
    have frames := ticketed.frames
    cases continues with
    | methodTells effect rest | settlingTells effect rest outcome =>
        obtain ⟨kept, _, below, tickets, _⟩ := machine.effect_frame effect
        obtain ⟨handed, completed, -⟩ := machine.effect_unseen effect
        refine ticketed.keep sound handed completed tickets current ?_ ?_
        · rwa [kept]
        · rwa [below]
    | methodAsks call rest | settlingAsks call rest outcome =>
        -- What is below does not hold the bridge, and counts no tickets.
        have below (frame : Frame φ) (member : frame ∈ machine.frames) (count : Nat) :
            frame.Counts count :=
          Frame.counts_of_called (ticketed.sound.2.called frame member) count
        refine ticketed.ask machine.id call sound current.1 rfl ticketed.sound.1 ?_
        exact List.forall_mem_cons.mpr ⟨current.2, fun frame member => below frame member _⟩
    | methodEnds result ended => exact ticketed.keep sound rfl rfl rfl current (by simp [hold]) frames
    | settlingEnds ended outcome => exact ticketed.keep sound rfl rfl rfl current bridge frames
    | applies ended outcome completion rest queued =>
        have counted := Bridge.apply_counts completion ended
        rw [show ended.adapter.ticketsIssued = _ from current] at counted
        exact ticketed.keep sound rfl rfl rfl counted bridge frames
    | adopts ended outcome socket rest settled accepted =>
        exact ticketed.keep sound rfl rfl rfl current bridge frames
    | returns ended outcome settled adopted quiet =>
        refine ticketed.keep sound ?_ ?_ rfl trivial ?_ frames
        · cases outcome <;> rfl
        · cases outcome <;> rfl
        · rintro found same
          cases same
          exact current
    | startsBatch ended outcome first rest settled adopted called =>
        refine ticketed.keep sound rfl rfl rfl trivial ?_
          (List.forall_mem_cons.mpr ⟨trivial, frames⟩)
        rintro found same
        cases same
        exact current
    | resumesCaller => exact ticketed.keep sound rfl rfl rfl trivial bridge frames
    | startsNext first rest outcome =>
        exact ticketed.keep sound rfl rfl rfl trivial bridge
          (List.forall_mem_cons.mpr ⟨trivial, frames⟩)
    | pumpsAgain outcome ended free =>
        exact ticketed.keep sound rfl rfl rfl (ticketed.bridge _ free) (by simp [hold]) frames
    | endsBatch outcome held =>
        refine ticketed.keep sound ?_ ?_ rfl trivial bridge frames
        · cases outcome <;> rfl
        · cases outcome <;> rfl

theorem start_ticketed (id : Nat) (config : SessionConfig) :
    Ticketed [] .idle (Machine.start id config : Machine φ) where
  sound := start_sound id config
  serials := rfl
  accounted := .nil
  activity := trivial
  bridge := by
    rintro bridge same
    cases same
    rfl
  frames := by simp [start]

end Machine

/-! ## Completions -/

/-- A completion is one of the request of a ticket. -/
def Ticket.Yields (ticket : Ticket) (completion : Completion) : Prop :=
  ∃ payload, completion = ticket.request.completion payload

def Event.Genuine : Event φ → Prop
  | .sent ticket completion => ticket.Yields completion
  | _ => True

/-- The tickets whose completions were applied, in the order in which they were sent. -/
def servedTickets (history : List (Event φ)) : List Ticket :=
  (completedTickets history).take (history.filterMap Event.applied?).length

theorem servedTickets_same (history : List (Event φ)) {events : List (Event φ)}
    (completed : events.filterMap Event.completed? = [])
    (applied : events.filterMap Event.applied? = []) :
    servedTickets (history ++ events) = servedTickets history := by
  rw [servedTickets, completedTickets, List.filterMap_append, List.filterMap_append, completed,
    applied, List.append_nil, List.append_nil, servedTickets, completedTickets]

theorem completedTickets_grow {past history : List (Event φ)} (before : past <+: history) :
    completedTickets past <+: completedTickets history := by
  obtain ⟨later, rfl⟩ := before
  rw [completedTickets, completedTickets, List.filterMap_append]
  exact List.prefix_append _ _

theorem completedTickets_yield {history : List (Event φ)}
    (genuine : ∀ event ∈ history, event.Genuine) :
    List.Forall₂ Ticket.Yields (completedTickets history) (history.filterMap Event.sent?) := by
  induction history with
  | nil => exact .nil
  | cons event rest ih =>
      obtain ⟨first, others⟩ := List.forall_mem_cons.mp genuine
      cases event with
      | sent ticket completion => exact .cons first (ih others)
      | _ => exact ih others

/-- At any time, the completions that were applied are the first of those that were sent. -/
def SentFirst (history : List (Event φ)) : Prop :=
  ∀ past, past <+: history → past.filterMap Event.applied? <+: past.filterMap Event.sent?

namespace SentFirst

variable {history : List (Event φ)}

theorem concat (sentFirst : SentFirst history) {event : Event φ}
    (now : (history ++ [event]).filterMap Event.applied? <+:
      (history ++ [event]).filterMap Event.sent?) : SentFirst (history ++ [event]) := by
  intro past before
  rcases List.prefix_concat_iff.mp before with rfl | earlier
  · exact now
  · exact sentFirst past earlier

theorem append (sentFirst : SentFirst history) {events : List (Event φ)}
    (none : ∀ event ∈ events, event.applied? = none) : SentFirst (history ++ events) := by
  induction events using List.reverseRecOn with
  | nil => rwa [List.append_nil]
  | append_singleton earlier event ih =>
      rw [List.forall_mem_append, List.forall_mem_singleton] at none
      have before := ih none.1
      rw [← List.append_assoc]
      refine before.concat ?_
      have now := before _ (List.prefix_refl _)
      rw [List.filterMap_append, List.filterMap_append]
      simpa [none.2] using now.trans (List.prefix_append _ _)

end SentFirst

namespace Machine

theorem genuine_invariant :
    Invariant fun history (_ : Activity φ) (_ : Machine φ) => ∀ event ∈ history, event.Genuine where
  begins := by
    intro history machine move events activity after genuine begins
    refine List.forall_mem_append.mpr ⟨genuine, ?_⟩
    cases begins with
    | complete ticket payload | completeLater ticket payload =>
        simp [Event.Genuine, Ticket.Yields]
    | _ => simp [Event.Genuine]
  continues := by
    intro history activity machine events next after genuine continues
    refine List.forall_mem_append.mpr ⟨genuine, ?_⟩
    cases continues with
    | methodTells effect rest | settlingTells effect rest =>
        intro event member
        have told := machine.effect_told effect event member
        cases event <;> trivial
    | returns bridge outcome | endsBatch outcome =>
        cases outcome <;> simp [Outcome.returning, Event.Genuine]
    | _ => simp [Event.Genuine]

theorem sentFirst_invariant : Invariant fun history (activity : Activity φ) machine =>
    Accounts history activity machine ∧ SentFirst history where
  begins := by
    rintro history machine move events activity after ⟨accounts, sentFirst⟩ begins
    refine ⟨accounts_invariant.begins history accounts begins, sentFirst.append ?_⟩
    cases begins <;> simp [Event.applied?]
  continues := by
    rintro history activity machine events next after ⟨accounts, sentFirst⟩ continues
    have later := accounts_invariant.continues history accounts continues
    refine ⟨later, ?_⟩
    cases continues with
    | applies bridge outcome completion rest queued =>
        exact sentFirst.concat ⟨_, later.sent.symm⟩
    | methodTells effect rest | settlingTells effect rest =>
        exact sentFirst.append (machine.effect_unseen effect).2.2
    | returns bridge outcome | endsBatch outcome =>
        refine sentFirst.append ?_
        cases outcome <;> simp [Outcome.returning, Event.applied?]
    | _ => exact sentFirst.append (by simp [Event.applied?])

theorem start_sentFirst : SentFirst ([] : List (Event φ)) := by
  intro past before
  rw [List.prefix_nil.mp before]
  exact List.nil_prefix

variable {history : List (Event φ)} {activity : Activity φ} {machine : Machine φ}

theorem Accounts.length_served (accounts : Accounts history activity machine)
    (genuine : ∀ event ∈ history, event.Genuine) :
    (servedTickets history).length = (history.filterMap Event.applied?).length := by
  have counted := (completedTickets_yield genuine).length_eq
  rw [accounts.sent, List.length_append] at counted
  rw [servedTickets, List.length_take]
  omega

/-- The completion that is applied next is that of the next ticket. -/
theorem Accounts.serve_next (accounts : Accounts history activity machine)
    (genuine : ∀ event ∈ history, event.Genuine) {completion : Completion}
    {rest : List Completion} (queued : machine.queue = completion :: rest) :
    ∃ ticket, servedTickets (history ++ [.applied completion]) = servedTickets history ++ [ticket] ∧
      servedTickets history ++ [ticket] <+: completedTickets history ∧ ticket.Yields completion := by
  have yields := completedTickets_yield genuine
  rw [accounts.sent, queued] at yields
  have later := List.forall₂_drop_append _ _ _ yields
  generalize split : (completedTickets history).drop (history.filterMap Event.applied?).length =
    waiting at later
  cases later with
  | cons next others =>
      rename_i ticket waiting
      have whole : completedTickets history = servedTickets history ++ ticket :: waiting := by
        rw [servedTickets, ← split, List.take_append_drop]
      have count := accounts.length_served genuine
      have same : completedTickets (history ++ [.applied completion]) = completedTickets history := by
        simp [completedTickets, Event.completed?]
      refine ⟨ticket, ?_, ?_, next⟩
      · rw [servedTickets, same, List.filterMap_append, List.length_append, ← count, whole]
        simp [Event.applied?, List.take_append, List.take_of_length_le]
      · rw [whole]
        exact ⟨waiting, by simp⟩

end Machine

end EmuScript.Engine
