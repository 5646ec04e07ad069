import EmuScript.Proofs.Engine.Order
import EmuScript.Proofs.Engine.Reentry
import EmuScript.Proofs.Engine.WriteLog

/-!
# Completions of writes

Every function that was given with a write which the emulator has taken is called once
if the write has completed, and not at all otherwise; functions that were given with
rejected writes are never called for them. The log of writes is drawn up along the moves
of the environment, and agrees with the session after each piece of a move.
-/

set_option autoImplicit false

namespace EmuScript.Engine

open Program

variable {φ α : Type}

/-! ## The log along a run -/

namespace Move

/-- The function that is given with a write. -/
def offers : Move φ → Option (Option φ)
  | .call method => method.offers
  | .complete _ _ | .invoke _ _ | .answer _ | .finish _ => none

/-- The function that is given for connections, data or new clients. -/
def given? : Move φ → Option φ
  | .call method => method.given?
  | .complete _ _ | .invoke _ _ | .answer _ | .finish _ => none

end Move

namespace WriteLog

/-- The emulator is asked for a write, with which a function was given. -/
def note (offers : Option (Option φ)) (log : WriteLog φ) : Event φ → WriteLog φ
  | .asked _ call =>
      match offers, call.ticket? with
      | some callback, some ticket =>
          if ticket.writes?.isSome then { log with asked := some ⟨ticket, callback⟩ } else log
      | _, _ => log
  | _ => log

/-- The environment makes a move. The emulator may answer a write with it. -/
def begin (log : WriteLog φ) (machine : Machine φ) : Move φ → WriteLog φ
  | .answer reply =>
      match machine.frames with
      | .method call _ :: _ => log.answered (reply call).isOk
      | _ => log
  | _ => log

def advance (log : WriteLog φ) (machine : Machine φ) (move : Move φ) : WriteLog φ :=
  (machine.step move).2.foldl (note move.offers) (log.begin machine move)

def along (log : WriteLog φ) (machine : Machine φ) : List (Move φ) → WriteLog φ
  | [] => log
  | move :: rest => (log.advance machine move).along (machine.step move).1 rest

theorem along_concat (log : WriteLog φ) (machine : Machine φ) (moves : List (Move φ))
    (move : Move φ) :
    log.along machine (moves ++ [move]) =
      (log.along machine moves).advance (machine.steps moves).1 move := by
  induction moves generalizing log machine with
  | nil => rfl
  | cons first rest ih => exact ih (log.advance machine first) (machine.step first).1

theorem note_other (offers : Option (Option φ)) (log : WriteLog φ) {event : Event φ}
    (other : event.handed? = none) : log.note offers event = log := by
  cases event with
  | asked owner call =>
      have none : call.ticket? = none := other
      cases offers <;> simp [note, none]
  | _ => rfl

theorem foldl_note_other (offers : Option (Option φ)) (log : WriteLog φ) {events : List (Event φ)}
    (other : events.filterMap Event.handed? = []) : events.foldl (note offers) log = log := by
  induction events with
  | nil => rfl
  | cons event rest ih =>
      rw [List.filterMap_eq_nil_iff, List.forall_mem_cons] at other
      rw [List.foldl_cons, note_other offers log other.1]
      exact ih (List.filterMap_eq_nil_iff.mpr other.2)

theorem foldl_note_none (log : WriteLog φ) (events : List (Event φ)) :
    events.foldl (note none) log = log := by
  induction events with
  | nil => rfl
  | cons event rest ih => cases event <;> exact ih

/-- What a program is to do while the log is such. -/
def duty (log : WriteLog φ) (given : φ → Prop) (streams : Prop) (offers : Option (Option φ))
    (due : List φ) (served : List Ticket) : Duty φ :=
  { given, streams, offers, due, backlog := log.backlog served }

/-- A log agrees with what was observed. -/
abbrev Fits (log : WriteLog φ) (given : φ → Prop) (due : List φ) (history : List (Event φ)) : Prop :=
  log.Agrees given due (handedTickets history) (completedTickets history) (servedTickets history)
    (Ledger.ofEvents history).queued

end WriteLog

/-! ## Events -/

/-- No ticket is handed out or completed, no completion is applied and no call is queued by
the event. -/
def Event.Bare : Event φ → Prop
  | .sent _ _ | .applied _ | .deferred _ => False
  | .asked _ call => call.ticket? = none
  | _ => True

theorem queued_bare (history : List (Event φ)) {events : List (Event φ)}
    (bare : ∀ event ∈ events, event.Bare) :
    (Ledger.ofEvents (history ++ events)).queued = (Ledger.ofEvents history).queued := by
  induction events generalizing history with
  | nil => simp
  | cons event rest ih =>
      obtain ⟨first, others⟩ := List.forall_mem_cons.mp bare
      have entry : Ledger.ofEvents (history ++ [event]) = (Ledger.ofEvents history).record event :=
        Ledger.ofEvents_append _ _
      rw [← List.singleton_append, ← List.append_assoc, ih (history ++ [event]) others, entry]
      cases event with
      | sent | applied | deferred => exact first.elim
      | started invocation =>
          have neutral : Event.Neutral (.started invocation) := trivial
          exact (record_neutral _ neutral).2
      | _ => rfl

theorem tickets_bare (history : List (Event φ)) {events : List (Event φ)}
    (bare : ∀ event ∈ events, event.Bare) :
    handedTickets (history ++ events) = handedTickets history ∧
      completedTickets (history ++ events) = completedTickets history ∧
      servedTickets (history ++ events) = servedTickets history := by
  have unseen {β : Type} (observe : Event φ → Option β)
      (none : ∀ event : Event φ, event.Bare → observe event = none) : events.filterMap observe = [] :=
    List.filterMap_eq_nil_iff.mpr fun event member => none event (bare event member)
  have handed := unseen Event.handed? fun event bare => by
    cases event <;> first | rfl | exact bare
  have completed := unseen Event.completed? fun event bare => by
    cases event <;> first | rfl | exact bare.elim
  have applied := unseen Event.applied? fun event bare => by
    cases event <;> first | rfl | exact bare.elim
  refine ⟨?_, ?_, servedTickets_same history completed applied⟩
  · rw [handedTickets, List.filterMap_append, handed, List.append_nil, handedTickets]
  · rw [completedTickets, List.filterMap_append, completed, List.append_nil, completedTickets]

theorem WriteLog.Agrees.bare {log : WriteLog φ} {given : φ → Prop} {due : List φ}
    {history events : List (Event φ)} (fits : log.Fits given due history)
    (bare : ∀ event ∈ events, event.Bare) : log.Fits given due (history ++ events) := by
  obtain ⟨handed, completed, served⟩ := tickets_bare history bare
  rw [Fits, handed, completed, served, queued_bare history bare]
  exact fits

/-- A native function is called for a write, or for something else. -/
inductive WriteRequest.Made (call : NativeCall φ) : Option (WriteRequest φ) → Prop where
  | write {ticket : Ticket} (callback : Option φ) (handed : call.ticket? = some ticket)
      (writes : ticket.writes?.isSome) : Made call (some ⟨ticket, callback⟩)
  | other (plain : call.writes? = none) : Made call none

theorem WriteRequest.Made.vacant {call : NativeCall φ} {asked : Option (WriteRequest φ)}
    (made : Made call asked) (plain : call.writes? = none) : asked = none := by
  cases made with
  | write callback handed writes =>
      have target : call.writes?.isSome := by simpa [NativeCall.writes?, handed] using writes
      simp [plain] at target
  | other plain => rfl

namespace WriteLog.Agrees

variable {log : WriteLog φ} {given : φ → Prop} {due : List φ} {history : List (Event φ)}

/-- A native function is called. If it is for a write, the log takes note of it. -/
theorem asked (fits : log.Fits given due history) {offers : Option (Option φ)}
    (vacant : log.asked = none) (owner : Nat) {call : NativeCall φ}
    (offered : call.writes?.isSome → offers.isSome) :
    (log.note offers (.asked owner call)).Fits given due (history ++ [.asked owner call]) ∧
      WriteRequest.Made call (log.note offers (.asked owner call)).asked ∧
      (log.note offers (.asked owner call)).accepted = log.accepted ∧
      servedTickets (history ++ [.asked owner call]) = servedTickets history ∧
      (call.writes?.isSome →
        (log.note offers (.asked owner call)).asked.map (·.callback) = offers) := by
  have completed : completedTickets (history ++ [.asked owner call]) = completedTickets history := by
    simp [completedTickets, Event.completed?]
  have served : servedTickets (history ++ [.asked owner call]) = servedTickets history :=
    servedTickets_same history rfl rfl
  have queued : (Ledger.ofEvents (history ++ [.asked owner call])).queued =
      (Ledger.ofEvents history).queued := by
    simp [Ledger.ofEvents_append, Ledger.record]
  cases handed : call.ticket? with
  | none =>
      have plain : call.writes? = none := by simp [NativeCall.writes?, handed]
      have same : log.note offers (.asked owner call) = log := note_other _ _ handed
      rw [same, vacant]
      exact ⟨fits.bare (by simp [Event.Bare, handed]), .other plain, rfl, served, by simp [plain]⟩
  | some ticket =>
      have grown : handedTickets (history ++ [.asked owner call]) =
          handedTickets history ++ [ticket] := by
        simp [handedTickets, Event.handed?, handed]
      cases writes : ticket.writes? with
      | none =>
          have plain : call.writes? = none := by simp [NativeCall.writes?, handed, writes]
          have same : log.note offers (.asked owner call) = log := by
            cases offers <;> simp [note, handed, writes]
          rw [same, Fits, grown, completed, served, queued, vacant]
          exact ⟨fits.handOther writes, .other plain, rfl, rfl, by simp [plain]⟩
      | some fd =>
          have target : call.writes? = some fd := by simp [NativeCall.writes?, handed, writes]
          obtain ⟨callback, rfl⟩ := Option.isSome_iff_exists.mp (offered (by simp [target]))
          have isWrite : ticket.writes?.isSome := by simp [writes]
          have same : log.note (some callback) (.asked owner call) =
              { log with asked := some ⟨ticket, callback⟩ } := by
            simp [note, handed, writes]
          rw [same, Fits, grown, completed, served, queued]
          exact ⟨fits.ask callback vacant isWrite, .write callback handed isWrite, rfl, rfl,
            fun _ => rfl⟩

end WriteLog.Agrees

/-! ## What a session does -/

/-- What is known of a session without regard to the log. -/
structure Machine.Known (history : List (Event φ)) (activity : Activity φ) (machine : Machine φ) :
    Prop where
  upheld : Upheld history activity machine
  accounts : Accounts history activity machine
  ticketed : Ticketed history activity machine
  genuine : ∀ event ∈ history, event.Genuine
  opened : ∀ ticket ∈ handedTickets history, ticket.request.endpoint ∈ openings history

theorem openings_subset (history events : List (Event φ)) :
    openings history ⊆ openings (history ++ events) := by
  rw [openings, openings, List.filterMap_append]
  exact List.subset_append_left _ _

theorem Machine.Begins.hands_nothing {machine after : Machine φ} {move : Move φ}
    {events : List (Event φ)} {activity : Activity φ}
    (begins : Begins machine move events activity after) : events.filterMap Event.handed? = [] := by
  cases begins <;> rfl

theorem Machine.known_invariant : Invariant (Known (φ := φ)) where
  begins := by
    intro history machine move events activity after known begins
    refine ⟨upheld_invariant.begins history known.upheld begins,
      accounts_invariant.begins history known.accounts begins,
      ticketed_invariant.begins history known.ticketed begins,
      genuine_invariant.begins history known.genuine begins, fun ticket member => ?_⟩
    rw [handedTickets, List.filterMap_append, begins.hands_nothing, List.append_nil] at member
    exact openings_subset _ _ (known.opened ticket member)
  continues := by
    intro history activity machine events next after known continues
    refine ⟨upheld_invariant.continues history known.upheld continues,
      accounts_invariant.continues history known.accounts continues,
      ticketed_invariant.continues history known.ticketed continues,
      genuine_invariant.continues history known.genuine continues, fun ticket member => ?_⟩
    refine openings_subset _ _ ?_
    rw [handedTickets, List.filterMap_append, List.mem_append] at member
    rcases member with before | handed
    · exact known.opened ticket before
    · have current := known.upheld.activity
      cases continues with
      | methodAsks call next | settlingAsks call next outcome =>
          have asked : call.ticket? = some ticket := by simpa [Event.handed?] using handed
          exact current.1 ticket asked
      | methodTells effect rest | settlingTells effect rest =>
          rw [(machine.effect_unseen effect).1] at handed
          cases handed
      | returns bridge outcome | endsBatch outcome => cases outcome <;> cases handed
      | _ => cases handed

/-! ## The log and the session -/

theorem Ticket.endpoint_of_writes {ticket : Ticket} {fd : SocketFd}
    (writes : ticket.writes? = some fd) : ticket.request.endpoint = .socket fd := by
  obtain ⟨serial, request⟩ := ticket
  cases request with
  | write target =>
      cases writes
      rfl
  | connect | accept | read => cases writes

/-- The completion that is being applied is not that of a write. -/
def Streaming (served : List Ticket) : Prop :=
  ∀ ticket, served.getLast? = some ticket → ticket.writes? = none

def Frame.Tends (given : φ → Prop) (log : WriteLog φ) (served : List Ticket) : Frame φ → Prop
  | .method call next => WriteRequest.Made call log.asked ∧ ∀ reply, EmuScript.Engine.Tends
      ((log.duty given True (log.asked.map (·.callback)) [] served).answered call reply) (next reply)
  | .settling call next _ => log.asked = none ∧ call.writes? = none ∧
      ∀ reply, EmuScript.Engine.Tends (log.duty given (Streaming served) none [] served) (next reply)
  | .script _ _ _ | .reporting _ _ _ => True

def Activity.Tends (given : φ → Prop) (offers : Option (Option φ)) (due : List φ)
    (log : WriteLog φ) (served : List Ticket) : Activity φ → Prop
  | .method program =>
      due = [] ∧ EmuScript.Engine.Tends (log.duty given True offers [] served) program
  | .settling program _ =>
      EmuScript.Engine.Tends (log.duty given (Streaming served) none due served) program
  | .pumping bridge _ => due = [] ∧ bridge.Keeps given (log.backlog served)
  | .idle | .resuming _ => due = []

theorem Frame.tends_of_called {frame : Frame φ} (called : frame.resume?.isSome)
    (given : φ → Prop) (log : WriteLog φ) (served : List Ticket) :
    frame.Tends given log served := by
  cases frame with
  | method | settling => simp [Frame.resume?] at called
  | script | reporting => trivial

theorem Ticket.Yields.writes {ticket : Ticket} {completion : Completion} {fd : SocketFd}
    (yields : ticket.Yields completion) (written : completion = .written fd) :
    ticket.writes? = some fd := by
  obtain ⟨serial, request⟩ := ticket
  obtain ⟨payload, rfl⟩ := yields
  cases request with
  | write target =>
      cases written
      rfl
  | connect | accept | read => cases written

namespace WriteLog

/-- What the application of the next completion is to do. -/
theorem duty_serve (log : WriteLog φ) (given : φ → Prop) (served : List Ticket) {ticket : Ticket}
    {completion : Completion} (yields : ticket.Yields completion) :
    completion.duty given (log.backlog served) =
      log.duty given (Streaming (served ++ [ticket])) none (log.due served ticket)
        (served ++ [ticket]) := by
  obtain ⟨serial, request⟩ := ticket
  obtain ⟨payload, rfl⟩ := yields
  cases request with
  | write fd =>
      simp [Request.completion, Completion.duty, duty, due, backlog_serve, Ticket.writes?, Streaming]
  | connect | accept | read =>
      simp [Request.completion, Completion.duty, duty, due, backlog_serve, Ticket.writes?, Streaming]

theorem duty_answered {log : WriteLog φ} {given : φ → Prop} {due : List φ}
    {handed completed served : List Ticket} {queued : List (Queued φ)}
    (agrees : log.Agrees given due handed completed served queued) {call : NativeCall φ}
    (made : WriteRequest.Made call log.asked) (reply : NativeCall.Reply call) :
    (log.duty given True (log.asked.map (·.callback)) [] served).answered call reply =
      (log.answered reply.isOk).duty given True none [] served := by
  cases asked : log.asked with
  | none =>
      rw [asked] at made
      cases made with
      | other plain =>
          have same : (log.answered reply.isOk).accepted = log.accepted := by
            cases reply <;> simp [answered, asked, Except.isOk, Except.toBool]
          simp [duty, Duty.answered, plain, backlog_of_accepted same]
  | some write =>
      rw [asked] at made
      cases made with
      | write callback handed writes =>
          obtain ⟨fd, writes⟩ := Option.isSome_iff_exists.mp writes
          have target : call.writes? = some fd := by simp [NativeCall.writes?, handed, writes]
          simp only [Duty.answered, target]
          cases reply with
          | ok value => simp [duty, Except.isOk, Except.toBool, agrees.backlog_taken asked writes]
          | error thrown =>
              have same : (log.answered false).accepted = log.accepted := rfl
              simp [duty, Except.isOk, Except.toBool, backlog_of_accepted same]

end WriteLog

namespace Machine

/-- A bridge that is held keeps nothing. -/
theorem keeps_of_held {machine : Machine φ} {given : φ → Prop}
    {backlog : SocketFd → List (Option φ)} (held : machine.bridge = none) :
    ∀ bridge, machine.bridge = some bridge → bridge.Keeps given backlog := by
  simp [held]

/-- A log tracks the writes of a session. -/
structure Tracks (given : φ → Prop) (offers : Option (Option φ)) (log : WriteLog φ)
    (history : List (Event φ)) (activity : Activity φ) (machine : Machine φ) : Prop where
  known : Known history activity machine
  /-- The emulator is asked for a write only while a method waits for it. -/
  vacant : (∀ frame ∈ machine.frames, frame.resume?.isSome) → log.asked = none
  current : ∃ due, log.Fits given due history ∧
    activity.Tends given offers due log (servedTickets history)
  bridge : ∀ bridge, machine.bridge = some bridge →
    bridge.Keeps given (log.backlog (servedTickets history))
  adopted : ∀ socket ∈ machine.adopted, socket.Blank
  frames : ∀ frame ∈ machine.frames, frame.Tends given log (servedTickets history)

namespace Tracks

variable {given : φ → Prop} {offers next? : Option (Option φ)} {log : WriteLog φ}
  {history events : List (Event φ)} {activity next : Activity φ} {machine after : Machine φ}

theorem keep (tracks : Tracks given offers log history activity machine)
    (known : Known (history ++ events) next after) (bare : ∀ event ∈ events, event.Bare)
    (vacant : (∀ frame ∈ after.frames, frame.resume?.isSome) → log.asked = none)
    (current : ∀ due, activity.Tends given offers due log (servedTickets history) →
      next.Tends given next? due log (servedTickets history))
    (bridge : ∀ bridge, after.bridge = some bridge →
      bridge.Keeps given (log.backlog (servedTickets history)))
    (adopted : ∀ socket ∈ after.adopted, socket.Blank)
    (frames : ∀ frame ∈ after.frames, frame.Tends given log (servedTickets history)) :
    Tracks given next? log (history ++ events) next after := by
  obtain ⟨-, -, served⟩ := tickets_bare history bare
  obtain ⟨due, fits, tends⟩ := tracks.current
  exact
    { known
      vacant
      current := ⟨due, fits.bare bare, served ▸ current due tends⟩
      bridge := by rwa [served]
      adopted
      frames := by rwa [served] }

/-- The completion of a request is sent. -/
theorem send (tracks : Tracks given offers log history activity machine) {ticket : Ticket}
    {completion : Completion} {rest : List (Event φ)}
    (known : Known (history ++ .sent ticket completion :: rest) next after)
    (bare : ∀ event ∈ rest, event.Bare)
    (inOrder : log.InOrder (completedTickets (history ++ .sent ticket completion :: rest)))
    (current : ∀ due, activity.Tends given offers due log (servedTickets history) →
      next.Tends given next? due log (servedTickets history))
    (bridge : ∀ bridge, after.bridge = some bridge →
      bridge.Keeps given (log.backlog (servedTickets history)))
    (adopted : after.adopted = machine.adopted) (frames : after.frames = machine.frames) :
    Tracks given next? log (history ++ .sent ticket completion :: rest) next after := by
  have split : history ++ .sent ticket completion :: rest =
      history ++ [.sent ticket completion] ++ rest := by simp
  obtain ⟨handedSame, completedSame, servedSame⟩ :=
    tickets_bare (history ++ [.sent ticket completion]) bare
  have handed : handedTickets (history ++ [.sent ticket completion]) = handedTickets history := by
    simp [handedTickets, Event.handed?]
  have completed : completedTickets (history ++ [.sent ticket completion]) =
      completedTickets history ++ [ticket] := by
    simp [completedTickets, Event.completed?]
  have served : servedTickets (history ++ [.sent ticket completion]) = servedTickets history := by
    have applied : (history ++ [Event.sent ticket completion]).filterMap Event.applied? =
        history.filterMap Event.applied? := by simp [Event.applied?]
    have within := tracks.known.accounts.length_served tracks.known.genuine
    rw [servedTickets, List.length_take] at within
    rw [servedTickets, completed, applied, List.take_append_of_le_length (by omega), servedTickets]
  have queued : (Ledger.ofEvents (history ++ [.sent ticket completion])).queued =
      (Ledger.ofEvents history).queued := by
    simp [Ledger.ofEvents_append, Ledger.record]
  obtain ⟨due, fits, tends⟩ := tracks.current
  have sent : log.Fits given due (history ++ [.sent ticket completion]) := by
    rw [WriteLog.Fits, handed, completed, served, queued]
    refine fits.send ticket ?_
    rwa [split, completedSame, completed] at inOrder
  rw [split] at known ⊢
  rw [served] at servedSame
  exact
    { known
      vacant := by rw [frames]; exact tracks.vacant
      current := ⟨due, sent.bare bare, servedSame ▸ current due tends⟩
      bridge := by rwa [servedSame]
      adopted := by rw [adopted]; exact tracks.adopted
      frames := by rw [servedSame, frames]; exact tracks.frames }

/-- The environment begins with anything but the answer to a method. -/
theorem begins (tracks : Tracks given none log history .idle machine) {move : Move φ}
    (begins : Begins machine move events activity after)
    (other : ∀ reply call next rest, move = .answer reply →
      machine.frames ≠ .method call next :: rest)
    (new : ∀ callback, move.given? = some callback → given callback)
    (inOrder : log.InOrder (completedTickets (history ++ events))) :
    Tracks given move.offers log (history ++ events) activity after := by
  have known := known_invariant.begins history tracks.known begins
  have vacant := tracks.vacant
  have bridge := tracks.bridge
  have frames := tracks.frames
  cases begins with
  | ignored | busy | invokeNothing =>
      exact tracks.keep known (by simp [Event.Bare]) vacant (fun _ idle => idle) bridge
        tracks.adopted frames
  | call method bridge free =>
      refine tracks.keep known (by simp) vacant ?_ (by simp [hold]) tracks.adopted frames
      rintro due rfl
      have keyed := (tracks.known.upheld.bridge bridge free).keyed
      exact ⟨rfl, method.run_tends keyed new (tracks.bridge bridge free)⟩
  | completeLater ticket payload handed held =>
      exact tracks.send known (by simp [Event.Bare]) inOrder (fun _ idle => idle) bridge rfl rfl
  | complete ticket payload bridge handed free =>
      refine tracks.send known (by simp) inOrder ?_ (by simp [hold]) rfl rfl
      rintro due rfl
      exact ⟨rfl, tracks.bridge bridge free⟩
  | invoke closure arguments invocation owner =>
      refine tracks.keep known (by simp [Event.Bare]) ?_ (fun _ idle => idle) bridge tracks.adopted
        (List.forall_mem_cons.mpr ⟨trivial, frames⟩)
      exact fun called => vacant (List.forall_mem_cons.mp called).2
  | answerMethod reply call next rest top => exact (other reply call next rest rfl top).elim
  | answerSettling reply call next outcome rest top =>
      rw [top, List.forall_mem_cons] at frames
      obtain ⟨⟨quiet, -, tends⟩, below⟩ := frames
      refine tracks.keep known (by simp) (fun _ => quiet) ?_ bridge tracks.adopted below
      rintro due rfl
      exact tends (reply call)
  | printed reply owner line resume rest top | unprinted reply owner line resume rest top
  | finish invocation owner resume rest top =>
      rw [top, List.forall_mem_cons] at frames
      refine tracks.keep known (by simp [Event.Bare]) (fun called => vacant ?_)
        (fun _ idle => idle) bridge tracks.adopted frames.2
      rw [top]
      exact List.forall_mem_cons.mpr ⟨rfl, called⟩
  | throw thrown invocation owner resume rest top =>
      rw [top, List.forall_mem_cons] at frames
      refine tracks.keep known (by simp [Event.Bare, NativeCall.ticket?]) (fun called => vacant ?_)
        (fun _ idle => idle) bridge tracks.adopted (List.forall_mem_cons.mpr ⟨trivial, frames.2⟩)
      rw [top]
      exact List.forall_mem_cons.mpr ⟨rfl, (List.forall_mem_cons.mp called).2⟩

/-- The emulator answers a method. -/
theorem answers (tracks : Tracks given none log history .idle machine) {call : NativeCall φ}
    {next : NativeCall.Reply call → NativeProgram φ (Except Failure Answer × Bridge φ)}
    {rest : List (Frame φ)} (top : machine.frames = .method call next :: rest)
    (reply : (call : NativeCall φ) → NativeCall.Reply call)
    (inOrder : (log.answered (reply call).isOk).InOrder (completedTickets history)) :
    Tracks given none (log.answered (reply call).isOk) history (.method (next (reply call)))
      (machine.returnTo rest) := by
  have known := known_invariant.begins history tracks.known (.answerMethod machine reply call next
    rest top)
  rw [List.append_nil] at known
  have stack := tracks.known.upheld.sound.1
  rw [top] at stack
  obtain ⟨held, stack⟩ := stack.of_holder rfl
  have frames := tracks.frames
  rw [top, List.forall_mem_cons] at frames
  obtain ⟨made, tends⟩ := frames.1
  obtain ⟨due, fits, quiet⟩ := tracks.current
  cases quiet
  have answered := fits.answer tracks.known.ticketed.handed_nodup (reply call).isOk inOrder
  exact
    { known
      vacant := fun _ => by cases (reply call).isOk <;> rfl
      current := by
        refine ⟨[], answered, rfl, ?_⟩
        rw [← WriteLog.duty_answered fits made]
        exact tends (reply call)
      bridge := keeps_of_held (Option.not_isSome_iff_eq_none.mp (Bool.eq_false_iff.mp held))
      adopted := tracks.adopted
      frames := fun frame member =>
        Frame.tends_of_called (stack.called frame member) given _ _ }

/-- No writes were asked for on a socket that is yet to be opened. -/
theorem free_place (tracks : Tracks given offers log history activity machine) {fd : SocketFd}
    (distinct : (openings (history ++ [.opened (.socket fd)])).Nodup) :
    log.backlog (servedTickets history) fd = [] := by
  have fresh : .socket fd ∉ openings history := by
    have split : openings (history ++ [.opened (.socket fd)]) = openings history ++ [.socket fd] := by
      simp [openings, Event.opened?]
    rw [split] at distinct
    exact fun member => (List.nodup_append.mp distinct).2.2 _ member _ (by simp) rfl
  obtain ⟨due, fits, -⟩ := tracks.current
  have none : log.acceptedOn fd = [] := by
    refine List.filter_eq_nil_iff.mpr fun write accepted writes => fresh ?_
    have own : write.ticket.writes? = some fd := by simpa using writes
    obtain ⟨handed, -⟩ := fits.writes (WriteLog.mem_all_of_accepted accepted)
    rw [← Ticket.endpoint_of_writes own]
    exact tracks.known.opened write.ticket handed
  simp [WriteLog.backlog, none]

/-- A native function is called, and a frame waits for it. -/
theorem ask (tracks : Tracks given offers log history activity machine) {call : NativeCall φ}
    {frame : Frame φ} {noted : WriteLog φ} (held : machine.bridge = none)
    (stack : Stack true machine.frames) (holds : frame.resume? = none)
    (known : Known (history ++ [.asked machine.id call]) .idle (machine.ask machine.id call frame).1)
    (fits : noted.Fits given [] (history ++ [.asked machine.id call]))
    (tends : frame.Tends given noted (servedTickets (history ++ [.asked machine.id call]))) :
    Tracks given offers noted (history ++ [.asked machine.id call]) .idle
      (machine.ask machine.id call frame).1 where
  known
  vacant called := by
    have first := (List.forall_mem_cons.mp called).1
    simp [holds] at first
  current := ⟨[], fits, rfl⟩
  bridge := keeps_of_held held
  adopted := tracks.adopted
  frames := List.forall_mem_cons.mpr ⟨tends, fun frame member =>
    Frame.tends_of_called (stack.called frame member) given _ _⟩

theorem asksForMethod {call : NativeCall φ}
    {next : NativeCall.Reply call → NativeProgram φ (Except Failure Answer × Bridge φ)}
    (tracks : Tracks given offers log history (.method (.ask call next)) machine)
    (known : Known (history ++ [.asked machine.id call]) .idle
      (machine.ask machine.id call (.method call next)).1) :
    Tracks given offers (log.note offers (.asked machine.id call))
      (history ++ [.asked machine.id call]) .idle
      (machine.ask machine.id call (.method call next)).1 := by
  obtain ⟨held, stack⟩ := tracks.known.upheld.sound
  obtain ⟨due, fits, rfl, -, offered, tends⟩ := tracks.current
  have offered : call.writes?.isSome → offers.isSome := offered
  obtain ⟨noted, made, accepted, served, same⟩ :=
    fits.asked (tracks.vacant stack.called) machine.id offered
  refine tracks.ask held stack rfl known noted ⟨made, fun reply => ?_⟩
  rw [served]
  have equal : ((log.note offers (.asked machine.id call)).duty given True
      ((log.note offers (.asked machine.id call)).asked.map (·.callback)) []
        (servedTickets history)).answered call reply =
      (log.duty given True offers [] (servedTickets history)).answered call reply := by
    cases writes : call.writes? with
    | none =>
        simp only [Duty.answered, writes, WriteLog.duty, WriteLog.backlog_of_accepted accepted]
    | some fd =>
        rw [same (by simp [writes]), WriteLog.duty, WriteLog.backlog_of_accepted accepted,
          ← WriteLog.duty]
  rw [equal]
  exact tends reply

theorem asksForCompletion {call : NativeCall φ} {outcome : Outcome}
    {next : NativeCall.Reply call → NativeProgram φ (Unit × Bridge φ)}
    (tracks : Tracks given offers log history (.settling (.ask call next) outcome) machine)
    (known : Known (history ++ [.asked machine.id call]) .idle
      (machine.ask machine.id call (.settling call next outcome)).1) :
    Tracks given offers (log.note offers (.asked machine.id call))
      (history ++ [.asked machine.id call]) .idle
      (machine.ask machine.id call (.settling call next outcome)).1 := by
  obtain ⟨held, stack⟩ := tracks.known.upheld.sound
  obtain ⟨due, fits, quiet, offered, tends⟩ := tracks.current
  have none : due = [] := quiet
  subst none
  have plain : call.writes? = none := by
    cases writes : call.writes? with
    | none => rfl
    | some fd => simp [writes, WriteLog.duty] at offered
  have vacant := tracks.vacant stack.called
  have offered : call.writes?.isSome → offers.isSome := by simp [plain]
  obtain ⟨noted, made, accepted, served, -⟩ := fits.asked vacant machine.id offered
  refine tracks.ask held stack rfl known noted ⟨made.vacant plain, plain, fun reply => ?_⟩
  have idle : (log.duty given (Streaming (servedTickets history)) none []
    (servedTickets history)).Plain := ⟨rfl, rfl⟩
  rw [served, WriteLog.duty, WriteLog.backlog_of_accepted accepted, ← WriteLog.duty,
    ← idle.answered plain reply]
  exact tends reply

/-- A program tells of something. -/
theorem tell (tracks : Tracks given offers log history activity machine) {effect : Effect φ}
    (known : Known (history ++ (machine.effect effect).2) next (machine.effect effect).1)
    {due : List φ} (fits : log.Fits given due (history ++ (machine.effect effect).2))
    (served : servedTickets (history ++ (machine.effect effect).2) = servedTickets history)
    (current : next.Tends given offers due log (servedTickets history))
    (adopted : ∀ socket ∈ (machine.effect effect).1.adopted, socket.Blank) :
    Tracks given offers log (history ++ (machine.effect effect).2) next
      (machine.effect effect).1 := by
  obtain ⟨bridge, -, frames, -, -⟩ := machine.effect_frame effect
  exact
    { known
      vacant := by rw [frames]; exact tracks.vacant
      current := ⟨due, fits, served ▸ current⟩
      bridge := by rw [bridge, served]; exact tracks.bridge
      adopted
      frames := by rw [frames, served]; exact tracks.frames }

/-- What is no signal queues no call and shows no new client. -/
theorem tell_plain (tracks : Tracks given offers log history activity machine) {effect : Effect φ}
    (plain : ∀ signal, effect ≠ .notice (.signal signal))
    (known : Known (history ++ (machine.effect effect).2) next (machine.effect effect).1)
    {due : List φ} (fits : log.Fits given due history)
    (current : next.Tends given offers due log (servedTickets history)) :
    Tracks given offers log (history ++ (machine.effect effect).2) next
      (machine.effect effect).1 := by
  obtain ⟨bare, adopted⟩ : (∀ event ∈ (machine.effect effect).2, event.Bare) ∧
      (machine.effect effect).1.adopted = machine.adopted := by
    cases effect with
    | notice notice =>
        cases notice with
        | log record => simp [Machine.effect, Event.Bare]
        | signal signal => exact (plain signal rfl).elim
    | consoleLog | keepProcedure | dropProcedure | opened => simp [Machine.effect, Event.Bare]
  obtain ⟨-, -, served⟩ := tickets_bare history bare
  refine tracks.tell known (fits.bare bare) served current ?_
  rw [adopted]
  exact tracks.adopted

theorem opens_free_place (tracks : Tracks given offers log history activity machine)
    {effect : Effect φ} (distinct : (openings (history ++ (machine.effect effect).2)).Nodup) :
    ∀ fd, effect.opened? = some (.socket fd) → log.backlog (servedTickets history) fd = [] := by
  intro fd opens
  cases effect with
  | opened endpoint =>
      cases opens
      exact tracks.free_place distinct
  | notice | consoleLog | keepProcedure | dropProcedure => cases opens

end Tracks

end Machine

namespace WriteLog.Agrees

variable {log : WriteLog φ} {given : φ → Prop} {due : List φ} {history : List (Event φ)}
  {activity : Activity φ} {machine : Machine φ}

/-- A call is queued: of the function that is due, or of one that was given for something
else than a write. -/
theorem deferred (fits : log.Fits given due history)
    (known : machine.Known history activity) (invocation : Invocation φ) {later : List φ}
    (allowed : due = invocation.callback :: later ∧ invocation.arguments = [] ∨
      due = later ∧ given invocation.callback ∧ Streaming (servedTickets history)) :
    log.Fits given later (history ++ [.deferred invocation]) ∧
      servedTickets (history ++ [.deferred invocation]) = servedTickets history := by
  have handed : handedTickets (history ++ [.deferred invocation]) = handedTickets history := by
    simp [handedTickets, Event.handed?]
  have completed : completedTickets (history ++ [.deferred invocation]) = completedTickets history := by
    simp [completedTickets, Event.completed?]
  have served : servedTickets (history ++ [.deferred invocation]) = servedTickets history :=
    servedTickets_same history rfl rfl
  have queued : (Ledger.ofEvents (history ++ [.deferred invocation])).queued =
      (Ledger.ofEvents history).queued ++ [(Ledger.ofEvents history).newcomer invocation] := by
    simp [Ledger.ofEvents_append, Ledger.record]
  have newest : ((Ledger.ofEvents history).newcomer invocation).age =
      (servedTickets history).length := by
    rw [known.accounts.length_served known.genuine, ← Ledger.applied_eq]
    rfl
  refine ⟨?_, served⟩
  rw [Fits, handed, completed, served, queued]
  rcases allowed with ⟨rfl, plain⟩ | ⟨rfl, given, streams⟩
  · refine fits.callWritten newest ?_
    cases invocation
    cases plain
    rfl
  · exact fits.callGiven newest given streams

/-- A handler that was given for something else than a write is called. -/
theorem handled (fits : log.Fits given due history) (known : machine.Known history activity)
    (streams : Streaming (servedTickets history)) {handler : Closure φ}
    (within : handler.Within given) (arguments : List Argument) (session : Machine φ) :
    log.Fits given due (history ++ (session.defer handler arguments).2) ∧
      servedTickets (history ++ (session.defer handler arguments).2) = servedTickets history ∧
      (session.defer handler arguments).1.adopted ⊆ session.adopted := by
  cases handler with
  | deferred callback =>
      obtain ⟨queued, served⟩ := fits.deferred known ⟨callback, arguments⟩
        (.inr ⟨rfl, within callback rfl, streams⟩)
      exact ⟨queued, served, List.Subset.refl _⟩
  | immediate | silent | procedure =>
      change log.Fits given due (history ++ []) ∧ servedTickets (history ++ []) = _ ∧ _
      rw [List.append_nil]
      exact ⟨fits, rfl, List.Subset.refl _⟩

end WriteLog.Agrees

namespace Machine.Tracks

variable {given : φ → Prop} {offers : Option (Option φ)} {log : WriteLog φ}
  {history events : List (Event φ)} {activity next : Activity φ} {machine after : Machine φ}

/-- A handler is called for the completion that is being applied. -/
theorem signals {signal : Signal (Closure φ)} {outcome : Outcome}
    {rest : NativeProgram φ (Unit × Bridge φ)}
    (tracks : Tracks given offers log history
      (.settling (.tell (.notice (.signal signal)) rest) outcome) machine)
    (known : Known (history ++ (machine.effect (.notice (.signal signal))).2)
      (.settling rest outcome) (machine.effect (.notice (.signal signal))).1) :
    Tracks given offers log (history ++ (machine.effect (.notice (.signal signal))).2)
      (.settling rest outcome) (machine.effect (.notice (.signal signal))).1 := by
  obtain ⟨due, fits, permitted, tends⟩ := tracks.current
  have tends := tends (by simp [Effect.opened?])
  have permits := permitted signal rfl
  cases signal with
  | hook handler address => exact permits.elim
  | connected handler | closed handler =>
      obtain ⟨streams, within⟩ := permits
      obtain ⟨queued, served, adopted⟩ := fits.handled tracks.known streams within [] machine
      exact tracks.tell known queued served tends fun socket member =>
        tracks.adopted socket (adopted member)
  | received handler data =>
      obtain ⟨streams, within⟩ := permits
      obtain ⟨queued, served, adopted⟩ :=
        fits.handled tracks.known streams within [.bytes data] machine
      exact tracks.tell known queued served tends fun socket member =>
        tracks.adopted socket (adopted member)
  | accepted handler client =>
      obtain ⟨streams, within, blank⟩ := permits
      obtain ⟨queued, served, adopted⟩ := fits.handled tracks.known streams within
        [.word client.fd.value] { machine with adopted := machine.adopted ++ [client] }
      have before := List.forall_mem_append.mpr ⟨tracks.adopted, List.forall_mem_singleton.mpr blank⟩
      exact tracks.tell known queued served tends fun socket member => before socket (adopted member)
  | written handler =>
      obtain ⟨callback, rfl, first⟩ := permits
      obtain ⟨later, rfl⟩ : ∃ later, due = callback :: later := List.head?_eq_some_iff.mp first
      obtain ⟨queued, served⟩ := fits.deferred tracks.known ⟨callback, []⟩ (.inl ⟨rfl, rfl⟩)
      exact tracks.tell known queued served tends tracks.adopted

/-- A completion is applied. -/
theorem applies {bridge : Bridge φ} {outcome : Outcome} {completion : Completion}
    {rest : List Completion}
    (tracks : Tracks given offers log history (.pumping bridge outcome) machine)
    (queued : machine.queue = completion :: rest)
    (known : Known (history ++ [.applied completion])
      (.settling (Bridge.apply completion bridge) outcome) { machine with queue := rest }) :
    Tracks given offers log (history ++ [.applied completion])
      (.settling (Bridge.apply completion bridge) outcome) { machine with queue := rest } := by
  obtain ⟨held, stack⟩ := tracks.known.upheld.sound
  obtain ⟨ticket, served, next, yields⟩ :=
    tracks.known.accounts.serve_next tracks.known.genuine queued
  have vacant := tracks.vacant stack.called
  obtain ⟨due, fits, rfl, keeps⟩ := tracks.current
  have ticketed := tracks.known.ticketed
  have handed : handedTickets (history ++ [.applied completion]) = handedTickets history := by
    simp [handedTickets, Event.handed?]
  have completed : completedTickets (history ++ [.applied completion]) =
      completedTickets history := by
    simp [completedTickets, Event.completed?]
  have calls : (Ledger.ofEvents (history ++ [.applied completion])).queued =
      (Ledger.ofEvents history).queued := by
    simp [Ledger.ofEvents_append, Ledger.record]
  have applied := fits.serve ticketed.handed_nodup ticketed.completed_nodup vacant next
  refine ⟨known, fun _ => vacant, ⟨log.due (servedTickets history) ticket, ?_, ?_⟩,
    keeps_of_held held, tracks.adopted, ?_⟩
  · rw [WriteLog.Fits, handed, completed, served, calls]
    exact applied
  · rw [served]
    have duty := log.duty_serve given (servedTickets history) yields
    change EmuScript.Engine.Tends _ _
    rw [← duty]
    refine Bridge.apply_tends completion (fun fd written => ?_) keeps
    exact fits.backlog_ne_nil vacant next (yields.writes written)
  · exact fun frame member => Frame.tends_of_called (stack.called frame member) given _ _

theorem continues (tracks : Tracks given offers log history activity machine)
    (piece : Continues machine activity events next after)
    (distinct : (openings (history ++ events)).Nodup) :
    Tracks given offers (events.foldl (WriteLog.note offers) log) (history ++ events) next after := by
  have known := known_invariant.continues history tracks.known piece
  have vacant := tracks.vacant
  have bridge := tracks.bridge
  have frames := tracks.frames
  have unchanged (other : events.filterMap Event.handed? = []) :
      events.foldl (WriteLog.note offers) log = log := log.foldl_note_other offers other
  cases piece with
  | methodTells effect rest =>
      rw [unchanged (machine.effect_unseen effect).1]
      obtain ⟨due, fits, rfl, -, tends⟩ := tracks.current
      have silent (signal : Signal (Closure φ)) : effect ≠ .notice (.signal signal) :=
        fun same => tracks.known.upheld.activity.1 signal same
      have later := tends (tracks.opens_free_place distinct)
      rw [Duty.told_silent _ silent] at later
      exact tracks.tell_plain silent known fits ⟨rfl, later⟩
  | settlingTells effect rest outcome =>
      rw [unchanged (machine.effect_unseen effect).1]
      by_cases silent : ∀ signal, effect ≠ .notice (.signal signal)
      · obtain ⟨due, fits, -, tends⟩ := tracks.current
        have later := tends (tracks.opens_free_place distinct)
        rw [Duty.told_silent _ silent] at later
        exact tracks.tell_plain silent known fits later
      · obtain ⟨signal, rfl⟩ : ∃ signal, effect = .notice (.signal signal) := by simpa using silent
        exact tracks.signals known
  | methodAsks call next => exact tracks.asksForMethod known
  | settlingAsks call next outcome => exact tracks.asksForCompletion known
  | methodEnds result ended =>
      refine tracks.keep known (by simp) vacant ?_ (by simp [hold]) tracks.adopted frames
      rintro due ⟨rfl, -, keeps⟩
      exact ⟨rfl, keeps⟩
  | settlingEnds ended outcome =>
      refine tracks.keep known (by simp) vacant ?_ bridge tracks.adopted frames
      rintro due ⟨quiet, keeps⟩
      exact ⟨quiet, keeps⟩
  | applies ended outcome completion rest queued => exact tracks.applies queued known
  | adopts ended outcome socket rest settled accepted =>
      have adopted := tracks.adopted
      rw [accepted, List.forall_mem_cons] at adopted
      refine tracks.keep known (by simp [Event.Bare]) vacant ?_ bridge adopted.2 frames
      rintro due ⟨rfl, keeps⟩
      exact ⟨rfl, Bridge.Keeps.putNew keeps adopted.1 (tracks.free_place distinct)⟩
  | returns ended outcome settled adopted quiet =>
      obtain ⟨due, -, -, keeps⟩ := tracks.current
      rw [unchanged (by cases outcome <;> rfl)]
      refine tracks.keep known ?_ vacant (fun due held => held.1) ?_ tracks.adopted frames
      · cases outcome <;> simp [Outcome.returning, Event.Bare]
      · rintro found same
        cases same
        exact keeps
  | startsBatch ended outcome first rest settled adopted called =>
      obtain ⟨due, -, -, keeps⟩ := tracks.current
      refine tracks.keep known (by simp [Event.Bare]) ?_ (fun due held => held.1) ?_ tracks.adopted
        (List.forall_mem_cons.mpr ⟨trivial, frames⟩)
      · exact fun called => vacant (List.forall_mem_cons.mp called).2
      · rintro found same
        cases same
        exact keeps
  | resumesCaller =>
      exact tracks.keep known (by simp [Event.Bare]) vacant (fun _ idle => idle) bridge
        tracks.adopted frames
  | startsNext first rest outcome =>
      refine tracks.keep known (by simp [Event.Bare]) ?_ (fun _ idle => idle) bridge tracks.adopted
        (List.forall_mem_cons.mpr ⟨trivial, frames⟩)
      exact fun called => vacant (List.forall_mem_cons.mp called).2
  | pumpsAgain outcome ended free =>
      refine tracks.keep known (by simp) vacant ?_ (by simp [hold]) tracks.adopted frames
      rintro due rfl
      exact ⟨rfl, bridge ended free⟩
  | endsBatch outcome held =>
      rw [unchanged (by cases outcome <;> rfl)]
      refine tracks.keep known ?_ vacant (fun _ idle => idle) bridge tracks.adopted frames
      cases outcome <;> simp [Outcome.returning, Event.Bare]

theorem finishes (run : Finishes activity machine events after)
    (tracks : Tracks given offers log history activity machine)
    (distinct : (openings (history ++ events)).Nodup) :
    Tracks given offers (events.foldl (WriteLog.note offers) log) (history ++ events) .idle after := by
  induction run generalizing log history with
  | idle machine => simpa using tracks
  | step piece rest ih =>
      rename_i events later
      rw [← List.append_assoc] at distinct ⊢
      have first : (openings (history ++ events)).Nodup := by
        rw [openings, List.filterMap_append] at distinct
        exact distinct.sublist (List.sublist_append_left _ _)
      rw [List.foldl_append]
      exact ih (tracks.continues piece first) distinct

theorem idle (tracks : Tracks given offers log history .idle machine) :
    Tracks given none log history .idle machine :=
  { tracks with current := tracks.current }

theorem step (tracks : Tracks given none log history .idle machine) (move : Move φ)
    (new : ∀ callback, move.given? = some callback → given callback)
    (inOrder : (log.advance machine move).InOrder
      (completedTickets (history ++ (machine.step move).2)))
    (distinct : (openings (history ++ (machine.step move).2)).Nodup) :
    Tracks given none (log.advance machine move) (history ++ (machine.step move).2) .idle
      (machine.step move).1 := by
  by_cases answers : ∃ reply call next rest, move = .answer reply ∧
      machine.frames = .method call next :: rest
  · obtain ⟨reply, call, next, rest, rfl, top⟩ := answers
    have stepped : machine.step (.answer reply) =
        (machine.returnTo rest).advanceMethod (next (reply call)) := by
      simp only [Machine.step, answer, top]
      rfl
    have begun : log.begin machine (.answer reply) = log.answered (reply call).isOk := by
      simp only [WriteLog.begin, top]
    have advanced : log.advance machine (.answer reply) = log.answered (reply call).isOk := by
      rw [WriteLog.advance, begun]
      exact WriteLog.foldl_note_none _ _
    rw [advanced] at inOrder ⊢
    rw [stepped] at inOrder distinct ⊢
    have early := inOrder.earlier (completedTickets_grow (List.prefix_append _ _))
    have answered := tracks.answers top reply early
    have finished := answered.finishes (advanceMethod_finishes _ _) distinct
    rwa [WriteLog.foldl_note_none] at finished
  · have other : ∀ reply call next rest, move = .answer reply →
        machine.frames ≠ .method call next :: rest :=
      fun reply call next rest same top => answers ⟨reply, call, next, rest, same, top⟩
    have begun : log.begin machine move = log := by
      cases move with
      | answer reply =>
          cases top : machine.frames with
          | nil => simp only [WriteLog.begin, top]
          | cons frame rest =>
              cases frame with
              | method call next => exact (other reply call next rest rfl top).elim
              | settling | script | reporting => simp only [WriteLog.begin, top]
      | call | complete | invoke | finish => rfl
    obtain ⟨first, activity, between, later, begins, finishes, events⟩ :=
      (machine.step_turn move).split
    rw [WriteLog.advance, begun, events] at inOrder ⊢
    rw [events, ← List.append_assoc] at distinct
    have unhanded : first.foldl (WriteLog.note move.offers) log = log :=
      log.foldl_note_other _ begins.hands_nothing
    rw [List.foldl_append, unhanded] at inOrder ⊢
    have early : log.InOrder (completedTickets (history ++ first)) := by
      cases move with
      | call method =>
          obtain ⟨due, fits, -⟩ := tracks.current
          have same : completedTickets (history ++ first) = completedTickets history := by
            cases begins <;> simp [completedTickets, Event.completed?]
          rw [same]
          exact fits.inOrder
      | complete | invoke | answer | finish =>
          rw [Move.offers, WriteLog.foldl_note_none, ← List.append_assoc] at inOrder
          exact inOrder.earlier (completedTickets_grow (List.prefix_append _ _))
    rw [← List.append_assoc]
    exact ((tracks.begins begins other new early).finishes finishes distinct).idle

end Machine.Tracks

/-! ## Runs -/

namespace WriteLog

/-- The log of a session after some moves. -/
def ofMoves (id : Nat) (config : SessionConfig) (moves : List (Move φ)) : WriteLog φ :=
  ({} : WriteLog φ).along (.start id config) moves

/-- At any time so far, the emulator had completed writes on each socket in the order in
which it was asked for them, and none that it had rejected. -/
def AlwaysInOrder (id : Nat) (config : SessionConfig) (moves : List (Move φ)) : Prop :=
  ∀ past, past <+: moves → (ofMoves id config past).InOrder
    (completedTickets ((Machine.start id config : Machine φ).steps past).2)

end WriteLog

namespace Machine

theorem start_known (id : Nat) (config : SessionConfig) :
    Known [] .idle (start id config : Machine φ) where
  upheld := start_upheld id config
  accounts := start_accounts id config
  ticketed := start_ticketed id config
  genuine := by simp
  opened := by simp [handedTickets]

theorem start_tracks (given : φ → Prop) (id : Nat) (config : SessionConfig) :
    Tracks given none {} [] .idle (start id config : Machine φ) where
  known := start_known id config
  vacant _ := rfl
  current := ⟨[], WriteLog.Agrees.nothing, rfl⟩
  bridge := by
    rintro bridge same
    cases same
    refine ⟨fun fd => rfl, ?_, ?_⟩
    · rintro key socket ⟨⟩
    · rintro key server ⟨⟩
  adopted := by simp [start]
  frames := by simp [start]

theorem run_tracks {given : φ → Prop} (id : Nat) (config : SessionConfig) {moves : List (Move φ)}
    (new : ∀ move ∈ moves, ∀ callback, move.given? = some callback → given callback)
    (inOrder : WriteLog.AlwaysInOrder id config moves)
    (distinct : (openings ((start id config : Machine φ).steps moves).2).Nodup) :
    Tracks given none (WriteLog.ofMoves id config moves)
      ((start id config : Machine φ).steps moves).2 .idle
      ((start id config : Machine φ).steps moves).1 := by
  induction moves using List.reverseRecOn with
  | nil => exact start_tracks given id config
  | append_singleton past move ih =>
      have now := inOrder _ (List.prefix_refl _)
      rw [WriteLog.ofMoves, WriteLog.along_concat, ← WriteLog.ofMoves, steps_concat_events] at now
      rw [steps_concat_events] at distinct
      have before : (openings ((start id config : Machine φ).steps past).2).Nodup := by
        rw [openings, List.filterMap_append] at distinct
        exact distinct.sublist (List.sublist_append_left _ _)
      have earlier := ih (fun other member => new other (List.mem_append_left _ member))
        (fun some before => inOrder some (before.trans (List.prefix_append _ _))) before
      rw [WriteLog.ofMoves, WriteLog.along_concat, ← WriteLog.ofMoves, steps_concat,
        steps_concat_events]
      exact earlier.step move (new move (by simp)) now distinct

end Machine

end EmuScript.Engine
