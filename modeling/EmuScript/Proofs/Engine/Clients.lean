import EmuScript.Emulator.NativeTable
import EmuScript.Proofs.Engine.ClientLog
import EmuScript.Proofs.Engine.WriteCalls

/-!
# Clients along a run

The log of clients is drawn up along the moves of the environment, and agrees with the
session after each piece of a move. Every client that comes to a server is shown once to the
function that was installed, which finds the client's socket in its place, and a server has
as many requests under way as methods have made, less those that were refused when a client
had come.
-/

set_option autoImplicit false

namespace EmuScript.Engine

open Program

variable {φ α : Type}

/-! ## The log along a run -/

/-- The function that a method installs for the clients of a server. -/
def Move.receiver? : Move φ → Option φ
  | .call method => method.receiver?
  | .complete _ _ | .invoke _ _ | .answer _ | .finish _ => none

namespace ClientLog

def note (log : ClientLog φ) : Event φ → ClientLog φ
  | .asked _ call =>
      match call.ticket? with
      | some ticket =>
          match ticket.accepts? with
          | some server => log.ask ticket server
          | none => log
      | none => log
  | .applied completion => log.hear completion
  | _ => log

/-- The environment makes a move. The emulator may answer a request with it. -/
def begin (log : ClientLog φ) (machine : Machine φ) (move : Move φ) : ClientLog φ :=
  let log :=
    match move with
    | .answer reply =>
        match machine.frames with
        | .method call _ :: _ | .settling call _ _ :: _ => log.answered (reply call).isOk
        | _ => log
    | _ => log
  { log with gives := move.receiver? }

theorem begin_cases (log : ClientLog φ) (machine : Machine φ) (move : Move φ) :
    log.begin machine move = { log with gives := move.receiver? } ∨
      ∃ granted, log.begin machine move = { log.answered granted with gives := move.receiver? } := by
  cases move with
  | answer reply =>
      cases top : machine.frames with
      | nil => exact .inl (by simp only [begin, top])
      | cons frame rest =>
          cases frame with
          | method call | settling call =>
              exact .inr ⟨(reply call).isOk, by simp only [begin, top]⟩
          | script | reporting => exact .inl (by simp only [begin, top])
  | call | complete | invoke | finish => exact .inl rfl

theorem begin_installed (log : ClientLog φ) (machine : Machine φ) (move : Move φ) :
    (log.begin machine move).installed = log.installed := by
  obtain same | ⟨granted, same⟩ := log.begin_cases machine move
  · rw [same]
  · rw [same]
    exact log.answered_installed granted

/-- After an answer to what holds the bridge, no request is without one. -/
theorem begin_asked {log : ClientLog φ} {machine : Machine φ} {frame : Frame φ}
    {rest : List (Frame φ)} (top : machine.frames = frame :: rest) (holds : frame.resume? = none)
    (reply : (call : NativeCall φ) → NativeCall.Reply call) :
    (log.begin machine (.answer reply)).asked = none := by
  cases frame with
  | method call | settling call =>
      simp only [begin, top]
      cases (reply call).isOk <;> rfl
  | script | reporting => cases holds

def advance (log : ClientLog φ) (machine : Machine φ) (move : Move φ) : ClientLog φ :=
  (machine.step move).2.foldl note (log.begin machine move)

def along (log : ClientLog φ) (machine : Machine φ) : List (Move φ) → ClientLog φ
  | [] => log
  | move :: rest => (log.advance machine move).along (machine.step move).1 rest

theorem along_concat (log : ClientLog φ) (machine : Machine φ) (moves : List (Move φ))
    (move : Move φ) :
    log.along machine (moves ++ [move]) =
      (log.along machine moves).advance (machine.steps moves).1 move := by
  induction moves generalizing log machine with
  | nil => rfl
  | cons first rest ih => exact ih (log.advance machine first) (machine.step first).1

def ofMoves (id : Nat) (config : SessionConfig) (moves : List (Move φ)) : ClientLog φ :=
  ({} : ClientLog φ).along (.start id config) moves

/-- A log agrees with what was observed. -/
abbrev Fits (log : ClientLog φ) (due : List (Invocation φ)) (arms : Option SocketFd)
    (history : List (Event φ)) : Prop :=
  log.Agrees due arms (handedTickets history) (servedTickets history)
    (Ledger.ofEvents history).applied (Ledger.ofEvents history).queued

end ClientLog

/-! ## Events -/

/-- Nothing is opened, applied or queued by the event, and no ticket is handed out. -/
def Event.Still (event : Event φ) : Prop :=
  event.Neutral ∧ event.handed? = none

/-- A socket or server was opened when at least some number of completions had been applied. -/
def OpenedSince (age : Nat) (history : List (Event φ)) (endpoint : Endpoint) : Prop :=
  ∃ earlier later, history = earlier ++ .opened endpoint :: later ∧
    age ≤ (earlier.filterMap Event.applied?).length

theorem OpenedSince.append {age : Nat} {history : List (Event φ)} {endpoint : Endpoint}
    (opened : OpenedSince age history endpoint) (events : List (Event φ)) :
    OpenedSince age (history ++ events) endpoint := by
  obtain ⟨earlier, later, rfl, dated⟩ := opened
  exact ⟨earlier, later ++ events, by simp, dated⟩

theorem OpenedSince.opened {age : Nat} {history : List (Event φ)} {endpoint : Endpoint}
    (opened : OpenedSince age history endpoint) : endpoint ∈ openings history := by
  obtain ⟨earlier, later, rfl, -⟩ := opened
  simp [openings, Event.opened?]

/-- The completion applied last brings no client. -/
def Streams (history : List (Event φ)) : Prop :=
  (cause history).bind Completion.arms = none

section Still

variable {events : List (Event φ)}

theorem ClientLog.foldl_note_other (log : ClientLog φ)
    (unhanded : events.filterMap Event.handed? = [])
    (unapplied : ∀ event ∈ events, event.applied? = none) : events.foldl note log = log := by
  induction events with
  | nil => rfl
  | cons event rest ih =>
      rw [List.filterMap_eq_nil_iff, List.forall_mem_cons] at unhanded
      rw [List.forall_mem_cons] at unapplied
      have same : log.note event = log := by
        cases event with
        | asked owner call =>
            have none : call.ticket? = none := unhanded.1
            simp [note, none]
        | applied completion => cases unapplied.1
        | _ => rfl
      rw [List.foldl_cons, same]
      exact ih (List.filterMap_eq_nil_iff.mpr unhanded.2) unapplied.2

theorem unhanded_still (still : ∀ event ∈ events, event.Still) :
    events.filterMap Event.handed? = [] :=
  List.filterMap_eq_nil_iff.mpr fun event member => (still event member).2

theorem unapplied_still (still : ∀ event ∈ events, event.Still) :
    ∀ event ∈ events, event.applied? = none := by
  intro event member
  obtain ⟨neutral, -⟩ := still event member
  cases event <;> first | rfl | exact neutral.elim

theorem ClientLog.Agrees.still {log : ClientLog φ} {due : List (Invocation φ)}
    {arms : Option SocketFd} {history : List (Event φ)} (fits : log.Fits due arms history)
    (within : (history.filterMap Event.applied?).length ≤ (completedTickets history).length)
    (still : ∀ event ∈ events, event.Still) : log.Fits due arms (history ++ events) := by
  have handed : handedTickets (history ++ events) = handedTickets history := by
    rw [handedTickets, List.filterMap_append, unhanded_still still, List.append_nil, handedTickets]
  have none : events.filterMap Event.applied? = [] :=
    List.filterMap_eq_nil_iff.mpr (unapplied_still still)
  have applied : (Ledger.ofEvents (history ++ events)).applied =
      (Ledger.ofEvents history).applied := by
    rw [Ledger.applied_eq, List.filterMap_append, none, List.append_nil, Ledger.applied_eq]
  have served : servedTickets (history ++ events) = servedTickets history := by
    have grown : completedTickets (history ++ events) =
        completedTickets history ++ completedTickets events := List.filterMap_append
    rw [servedTickets, grown, List.filterMap_append, none, List.append_nil,
      List.take_append_of_le_length within, servedTickets]
  have queued := (ofEvents_neutral history fun event member => (still event member).1).2
  rw [Fits, handed, served, applied, queued]
  exact fits

end Still

/-! ## Requests -/

section Requests

variable {call : NativeCall φ}

theorem ClientLog.note_installed (log : ClientLog φ) (owner : Nat) (call : NativeCall φ) :
    (log.note (.asked owner call)).installed =
      Reception.installing log.installed call.accepts? log.gives := by
  rw [note, NativeCall.accepts?]
  cases call.ticket? with
  | none => rfl
  | some ticket => cases accepts : ticket.accepts? <;> simp [accepts, ask, Reception.installing]

/-- A native function is called: for a client, if a function is given for it or one has come. -/
theorem ClientLog.Agrees.asked {log : ClientLog φ} {due : List (Invocation φ)}
    {arms : Option SocketFd} {history : List (Event φ)} (fits : log.Fits due arms history)
    (vacant : log.asked = none) (owner : Nat)
    (kind : arms = if log.gives.isNone then call.accepts? else none) :
    (log.note (.asked owner call)).Fits due none (history ++ [.asked owner call]) := by
  have entry : Ledger.ofEvents (history ++ [.asked owner call]) = Ledger.ofEvents history := by
    simp [Ledger.ofEvents_append, Ledger.record]
  have handed : handedTickets (history ++ [.asked owner call]) =
      handedTickets history ++ call.ticket?.toList := by
    rw [handedTickets, List.filterMap_append, handedTickets]
    cases given : call.ticket? <;> simp [Event.handed?, given]
  have served : servedTickets (history ++ [.asked owner call]) = servedTickets history :=
    servedTickets_same history rfl rfl
  rw [Fits, entry, handed, served, note]
  rw [NativeCall.accepts?] at kind
  cases given : call.ticket? with
  | none =>
      have done : arms = none := by simpa [given] using kind
      rw [done] at fits
      simpa using fits
  | some ticket =>
      rw [given, Option.bind_some] at kind
      cases accepts : ticket.accepts? with
      | none =>
          have done : arms = none := by simpa [accepts] using kind
          rw [done] at fits
          simpa [accepts] using fits.handOther accepts
      | some server =>
          rw [accepts] at kind
          simpa [accepts] using fits.ask accepts vacant kind

end Requests

/-! ## What a session does -/

theorem Machine.Begins.applies_nothing {machine after : Machine φ} {move : Move φ}
    {events : List (Event φ)} {activity : Activity φ}
    (begins : Begins machine move events activity after) :
    ∀ event ∈ events, event.applied? = none := by
  cases begins <;> simp [Event.applied?]

theorem Ticket.Yields.endpoint {ticket : Ticket} {completion : Completion}
    (yields : ticket.Yields completion) : completion.endpoint = ticket.request.endpoint := by
  obtain ⟨serial, request⟩ := ticket
  obtain ⟨payload, rfl⟩ := yields
  cases request <;> rfl

theorem Machine.Ticketed.completed_handed {history : List (Event φ)} {activity : Activity φ}
    {machine : Machine φ} (ticketed : Ticketed history activity machine) :
    completedTickets history ⊆ handedTickets history :=
  fun _ member => ticketed.accounted.subset (List.mem_append_right _ member)

/-- A request that has completed was made for a place that was opened. -/
theorem Machine.Known.opened_of_completed {history : List (Event φ)} {activity : Activity φ}
    {machine : Machine φ} (known : Known history activity machine) {ticket : Ticket}
    (completed : ticket ∈ completedTickets history) :
    ticket.request.endpoint ∈ openings history :=
  known.opened ticket (known.ticketed.completed_handed completed)

/-- What is to be done about clients when a program goes on. -/
abbrev ClientLog.reception (log : ClientLog φ) (config : SessionConfig) (opened : List Endpoint)
    (streams : Prop) : Reception φ where
  config
  installed := log.installed
  opened
  streams

section Receives

variable (config : SessionConfig) (log : ClientLog φ) (opened : List Endpoint) (streams : Prop)

def Frame.Receives : Frame φ → Prop
  | .method _ next =>
      ∀ reply, Engine.Receives Reception.Done (log.reception config opened False) (next reply)
  | .settling _ next _ =>
      ∀ reply, Engine.Receives Reception.Done (log.reception config opened streams) (next reply)
  | .script _ _ _ | .reporting _ _ _ => True

def Activity.Receives (due : List (Invocation φ)) (arms : Option SocketFd) : Activity φ → Prop
  | .method program => due = [] ∧ arms = none ∧ ∃ server : Option SocketFd,
      (server.isSome → log.gives.isSome) ∧ Engine.Receives Reception.Done
        { log.reception config opened False with arms := server, gives := log.gives } program
  | .settling program _ => log.gives = none ∧
      Engine.Receives Reception.Done { log.reception config opened streams with due, arms } program
  | .pumping bridge _ => due = [] ∧ arms = none ∧ bridge.Hosts config log.installed opened
  | .idle | .resuming _ => due = [] ∧ arms = none

theorem Frame.receives_of_called {frame : Frame φ} (called : frame.resume?.isSome) :
    frame.Receives config log opened streams := by
  cases frame with
  | method | settling => simp [Frame.resume?] at called
  | script | reporting => trivial

end Receives

namespace Machine

/-- A log keeps account of the clients of a session. -/
structure Attends (config : SessionConfig) (log : ClientLog φ) (history : List (Event φ))
    (activity : Activity φ) (machine : Machine φ) : Prop where
  known : Known history activity machine
  /-- The emulator is asked for a client only while the bridge is held. -/
  vacant : (∀ frame ∈ machine.frames, frame.resume?.isSome) → log.asked = none
  current : ∃ due arms, log.Fits due arms history ∧
    activity.Receives config log (openings history) (Streams history) due arms
  bridge : ∀ bridge, machine.bridge = some bridge →
    bridge.Hosts config log.installed (openings history)
  adopted : ∀ socket ∈ machine.adopted, socket.BuiltFrom config
  /-- The client for which a call is queued has a place, or will have one before it is made. -/
  usable : ∀ call ∈ (Ledger.ofEvents history).queued, ∀ server client,
    call.cause = some (.accepted server client) →
      OpenedSince call.age history (.socket client) ∨ client ∈ machine.adopted.map (·.fd)
  frames : ∀ frame ∈ machine.frames,
    frame.Receives config log (openings history) (Streams history)

namespace Attends

variable {config : SessionConfig} {log : ClientLog φ} {history events : List (Event φ)}
  {activity next : Activity φ} {machine after : Machine φ}

theorem applied_within (attends : Attends config log history activity machine) :
    (history.filterMap Event.applied?).length ≤ (completedTickets history).length := by
  have served := attends.known.accounts.length_served attends.known.genuine
  rw [servedTickets, List.length_take] at served
  omega

theorem usable_append (attends : Attends config log history activity machine)
    (queued : (Ledger.ofEvents (history ++ events)).queued = (Ledger.ofEvents history).queued) :
    ∀ call ∈ (Ledger.ofEvents (history ++ events)).queued, ∀ server client,
      call.cause = some (.accepted server client) →
        OpenedSince call.age (history ++ events) (.socket client) ∨
          client ∈ machine.adopted.map (·.fd) := by
  rw [queued]
  intro call member server client caused
  exact (attends.usable call member server client caused).imp_left fun since => since.append _

theorem keep (attends : Attends config log history activity machine)
    (known : Known (history ++ events) next after) (still : ∀ event ∈ events, event.Still)
    (vacant : (∀ frame ∈ after.frames, frame.resume?.isSome) → log.asked = none)
    (current : ∀ due arms,
      activity.Receives config log (openings history) (Streams history) due arms →
        next.Receives config log (openings history) (Streams history) due arms)
    (bridge : ∀ bridge, after.bridge = some bridge →
      bridge.Hosts config log.installed (openings history))
    (adopted : after.adopted = machine.adopted)
    (frames : ∀ frame ∈ after.frames,
      frame.Receives config log (openings history) (Streams history)) :
    Attends config log (history ++ events) next after := by
  have neutral : ∀ event ∈ events, event.Neutral := fun event member => (still event member).1
  have opened := openings_neutral history neutral
  obtain ⟨same, queued⟩ := ofEvents_neutral history neutral
  have streams : Streams (history ++ events) = Streams history := by rw [Streams, same, Streams]
  obtain ⟨due, arms, fits, receives⟩ := attends.current
  refine ⟨known, vacant, ⟨due, arms, fits.still attends.applied_within still, ?_⟩, ?_, ?_, ?_, ?_⟩
  · rw [opened, streams]
    exact current due arms receives
  · rwa [opened]
  · rw [adopted]
    exact attends.adopted
  · rw [adopted]
    exact attends.usable_append queued
  · rwa [opened, streams]

theorem opens (attends : Attends config log history activity machine) {endpoint : Endpoint}
    (known : Known (history ++ [.opened endpoint]) next after)
    (current : ∀ due arms,
      activity.Receives config log (openings history) (Streams history) due arms →
        next.Receives config log (openings history ++ [endpoint]) (Streams history) due arms)
    (held : after.bridge = none) (called : ∀ frame ∈ machine.frames, frame.resume?.isSome)
    (frames : after.frames = machine.frames)
    (adopted : ∀ socket ∈ after.adopted, socket ∈ machine.adopted)
    (shown : ∀ socket ∈ machine.adopted, endpoint = .socket socket.fd ∨ socket ∈ after.adopted) :
    Attends config log (history ++ [.opened endpoint]) next after := by
  have opened : openings (history ++ [.opened endpoint]) = openings history ++ [endpoint] := by
    simp [openings, Event.opened?]
  have entry : Ledger.ofEvents (history ++ [.opened endpoint]) = Ledger.ofEvents history := by
    simp [Ledger.ofEvents_append, Ledger.record]
  have handed : handedTickets (history ++ [.opened endpoint]) = handedTickets history := by
    simp [handedTickets, Event.handed?]
  have served : servedTickets (history ++ [.opened endpoint]) = servedTickets history :=
    servedTickets_same history rfl rfl
  have streams : Streams (history ++ [.opened endpoint]) = Streams history := by
    rw [Streams, cause, entry, ← cause, Streams]
  obtain ⟨due, arms, fits, receives⟩ := attends.current
  refine ⟨known, ?_, ⟨due, arms, ?_, ?_⟩, by simp [held],
    fun socket member => attends.adopted socket (adopted socket member), ?_, ?_⟩
  · rw [frames]
    exact attends.vacant
  · rw [ClientLog.Fits, handed, served, entry]
    exact fits
  · rw [opened, streams]
    exact current due arms receives
  · rw [entry]
    intro call member server client caused
    rcases attends.usable call member server client caused with since | waits
    · exact .inl (since.append _)
    · obtain ⟨socket, adopted, rfl⟩ := List.mem_map.mp waits
      rcases shown socket adopted with rfl | stays
      · have dated := (Ledger.queued_dated history).1 call member
        rw [Ledger.applied_eq] at dated
        exact .inl ⟨history, [], rfl, dated.1⟩
      · exact .inr (List.mem_map_of_mem stays)
  · rw [frames]
    exact fun frame member => Frame.receives_of_called _ _ _ _ (called frame member)

/-- A call is queued: the one that is due for a client, or any if the completion applied last
brings no client. -/
theorem defers {program : NativeProgram φ (Unit × Bridge φ)} {outcome : Outcome}
    (attends : Attends config log history activity machine) {invocation : Invocation φ}
    (known : Known (history ++ [.deferred invocation]) (.settling program outcome) after)
    {due later : List (Invocation φ)} {arms : Option SocketFd} (fits : log.Fits due arms history)
    (allowed : due = invocation :: later ∨ due = later ∧ Streams history)
    (current : (Activity.settling program outcome).Receives config log (openings history)
      (Streams history) later arms)
    (held : after.bridge = none) (called : ∀ frame ∈ machine.frames, frame.resume?.isSome)
    (frames : after.frames = machine.frames)
    (adopted : ∀ socket ∈ after.adopted, socket.BuiltFrom config)
    (grown : ∀ socket ∈ machine.adopted, socket ∈ after.adopted)
    (shown : ∀ server client, cause history = some (.accepted server client) →
      client ∈ after.adopted.map (·.fd)) :
    Attends config log (history ++ [.deferred invocation]) (.settling program outcome) after := by
  have entry : Ledger.ofEvents (history ++ [.deferred invocation]) =
      (Ledger.ofEvents history).record (.deferred invocation) := Ledger.ofEvents_append _ _
  have opened : openings (history ++ [.deferred invocation]) = openings history := by
    simp [openings, List.filterMap_cons, Event.opened?]
  have handed : handedTickets (history ++ [.deferred invocation]) = handedTickets history := by
    simp [handedTickets, Event.handed?]
  have served : servedTickets (history ++ [.deferred invocation]) = servedTickets history :=
    servedTickets_same history rfl rfl
  have streams : Streams (history ++ [.deferred invocation]) = Streams history := by
    rw [Streams, cause, entry, Streams, cause]
    rfl
  refine ⟨known, ?_, ⟨later, arms, ?_, ?_⟩, by simp [held], adopted, ?_, ?_⟩
  · rw [frames]
    exact attends.vacant
  · rw [ClientLog.Fits, handed, served, entry]
    exact fits.queue rfl allowed
  · rw [opened, streams]
    exact current
  · rw [entry]
    intro call member server client caused
    rcases List.mem_append.mp member with before | new
    · refine (attends.usable call before server client caused).imp (fun since => since.append _) ?_
      intro waits
      obtain ⟨socket, member, rfl⟩ := List.mem_map.mp waits
      exact List.mem_map_of_mem (grown socket member)
    · cases List.mem_singleton.mp new
      exact .inr (shown server client caused)
  · rw [frames]
    exact fun frame member => Frame.receives_of_called _ _ _ _ (called frame member)

/-- What a program tells of that is neither a signal nor an opening changes nothing here. -/
theorem tells_still (attends : Attends config log history activity machine) {effect : Effect φ}
    (known : Known (history ++ (machine.effect effect).2) next (machine.effect effect).1)
    (unopened : effect.opened? = none) (silent : ∀ signal, effect ≠ .notice (.signal signal))
    (current : ∀ due arms,
      activity.Receives config log (openings history) (Streams history) due arms →
        next.Receives config log (openings history) (Streams history) due arms) :
    Attends config log (history ++ (machine.effect effect).2) next (machine.effect effect).1 := by
  obtain ⟨bridge, -, frames, -, -⟩ := machine.effect_frame effect
  obtain ⟨still, adopted⟩ : (∀ event ∈ (machine.effect effect).2, event.Still) ∧
      (machine.effect effect).1.adopted = machine.adopted := by
    cases effect with
    | notice notice =>
        cases notice with
        | log record => simp [Machine.effect, Event.Still, Event.Neutral, Event.handed?]
        | signal signal => exact (silent signal rfl).elim
    | opened endpoint => cases unopened
    | consoleLog | keepProcedure | dropProcedure =>
        simp [Machine.effect, Event.Still, Event.Neutral, Event.handed?]
  refine attends.keep known still ?_ current ?_ adopted ?_
  · rw [frames]
    exact attends.vacant
  · rw [bridge]
    exact attends.bridge
  · rw [frames]
    exact attends.frames

theorem tells (attends : Attends config log history activity machine) {effect : Effect φ}
    (known : Known (history ++ (machine.effect effect).2) next (machine.effect effect).1)
    (silent : ∀ signal, effect ≠ .notice (.signal signal))
    (held : machine.bridge = none) (called : ∀ frame ∈ machine.frames, frame.resume?.isSome)
    (current : ∀ due arms,
      activity.Receives config log (openings history) (Streams history) due arms →
        next.Receives config log (openings history ++ effect.opened?.toList) (Streams history)
          due arms) :
    Attends config log (history ++ (machine.effect effect).2) next (machine.effect effect).1 := by
  cases opens : effect.opened? with
  | none => exact attends.tells_still known opens silent (by simpa [opens] using current)
  | some endpoint =>
      cases effect with
      | opened other =>
          exact attends.opens known current held called rfl (fun _ same => same) fun _ => .inr
      | notice | consoleLog | keepProcedure | dropProcedure => cases opens

/-- A handler that is not for clients is called. -/
theorem handles {handler : Closure φ} {arguments : List Argument} {outcome : Outcome}
    {program : NativeProgram φ (Unit × Bridge φ)}
    (attends : Attends config log history activity machine)
    (held : machine.bridge = none) (called : ∀ frame ∈ machine.frames, frame.resume?.isSome)
    (streams : Streams history)
    (known : Known (history ++ (machine.defer handler arguments).2) (.settling program outcome)
      (machine.defer handler arguments).1)
    (current : ∀ due arms,
      activity.Receives config log (openings history) (Streams history) due arms →
        (Activity.settling program outcome).Receives config log (openings history)
          (Streams history) due arms) :
    Attends config log (history ++ (machine.defer handler arguments).2)
      (.settling program outcome) (machine.defer handler arguments).1 := by
  cases handler with
  | deferred callback =>
      obtain ⟨due, arms, fits, receives⟩ := attends.current
      refine attends.defers known fits (.inr ⟨rfl, streams⟩) (current due arms receives) held called
        rfl attends.adopted (fun _ same => same) fun server client caused => ?_
      have none := streams
      rw [Streams, caused] at none
      cases none
  | immediate | silent | procedure =>
      exact attends.keep known (by simp [Machine.defer]) attends.vacant current attends.bridge rfl
        attends.frames

/-- A handler is called for the completion that is being applied. -/
theorem signals {signal : Signal (Closure φ)} {outcome : Outcome}
    {rest : NativeProgram φ (Unit × Bridge φ)}
    (attends : Attends config log history
      (.settling (.tell (.notice (.signal signal)) rest) outcome) machine)
    (known : Known (history ++ (machine.effect (.notice (.signal signal))).2)
      (.settling rest outcome) (machine.effect (.notice (.signal signal))).1) :
    Attends config log (history ++ (machine.effect (.notice (.signal signal))).2)
      (.settling rest outcome) (machine.effect (.notice (.signal signal))).1 := by
  obtain ⟨held, stack⟩ := attends.known.upheld.sound
  obtain ⟨due, arms, fits, quiet, permitted, receives⟩ := attends.current
  have permits := permitted signal rfl
  have receives := receives (by simp [Effect.opened?])
  have later : ∀ due arms,
      (Activity.settling (.tell (.notice (.signal signal)) rest) outcome).Receives config log
        (openings history) (Streams history) due arms →
      (∀ handler client, signal ≠ .accepted handler client) →
        (Activity.settling rest outcome).Receives config log (openings history)
          (Streams history) due arms := by
    rintro due arms ⟨quiet, -, receives⟩ other
    have receives := receives (by simp [Effect.opened?])
    cases signal with
    | accepted handler client => exact (other handler client rfl).elim
    | _ => exact ⟨quiet, receives⟩
  cases signal with
  | hook | connected | received | closed | written =>
      exact attends.handles held stack.called permits known fun due arms before =>
        later due arms before (by simp)
  | accepted handler client =>
      obtain ⟨built, callback, rfl, first⟩ := permits
      obtain ⟨others, rfl⟩ := List.head?_eq_some_iff.mp first
      refine attends.defers known fits (.inl rfl) ⟨quiet, receives⟩ held stack.called rfl ?_ ?_ ?_
      · exact List.forall_mem_append.mpr ⟨attends.adopted, List.forall_mem_singleton.mpr built⟩
      · exact fun socket member => List.mem_append_left _ member
      · -- The call has the arguments of the completion, and those of the client's socket.
        intro server other caused
        have brought := attends.known.upheld.activity.1 _ rfl
        rw [caused] at brought
        have same : client.fd.value = other.value := by
          simpa [Brings, argumentsOf, Completion.arguments] using brought
        have own : client.fd = other := congrArg SocketFd.mk same
        simp [own, Machine.signal, Machine.effect, Machine.defer]

theorem applies {bridge : Bridge φ} {outcome : Outcome} {completion : Completion}
    {rest : List Completion}
    (attends : Attends config log history (.pumping bridge outcome) machine)
    (queued : machine.queue = completion :: rest)
    (known : Known (history ++ [.applied completion])
      (.settling (Bridge.apply completion bridge) outcome) { machine with queue := rest }) :
    Attends config (log.hear completion) (history ++ [.applied completion])
      (.settling (Bridge.apply completion bridge) outcome) { machine with queue := rest } := by
  obtain ⟨held, stack⟩ := attends.known.upheld.sound
  -- The request that completes is the next one in order, and its place was opened before.
  obtain ⟨ticket, served, next, yields⟩ :=
    attends.known.accounts.serve_next attends.known.genuine queued
  obtain ⟨due, arms, fits, rfl, rfl, hosts⟩ := attends.current
  have entry : Ledger.ofEvents (history ++ [.applied completion]) =
      (Ledger.ofEvents history).record (.applied completion) := Ledger.ofEvents_append _ _
  have opened : openings (history ++ [.applied completion]) = openings history := by
    simp [openings, List.filterMap_cons, Event.opened?]
  have handed : handedTickets (history ++ [.applied completion]) = handedTickets history := by
    simp [handedTickets, Event.handed?]
  have streams : Streams (history ++ [.applied completion]) = (completion.arms = none) := by
    simp [Streams, cause, entry, Ledger.record]
  have upheld := attends.known.upheld.activity
  refine ⟨known, attends.vacant, ⟨completion.due log.installed, completion.arms, ?_, rfl, ?_⟩,
    by simp [held], attends.adopted, attends.usable_append (by rw [entry]; rfl), ?_⟩
  · rw [ClientLog.Fits, handed, served, entry]
    exact fits.serve yields fun call member => ((Ledger.queued_dated history).1 call member).1
  · rw [opened, streams]
    refine Bridge.apply_receives completion upheld hosts ?_
    rw [yields.endpoint]
    exact attends.known.opened_of_completed (next.subset (by simp))
  · exact fun frame member => Frame.receives_of_called _ _ _ _ (stack.called frame member)

theorem asks (attends : Attends config log history activity machine) {call : NativeCall φ}
    {frame : Frame φ} (held : machine.bridge = none) (stack : Stack true machine.frames)
    (holds : frame.resume? = none) {arms : Option SocketFd}
    (known : Known (history ++ [.asked machine.id call]) .idle
      (machine.ask machine.id call frame).1)
    (fits : log.Fits [] arms history)
    (kind : arms = if log.gives.isNone then call.accepts? else none)
    (receives : frame.Receives config (log.note (.asked machine.id call)) (openings history)
      (Streams history)) :
    Attends config (log.note (.asked machine.id call)) (history ++ [.asked machine.id call]) .idle
      (machine.ask machine.id call frame).1 := by
  have neutral : ∀ event ∈ [Event.asked machine.id call], event.Neutral := by simp [Event.Neutral]
  have opened := openings_neutral history neutral
  obtain ⟨same, queued⟩ := ofEvents_neutral history neutral
  have streams : Streams (history ++ [.asked machine.id call]) = Streams history := by
    rw [Streams, same, Streams]
  have noted := fits.asked (attends.vacant stack.called) machine.id kind
  refine ⟨known, fun called => ?_, ⟨[], none, noted, rfl, rfl⟩, by simp [ask, held],
    attends.adopted, attends.usable_append queued, ?_⟩
  · have first := (List.forall_mem_cons.mp called).1
    simp [holds] at first
  · rw [opened, streams]
    exact List.forall_mem_cons.mpr ⟨receives, fun frame member =>
      Frame.receives_of_called _ _ _ _ (stack.called frame member)⟩

theorem asksForMethod {call : NativeCall φ}
    {next : NativeCall.Reply call → NativeProgram φ (Except Failure Answer × Bridge φ)}
    (attends : Attends config log history (.method (.ask call next)) machine)
    (known : Known (history ++ [.asked machine.id call]) .idle
      (machine.ask machine.id call (.method call next)).1) :
    Attends config (log.note (.asked machine.id call)) (history ++ [.asked machine.id call]) .idle
      (machine.ask machine.id call (.method call next)).1 := by
  obtain ⟨held, stack⟩ := attends.known.upheld.sound
  obtain ⟨due, arms, fits, rfl, rfl, server, gives, -, own, receives⟩ := attends.current
  have own : call.accepts? = server := own
  subst own
  refine attends.asks held stack rfl known fits ?_ fun reply => ?_
  · -- A method makes no request but to install a function.
    cases given : log.gives with
    | none =>
        have unasked : call.accepts? = none := by simpa [given] using gives
        simp [unasked]
    | some callback => rfl
  · rw [ClientLog.reception, log.note_installed]
    exact receives reply

theorem asksForCompletion {call : NativeCall φ} {outcome : Outcome}
    {next : NativeCall.Reply call → NativeProgram φ (Unit × Bridge φ)}
    (attends : Attends config log history (.settling (.ask call next) outcome) machine)
    (known : Known (history ++ [.asked machine.id call]) .idle
      (machine.ask machine.id call (.settling call next outcome)).1) :
    Attends config (log.note (.asked machine.id call)) (history ++ [.asked machine.id call]) .idle
      (machine.ask machine.id call (.settling call next outcome)).1 := by
  obtain ⟨held, stack⟩ := attends.known.upheld.sound
  obtain ⟨due, arms, fits, given, none, own, receives⟩ := attends.current
  have none : due = [] := none
  have own : call.accepts? = arms := own
  subst none own
  refine attends.asks held stack rfl known fits (by simp [given]) fun reply => ?_
  have same : (log.note (.asked machine.id call)).installed = log.installed := by
    rw [log.note_installed, given]
    cases call.accepts? <;> rfl
  have receives := receives reply
  rw [Reception.asked] at receives
  rw [ClientLog.reception, same]
  cases accepts : call.accepts? <;> rwa [accepts] at receives

theorem beginning (attends : Attends config log history .idle machine) (move : Move φ) :
    Attends config (log.begin machine move) history .idle machine := by
  obtain ⟨due, arms, fits, idle⟩ := attends.current
  have installed := log.begin_installed machine move
  refine ⟨attends.known, fun called => ?_, ⟨due, arms, ?_, idle⟩, ?_, attends.adopted,
    attends.usable, fun frame member => ?_⟩
  · have vacant := attends.vacant called
    obtain same | ⟨granted, same⟩ := log.begin_cases machine move
    · rwa [same]
    · rw [same]
      cases granted <;> rfl
  · obtain same | ⟨granted, same⟩ := log.begin_cases machine move
    · exact same ▸ fits.giving _
    · exact same ▸ (fits.answer granted).giving _
  · rw [installed]
    exact attends.bridge
  · have receives := attends.frames frame member
    cases frame with
    | method call next | settling call next =>
        simp only [Frame.Receives, ClientLog.reception, installed] at receives ⊢
        exact receives
    | script | reporting => trivial

theorem begins (attends : Attends config log history .idle machine) {move : Move φ}
    (begins : Begins machine move events activity after) :
    Attends config (log.begin machine move) (history ++ events) activity after := by
  have known := known_invariant.begins history attends.known begins
  have attends := attends.beginning move
  have vacant := attends.vacant
  have bridge := attends.bridge
  have frames := attends.frames
  cases begins with
  | ignored | busy | invokeNothing =>
      exact attends.keep known (by simp [Event.Still, Event.Neutral, Event.handed?]) vacant
        (fun _ _ idle => idle) bridge rfl frames
  | call method found free =>
      refine attends.keep known (by simp) vacant ?_ (by simp [hold]) rfl frames
      rintro due arms ⟨rfl, rfl⟩
      have fits := attends.known.upheld.bridge found free
      obtain ⟨server, given, receives⟩ := method.run_receives fits (bridge found free)
      exact ⟨rfl, rfl, server, given, receives⟩
  | completeLater ticket payload handed held =>
      exact attends.keep known (by simp [Event.Still, Event.Neutral, Event.handed?]) vacant
        (fun _ _ idle => idle) bridge rfl frames
  | complete ticket payload ended handed free =>
      refine attends.keep known (by simp [Event.Still, Event.Neutral, Event.handed?]) vacant ?_
        (by simp [hold]) rfl frames
      rintro due arms ⟨rfl, rfl⟩
      exact ⟨rfl, rfl, bridge ended free⟩
  | invoke closure arguments invocation owner =>
      refine attends.keep known (by simp [Event.Still, Event.Neutral, Event.handed?]) ?_
        (fun _ _ idle => idle) bridge rfl (List.forall_mem_cons.mpr ⟨trivial, frames⟩)
      exact fun called => vacant (List.forall_mem_cons.mp called).2
  | answerMethod reply call next rest top =>
      rw [top, List.forall_mem_cons] at frames
      obtain ⟨receives, others⟩ := frames
      simp only [Frame.Receives] at receives
      refine attends.keep known (by simp) (fun _ => ClientLog.begin_asked top rfl reply) ?_ bridge
        rfl others
      rintro due arms ⟨rfl, rfl⟩
      exact ⟨rfl, rfl, none, by simp, receives (reply call)⟩
  | answerSettling reply call next outcome rest top =>
      rw [top, List.forall_mem_cons] at frames
      obtain ⟨receives, others⟩ := frames
      simp only [Frame.Receives] at receives
      refine attends.keep known (by simp) (fun _ => ClientLog.begin_asked top rfl reply) ?_ bridge
        rfl others
      rintro due arms ⟨rfl, rfl⟩
      exact ⟨rfl, receives (reply call)⟩
  | printed reply owner line resume rest top | unprinted reply owner line resume rest top
  | finish invocation owner resume rest top =>
      rw [top, List.forall_mem_cons] at frames
      refine attends.keep known (by simp [Event.Still, Event.Neutral, Event.handed?])
        (fun called => vacant ?_) (fun _ _ idle => idle) bridge rfl frames.2
      rw [top]
      exact List.forall_mem_cons.mpr ⟨rfl, called⟩
  | throw thrown invocation owner resume rest top =>
      rw [top, List.forall_mem_cons] at frames
      refine attends.keep known (by simp [Event.Still, Event.Neutral, Event.handed?,
        NativeCall.ticket?]) (fun called => vacant ?_) (fun _ _ idle => idle) bridge rfl
        (List.forall_mem_cons.mpr ⟨trivial, frames.2⟩)
      rw [top]
      exact List.forall_mem_cons.mpr ⟨rfl, (List.forall_mem_cons.mp called).2⟩

theorem fresh {effect : Effect φ}
    (distinct : (openings (history ++ (machine.effect effect).2)).Nodup) :
    ∀ endpoint, effect.opened? = some endpoint → endpoint ∉ openings history := by
  intro endpoint opens member
  cases effect with
  | opened other =>
      cases opens
      have split : openings (history ++ [.opened endpoint]) = openings history ++ [endpoint] := by
        simp [openings, Event.opened?]
      change (openings (history ++ [.opened endpoint])).Nodup at distinct
      rw [split] at distinct
      exact (List.nodup_append.mp distinct).2.2 _ member _ (by simp) rfl
  | notice | consoleLog | keepProcedure | dropProcedure => cases opens

theorem continues (attends : Attends config log history activity machine)
    (piece : Continues machine activity events next after)
    (distinct : (openings (history ++ events)).Nodup) :
    Attends config (events.foldl ClientLog.note log) (history ++ events) next after := by
  have known := known_invariant.continues history attends.known piece
  have sound := attends.known.upheld.sound
  have vacant := attends.vacant
  have bridge := attends.bridge
  have frames := attends.frames
  have unchanged (still : ∀ event ∈ events, event.Still) : events.foldl ClientLog.note log = log :=
    log.foldl_note_other (unhanded_still still) (unapplied_still still)
  cases piece with
  | methodTells effect rest =>
      obtain ⟨held, stack⟩ := sound
      obtain ⟨handed, -, applied⟩ := machine.effect_unseen effect
      rw [log.foldl_note_other handed applied]
      have silent (signal : Signal (Closure φ)) : effect ≠ .notice (.signal signal) :=
        fun same => attends.known.upheld.activity.1 signal same
      refine attends.tells known silent held stack.called ?_
      rintro due arms ⟨rfl, rfl, server, gives, -, receives⟩
      have later := receives (fresh distinct)
      rw [Reception.told_silent _ silent] at later
      exact ⟨rfl, rfl, server, gives, later⟩
  | settlingTells effect rest outcome =>
      obtain ⟨held, stack⟩ := sound
      obtain ⟨handed, -, applied⟩ := machine.effect_unseen effect
      rw [log.foldl_note_other handed applied]
      by_cases silent : ∀ signal, effect ≠ .notice (.signal signal)
      · refine attends.tells known silent held stack.called ?_
        rintro due arms ⟨given, -, receives⟩
        have later := receives (fresh distinct)
        rw [Reception.told_silent _ silent] at later
        exact ⟨given, later⟩
      · obtain ⟨signal, rfl⟩ : ∃ signal, effect = .notice (.signal signal) := by simpa using silent
        exact attends.signals known
  | methodAsks call next => exact attends.asksForMethod known
  | settlingAsks call next outcome => exact attends.asksForCompletion known
  | methodEnds result ended =>
      refine attends.keep known (by simp) vacant ?_ (by simp [hold]) rfl frames
      rintro due arms ⟨rfl, rfl, server, gives, -, -, hosts⟩
      exact ⟨rfl, rfl, hosts⟩
  | settlingEnds ended outcome =>
      refine attends.keep known (by simp) vacant ?_ bridge rfl frames
      rintro due arms ⟨given, due, arms, hosts⟩
      exact ⟨due, arms, hosts⟩
  | applies ended outcome completion rest queued => exact attends.applies queued known
  | adopts ended outcome socket rest settled accepted =>
      obtain ⟨held, stack⟩ := sound
      have built := attends.adopted
      rw [accepted, List.forall_mem_cons] at built
      refine attends.opens known ?_ held stack.called rfl ?_ ?_
      · rintro due arms ⟨rfl, rfl, hosts⟩
        exact ⟨rfl, rfl, hosts.putSocket built.1⟩
      · simp +contextual [accepted]
      · rw [accepted]
        rintro other (- | ⟨-, later⟩)
        · exact .inl rfl
        · exact .inr later
  | returns ended outcome settled adopted quiet =>
      obtain ⟨due, arms, -, -, -, hosts⟩ := attends.current
      have still : ∀ event ∈ [Outcome.returning outcome], Event.Still (φ := φ) event := by
        cases outcome <;> simp [Outcome.returning, Event.Still, Event.Neutral, Event.handed?]
      rw [unchanged still]
      refine attends.keep known still vacant ?_ ?_ rfl frames
      · rintro due arms ⟨due, arms, -⟩
        exact ⟨due, arms⟩
      · rintro found same
        cases same
        exact hosts
  | startsBatch ended outcome first rest settled adopted called =>
      obtain ⟨due, arms, -, -, -, hosts⟩ := attends.current
      refine attends.keep known (by simp [Event.Still, Event.Neutral, Event.handed?]) ?_ ?_ ?_ rfl
        (List.forall_mem_cons.mpr ⟨trivial, frames⟩)
      · exact fun called => vacant (List.forall_mem_cons.mp called).2
      · rintro due arms ⟨due, arms, -⟩
        exact ⟨due, arms⟩
      · rintro found same
        cases same
        exact hosts
  | resumesCaller =>
      exact attends.keep known (by simp [Event.Still, Event.Neutral, Event.handed?]) vacant
        (fun _ _ idle => idle) bridge rfl frames
  | startsNext first rest outcome =>
      refine attends.keep known (by simp [Event.Still, Event.Neutral, Event.handed?]) ?_
        (fun _ _ idle => idle) bridge rfl (List.forall_mem_cons.mpr ⟨trivial, frames⟩)
      exact fun called => vacant (List.forall_mem_cons.mp called).2
  | pumpsAgain outcome ended free =>
      refine attends.keep known (by simp) vacant ?_ (by simp [hold]) rfl frames
      rintro due arms ⟨rfl, rfl⟩
      exact ⟨rfl, rfl, bridge ended free⟩
  | endsBatch outcome held =>
      have still : ∀ event ∈ [Outcome.returning outcome], Event.Still (φ := φ) event := by
        cases outcome <;> simp [Outcome.returning, Event.Still, Event.Neutral, Event.handed?]
      rw [unchanged still]
      exact attends.keep known still vacant (fun _ _ idle => idle) bridge rfl frames

theorem finishes (run : Finishes activity machine events after)
    (attends : Attends config log history activity machine)
    (distinct : (openings (history ++ events)).Nodup) :
    Attends config (events.foldl ClientLog.note log) (history ++ events) .idle after := by
  induction run generalizing log history with
  | idle machine => simpa using attends
  | step piece rest ih =>
      rename_i events later
      rw [← List.append_assoc] at distinct ⊢
      have first : (openings (history ++ events)).Nodup := by
        rw [openings, List.filterMap_append] at distinct
        exact distinct.sublist (List.sublist_append_left _ _)
      rw [List.foldl_append]
      exact ih (attends.continues piece first) distinct

theorem step (attends : Attends config log history .idle machine) (move : Move φ)
    (distinct : (openings (history ++ (machine.step move).2)).Nodup) :
    Attends config (log.advance machine move) (history ++ (machine.step move).2) .idle
      (machine.step move).1 := by
  -- What the environment begins is in the log already, and the library finishes the move.
  obtain ⟨first, activity, between, later, begins, finishes, events⟩ :=
    (machine.step_turn move).split
  have unnoted := (log.begin machine move).foldl_note_other begins.hands_nothing
    begins.applies_nothing
  rw [events, ← List.append_assoc] at distinct
  rw [ClientLog.advance, events, List.foldl_append, unnoted, ← List.append_assoc]
  exact (attends.begins begins).finishes finishes distinct

end Attends

theorem start_attends (id : Nat) (config : SessionConfig) :
    Attends config {} [] .idle (start id config : Machine φ) where
  known := start_known id config
  vacant _ := rfl
  current := ⟨[], none, ClientLog.Agrees.nothing, rfl, rfl⟩
  bridge := by
    rintro bridge same
    cases same
    exact .unopened config
  adopted := by simp [start]
  usable := by simp [Ledger.ofEvents]
  frames := by simp [start]

theorem run_attends (id : Nat) (config : SessionConfig) {moves : List (Move φ)}
    (distinct : (openings ((start id config : Machine φ).steps moves).2).Nodup) :
    Attends config (ClientLog.ofMoves id config moves)
      ((start id config : Machine φ).steps moves).2 .idle
      ((start id config : Machine φ).steps moves).1 := by
  induction moves using List.reverseRecOn with
  | nil => exact start_attends id config
  | append_singleton past move ih =>
      rw [steps_concat_events] at distinct
      have before : (openings ((start id config : Machine φ).steps past).2).Nodup := by
        rw [openings, List.filterMap_append] at distinct
        exact distinct.sublist (List.sublist_append_left _ _)
      rw [ClientLog.ofMoves, ClientLog.along_concat, ← ClientLog.ofMoves, steps_concat,
        steps_concat_events]
      exact (ih before).step move distinct

end Machine

end EmuScript.Engine
