import EmuScript.Proofs.Engine.Custody
import EmuScript.Proofs.Engine.Ledger

/-!
# Upkeep of the bridge

Along a run every socket and server stays under its own descriptor, and none is
known that was not opened. Requests are made for what was opened only, and a
queued call has the arguments that the completion applied last brings.
-/

set_option autoImplicit false

namespace EmuScript.Engine

open Program

variable {φ α β : Type}

namespace Event

def opened? : Event φ → Option Endpoint
  | .opened endpoint => some endpoint
  | _ => none

end Event

def Effect.opened? : Effect φ → Option Endpoint
  | .opened endpoint => some endpoint
  | _ => none

/-- All that a bridge knows was opened, and is under its own descriptor. -/
structure Bridge.Fits (opened : List Endpoint) (bridge : Bridge φ) : Prop where
  keyed : bridge.Keyed
  known : ∀ place, bridge.Holds place → place ∈ opened

/-- A program makes requests for what was opened, and ends in a bridge that fits. -/
def Upholds (signals : Signal (Closure φ) → Prop) :
    List Endpoint → NativeProgram φ (α × Bridge φ) → Prop
  | opened, .done ended => ended.2.Fits opened
  | opened, .tell effect rest =>
      (∀ signal, effect = .notice (.signal signal) → signals signal) ∧
        Upholds signals (opened ++ effect.opened?.toList) rest
  | opened, .ask call next =>
      (∀ ticket, call.ticket? = some ticket → ticket.request.endpoint ∈ opened) ∧
        ∀ reply, Upholds signals opened (next reply)

variable {signals : Signal (Closure φ) → Prop} {opened : List Endpoint}

theorem Bridge.Fits.mono {wider : List Endpoint} {bridge : Bridge φ} (fits : bridge.Fits opened)
    (more : opened ⊆ wider) : bridge.Fits wider :=
  ⟨fits.keyed, fun place held => more (fits.known place held)⟩

theorem Bridge.Fits.follow {bridge after : Bridge φ} {endpoint : Option Endpoint}
    (fits : bridge.Fits opened) (follows : bridge.Follows endpoint after) : after.Fits opened :=
  ⟨follows.keyed, fun place held => fits.known place ((follows.holds place).mp held)⟩

theorem Bridge.Fits.putSocket {bridge : Bridge φ} (fits : bridge.Fits opened)
    (socket : Socket (Closure φ)) :
    (bridge.putSocket socket).Fits (opened ++ [.socket socket.fd]) := by
  refine ⟨fits.keyed.putSocket socket, fun place held => ?_⟩
  rcases (bridge.holds_putSocket socket place).mp held with same | before
  · exact List.mem_append_right opened (List.mem_singleton.mpr same)
  · exact List.mem_append_left _ (fits.known place before)

theorem Bridge.Fits.putServer {bridge : Bridge φ} (fits : bridge.Fits opened)
    (server : Server (Closure φ)) :
    (bridge.putServer server).Fits (opened ++ [.server server.fd]) := by
  refine ⟨fits.keyed.putServer server, fun place held => ?_⟩
  rcases (bridge.holds_putServer server place).mp held with same | before
  · exact List.mem_append_right opened (List.mem_singleton.mpr same)
  · exact List.mem_append_left _ (fits.known place before)

theorem Upholds.mono {wider : List Endpoint} {program : NativeProgram φ (α × Bridge φ)}
    (upholds : Upholds signals opened program) (more : opened ⊆ wider) :
    Upholds signals wider program := by
  induction program generalizing opened wider with
  | done ended => exact Bridge.Fits.mono upholds more
  | tell effect rest ih =>
      have wide : opened ++ effect.opened?.toList ⊆ wider ++ effect.opened?.toList :=
        List.append_subset.mpr ⟨fun _ member => List.mem_append_left _ (more member),
          List.subset_append_right _ _⟩
      exact ⟨upholds.1, ih upholds.2 wide⟩
  | ask call next ih =>
      exact ⟨fun ticket handed => more (upholds.1 ticket handed),
        fun reply => ih reply (upholds.2 reply) more⟩

/-- A program that opens nothing, before one that upholds what was opened. -/
theorem upholds_bind {program : NativeProgram φ β} {next : β → NativeProgram φ (α × Bridge φ)}
    {ends : β → Prop} {scope : Scope (Closure φ)} (first : program.Meets (scope.native ends))
    (requests : ∀ place, scope.requests place → place ∈ opened)
    (told : ∀ signal, scope.signals signal → signals signal)
    (rest : ∀ value, ends value → Upholds signals opened (next value)) :
    Upholds signals opened (program >>= next) := by
  induction program with
  | done value => exact rest value first
  | tell effect later ih =>
      obtain ⟨allowed, first⟩ := first
      have upholds := ih first
      cases effect with
      | opened endpoint => exact allowed.elim
      | notice notice =>
          refine ⟨fun signal same => ?_, by simpa [Effect.opened?, bind_eq] using upholds⟩
          cases same
          exact told signal allowed
      | consoleLog | keepProcedure | dropProcedure =>
          exact ⟨by simp, by simpa [Effect.opened?, bind_eq] using upholds⟩
  | ask call later ih =>
      exact ⟨fun ticket handed => requests _ (first.1 ticket handed),
        fun reply => ih reply (first.2 reply)⟩

theorem upholds_follows {program : NativeProgram φ (α × Bridge φ)} {bridge : Bridge φ}
    {endpoint : Option Endpoint} {scope : Scope (Closure φ)}
    (meets : program.Meets (scope.native fun ended => bridge.Follows endpoint ended.2))
    (fits : bridge.Fits opened) (requests : ∀ place, scope.requests place → bridge.Holds place)
    (told : ∀ signal, scope.signals signal → signals signal) :
    Upholds signals opened program := by
  have upholds : Upholds signals opened (program >>= done) :=
    upholds_bind meets (fun place asked => fits.known place (requests place asked)) told
      fun ended follows => fits.follow follows
  rwa [bind_eq, bind_done_right] at upholds

abbrev Silent : Signal (Closure φ) → Prop := fun _ => False

theorem Method.run_upholds {bridge : Bridge φ} (method : Method φ) (fits : bridge.Fits opened) :
    Upholds Silent opened (method.run bridge) := by
  by_cases opens : method.Opens
  · cases method with
    | createSocket =>
        have created : (Bridge.perform (Socket.create bridge.session.config) bridge).Meets
            (Scope.native {} fun ended => bridge.Follows none ended.2) :=
          Bridge.perform_meets none (createSocket_does _) fits.keyed
        refine upholds_bind created (fun _ => False.elim) (fun _ => id) ?_
        rintro ⟨result, after⟩ follows
        cases result with
        | ok socket => exact ⟨by simp, (fits.follow follows).putSocket socket⟩
        | error error => exact fits.follow follows
    | createServer port =>
        have created : (Bridge.perform (Server.create port bridge.session.config) bridge).Meets
            (Scope.native {} fun ended => bridge.Follows none ended.2) :=
          Bridge.perform_meets none (createServer_does port _) fits.keyed
        refine upholds_bind created (fun _ => False.elim) (fun _ => id) ?_
        rintro ⟨result, after⟩ follows
        cases result with
        | ok server => exact ⟨by simp, (fits.follow follows).putServer server⟩
        | error error => exact fits.follow follows
    | _ => exact opens.elim
  · exact upholds_follows (method.run_meets opens fits.keyed) fits (fun _ asked => asked.2)
      fun _ => id

/-- Handlers are called with what the completion applied last brings. -/
def Brings (cause : Option Completion) (signal : Signal (Closure φ)) : Prop :=
  some (argumentsOf signal) = cause.map Completion.arguments

theorem Bridge.apply_upholds {bridge : Bridge φ} (completion : Completion)
    (fits : bridge.Fits opened) :
    Upholds (Brings (some completion)) opened (Bridge.apply completion bridge) :=
  upholds_follows (Bridge.apply_meets completion fits.keyed) fits (fun _ asked => asked.2)
    fun _ same => congrArg some same

/-! ## Runs -/

/-- Nothing is opened, applied or queued by the event. -/
def Event.Neutral : Event φ → Prop
  | .opened _ | .applied _ | .deferred _ => False
  | _ => True

def openings (history : List (Event φ)) : List Endpoint :=
  history.filterMap Event.opened?

def cause (history : List (Event φ)) : Option Completion :=
  (Ledger.ofEvents history).applied.getLast?

theorem record_neutral (ledger : Ledger φ) {event : Event φ} (neutral : event.Neutral) :
    (ledger.record event).applied = ledger.applied ∧
      (ledger.record event).queued = ledger.queued := by
  cases event with
  | opened | applied | deferred => exact neutral.elim
  | started invocation =>
      cases next : ledger.ready ++ ledger.waiting <;> simp [Ledger.record, next]
  | _ => exact ⟨rfl, rfl⟩

theorem openings_neutral (history : List (Event φ)) {events : List (Event φ)}
    (neutral : ∀ event ∈ events, event.Neutral) :
    openings (history ++ events) = openings history := by
  have none : events.filterMap Event.opened? = [] := by
    refine List.filterMap_eq_nil_iff.mpr fun event member => ?_
    have unopened := neutral event member
    cases event <;> first | rfl | exact unopened.elim
  rw [openings, List.filterMap_append, none, List.append_nil, openings]

theorem ofEvents_neutral (history : List (Event φ)) {events : List (Event φ)}
    (neutral : ∀ event ∈ events, event.Neutral) :
    cause (history ++ events) = cause history ∧
      (Ledger.ofEvents (history ++ events)).queued = (Ledger.ofEvents history).queued := by
  induction events generalizing history with
  | nil => simp
  | cons event rest ih =>
      rw [List.forall_mem_cons] at neutral
      obtain ⟨applied, queued⟩ := record_neutral (Ledger.ofEvents history) neutral.1
      have entry : Ledger.ofEvents (history ++ [event]) = (Ledger.ofEvents history).record event :=
        Ledger.ofEvents_append _ _
      obtain ⟨same, listed⟩ := ih (history ++ [event]) neutral.2
      rw [List.append_assoc, List.singleton_append] at same listed
      rw [same, listed, cause, cause, entry]
      exact ⟨by rw [applied], queued⟩

def Frame.Upheld (history : List (Event φ)) : Frame φ → Prop
  | .method _ next => ∀ reply, Upholds Silent (openings history) (next reply)
  | .settling _ next _ => ∀ reply, Upholds (Brings (cause history)) (openings history) (next reply)
  | .script _ _ _ | .reporting _ _ _ => True

def Activity.Upheld (history : List (Event φ)) : Activity φ → Prop
  | .method program => Upholds Silent (openings history) program
  | .settling program _ => Upholds (Brings (cause history)) (openings history) program
  | .pumping bridge _ => bridge.Fits (openings history)
  | .idle | .resuming _ => True

theorem Frame.Upheld.mono {history later : List (Event φ)} {frame : Frame φ}
    (upheld : frame.Upheld history) (opened : openings history ⊆ openings later)
    (same : cause later = cause history) : frame.Upheld later := by
  cases frame with
  | method call next => exact fun reply => (upheld reply).mono opened
  | settling call next outcome =>
      intro reply
      rw [same]
      exact (upheld reply).mono opened
  | script | reporting => trivial

theorem Frame.upheld_of_called {frame : Frame φ} (called : frame.resume?.isSome)
    (history : List (Event φ)) : frame.Upheld history := by
  cases frame with
  | method | settling => simp [Frame.resume?] at called
  | script | reporting => trivial

namespace Machine

structure Upheld (history : List (Event φ)) (activity : Activity φ) (machine : Machine φ) :
    Prop where
  sound : Sound activity machine
  activity : activity.Upheld history
  bridge : ∀ bridge, machine.bridge = some bridge → bridge.Fits (openings history)
  frames : ∀ frame ∈ machine.frames, frame.Upheld history
  queued : ∀ call ∈ (Ledger.ofEvents history).queued,
    some call.invocation.arguments = call.cause.map Completion.arguments

namespace Upheld

variable {history events : List (Event φ)} {activity next : Activity φ} {machine after : Machine φ}

theorem keep (upheld : Upheld history activity machine) (sound : Sound next after)
    (neutral : ∀ event ∈ events, event.Neutral) (current : next.Upheld history)
    (bridge : ∀ bridge, after.bridge = some bridge → bridge.Fits (openings history))
    (frames : ∀ frame ∈ after.frames, frame.Upheld history) :
    Upheld (history ++ events) next after := by
  have opened := openings_neutral history neutral
  obtain ⟨same, listed⟩ := ofEvents_neutral history neutral
  exact
    { sound
      activity := by
        cases next with
        | settling program outcome => simpa only [Activity.Upheld, opened, same] using current
        | method program => simpa only [Activity.Upheld, opened] using current
        | pumping bridge outcome => simpa only [Activity.Upheld, opened] using current
        | idle | resuming => trivial
      bridge := by rwa [opened]
      frames := fun frame member =>
        (frames frame member).mono (by rw [opened]; exact List.Subset.refl _) same
      queued := by rw [listed]; exact upheld.queued }

theorem openNew (upheld : Upheld history activity machine) (endpoint : Endpoint)
    (sound : Sound next after) (current : next.Upheld (history ++ [.opened endpoint]))
    (bridge : after.bridge = machine.bridge) (frames : after.frames = machine.frames) :
    Upheld (history ++ [.opened endpoint]) next after := by
  have opened : openings history ⊆ openings (history ++ [.opened endpoint]) := by
    rw [openings, openings, List.filterMap_append]
    exact List.subset_append_left _ _
  have entry : Ledger.ofEvents (history ++ [.opened endpoint]) = Ledger.ofEvents history := by
    simp [Ledger.ofEvents_append, Ledger.record]
  exact
    { sound
      activity := current
      bridge := fun found free => (upheld.bridge found (bridge.symm.trans free)).mono opened
      frames := fun frame member =>
        (upheld.frames frame (frames ▸ member)).mono opened (by rw [cause, entry, cause])
      queued := by rw [entry]; exact upheld.queued }

/-- A call is queued with what the completion applied last brings. -/
theorem queue (upheld : Upheld history activity machine) {invocation : Invocation φ}
    (brought : some invocation.arguments = (cause history).map Completion.arguments)
    (sound : Sound next after) (current : next.Upheld (history ++ [.deferred invocation]))
    (bridge : after.bridge = machine.bridge) (frames : after.frames = machine.frames) :
    Upheld (history ++ [.deferred invocation]) next after := by
  have opened : openings (history ++ [.deferred invocation]) = openings history := by
    simp [openings, List.filterMap_cons, Event.opened?]
  have entry : Ledger.ofEvents (history ++ [.deferred invocation]) =
      (Ledger.ofEvents history).record (.deferred invocation) := Ledger.ofEvents_append _ _
  exact
    { sound
      activity := current
      bridge := by rw [opened, bridge]; exact upheld.bridge
      frames := fun frame member =>
        (upheld.frames frame (frames ▸ member)).mono (by rw [opened]; exact List.Subset.refl _)
          (by rw [cause, entry]; rfl)
      queued := by
        rw [entry]
        intro call member
        rcases List.mem_append.mp member with before | new
        · exact upheld.queued call before
        · cases List.mem_singleton.mp new
          exact brought }

end Upheld

theorem effect_kinds (machine : Machine φ) (effect : Effect φ) :
    (∃ endpoint, effect = .opened endpoint ∧ (machine.effect effect).2 = [.opened endpoint]) ∨
    (∃ signal invocation, effect = .notice (.signal signal) ∧
      (machine.effect effect).2 = [.deferred invocation] ∧
      invocation.arguments = argumentsOf signal) ∨
    effect.opened? = none ∧ ∀ event ∈ (machine.effect effect).2, event.Neutral := by
  cases effect with
  | opened endpoint => exact .inl ⟨endpoint, rfl, rfl⟩
  | notice notice =>
      cases notice with
      | log record => exact .inr (.inr ⟨rfl, by simp [Machine.effect, Event.Neutral]⟩)
      | signal signal =>
          refine .inr ?_
          cases signal with
          | hook handler | connected handler | received handler | closed handler | written handler
          | accepted handler =>
              cases handler with
              | deferred callback => exact .inl ⟨_, _, rfl, rfl, rfl⟩
              | immediate | silent | procedure =>
                  exact .inr ⟨rfl, by simp [Machine.effect, signal, Machine.defer]⟩
  | consoleLog text => exact .inr (.inr ⟨rfl, by simp [Machine.effect, Event.Neutral]⟩)
  | keepProcedure key callback => exact .inr (.inr ⟨rfl, by simp [Machine.effect]⟩)
  | dropProcedure key => exact .inr (.inr ⟨rfl, by simp [Machine.effect]⟩)

theorem Upheld.tell {history : List (Event φ)} {activity next : Activity φ} {machine : Machine φ}
    (upheld : Upheld history activity machine) (effect : Effect φ)
    (brought : ∀ signal, effect = .notice (.signal signal) → Brings (cause history) signal)
    (sound : Sound next (machine.effect effect).1)
    (current : ∀ later : List (Event φ), cause later = cause history →
      openings later = openings history ++ effect.opened?.toList → next.Upheld later) :
    Upheld (history ++ (machine.effect effect).2) next (machine.effect effect).1 := by
  obtain ⟨bridge, _, frames, _⟩ := machine.effect_frame effect
  rcases machine.effect_kinds effect with
    ⟨endpoint, rfl, event⟩ | ⟨signal, invocation, rfl, event, same⟩ | ⟨plain, neutral⟩
  · rw [event]
    refine upheld.openNew endpoint sound (current _ ?_ ?_) bridge frames
    · simp [cause, Ledger.ofEvents_append, Ledger.record]
    · simp [openings, Event.opened?, Effect.opened?]
  · rw [event]
    refine upheld.queue ?_ sound (current _ ?_ ?_) bridge frames
    · rw [same]
      exact brought signal rfl
    · simp [cause, Ledger.ofEvents_append, Ledger.record]
    · simp [openings, List.filterMap_cons, Event.opened?, Effect.opened?]
  · refine upheld.keep sound neutral (current _ rfl ?_) ?_ ?_
    · simp [plain]
    · rw [bridge]
      exact upheld.bridge
    · rw [frames]
      exact upheld.frames

theorem Upheld.apply {history : List (Event φ)} {machine after : Machine φ} {bridge : Bridge φ}
    {outcome : Outcome} (upheld : Upheld history (.pumping bridge outcome) machine)
    (completion : Completion)
    (sound : Sound (.settling (Bridge.apply completion bridge) outcome) after)
    (held : after.bridge = machine.bridge) (frames : after.frames = machine.frames) :
    Upheld (history ++ [.applied completion]) (.settling (Bridge.apply completion bridge) outcome)
      after := by
  have opened : openings (history ++ [.applied completion]) = openings history := by
    simp [openings, List.filterMap_cons, Event.opened?]
  have entry : Ledger.ofEvents (history ++ [.applied completion]) =
      (Ledger.ofEvents history).record (.applied completion) := Ledger.ofEvents_append _ _
  have caused : cause (history ++ [.applied completion]) = some completion := by
    simp [cause, entry, Ledger.record]
  refine ⟨sound, ?_, ?_, ?_, ?_⟩
  · simp only [Activity.Upheld, opened, caused]
    exact Bridge.apply_upholds completion upheld.activity
  · rw [opened, held]
    exact upheld.bridge
  · -- The bridge is held here, so only calls of functions of the script are under way.
    intro frame member
    exact Frame.upheld_of_called (upheld.sound.2.called frame (frames ▸ member)) _
  · rw [entry]
    exact upheld.queued

theorem upheld_invariant : Invariant (Upheld (φ := φ)) where
  begins := by
    intro history machine move events activity after upheld begins
    have sound := sound_invariant.begins history upheld.sound begins
    have bridge := upheld.bridge
    have frames := upheld.frames
    cases begins with
    | ignored | busy | invokeNothing =>
        exact upheld.keep sound (by simp [Event.Neutral]) trivial bridge frames
    | call method bridge free =>
        exact upheld.keep sound (by simp) (method.run_upholds (upheld.bridge _ free))
          (by simp [hold]) frames
    | completeLater => exact upheld.keep sound (by simp [Event.Neutral]) trivial bridge frames
    | complete ticket payload bridge known free =>
        exact upheld.keep sound (by simp [Event.Neutral]) (upheld.bridge _ free) (by simp [hold])
          frames
    | invoke =>
        exact upheld.keep sound (by simp [Event.Neutral]) trivial bridge
          (List.forall_mem_cons.mpr ⟨trivial, frames⟩)
    | answerMethod reply call next rest top | answerSettling reply call next outcome rest top =>
        rw [top, List.forall_mem_cons] at frames
        exact upheld.keep sound (by simp) (frames.1 (reply call)) bridge frames.2
    | printed reply owner line resume rest top | finish invocation owner resume rest top
    | unprinted reply owner line resume rest top =>
        rw [top, List.forall_mem_cons] at frames
        exact upheld.keep sound (by simp [Event.Neutral]) trivial bridge frames.2
    | throw thrown invocation owner resume rest top =>
        rw [top, List.forall_mem_cons] at frames
        exact upheld.keep sound (by simp [Event.Neutral]) trivial bridge
          (List.forall_mem_cons.mpr ⟨trivial, frames.2⟩)
  continues := by
    intro history activity machine events next after upheld continues
    have sound := sound_invariant.continues history upheld.sound continues
    have current := upheld.activity
    have bridge := upheld.bridge
    have frames := upheld.frames
    cases continues with
    | methodTells effect rest =>
        refine upheld.tell effect (fun signal same => (current.1 signal same).elim) sound ?_
        intro later _ opened
        simp only [Activity.Upheld, opened]
        exact current.2
    | settlingTells effect rest outcome =>
        refine upheld.tell effect current.1 sound ?_
        intro later same opened
        simp only [Activity.Upheld, opened, same]
        exact current.2
    | methodAsks call next | settlingAsks call next outcome =>
        exact upheld.keep sound (by simp [Event.Neutral]) trivial bridge
          (List.forall_mem_cons.mpr ⟨current.2, frames⟩)
    | methodEnds result ended => exact upheld.keep sound (by simp) current (by simp [hold]) frames
    | settlingEnds ended outcome => exact upheld.keep sound (by simp) current bridge frames
    | applies ended outcome completion rest queued => exact upheld.apply completion sound rfl rfl
    | adopts ended outcome socket rest settled accepted =>
        refine upheld.openNew (.socket socket.fd) sound ?_ rfl rfl
        have fits : (ended.adopt [socket]).Fits (openings history ++ [.socket socket.fd]) :=
          Bridge.Fits.putSocket current socket
        simpa [Activity.Upheld, openings, List.filterMap_cons, Event.opened?] using fits
    | returns ended outcome settled adopted quiet =>
        refine upheld.keep sound ?_ trivial ?_ frames
        · cases outcome <;> simp [Outcome.returning, Event.Neutral]
        · rintro found same
          cases same
          exact current
    | startsBatch ended outcome first rest settled adopted called =>
        refine upheld.keep sound (by simp [Event.Neutral]) trivial ?_
          (List.forall_mem_cons.mpr ⟨trivial, frames⟩)
        rintro found same
        cases same
        exact current
    | resumesCaller => exact upheld.keep sound (by simp [Event.Neutral]) trivial bridge frames
    | startsNext first rest outcome =>
        exact upheld.keep sound (by simp [Event.Neutral]) trivial bridge
          (List.forall_mem_cons.mpr ⟨trivial, frames⟩)
    | pumpsAgain outcome ended free =>
        exact upheld.keep sound (by simp) (upheld.bridge _ free) (by simp [hold]) frames
    | endsBatch outcome held =>
        refine upheld.keep sound ?_ trivial bridge frames
        cases outcome <;> simp [Outcome.returning, Event.Neutral]

theorem start_upheld (id : Nat) (config : SessionConfig) :
    Upheld [] .idle (Machine.start id config : Machine φ) where
  sound := start_sound id config
  activity := trivial
  bridge := by
    rintro bridge same
    cases same
    refine ⟨⟨?_, ?_⟩, fun place held => ?_⟩
    · rintro key socket ⟨⟩
    · rintro key server ⟨⟩
    · cases place <;> simp [Bridge.Holds] at held
  frames := by simp [start]
  queued := by simp [Ledger.ofEvents]

end Machine

end EmuScript.Engine
