import EmuScript.Proofs.Engine.Activity
import EmuScript.Proofs.Program

/-!
# Who holds the bridge

At most one of the calls under way holds the bridge, and everything above it was
called by the emulator itself. Whenever the bridge is free, nothing is left to
do: no completion is queued, no function of the script is ready, and no socket
waits to become known. A method is refused as busy exactly when it finds the
bridge taken.
-/

set_option autoImplicit false

namespace EmuScript.Engine

variable {φ : Type}

/-- What happens when the function of the script of a frame has ended. The frames
of calls that hold the bridge have none. -/
def Frame.resume? : Frame φ → Option (Resume φ)
  | .method _ _ | .settling _ _ _ => none
  | .script _ _ resume | .reporting _ _ resume => some resume

/-- Calls under way, innermost first, when the bridge is free or not. -/
inductive Stack : Bool → List (Frame φ) → Prop where
  | empty : Stack true []
  | free {frame : Frame φ} {frames : List (Frame φ)} {resume : Resume φ}
      (called : frame.resume? = some resume) (below : Stack true frames) :
      Stack true (frame :: frames)
  | holder {frame : Frame φ} {frames : List (Frame φ)} (holds : frame.resume? = none)
      (below : Stack true frames) : Stack false (frame :: frames)
  | above {frame : Frame φ} {frames : List (Frame φ)} (called : frame.resume? = some .caller)
      (below : Stack false frames) : Stack false (frame :: frames)

/-- Nothing is left to do with the bridge. -/
def Machine.Settled (machine : Machine φ) : Prop :=
  machine.queue = [] ∧ machine.ready = [] ∧ machine.adopted = []

/-- What is known of the bridge while the library does something. -/
def Machine.Sound : Activity φ → Machine φ → Prop
  | .idle, machine | .resuming .caller, machine =>
      Stack machine.bridge.isSome machine.frames ∧ (machine.bridge.isSome → machine.Settled)
  | .method _, machine | .settling _ _, machine | .pumping _ _, machine =>
      machine.bridge = none ∧ Stack true machine.frames
  | .resuming (.batch _ _), machine =>
      machine.bridge.isSome ∧ Stack true machine.frames ∧ machine.Settled

namespace Stack

theorem isSome_of_batch {free : Bool} {frame : Frame φ} {frames : List (Frame φ)}
    {rest : List (Invocation φ)} {outcome : Outcome} (stack : Stack free (frame :: frames))
    (batch : frame.resume? = some (.batch rest outcome)) : free = true ∧ Stack true frames := by
  cases stack with
  | free called below => exact ⟨rfl, below⟩
  | holder holds below => simp [holds] at batch
  | above called below => simp [called] at batch

theorem of_caller {free : Bool} {frame : Frame φ} {frames : List (Frame φ)}
    (stack : Stack free (frame :: frames)) (caller : frame.resume? = some .caller) :
    Stack free frames := by
  cases stack with
  | free called below => exact below
  | holder holds below => simp [holds] at caller
  | above called below => exact below

theorem of_holder {free : Bool} {frame : Frame φ} {frames : List (Frame φ)}
    (stack : Stack free (frame :: frames)) (holds : frame.resume? = none) :
    free = false ∧ Stack true frames := by
  cases stack with
  | free called below => simp [holds] at called
  | holder _ below => exact ⟨rfl, below⟩
  | above called below => simp [holds] at called

theorem caller {free : Bool} {frame : Frame φ} {frames : List (Frame φ)}
    (called : frame.resume? = some .caller) (below : Stack free frames) :
    Stack free (frame :: frames) := by
  cases free with
  | true => exact .free called below
  | false => exact .above called below

/-- With the bridge free, all that runs are functions of the script. -/
theorem called {frames : List (Frame φ)} (stack : Stack true frames) :
    ∀ frame ∈ frames, frame.resume?.isSome := by
  induction frames with
  | nil => simp
  | cons frame frames ih =>
      cases stack with
      | free called below => exact List.forall_mem_cons.mpr ⟨by simp [called], ih below⟩

/-- The bridge is free while a queued call is under way, also in functions of the
script that were called since. -/
theorem free_of_batch {free : Bool} {above below : List (Frame φ)} {frame : Frame φ}
    {rest : List (Invocation φ)} {outcome : Outcome} (stack : Stack free (above ++ frame :: below))
    (batch : frame.resume? = some (.batch rest outcome))
    (called : ∀ frame ∈ above, frame.resume?.isSome) : free = true := by
  induction above generalizing free with
  | nil => exact (stack.isSome_of_batch batch).1
  | cons first above ih =>
      rw [List.forall_mem_cons] at called
      -- What holds the bridge is not among the calls above, and the others leave it free.
      cases stack with
      | free _ below => rfl
      | holder holds below => simp [holds] at called
      | above _ below => exact ih below called.2

/-- The bridge is free while all that runs was called by the emulator itself. -/
theorem free_of_callers {free : Bool} {frames : List (Frame φ)} (stack : Stack free frames)
    (callers : ∀ frame ∈ frames, frame.resume? = some .caller) : free = true := by
  induction frames generalizing free with
  | nil => cases stack with
      | empty => rfl
  | cons frame frames ih =>
      rw [List.forall_mem_cons] at callers
      exact ih (stack.of_caller callers.1) callers.2

end Stack

namespace Machine

theorem Sound.resuming {machine : Machine φ} {frame : Frame φ} {frames : List (Frame φ)}
    {resume : Resume φ} (sound : Sound .idle machine) (top : machine.frames = frame :: frames)
    (called : frame.resume? = some resume) :
    Sound (.resuming resume) (machine.returnTo frames) := by
  obtain ⟨stack, settled⟩ := sound
  rw [top] at stack
  cases resume with
  | caller => exact ⟨stack.of_caller called, settled⟩
  | batch rest outcome =>
      obtain ⟨free, below⟩ := stack.isSome_of_batch called
      exact ⟨free, below, settled free⟩

theorem sound_invariant : Invariant fun (_ : List (Event φ)) => Sound (φ := φ) where
  begins := by
    intro history machine move events activity after sound begins
    cases begins with
    | ignored | busy | invokeNothing => exact sound
    | call method bridge free =>
        obtain ⟨stack, _⟩ := sound
        rw [free] at stack
        exact ⟨rfl, stack⟩
    | completeLater ticket payload known held =>
        refine ⟨sound.1, fun free => ?_⟩
        simp [receive, held] at free
    | complete ticket payload bridge known free =>
        obtain ⟨stack, _⟩ := sound
        rw [free] at stack
        exact ⟨rfl, stack⟩
    | invoke closure arguments invocation owner => exact ⟨.caller rfl sound.1, sound.2⟩
    | answerMethod reply call next frames top =>
        obtain ⟨stack, _⟩ := sound
        rw [top] at stack
        obtain ⟨held, below⟩ := stack.of_holder rfl
        exact ⟨Option.isNone_iff_eq_none.mp (Option.isSome_eq_false_iff.mp held), below⟩
    | answerSettling reply call next outcome frames top =>
        obtain ⟨stack, _⟩ := sound
        rw [top] at stack
        obtain ⟨held, below⟩ := stack.of_holder rfl
        exact ⟨Option.isNone_iff_eq_none.mp (Option.isSome_eq_false_iff.mp held), below⟩
    | printed reply owner line resume frames top => exact sound.resuming top rfl
    | unprinted reply owner line resume frames top => exact sound.resuming top rfl
    | finish invocation owner resume frames top => exact sound.resuming top rfl
    | throw thrown invocation owner resume frames top =>
        obtain ⟨stack, settled⟩ := sound
        rw [top] at stack
        -- The call that prints the exception takes the place of the one that has failed.
        refine ⟨?_, settled⟩
        cases resume with
        | caller => exact .caller rfl (stack.of_caller rfl)
        | batch rest outcome =>
            obtain ⟨free, below⟩ := stack.isSome_of_batch rfl
            simp only [returnTo, free]
            exact .free rfl below
  continues := by
    intro history activity machine events next after sound continues
    cases continues with
    | methodTells effect rest =>
        obtain ⟨bridge, queue, frames, tickets, id⟩ := machine.effect_frame effect
        exact ⟨bridge.trans sound.1, frames ▸ sound.2⟩
    | settlingTells effect rest outcome =>
        obtain ⟨bridge, queue, frames, tickets, id⟩ := machine.effect_frame effect
        exact ⟨bridge.trans sound.1, frames ▸ sound.2⟩
    | methodAsks call next | settlingAsks call next outcome =>
        refine ⟨?_, fun free => ?_⟩
        · simp only [ask, sound.1]
          exact .holder rfl sound.2
        · simp [ask, sound.1] at free
    | methodEnds result bridge => exact ⟨rfl, sound.2⟩
    | settlingEnds bridge outcome => exact sound
    | applies bridge outcome completion rest queued => exact sound
    | adopts bridge outcome socket rest settled accepted => exact sound
    | returns bridge outcome settled adopted quiet =>
        exact ⟨sound.2, fun _ => ⟨settled, rfl, adopted⟩⟩
    | startsBatch bridge outcome first rest settled adopted called =>
        exact ⟨.free rfl sound.2, fun _ => ⟨settled, rfl, adopted⟩⟩
    | resumesCaller => exact sound
    | startsNext first rest outcome =>
        obtain ⟨free, stack, settled⟩ := sound
        refine ⟨?_, fun _ => settled⟩
        simp only [enter, free]
        exact .free rfl stack
    | pumpsAgain outcome bridge free => exact ⟨rfl, sound.2.1⟩
    | endsBatch outcome held => simp [Sound, held] at sound

theorem start_sound (id : Nat) (config : SessionConfig) :
    Sound .idle (Machine.start id config : Machine φ) :=
  ⟨.empty, fun _ => ⟨rfl, rfl, rfl⟩⟩

end Machine

/-! ## Refusals -/

section Refusal

open Program

theorem scriptResult_ne_busy {α : Type} (answer : α → Answer) (result : Except ScriptError α) :
    Method.scriptResult answer result ≠ .error .busy := by
  cases result <;> simp [Method.scriptResult]

theorem objectResult_ne_busy {α : Type} (kind : DescriptorKind) (number : UInt32)
    (result : Option (Except ScriptError α)) :
    Method.objectResult kind number result ≠ .error .busy := by
  cases result with
  | none => simp [Method.objectResult]
  | some result => exact scriptResult_ne_busy _ result

abbrev Grants (program : NativeProgram φ (Except Failure Answer × Bridge φ)) : Prop :=
  program.Meets { ends := fun ended => ended.1 ≠ .error .busy }

theorem Method.run_grants (method : Method φ) (bridge : Bridge φ) : Grants (method.run bridge) := by
  cases method with
  | service request | on kind tag callback | off id | clearHooks =>
      exact meets_bind_of_ends fun _ => scriptResult_ne_busy _ _
  | connect fd host port callback | onData fd callback | onClose fd callback
  | write fd data callback | close fd | listen fd port | onConnection fd callback
  | suspendThread key | resumeThread key =>
      exact meets_bind_of_ends fun _ => objectResult_ne_busy _ _ _
  | createSocket | createServer port =>
      refine meets_bind_of_ends ?_
      rintro ⟨result, bridge⟩
      cases result with
      | ok object => exact ⟨trivial, by simp [pure_eq, Meets]⟩
      | error error => simp [pure_eq, Meets]
  | spawn callback =>
      refine ⟨trivial, ?_⟩
      change Grants (Bridge.perform _ _ >>= _)
      refine meets_bind_of_ends ?_
      rintro ⟨result, bridge⟩
      cases result with
      | ok object => simp [pure_eq, Meets]
      | error error => exact ⟨trivial, by simp [pure_eq, Meets]⟩
  | threadState key =>
      cases found : bridge.threads.find? key <;> simp [Method.run, found, pure_eq, Meets]
  | stopThread key =>
      refine meets_bind_of_ends ?_
      rintro ⟨result, bridge⟩
      have ended := objectResult_ne_busy .thread key result
      cases result with
      | none => exact ended
      | some result =>
          cases result with
          | ok _ => exact ⟨trivial, ended⟩
          | error _ => exact ended

end Refusal

/-- Events that a program causes by itself. -/
def Event.Told : Event φ → Prop
  | .log _ | .consoleLog _ | .deferred _ | .opened _ => True
  | .sent _ _ | .applied _ | .started _ | .entered _ | .asked _ _ | .returned _ | .ended => False

def Outcome.Granted (outcome : Outcome) : Prop :=
  outcome ≠ some (.error .busy)

def Resume.Granted : Resume φ → Prop
  | .batch _ outcome => outcome.Granted
  | .caller => True

def Frame.Granted : Frame φ → Prop
  | .method _ next => ∀ reply, Grants (next reply)
  | .settling _ _ outcome => outcome.Granted
  | .script _ _ resume | .reporting _ _ resume => resume.Granted

def Activity.Granted : Activity φ → Prop
  | .idle => True
  | .method program => Grants program
  | .settling _ outcome | .pumping _ outcome => outcome.Granted
  | .resuming resume => resume.Granted

namespace Machine

/-- Of what is observed, a program by itself only causes records, queued calls and
the opening of endpoints. -/
theorem effect_told (machine : Machine φ) (effect : Effect φ) (event : Event φ)
    (observed : event ∈ (machine.effect effect).2) : event.Told := by
  cases effect with
  | notice notice =>
      cases notice with
      | log record => simp_all [Machine.effect, Event.Told]
      | signal signal =>
          cases signal with
          | hook handler | connected handler | received handler | closed handler | written handler
          | accepted handler =>
              cases handler <;> simp_all [Machine.effect, Machine.signal, defer, Event.Told]
  | consoleLog text => simp_all [Machine.effect, Event.Told]
  | keepProcedure key callback => simp [Machine.effect] at observed
  | dropProcedure key => simp [Machine.effect] at observed
  | opened endpoint => simp_all [Machine.effect, Event.Told]

/-- No call under way will return that it was refused. -/
def Granted (activity : Activity φ) (machine : Machine φ) : Prop :=
  activity.Granted ∧ ∀ frame ∈ machine.frames, frame.Granted

theorem granted_invariant : Invariant fun (_ : List (Event φ)) => Granted (φ := φ) where
  begins := by
    intro history machine move events activity after granted begins
    obtain ⟨_, frames⟩ := granted
    cases begins with
    | ignored | busy | invokeNothing => exact ⟨trivial, frames⟩
    | completeLater => exact ⟨trivial, frames⟩
    | call method bridge free => exact ⟨method.run_grants bridge, frames⟩
    | complete => exact ⟨by simp [Activity.Granted, Outcome.Granted], frames⟩
    | invoke => exact ⟨trivial, List.forall_mem_cons.mpr ⟨trivial, frames⟩⟩
    | answerMethod reply call next rest top =>
        rw [top, List.forall_mem_cons] at frames
        exact ⟨frames.1 (reply call), frames.2⟩
    | answerSettling reply call next outcome rest top =>
        rw [top, List.forall_mem_cons] at frames
        exact frames
    | printed reply owner line resume rest top | unprinted reply owner line resume rest top
    | finish invocation owner resume rest top =>
        rw [top, List.forall_mem_cons] at frames
        exact frames
    | throw thrown invocation owner resume rest top =>
        rw [top, List.forall_mem_cons] at frames
        exact ⟨trivial, List.forall_mem_cons.mpr frames⟩
  continues := by
    intro history activity machine events next after granted continues
    obtain ⟨current, frames⟩ := granted
    cases continues with
    | methodTells effect rest | settlingTells effect rest =>
        obtain ⟨_, _, same, _⟩ := machine.effect_frame effect
        rw [← same] at frames
        first
          | exact ⟨current.2, frames⟩
          | exact ⟨current, frames⟩
    | methodAsks call next => exact ⟨trivial, List.forall_mem_cons.mpr ⟨current.2, frames⟩⟩
    | settlingAsks call next outcome => exact ⟨trivial, List.forall_mem_cons.mpr ⟨current, frames⟩⟩
    | methodEnds result bridge =>
        refine ⟨?_, frames⟩
        simpa [Activity.Granted, Outcome.Granted, Grants, Program.Meets] using current
    | settlingEnds | applies | adopts | pumpsAgain => exact ⟨current, frames⟩
    | returns | resumesCaller | endsBatch => exact ⟨trivial, frames⟩
    | startsBatch => exact ⟨trivial, List.forall_mem_cons.mpr ⟨current, frames⟩⟩
    | startsNext => exact ⟨trivial, List.forall_mem_cons.mpr ⟨current, frames⟩⟩

theorem start_granted (id : Nat) (config : SessionConfig) :
    Granted .idle (Machine.start id config : Machine φ) :=
  ⟨trivial, by simp [start]⟩

theorem Continues.not_refused {machine after : Machine φ} {activity next : Activity φ}
    {events : List (Event φ)} (granted : Granted activity machine)
    (piece : Continues machine activity events next after) :
    .returned (.error .busy) ∉ events := by
  intro refused
  cases piece with
  | methodTells effect rest | settlingTells effect rest =>
      exact (effect_told machine effect _ refused).elim
  | returns bridge outcome | endsBatch outcome =>
      cases outcome with
      | none => simp [Outcome.returning] at refused
      | some result =>
          have same : Except.error Failure.busy = result := by
            simpa [Outcome.returning] using refused
          exact granted.1 (by rw [same])
  | _ => simp at refused

theorem Finishes.not_refused {machine after : Machine φ} {activity : Activity φ}
    {events : List (Event φ)} (granted : Granted activity machine)
    (run : Finishes activity machine events after) : .returned (.error .busy) ∉ events := by
  induction run with
  | idle machine => simp
  | step piece rest ih =>
      rw [List.mem_append, not_or]
      exact ⟨piece.not_refused granted, ih (granted_invariant.continues [] granted piece)⟩

/-- A call is refused as busy exactly if it is a method's and finds the bridge taken. -/
theorem refused_iff {machine : Machine φ} (granted : Granted .idle machine) (move : Move φ) :
    .returned (.error .busy) ∈ (machine.step move).2 ↔
      machine.bridge = none ∧ ∃ method, move = .call method := by
  constructor
  · intro refused
    obtain ⟨begun, activity, between, finished, begins, finishes, events⟩ :=
      (machine.step_turn move).split
    rw [events, List.mem_append] at refused
    have later := finishes.not_refused (granted_invariant.begins [] granted begins)
    have first := refused.resolve_right later
    cases begins with
    | busy method held => exact ⟨held, method, rfl⟩
    | _ => simp at first
  · rintro ⟨held, method, rfl⟩
    simp [step, call, held]

/-- A queued call of a function of the script is the innermost of all calls. -/
def Calls (machine : Machine φ) (invocation : Invocation φ) : Prop :=
  ∃ owner rest outcome frames,
    machine.frames = .script invocation owner (.batch rest outcome) :: frames

/-- A queued call is under way, and since it began only functions of the script were
called that have not returned. -/
def Inside (machine : Machine φ) (invocation : Invocation φ) : Prop :=
  ∃ above owner rest outcome below,
    machine.frames = above ++ .script invocation owner (.batch rest outcome) :: below ∧
      ∀ frame ∈ above, frame.resume?.isSome

theorem Calls.inside {machine : Machine φ} {invocation : Invocation φ}
    (calls : machine.Calls invocation) : machine.Inside invocation := by
  obtain ⟨owner, rest, outcome, frames, top⟩ := calls
  exact ⟨[], owner, rest, outcome, frames, top, by simp⟩

theorem Sound.free_of_inside {machine : Machine φ} {invocation : Invocation φ}
    (sound : Sound .idle machine) (inside : machine.Inside invocation) :
    machine.bridge.isSome := by
  obtain ⟨above, owner, rest, outcome, below, frames, called⟩ := inside
  obtain ⟨stack, _⟩ := sound
  rw [frames] at stack
  exact stack.free_of_batch rfl called

theorem Finishes.calls_of_started {machine after : Machine φ} {activity : Activity φ}
    {events : List (Event φ)} {invocation : Invocation φ}
    (run : Finishes activity machine events after) (started : .started invocation ∈ events) :
    after.Calls invocation := by
  induction run with
  | idle machine => simp at started
  | step piece rest ih =>
      rcases List.mem_append.mp started with now | later
      · cases piece with
        | methodTells effect rest | settlingTells effect rest =>
            exact (effect_told _ effect _ now).elim
        | startsBatch bridge outcome first waiting | startsNext first waiting outcome =>
            have same : invocation = first := by simpa using now
            subst same
            obtain ⟨_, rfl⟩ := rest.of_idle
            exact ⟨_, _, _, _, rfl⟩
        | returns bridge outcome | endsBatch outcome =>
            cases outcome <;> simp [Outcome.returning] at now
        | _ => simp at now
      · exact ih later

/-- A queued call begins as the last thing in a move. -/
theorem calls_of_started {machine : Machine φ} {move : Move φ} {invocation : Invocation φ}
    (started : .started invocation ∈ (machine.step move).2) :
    (machine.step move).1.Calls invocation := by
  obtain ⟨begun, activity, between, finished, begins, finishes, events⟩ :=
    (machine.step_turn move).split
  rw [events, List.mem_append] at started
  refine finishes.calls_of_started (started.resolve_left fun first => ?_)
  cases begins <;> simp at first

end Machine

end EmuScript.Engine
