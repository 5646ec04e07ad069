import EmuScript.Emulator.NativeTable
import EmuScript.Proofs.Engine.Ledger

/-!
# Functions that the emulator calls

The emulator calls the functions it was given for hooks and threads whenever it likes,
also while a method waits for a native call that it has asked for. The bridge is then
held by this method until the function has ended, and the function finds the session
busy. It does so in no other case.
-/

set_option autoImplicit false

namespace EmuScript.Engine

variable {φ : Type}

/-! ## Who holds the bridge -/

theorem Stack.held_iff {free : Bool} {frames : List (Frame φ)} (stack : Stack free frames) :
    free = false ↔ ∃ frame ∈ frames, frame.resume? = none := by
  constructor
  · rintro rfl
    induction frames with
    | nil => cases stack
    | cons frame frames ih =>
        cases stack with
        | holder holds below => exact ⟨frame, .head _, holds⟩
        | above called below =>
            obtain ⟨holder, member, holds⟩ := ih below
            exact ⟨holder, .tail _ member, holds⟩
  · rintro ⟨holder, member, holds⟩
    cases free with
    | false => rfl
    | true => simpa [holds] using stack.called holder member

/-- No call under way was made by the emulator while a method or a completion below it
held the bridge. -/
def CalledFree : List (Frame φ) → Prop
  | [] => True
  | frame :: below =>
      (frame.resume? = some .caller → ∀ other ∈ below, other.resume?.isSome) ∧ CalledFree below

namespace Machine

theorem Sound.held_iff {machine : Machine φ} (sound : Sound .idle machine) :
    machine.bridge = none ↔ ∃ frame ∈ machine.frames, frame.resume? = none := by
  rw [← sound.1.held_iff, Option.isSome_eq_false_iff, Option.isNone_iff_eq_none]

/-- A function of the script that the emulator itself has called is the innermost of
all calls. -/
def InCallback (machine : Machine φ) : Prop :=
  ∃ invocation owner frames, machine.frames = .script invocation owner .caller :: frames

/-! ## What a move enters -/

theorem Continues.enters_nothing {machine after : Machine φ} {activity next : Activity φ}
    {events : List (Event φ)} {invocation : Invocation φ}
    (piece : Continues machine activity events next after) : .entered invocation ∉ events := by
  intro entered
  cases piece with
  | methodTells effect rest | settlingTells effect rest =>
      exact effect_told machine effect _ entered
  | returns bridge outcome | endsBatch outcome =>
      cases outcome <;> simp [Outcome.returning] at entered
  | _ => simp at entered

theorem Finishes.enters_nothing {machine after : Machine φ} {activity : Activity φ}
    {events : List (Event φ)} {invocation : Invocation φ}
    (run : Finishes activity machine events after) : .entered invocation ∉ events := by
  induction run with
  | idle machine => simp
  | step piece rest ih =>
      rw [List.mem_append, not_or]
      exact ⟨piece.enters_nothing, ih⟩

/-- A function that the emulator calls is entered with the bridge as it is. -/
theorem step_of_entered {machine : Machine φ} {move : Move φ} {invocation : Invocation φ}
    (entered : .entered invocation ∈ (machine.step move).2) :
    ∃ owner, (machine.step move).1 = machine.enter invocation owner .caller := by
  obtain ⟨begun, activity, between, finished, begins, finishes, events⟩ :=
    (machine.step_turn move).split
  rw [events, List.mem_append] at entered
  have first := entered.resolve_right finishes.enters_nothing
  cases begins with
  | invoke closure arguments called owner =>
      obtain ⟨-, same⟩ := finishes.of_idle
      have called : invocation = called := by simpa using first
      subst called
      exact ⟨owner, same⟩
  | _ => simp at first

/-! ## Functions called with the bridge free -/

theorem Continues.calledFree {machine after : Machine φ} {activity next : Activity φ}
    {events : List (Event φ)} (piece : Continues machine activity events next after)
    (called : CalledFree machine.frames) : CalledFree after.frames := by
  cases piece with
  | methodTells effect rest | settlingTells effect rest =>
      obtain ⟨_, _, frames, _⟩ := machine.effect_frame effect
      rwa [frames]
  | methodAsks call next | settlingAsks call next => exact ⟨nofun, called⟩
  | startsBatch | startsNext => exact ⟨nofun, called⟩
  | _ => exact called

theorem Finishes.calledFree {machine after : Machine φ} {activity : Activity φ}
    {events : List (Event φ)} (run : Finishes activity machine events after)
    (called : CalledFree machine.frames) : CalledFree after.frames := by
  induction run with
  | idle machine => exact called
  | step piece rest ih => exact ih (piece.calledFree called)

/-- It stays so as long as the emulator calls nothing while the bridge is held. -/
theorem step_calledFree {machine : Machine φ} (sound : Sound .idle machine)
    (called : CalledFree machine.frames) (move : Move φ)
    (free : ∀ invocation, .entered invocation ∈ (machine.step move).2 → machine.bridge.isSome) :
    CalledFree (machine.step move).1.frames := by
  obtain ⟨begun, activity, between, finished, begins, finishes, events⟩ :=
    (machine.step_turn move).split
  refine finishes.calledFree ?_
  cases begins with
  | invoke closure arguments invocation owner =>
      have stack := sound.1
      rw [free invocation (by simp [events])] at stack
      exact ⟨fun _ => stack.called, called⟩
  | answerMethod reply call next frames top | answerSettling reply call next outcome frames top
  | printed reply owner line resume frames top | unprinted reply owner line resume frames top
  | finish invocation owner resume frames top =>
      rw [top] at called
      exact called.2
  | throw thrown invocation owner resume frames top =>
      -- The call that prints the exception takes the place of the one that has failed.
      rw [top] at called
      exact called
  | _ => exact called

theorem steps_concat (machine : Machine φ) (moves : List (Move φ)) (move : Move φ) :
    (machine.steps (moves ++ [move])).1 = ((machine.steps moves).1.step move).1 := by
  induction moves generalizing machine with
  | nil => rfl
  | cons first rest ih => exact ih (machine.step first).1

theorem steps_concat_events (machine : Machine φ) (moves : List (Move φ)) (move : Move φ) :
    (machine.steps (moves ++ [move])).2 =
      (machine.steps moves).2 ++ ((machine.steps moves).1.step move).2 := by
  induction moves generalizing machine with
  | nil => simp [steps]
  | cons first rest ih => simp [steps, ih]

/-! ## Runs -/

/-- Where a session has come to after some moves. -/
def reached (id : Nat) (config : SessionConfig) (moves : List (Move φ)) : Machine φ :=
  ((start id config : Machine φ).steps moves).1

/-- The emulator calls functions of the script only while the bridge is free. -/
def CallsWhenFree (id : Nat) (config : SessionConfig) (moves : List (Move φ)) : Prop :=
  Throughout (fun past move => ∀ invocation,
    .entered invocation ∈ ((reached id config past).step move).2 →
      (reached id config past).bridge.isSome) moves

theorem reached_sound (id : Nat) (config : SessionConfig) (moves : List (Move φ)) :
    Sound .idle (reached id config moves) :=
  sound_invariant.run (start_sound id config) moves

theorem CallsWhenFree.calledFree {id : Nat} {config : SessionConfig} {moves : List (Move φ)}
    (free : CallsWhenFree id config moves) : CalledFree (reached id config moves).frames := by
  induction moves using List.reverseRecOn with
  | nil => exact trivial
  | append_singleton past move ih =>
      obtain ⟨before, last⟩ := (throughout_concat _ past move).mp free
      rw [reached, steps_concat]
      exact step_calledFree (reached_sound id config past) (ih before) move last

theorem CallsWhenFree.of_append {id : Nat} {config : SessionConfig} {past later : List (Move φ)}
    (free : CallsWhenFree id config (past ++ later)) : CallsWhenFree id config past :=
  fun history move rest split => free history move (rest ++ later) (by simp [split])

/-- A method is refused as busy if and only if a method or a completion is under way that
holds the bridge. The functions that the emulator calls are therefore never refused one
as long as they are not called while the bridge is held, and otherwise they are. -/
theorem callbacks_find_bridge_free_iff (id : Nat) (config : SessionConfig)
    (moves : List (Move φ)) :
    (∀ past, past <+: moves → ∀ method,
      .returned (.error .busy) ∈ ((reached id config past).step (.call method)).2 ↔
        ∃ frame ∈ (reached id config past).frames, frame.resume? = none) ∧
    ((∀ past, past <+: moves → (reached id config past).InCallback →
      (reached id config past).bridge.isSome ∧ ∀ method,
        .returned (.error .busy) ∉ ((reached id config past).step (.call method)).2) ↔
      CallsWhenFree id config moves) := by
  have refused (past : List (Move φ)) (method : Method φ) :
      .returned (.error .busy) ∈ ((reached id config past).step (.call method)).2 ↔
        (reached id config past).bridge = none := by
    have granted : Granted .idle (reached id config past) :=
      granted_invariant.run (start_granted id config) past
    rw [refused_iff granted]
    exact and_iff_left ⟨method, rfl⟩
  refine ⟨fun past _ method => ?_, ?_, ?_⟩
  · rw [refused past method]
    exact (reached_sound id config past).held_iff
  · intro welcome past move later split invocation entered
    obtain ⟨owner, entering⟩ := step_of_entered entered
    have after : reached id config (past ++ [move]) =
        (reached id config past).enter invocation owner .caller := by
      rw [← entering]
      exact steps_concat _ past move
    have isPrefix : past ++ [move] <+: moves := ⟨later, by simp [split]⟩
    obtain ⟨free, -⟩ := welcome _ isPrefix ⟨invocation, owner, _, congrArg frames after⟩
    rwa [after] at free
  · rintro free past ⟨later, rfl⟩ ⟨invocation, owner, frames, top⟩
    have called := free.of_append.calledFree
    rw [top] at called
    have held : (reached id config past).bridge ≠ none := by
      intro held
      obtain ⟨frame, member, holds⟩ := (reached_sound id config past).held_iff.mp held
      rw [top, List.mem_cons] at member
      rcases member with rfl | member
      · cases holds
      · simpa [holds] using called.1 rfl frame member
    exact ⟨Option.isSome_iff_ne_none.mpr held, fun method busy => held ((refused past method).mp busy)⟩

/-- A script writes to memory at an address that it has a hook for, and the emulator
calls the function of the hook before the write returns. -/
def hookedMoves : List (Move Nat) :=
  [.call (.on .write 16 0), .answer (NativeTable.replies {}),
    .call (.service (.writeMemory .u8 16 ⟨0⟩)), .invoke (.immediate 0) [.word 16]]

/-- A script starts a thread, which the emulator runs at once. -/
def startedMoves : List (Move Nat) :=
  [.call (.spawn 0), .invoke (.procedure 0) []]

/-- Both functions find the session busy. -/
theorem callbacks_find_session_busy :
    let hook := reached 0 {} hookedMoves
    let thread := reached 0 {} startedMoves
    (hook.InCallback ∧ hook.bridge = none ∧
      .returned (.error .busy) ∈ (hook.step (.call (.service .pause))).2) ∧
    (thread.InCallback ∧ thread.bridge = none ∧
      .returned (.error .busy) ∈ (thread.step (.call (.service .pause))).2) := by
  intro hook thread
  have hookHeld : hook.bridge = none := rfl
  have threadHeld : thread.bridge = none := rfl
  refine ⟨⟨⟨_, _, _, rfl⟩, hookHeld, ?_⟩, ⟨_, _, _, rfl⟩, threadHeld, ?_⟩
  · simp [step, call, hookHeld]
  · simp [step, call, threadHeld]

end Machine

end EmuScript.Engine
