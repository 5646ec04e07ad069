import EmuScript.Proofs.Engine.Reentry
import EmuScript.Proofs.Engine.Roster

/-!
# Threads along a run

The emulator creates and ends threads while methods wait for it, and it may call functions
of the script meanwhile. Whenever the bridge is free, the three tables of threads agree, and
a spawn that has failed has left them as they were.
-/

set_option autoImplicit false

namespace EmuScript.Engine

open Numeric

variable {φ : Type}

/-- What is left of the threads when an operation lets go of the bridge: what the operation
gives back, the tables, and the threads that the emulator has. -/
abbrev Remainder (φ : Type) : Type :=
  Outcome → Roster φ → List Double → Prop

section Leaves

variable (remains : Remainder φ) (owner : Nat) (procedures : Table UInt32 (Procedure φ))
  (living : List Double)

def Activity.Leaves : Activity φ → Prop
  | .method program =>
      Keeps owner (fun procedures living ended =>
        remains (some ended.1) (ended.2.roster procedures) living) procedures living program
  | .settling program outcome =>
      program.Meets (Bridge.beside fun ended => remains outcome (ended.2.roster procedures) living)
  | .pumping bridge outcome => remains outcome (bridge.roster procedures) living
  | .idle | .resuming _ => True

def Frame.Leaves : Frame φ → Prop
  | .method call next =>
      ∀ reply, Lawful living (call.deed? reply) →
        Activity.Leaves remains owner procedures (livingAfter living (call.deed? reply))
          (.method (next reply))
  | .settling call next outcome =>
      call.concern ≠ .thread ∧
        ∀ reply, Activity.Leaves remains owner procedures living (.settling (next reply) outcome)
  | .script _ _ _ | .reporting _ _ _ => True

theorem Frame.leaves_of_called {frame : Frame φ} (called : frame.resume?.isSome) :
    frame.Leaves remains owner procedures living := by
  cases frame with
  | method | settling => simp [Frame.resume?] at called
  | script | reporting => trivial

end Leaves

namespace Machine

/-- The thread that the emulator creates or ends by a move. -/
def deed? (machine : Machine φ) : Move φ → Option ThreadDeed
  | .answer reply =>
      match machine.frames with
      | .method call _ :: _ | .settling call _ _ :: _ => call.deed? (reply call)
      | _ => none
  | _ => none

/-- What the operation gives back that has just let go of the bridge, at once or after the
functions that it calls first. -/
def given? (observed : Observed φ) : Outcome :=
  match observed.2.getLast?, observed.1.frames with
  | some (.returned result), _ => some result
  | some (.started _), .script _ _ (.batch _ outcome) :: _ => outcome
  | _, _ => none

theorem given?_returning (machine : Machine φ) (history : List (Event φ)) (outcome : Outcome) :
    given? (machine, history ++ [Outcome.returning outcome]) = outcome := by
  cases outcome <;> simp [given?, Outcome.returning]

theorem given?_started (machine : Machine φ) (history : List (Event φ)) (first : Invocation φ)
    (owner : Nat) (rest : List (Invocation φ)) (outcome : Outcome) :
    given? (machine.enter first owner (.batch rest outcome), history ++ [.started first]) =
      outcome := by
  simp [given?, enter]

/-- All operations under way will leave what they should. Where the bridge is free, any
operation could have let go of it. -/
structure Guards (remains : Remainder φ) (living : List Double) (activity : Activity φ)
    (machine : Machine φ) : Prop where
  sound : Sound activity machine
  free : ∀ bridge, machine.bridge = some bridge →
    ∀ outcome, remains outcome (bridge.roster machine.procedures) living
  activity : activity.Leaves remains machine.id machine.procedures living
  frames : ∀ frame ∈ machine.frames, frame.Leaves remains machine.id machine.procedures living

/-- An operation has left what it should, if it has let go of the bridge. -/
structure Left (remains : Remainder φ) (living : List Double) (observed : Observed φ) : Prop where
  sound : Sound .idle observed.1
  freed : ∀ bridge, observed.1.bridge = some bridge →
    remains (given? observed) (bridge.roster observed.1.procedures) living
  frames : ∀ frame ∈ observed.1.frames,
    frame.Leaves remains observed.1.id observed.1.procedures living

section Guards

variable {remains : Remainder φ} {living : List Double} {activity next : Activity φ}
  {machine after : Machine φ} {events : List (Event φ)} {move : Move φ}

theorem Left.guards (done : Left remains living (machine, events))
    (free : ∀ bridge, machine.bridge = some bridge →
      ∀ outcome, remains outcome (bridge.roster machine.procedures) living) :
    Guards remains living .idle machine :=
  ⟨done.sound, free, trivial, done.frames⟩

theorem Guards.left (guards : Guards remains living .idle machine) (history : List (Event φ)) :
    Left remains living (machine, history) :=
  ⟨guards.sound, fun bridge free => guards.free bridge free _, guards.frames⟩

/-- The bridge is held, and below are only calls of functions of the script. -/
theorem Guards.at_work (sound : Sound activity machine) (held : machine.bridge = none)
    (stack : Stack true machine.frames)
    (current : activity.Leaves remains machine.id machine.procedures living) :
    Guards remains living activity machine where
  sound
  free bridge free := by
    rw [held] at free
    cases free
  activity := current
  frames frame member := frame.leaves_of_called remains _ _ living (stack.called frame member)

/-- The library goes on, or lets go of the bridge. -/
theorem Guards.continues (guards : Guards remains living activity machine)
    (piece : Continues machine activity events next after) :
    Guards remains living next after ∨
      next = .idle ∧ ∀ history, Left remains living (after, history ++ events) := by
  have sound : Sound next after := sound_invariant.continues [] guards.sound piece
  obtain ⟨before, free, current, frames⟩ := guards
  cases piece with
  | methodTells effect rest =>
      obtain ⟨-, -, -, -, id⟩ := machine.effect_frame effect
      refine .inl (.at_work sound sound.1 sound.2 ?_)
      rw [id, effect_procedures]
      exact current
  | settlingTells effect rest outcome =>
      obtain ⟨-, -, -, -, id⟩ := machine.effect_frame effect
      refine .inl (.at_work sound sound.1 sound.2 ?_)
      rw [id, effect_procedures, Effect.file_of_keyless current.1]
      exact current.2
  | methodAsks call next | settlingAsks call next outcome =>
      exact .inl ⟨sound, free, trivial, List.forall_mem_cons.mpr ⟨current, frames⟩⟩
  | methodEnds result bridge | settlingEnds bridge outcome | adopts bridge outcome =>
      exact .inl (.at_work sound sound.1 sound.2 current)
  | applies bridge outcome completion rest queued =>
      refine .inl (.at_work sound sound.1 sound.2 ?_)
      refine (Bridge.apply_spares completion bridge).weaken (fun _ same => same)
        (fun _ same => same) ?_
      intro ended kept
      have last : remains outcome (bridge.roster machine.procedures) living := current
      rwa [← kept.roster] at last
  | returns bridge outcome settled adopted quiet =>
      refine .inr ⟨rfl, fun history => ⟨sound, ?_, frames⟩⟩
      rintro freed same
      cases same
      rw [given?_returning]
      exact current
  | startsBatch bridge outcome first rest settled adopted called =>
      refine .inr ⟨rfl, fun history => ⟨sound, ?_, List.forall_mem_cons.mpr ⟨trivial, frames⟩⟩⟩
      rintro freed same
      cases same
      rw [given?_started]
      exact current
  | resumesCaller | endsBatch => exact .inl ⟨sound, free, trivial, frames⟩
  | startsNext first rest outcome =>
      exact .inl ⟨sound, free, trivial, List.forall_mem_cons.mpr ⟨trivial, frames⟩⟩
  | pumpsAgain outcome bridge found =>
      exact .inl (.at_work sound sound.1 sound.2 (free bridge found outcome))

theorem Guards.finishes (guards : Guards remains living activity machine)
    (run : Finishes activity machine events after) (history : List (Event φ)) :
    Left remains living (after, history ++ events) := by
  induction run generalizing history with
  | idle machine => exact guards.left _
  | step piece rest ih =>
      rw [← List.append_assoc]
      rcases guards.continues piece with going | ⟨rfl, done⟩
      · exact ih going (history ++ _)
      · obtain ⟨rfl, rfl⟩ := rest.of_idle
        simpa using done history

/-- The emulator creates and ends no thread by the move, and no method begins. -/
theorem Guards.begins (guards : Guards remains living .idle machine)
    (begins : Begins machine move events activity after) (quiet : machine.deed? move = none)
    (busy : ∀ method, move = .call method → machine.bridge = none) :
    Guards remains living activity after := by
  have sound : Sound activity after := sound_invariant.begins [] guards.sound begins
  obtain ⟨before, free, -, frames⟩ := guards
  cases begins with
  | ignored | busy | invokeNothing | completeLater => exact ⟨sound, free, trivial, frames⟩
  | call method bridge found => cases (busy method rfl).symm.trans found
  | complete ticket payload bridge known found =>
      exact .at_work sound sound.1 sound.2 (free bridge found none)
  | invoke => exact ⟨sound, free, trivial, List.forall_mem_cons.mpr ⟨trivial, frames⟩⟩
  | answerMethod reply call next rest top =>
      rw [top, List.forall_mem_cons] at frames
      have none : call.deed? (reply call) = none := by simpa [deed?, top] using quiet
      have current := frames.1 (reply call)
      rw [none] at current
      exact .at_work sound sound.1 sound.2 (current (lawful_none living))
  | answerSettling reply call next outcome rest top =>
      rw [top, List.forall_mem_cons] at frames
      exact .at_work sound sound.1 sound.2 (frames.1.2 (reply call))
  | printed reply owner line resume rest top | finish invocation owner resume rest top
  | unprinted reply owner line resume rest top =>
      rw [top, List.forall_mem_cons] at frames
      exact ⟨sound, free, trivial, frames.2⟩
  | throw thrown invocation owner resume rest top =>
      rw [top, List.forall_mem_cons] at frames
      exact ⟨sound, free, trivial, List.forall_mem_cons.mpr ⟨trivial, frames.2⟩⟩

/-- Only the answer to a method creates or ends a thread. -/
theorem Guards.method_of_deed (guards : Guards remains living .idle machine) {deed : ThreadDeed}
    (done : machine.deed? move = some deed) :
    ∃ reply call next frames, move = .answer reply ∧
      machine.frames = .method call next :: frames ∧ call.deed? (reply call) = some deed := by
  cases move with
  | call | complete | invoke | finish => cases done
  | answer reply =>
      have known := guards.frames
      cases top : machine.frames with
      | nil => simp [deed?, top] at done
      | cons frame frames =>
          cases frame with
          | method call next => exact ⟨_, _, _, _, rfl, rfl, by simpa [deed?, top] using done⟩
          | settling call next outcome =>
              rw [top, List.forall_mem_cons] at known
              simp [deed?, top, NativeCall.deed?_eq_none known.1.1] at done
          | script | reporting => simp [deed?, top] at done

theorem Guards.step (guards : Guards remains living .idle machine)
    (lawful : Lawful living (machine.deed? move))
    (busy : ∀ method, move = .call method → machine.bridge = none) (history : List (Event φ)) :
    Left remains (livingAfter living (machine.deed? move))
      ((machine.step move).1, history ++ (machine.step move).2) := by
  cases done : machine.deed? move with
  | none =>
      obtain ⟨begun, activity, between, finished, begins, finishes, events⟩ :=
        (machine.step_turn move).split
      rw [events, ← List.append_assoc]
      exact (guards.begins begins done busy).finishes finishes _
  | some deed =>
      obtain ⟨reply, call, next, frames, rfl, top, same⟩ := guards.method_of_deed done
      have known := guards.frames
      obtain ⟨stack, -⟩ := guards.sound
      rw [top] at known stack
      obtain ⟨held, below⟩ := stack.of_holder rfl
      have held : machine.bridge = none :=
        Option.isNone_iff_eq_none.mp (Option.isSome_eq_false_iff.mp held)
      have current := (List.forall_mem_cons.mp known).1 (reply call)
      rw [same, ← done] at current
      have working : Guards remains (livingAfter living (machine.deed? (.answer reply)))
          (.method (next (reply call))) (machine.returnTo frames) :=
        .at_work ⟨held, below⟩ held below (current lawful)
      have answered : machine.step (.answer reply) =
          (machine.returnTo frames).advanceMethod (next (reply call)) := by
        simp [Machine.step, answer, top, returnTo]
      rw [answered, ← done]
      exact working.finishes (advanceMethod_finishes _ _) history

/-- A method begins on the free bridge. -/
theorem Guards.call {other : Remainder φ} (guards : Guards other living .idle machine)
    {bridge : Bridge φ} (free : machine.bridge = some bridge) {method : Method φ}
    (keeps : Keeps machine.id (fun procedures living ended =>
      remains (some ended.1) (ended.2.roster procedures) living) machine.procedures living
      (method.run bridge)) (history : List (Event φ)) :
    Left remains living ((machine.step (.call method)).1,
      history ++ (machine.step (.call method)).2) := by
  obtain ⟨stack, -⟩ := guards.sound
  rw [free] at stack
  have working : Guards remains living (.method (method.run bridge)) machine.hold :=
    .at_work ⟨rfl, stack⟩ rfl stack keeps
  have called : machine.step (.call method) = machine.hold.advanceMethod (method.run bridge) := by
    simp [Machine.step, Machine.call, free, hold]
  rw [called]
  exact working.finishes (advanceMethod_finishes _ _) history

end Guards

/-! ## Runs -/

/-- The tables of threads, unless a call works on them. -/
def roster? (machine : Machine φ) : Option (Roster φ) :=
  machine.bridge.map (·.roster machine.procedures)

/-- How many keys a move uses up. A spawn that finds the bridge taken uses none. -/
def keysUsed (machine : Machine φ) : Move φ → Nat
  | .call method => if machine.bridge.isSome then method.keysUsed else 0
  | .complete _ _ | .invoke _ _ | .answer _ | .finish _ => 0

/-- How many threads a script asks for in some moves. -/
def spawns (machine : Machine φ) : List (Move φ) → Nat
  | [] => 0
  | move :: rest => machine.keysUsed move + spawns (machine.step move).1 rest

/-- What the emulator does about threads, move by move. -/
def deeds (machine : Machine φ) : List (Move φ) → List (Option ThreadDeed)
  | [] => []
  | move :: rest => machine.deed? move :: deeds (machine.step move).1 rest

theorem steps_append (machine : Machine φ) (past later : List (Move φ)) :
    (machine.steps (past ++ later)).1 = ((machine.steps past).1.steps later).1 := by
  induction past generalizing machine with
  | nil => rfl
  | cons move rest ih => exact ih (machine.step move).1

theorem spawns_append (machine : Machine φ) (past later : List (Move φ)) :
    machine.spawns (past ++ later) = machine.spawns past + (machine.steps past).1.spawns later := by
  induction past generalizing machine with
  | nil => exact (Nat.zero_add _).symm
  | cons move rest ih =>
      simp only [List.cons_append, spawns, ih (machine.step move).1, ← Nat.add_assoc]
      rfl

theorem deeds_append (machine : Machine φ) (past later : List (Move φ)) :
    machine.deeds (past ++ later) = machine.deeds past ++ (machine.steps past).1.deeds later := by
  induction past generalizing machine with
  | nil => rfl
  | cons move rest ih => exact congrArg (machine.deed? move :: ·) (ih (machine.step move).1)

/-- The tables agree, whatever the operation gives back. -/
def agreed (asked : Nat) : Remainder φ :=
  fun _ roster living => roster.Consistent asked living

section Runs

variable {remains : Remainder φ} {asked : Nat} {living : List Double} {machine : Machine φ}

theorem start_agreed (id : Nat) (config : SessionConfig) :
    Guards (agreed 0) [] .idle (start id config : Machine φ) where
  sound := start_sound id config
  activity := trivial
  frames := by simp [start]
  free := by
    rintro bridge same -
    cases same
    exact
      { counted := rfl
        listed := by rintro key thread ⟨⟩
        filed := by simp [Bridge.roster, Roster.Lives, start]
        retained := by simp [Bridge.roster, Roster.Lives]
        living := by simp [Bridge.roster, Roster.Lives] }

theorem Guards.agreed_step (guards : Guards (agreed asked) living .idle machine) (move : Move φ)
    (lawful : Lawful living (machine.deed? move)) (few : asked < UInt32.size) :
    Guards (agreed (asked + machine.keysUsed move)) (livingAfter living (machine.deed? move)) .idle
      (machine.step move).1 := by
  have quiet (used : machine.keysUsed move = 0)
      (busy : ∀ method, move = .call method → machine.bridge = none) :
      Guards (agreed (asked + machine.keysUsed move)) (livingAfter living (machine.deed? move))
        .idle (machine.step move).1 := by
    rw [used]
    have done := guards.step lawful busy []
    exact done.guards fun bridge free _ => done.freed bridge free
  cases move with
  | complete | invoke | answer | finish => exact quiet rfl (by simp)
  | call method =>
      cases free : machine.bridge with
      | none => exact quiet (by simp [keysUsed, free]) fun _ _ => free
      | some bridge =>
          have used : machine.keysUsed (.call method) = method.keysUsed := by simp [keysUsed, free]
          rw [used]
          have consistent := guards.free bridge free none
          have done : Left (agreed (asked + method.keysUsed)) living
              ((machine.step (.call method)).1, [] ++ (machine.step (.call method)).2) :=
            guards.call free (Method.run_keeps consistent few method) []
          exact done.guards fun bridge free _ => done.freed bridge free

theorem Guards.agreed_steps (guards : Guards (agreed asked) living .idle machine)
    (moves : List (Move φ)) (orderly : Orderly living (machine.deeds moves))
    (few : asked + machine.spawns moves < UInt32.size) :
    Guards (agreed (asked + machine.spawns moves))
      ((machine.deeds moves).foldl livingAfter living) .idle (machine.steps moves).1 := by
  induction moves generalizing asked living machine with
  | nil => exact guards
  | cons move rest ih =>
      have later : asked + machine.spawns (move :: rest) =
          asked + machine.keysUsed move + (machine.step move).1.spawns rest :=
        (Nat.add_assoc _ _ _).symm
      rw [later] at few ⊢
      have next := guards.agreed_step move orderly.1 (by omega)
      exact ih next orderly.2 few

/-- Moves up to the one that lets go of the bridge. -/
theorem Guards.freed_steps (guards : Guards remains living .idle machine) (moves : List (Move φ))
    (orderly : Orderly living (machine.deeds moves))
    (held : ∀ past, past <+: moves → past ≠ moves → (machine.steps past).1.bridge = none)
    (history : List (Event φ)) :
    Left remains ((machine.deeds moves).foldl livingAfter living)
      ((machine.steps moves).1, history ++ (machine.steps moves).2) := by
  induction moves generalizing living machine history with
  | nil => exact guards.left _
  | cons move rest ih =>
      have taken : machine.bridge = none := held [] (List.nil_prefix) (by simp)
      have done := guards.step orderly.1 (fun _ _ => taken) history
      cases rest with
      | nil => simpa [steps, deeds] using done
      | cons next rest =>
          have still : (machine.step move).1.bridge = none :=
            held [move] (by simp) (by simp)
          have between := done.guards fun bridge free => by cases still.symm.trans free
          have later := ih between orderly.2 (fun past isPrefix differ =>
            held (move :: past) (by simpa using isPrefix) (by simpa using differ))
            (history ++ (machine.step move).2)
          simpa [steps, deeds] using later

/-- A script asks for a thread on the free bridge, which the last of the moves `during` lets
go of again. -/
structure Spawning (machine : Machine φ) (callback : φ) (during : List (Move φ))
    (before after : Roster φ) : Prop where
  starts : machine.roster? = some before
  holds : ∀ begun, begun <+: during → begun ≠ during →
    (machine.steps (.call (.spawn callback) :: begun)).1.bridge = none
  ends : (machine.steps (.call (.spawn callback) :: during)).1.roster? = some after

theorem Guards.spawned (guards : Guards (agreed asked) living .idle machine)
    (few : asked < UInt32.size) {callback : φ} {during : List (Move φ)} {before after : Roster φ}
    (spawning : Spawning machine callback during before after)
    (orderly : Orderly living (machine.deeds (.call (.spawn callback) :: during))) :
    ∃ result, given? (machine.steps (.call (.spawn callback) :: during)) = some result ∧
      before.Spawned after result := by
  obtain ⟨starts, holds, ends⟩ := spawning
  obtain ⟨bridge, free, rfl⟩ := Option.map_eq_some_iff.mp starts
  obtain ⟨last, freed, rfl⟩ := Option.map_eq_some_iff.mp ends
  let remains : Remainder φ := fun outcome roster _ => ∃ result, outcome = some result ∧
    (bridge.roster machine.procedures).Spawned roster result
  have begun : Left remains living ((machine.step (.call (.spawn callback))).1,
      [] ++ (machine.step (.call (.spawn callback))).2) := by
    refine guards.call free ?_ []
    exact (Method.spawn_keeps (guards.free bridge free none) few callback).weaken
      fun _ _ ended spawned => ⟨ended.1, rfl, spawned.2⟩
  cases during with
  | nil => simpa [steps, Observed.after] using begun.freed last freed
  | cons move rest =>
      have held : (machine.step (.call (.spawn callback))).1.bridge = none :=
        holds [] List.nil_prefix (by simp)
      have working := begun.guards fun bridge free => by cases held.symm.trans free
      exact (working.freed_steps (move :: rest) orderly.2 holds _).freed last freed

end Runs

variable {id : Nat} {config : SessionConfig} {moves past : List (Move φ)}

theorem reached_agreed (orderly : Orderly [] ((start id config : Machine φ).deeds moves))
    (few : (start id config : Machine φ).spawns moves < UInt32.size) (isPrefix : past <+: moves) :
    Guards (agreed ((start id config : Machine φ).spawns past))
        (((start id config : Machine φ).deeds past).foldl livingAfter []) .idle
        (reached id config past) ∧
      (start id config : Machine φ).spawns past < UInt32.size := by
  obtain ⟨later, rfl⟩ := isPrefix
  rw [spawns_append] at few
  rw [deeds_append] at orderly
  have fewer := Nat.lt_of_le_of_lt (Nat.le_add_right _ _) few
  have guards := (start_agreed id config).agreed_steps past (orderly_append.mp orderly).1
    (by rwa [Nat.zero_add])
  rw [Nat.zero_add] at guards
  exact ⟨guards, fewer⟩

/-- The keys of two spawns differ. -/
theorem nextThread_ne (orderly : Orderly [] ((start id config : Machine φ).deeds moves))
    (few : (start id config : Machine φ).spawns moves < UInt32.size) {callback : φ}
    {later : List (Move φ)} (isPrefix : past ++ .call (.spawn callback) :: later <+: moves)
    {before next : Roster φ} (first : (reached id config past).roster? = some before)
    (second : (reached id config (past ++ .call (.spawn callback) :: later)).roster? = some next) :
    next.nextThread ≠ before.nextThread := by
  obtain ⟨bridge, free, rfl⟩ := Option.map_eq_some_iff.mp first
  obtain ⟨last, freed, rfl⟩ := Option.map_eq_some_iff.mp second
  obtain ⟨early, few₁⟩ := reached_agreed orderly few ((List.prefix_append _ _).trans isPrefix)
  obtain ⟨late, few₂⟩ := reached_agreed orderly few isPrefix
  have counted₁ := (early.free bridge free none).counted
  have counted₂ := (late.free last freed none).counted
  have used : (reached id config past).keysUsed (.call (.spawn callback)) = 1 := by
    simp [keysUsed, free, Method.keysUsed]
  have more : (start id config : Machine φ).spawns (past ++ .call (.spawn callback) :: later) =
      (start id config : Machine φ).spawns past +
        (1 + ((reached id config past).step (.call (.spawn callback))).1.spawns later) := by
    rw [spawns_append, ← used]
    rfl
  intro same
  rw [counted₁, counted₂] at same
  have equal := congrArg UInt32.toNat same
  rw [UInt32.toNat_ofNat_of_lt' few₁, UInt32.toNat_ofNat_of_lt' few₂] at equal
  omega

/-- Of two spawns of one key the later one is the earlier one. -/
theorem past_eq_of_key (orderly : Orderly [] ((start id config : Machine φ).deeds moves))
    (few : (start id config : Machine φ).spawns moves < UInt32.size) {callback : φ}
    {during other : List (Move φ)} (begins : past ++ .call (.spawn callback) :: during <+: moves)
    (isPrefix : other <+: moves) (shorter : past <+: other) {before next : Roster φ}
    (first : (reached id config past).roster? = some before)
    (second : (reached id config other).roster? = some next)
    (same : next.nextThread = before.nextThread) : past = other := by
  obtain ⟨tail, rfl⟩ := shorter
  cases tail with
  | nil => simp
  | cons move tail =>
      have begun : past ++ [.call (.spawn callback)] <+: moves :=
        ((List.prefix_append_right_inj past).mpr (by simp)).trans begins
      have going : past ++ [move] <+: moves :=
        ((List.prefix_append_right_inj past).mpr (by simp)).trans isPrefix
      have call : move = .call (.spawn callback) := by
        simpa using (List.prefix_of_prefix_length_le going begun (by simp)).eq_of_length (by simp)
      subst call
      exact (nextThread_ne orderly few isPrefix first second same).elim

/-- What a spawn does that has let go of the bridge after some moves. -/
theorem reached_spawned (orderly : Orderly [] ((start id config : Machine φ).deeds moves))
    (few : (start id config : Machine φ).spawns moves < UInt32.size) {callback : φ}
    {during : List (Move φ)} (isPrefix : past ++ .call (.spawn callback) :: during <+: moves)
    {before after : Roster φ}
    (spawning : Spawning (reached id config past) callback during before after) :
    ∃ result, given? ((reached id config past).steps (.call (.spawn callback) :: during)) =
      some result ∧ before.Spawned after result := by
  obtain ⟨guards, fewer⟩ := reached_agreed orderly few ((List.prefix_append _ _).trans isPrefix)
  obtain ⟨rest, rfl⟩ := isPrefix
  rw [deeds_append, deeds_append] at orderly
  exact guards.spawned fewer spawning (orderly_append.mp (orderly_append.mp orderly).1).2

/-- A spawn gives the script a key. -/
def Gives (machine : Machine φ) (callback : φ) (during : List (Move φ)) (key : UInt32) : Prop :=
  (∃ before after, Spawning machine callback during before after) ∧
    given? (machine.steps (.call (.spawn callback) :: during)) = some (.ok (.word key))

/-- The key that a spawn gives is the one that was next. -/
theorem Gives.nextThread (orderly : Orderly [] ((start id config : Machine φ).deeds moves))
    (few : (start id config : Machine φ).spawns moves < UInt32.size) {callback : φ}
    {during : List (Move φ)} {key : UInt32}
    (gives : Gives (reached id config past) callback during key)
    (isPrefix : past ++ .call (.spawn callback) :: during <+: moves) :
    ∃ before, (reached id config past).roster? = some before ∧ before.nextThread = key := by
  obtain ⟨⟨before, after, spawning⟩, given⟩ := gives
  refine ⟨before, spawning.starts, ?_⟩
  obtain ⟨result, same, spawned⟩ := reached_spawned orderly few isPrefix spawning
  cases given.symm.trans same
  rcases spawned with ⟨named, -⟩ | ⟨error, failed, -⟩
  · cases named
    rfl
  · cases failed

/-- The tables of threads agree whenever the bridge is free. A spawn gives the key of a thread
that runs, or it fails and leaves the tables as they were. No two spawns give one key. -/
theorem thread_tables_agree (id : Nat) (config : SessionConfig) (moves : List (Move φ))
    (orderly : Orderly [] ((start id config : Machine φ).deeds moves))
    (few : (start id config : Machine φ).spawns moves < UInt32.size) :
    (∀ past, past <+: moves → ∀ roster, (reached id config past).roster? = some roster →
      roster.Agrees) ∧
    (∀ past callback, past ++ [.call (.spawn callback)] <+: moves →
      (reached id config past).bridge = none →
        (reached id config past).step (.call (.spawn callback)) =
          (reached id config past, [.returned (.error .busy)])) ∧
    (∀ past callback during, past ++ .call (.spawn callback) :: during <+: moves →
      ∀ before after, Spawning (reached id config past) callback during before after →
        ∃ result, given? ((reached id config past).steps (.call (.spawn callback) :: during)) =
          some result ∧ before.Spawned after result) ∧
    ∀ key past callback during, past ++ .call (.spawn callback) :: during <+: moves →
      Gives (reached id config past) callback during key →
      ∀ other newer later, other ++ .call (.spawn newer) :: later <+: moves →
        Gives (reached id config other) newer later key → past = other := by
  refine ⟨?_, ?_, ?_, ?_⟩
  · intro past isPrefix roster found
    obtain ⟨bridge, free, rfl⟩ := Option.map_eq_some_iff.mp found
    obtain ⟨guards, -⟩ := reached_agreed orderly few isPrefix
    exact (guards.free bridge free none).agrees
  · intro past callback _ held
    simp [Machine.step, Machine.call, held]
  · intro past callback during isPrefix before after spawning
    exact reached_spawned orderly few isPrefix spawning
  · intro key past callback during isPrefix gives other newer later isOther gave
    obtain ⟨before, first, rfl⟩ := gives.nextThread orderly few isPrefix
    obtain ⟨next, second, same⟩ := gave.nextThread orderly few isOther
    have whole := (List.prefix_append other (.call (.spawn newer) :: later)).trans isOther
    have part := (List.prefix_append past (.call (.spawn callback) :: during)).trans isPrefix
    rcases List.prefix_or_prefix_of_prefix part whole with shorter | shorter
    · exact past_eq_of_key orderly few isPrefix whole shorter first second same
    · exact (past_eq_of_key orderly few isOther part shorter second first same.symm).symm

/-- The first thread runs before its spawn has returned, the emulator refuses the second, and
the third has the handle of the first, which was stopped. -/
def threadMoves : List (Move Nat) :=
  [.call (.spawn 10), .invoke (.procedure 0) [], .finish none, .answer (NativeTable.replies {}),
    .call (.spawn 11), .answer fun _ => .error .null,
    .call (.stopThread 0), .answer (NativeTable.replies {}),
    .call (.spawn 12), .answer (NativeTable.replies {})]

/-- The tables agree all along, the second spawn leaves what it has found, and the third one
gives the key after the one that the second has used up. -/
theorem thread_tables_agree_of_refusal :
    let machine : Machine Nat := start 0 {}
    Orderly [] (machine.deeds threadMoves) ∧ machine.spawns threadMoves < UInt32.size ∧
      (∀ past, past <+: threadMoves → ∀ roster, (reached 0 {} past).roster? = some roster →
        roster.Agrees) ∧
      (∃ before after, (reached 0 {} (threadMoves.take 4)).roster? = some before ∧
        (reached 0 {} (threadMoves.take 6)).roster? = some after ∧ before.Same after) ∧
      ((reached 0 {} threadMoves).roster?.map fun roster =>
        [0, 1, 2].map fun key => (roster.threads.find? key).map (·.state)) =
          some [some .stopped, none, some .running] := by
  intro machine
  have deeds : machine.deeds threadMoves =
      [none, none, none, some (.created (Binary.ofInt 1)), none, none, none,
        some (.terminated (Binary.ofInt 1)), none, some (.created (Binary.ofInt 1))] := by
    decide +kernel
  have created (living : List Double) (new : Binary.ofInt 1 ∉ living) :
      Lawful living (some (.created (Binary.ofInt 1))) := by
    rintro number ⟨⟩
    exact ⟨new, 1, by decide, rfl⟩
  have orderly : Orderly [] (machine.deeds threadMoves) := by
    rw [deeds]
    exact ⟨lawful_none _, lawful_none _, lawful_none _, created _ (by decide +kernel),
      lawful_none _, lawful_none _, lawful_none _, lawful_terminated _ _, lawful_none _,
      created _ (by decide +kernel), trivial⟩
  have few : machine.spawns threadMoves < UInt32.size := by decide +kernel
  obtain ⟨agree, -, spawned, -⟩ := thread_tables_agree 0 {} threadMoves orderly few
  refine ⟨orderly, few, agree, ?_, by decide +kernel⟩
  obtain ⟨before, starts⟩ := Option.isSome_iff_exists.mp
    (show (reached 0 {} (threadMoves.take 4)).roster?.isSome by decide +kernel)
  obtain ⟨after, ends⟩ := Option.isSome_iff_exists.mp
    (show (reached 0 {} (threadMoves.take 6)).roster?.isSome by decide +kernel)
  have refusal : threadMoves.take 4 ++ .call (.spawn 11) :: [.answer fun _ => .error .null] =
      threadMoves.take 6 := rfl
  have spawning : Spawning (reached 0 {} (threadMoves.take 4)) 11 [.answer fun _ => .error .null]
      before after := by
    refine ⟨starts, fun begun isPrefix differ => ?_, ?_⟩
    · have nothing : begun = [] := by
        rcases List.prefix_cons_iff.mp isPrefix with rfl | ⟨rest, rfl, nothing⟩
        · rfl
        · exact (differ (by rw [List.prefix_nil.mp nothing])).elim
      subst nothing
      exact Option.isNone_iff_eq_none.mp (by decide +kernel)
    · rw [← ends, ← refusal, reached, reached, steps_append]
  obtain ⟨result, given, left⟩ := spawned _ 11 _ (refusal ▸ List.take_prefix 6 threadMoves)
    before after spawning
  refine ⟨before, after, starts, ends, ?_⟩
  have refused : (given? ((reached 0 {} (threadMoves.take 4)).steps
      (.call (.spawn 11) :: [.answer fun _ => .error .null]))).map Except.isOk = some false := by
    decide +kernel
  rw [given] at refused
  rcases left with ⟨granted, -⟩ | ⟨error, -, same⟩
  · rw [granted] at refused
    cases refused
  · exact same

end Machine

end EmuScript.Engine
