import EmuScript.Emulator.NativeTable
import EmuScript.Proofs.Engine.Ledger

/-!
# Nothing is lost

Every completion that reaches a session is applied once, in the order in which
they came, and every queued call of a function of the script begins once, with
the bridge free. When nothing runs but what the emulator itself has called,
nothing is left to be applied or to be called.
-/

set_option autoImplicit false

namespace EmuScript.Engine.Machine

variable {φ : Type}

/-- Nothing is under way but functions of the script that the emulator itself has
called: every method and every completion function has returned. -/
def AtRest (machine : Machine φ) : Prop :=
  ∀ frame ∈ machine.frames, frame.resume? = some .caller

theorem Sound.free_of_rest {machine : Machine φ} (sound : Sound .idle machine)
    (rest : machine.AtRest) : machine.bridge.isSome :=
  sound.1.free_of_callers rest

theorem AtRest.waiting {machine : Machine φ} (rest : machine.AtRest) : machine.waiting = [] := by
  refine List.flatMap_eq_nil_iff.mpr fun frame member => ?_
  simp [Frame.waiting, rest frame member, Resume.waiting]

theorem Accounts.deferred_perm {history : List (Event φ)} {machine : Machine φ}
    (accounts : Accounts history .idle machine) :
    (history.filterMap Event.deferred?).Perm
      (history.filterMap Event.started? ++ (machine.ready ++ machine.waiting)) := by
  have listed := (Ledger.order_perm history).symm.map (·.invocation)
  rw [Ledger.queued_invocations] at listed
  simpa [Ledger.order, accounts.started, accounts.ready, accounts.waiting, Activity.waiting]
    using listed

/-- Completions are applied once each and in order, and queued calls begin once
each, when the bridge is free; once all methods and completion functions have
returned, nothing is left of either. -/
theorem delivers_everything (id : Nat) (config : SessionConfig) (moves : List (Move φ)) :
    let run := (start id config : Machine φ).steps moves
    run.2.filterMap Event.sent? = run.2.filterMap Event.applied? ++ run.1.queue ∧
    (run.2.filterMap Event.deferred?).Perm
      (run.2.filterMap Event.started? ++ (run.1.ready ++ run.1.waiting)) ∧
    (∀ move invocation, .started invocation ∈ (run.1.step move).2 →
      (run.1.step move).1.Calls invocation ∧ (run.1.step move).1.bridge.isSome) ∧
    (∀ invocation method, run.1.Inside invocation →
      .returned (.error .busy) ∉ (run.1.step (.call method)).2) ∧
    (run.1.AtRest → run.1.Settled ∧
      run.2.filterMap Event.sent? = run.2.filterMap Event.applied? ∧
      (run.2.filterMap Event.deferred?).Perm (run.2.filterMap Event.started?)) := by
  intro run
  have accounts : Accounts run.2 .idle run.1 :=
    accounts_invariant.run (start_accounts id config) moves
  have granted : Granted .idle run.1 := granted_invariant.run (start_granted id config) moves
  have sound := accounts.sound
  have deferred := accounts.deferred_perm
  refine ⟨accounts.sent, deferred, ?_, ?_, ?_⟩
  · intro move invocation started
    have calls := calls_of_started started
    have after : Sound .idle (run.1.step move).1 := sound_invariant.step [] sound move
    exact ⟨calls, after.free_of_inside calls.inside⟩
  · intro invocation method inside refused
    obtain ⟨held, _⟩ := (refused_iff granted _).mp refused
    simpa [held] using sound.free_of_inside inside
  · intro rest
    obtain ⟨queue, ready, adopted⟩ := sound.2 (sound.free_of_rest rest)
    refine ⟨⟨queue, ready, adopted⟩, ?_, ?_⟩
    · rw [accounts.sent, queue, List.append_nil]
    · simpa [ready, rest.waiting] using deferred

/-- A script writes to a new socket and gives a function to be called on
completion; then the write completes. -/
def writeMoves : List (Move Unit) :=
  [.call .createSocket, .answer (NativeTable.replies {}),
    .call (.write 1 [] (some ())), .answer (NativeTable.replies {}),
    .complete ⟨0, .write ⟨1⟩⟩ ()]

/-- The function given with a write may call any method while it runs, and nothing is
left when it has ended. -/
theorem delivers_everything_of_write :
    let during := (start 0 {} : Machine Unit).steps writeMoves
    let done := (start 0 {} : Machine Unit).steps (writeMoves ++ [.finish none])
    (during.1.Inside ⟨(), []⟩ ∧
      ∀ method, .returned (.error .busy) ∉ (during.1.step (.call method)).2) ∧
    done.1.AtRest ∧ done.1.Settled ∧
      done.2.filterMap Event.sent? = [.written ⟨1⟩] ∧
      done.2.filterMap Event.sent? = done.2.filterMap Event.applied? := by
  intro during done
  have inside : during.1.Inside ⟨(), []⟩ := Calls.inside ⟨_, _, _, _, rfl⟩
  have finished : done.1.frames.isEmpty := by decide +kernel
  have rest : done.1.AtRest := by simp [AtRest, List.isEmpty_iff.mp finished]
  have sent : done.2.filterMap Event.sent? = [.written ⟨1⟩] := by decide +kernel
  obtain ⟨_, _, _, granted, _⟩ := delivers_everything 0 {} writeMoves
  obtain ⟨_, _, _, _, settles⟩ := delivers_everything 0 {} (writeMoves ++ [.finish none])
  obtain ⟨settled, applied, _⟩ := settles rest
  exact ⟨⟨inside, fun method => granted _ method inside⟩, rest, settled, sent, applied⟩

end EmuScript.Engine.Machine
