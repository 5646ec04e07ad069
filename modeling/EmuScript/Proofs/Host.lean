import EmuScript.Emulator.Basic
import EmuScript.Host.Action
import EmuScript.Proofs.Program

/-!
# Environments of the library

An environment of the library is an emulator of any kind: it answers host calls and
takes note of what the library tells. The model emulator is one of them.
-/

set_option autoImplicit false

namespace EmuScript

section MapError

variable {ε δ α : Type} (convert : ε → δ)

@[simp] theorem mapError_ok (value : α) :
    (Except.ok value : Except ε α).mapError convert = .ok value := rfl

@[simp] theorem mapError_error (error : ε) :
    (Except.error error : Except ε α).mapError convert = .error (convert error) := rfl

end MapError

/-- An item is found by its key when no two have the same key. -/
theorem find?_of_nodup_map {α β : Type} [DecidableEq β] {key : α → β} {items : List α}
    (distinct : (items.map key).Nodup) {item : α} (member : item ∈ items) :
    items.find? (fun other => key other = key item) = some item := by
  induction items with
  | nil => cases member
  | cons first rest ih =>
      obtain ⟨once, distinct⟩ := List.nodup_cons.mp distinct
      obtain rfl | later := List.mem_cons.mp member
      · simp
      · have differ : key first ≠ key item := fun same => once (same ▸ List.mem_map_of_mem later)
        rw [List.find?_cons_of_neg (by simpa using differ)]
        exact ih distinct later

abbrev HostEnvironment (κ σ : Type) : Type :=
  Program.Environment (HostCall κ) HostCall.Reply (Notice κ) σ

namespace HostEnvironment

variable {κ σ α β : Type}

/-- The result of an action and the state of the emulator after it. -/
def perform (environment : HostEnvironment κ σ) (action : Action κ α) (state : σ) :
    Except ScriptError α × σ :=
  Program.run environment action.run state

theorem perform_ask (environment : HostEnvironment κ σ) (call : HostCall κ) (state : σ) :
    environment.perform (Action.ask call) state =
      ((environment.answer call state).1.mapError .host, (environment.answer call state).2) := rfl

/-- The rest of an action is carried out when the first part of it has succeeded. -/
theorem perform_bind (environment : HostEnvironment κ σ) (action : Action κ α)
    (next : α → Action κ β) (state : σ) :
    environment.perform (action >>= next) state =
      match environment.perform action state with
      | (.ok value, state) => environment.perform (next value) state
      | (.error error, state) => (.error error, state) := by
  have ran : environment.perform (action >>= next) state =
      Program.run environment (action.run.bind (ExceptT.bindCont next)) state := rfl
  rw [ran, Program.run_bind, perform]
  cases Program.run environment action.run state with
  | mk result state => cases result <;> rfl

theorem perform_map_ask (environment : HostEnvironment κ σ) (call : HostCall κ)
    (next : call.Answer → α) (state : σ) :
    environment.perform (do return next (← Action.ask call)) state =
      (((environment.answer call state).1.mapError .host).map next,
        (environment.answer call state).2) := by
  rw [perform_bind, perform_ask]
  cases (environment.answer call state).1 <;> rfl

end HostEnvironment

/-- The model emulator; it does not act on what the library tells. -/
def Emulator.environment (κ : Type) : HostEnvironment κ (Emulator κ) where
  answer := Emulator.serve
  note _ emulator := emulator

end EmuScript
