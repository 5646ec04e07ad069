import EmuScript.Proofs.Host

/-!
# Outcomes of updates

What an update comes to in an environment, as a whole: what the environment sees of it, its
result, and the object and the environment after it. An update that goes on after another
one has the outcomes of both, up to the first error.
-/

set_option autoImplicit false

namespace EmuScript

open Program

/-- What an environment sees of the library. -/
abbrev HostTrace (κ : Type) : Type :=
  List (Happening (HostCall κ) HostCall.Reply (Notice κ))

/-- The handlers that are run. -/
def HostTrace.signals {κ : Type} (trace : HostTrace κ) : List (Signal κ) :=
  trace.filterMap fun
    | .told (.signal signal) => some signal
    | _ => none

namespace Update

structure Outcome (κ τ σ α : Type) where
  trace : HostTrace κ
  result : Except ScriptError α
  object : τ
  state : σ

variable {κ τ σ α β : Type}

def outcome (environment : HostEnvironment κ σ) (update : Update κ τ α) (object : τ) (state : σ) :
    Outcome κ τ σ α :=
  let program := update.on object
  let ended := program.run environment state
  ⟨program.trace environment state, ended.1.1, ended.1.2, ended.2⟩

theorem outcome_bind (environment : HostEnvironment κ σ) (update : Update κ τ α)
    (next : α → Update κ τ β) (object : τ) (state : σ) :
    (update >>= next).outcome environment object state =
      let first := update.outcome environment object state
      match first.result with
      | .ok value =>
          let rest := (next value).outcome environment first.object first.state
          { rest with trace := first.trace ++ rest.trace }
      | .error error => ⟨first.trace, .error error, first.object, first.state⟩ := by
  have joined : (update >>= next).on object = (update.on object).bind fun ended =>
      match ended.1 with
      | .ok value => (next value).on ended.2
      | .error error => done (.error error, ended.2) := by
    refine congrArg (Program.bind _) (funext fun ended => ?_)
    obtain ⟨result, object⟩ := ended
    cases result <;> rfl
  simp only [outcome, joined, run_bind, trace_bind]
  rcases (update.on object).run environment state with ⟨⟨result, object⟩, state⟩
  cases result with
  | ok value => rfl
  | error error => simp [run, trace]

/-- Only the object is of interest after an update. -/
theorem run_snd (environment : HostEnvironment κ σ) (update : Update κ τ α) (object : τ)
    (state : σ) :
    (Prod.snd <$> update.on object : HostProgram κ τ).run environment state =
      ((update.outcome environment object state).object,
        (update.outcome environment object state).state) :=
  run_bind environment (update.on object) _ state

theorem trace_snd (environment : HostEnvironment κ σ) (update : Update κ τ α) (object : τ)
    (state : σ) :
    (Prod.snd <$> update.on object : HostProgram κ τ).trace environment state =
      (update.outcome environment object state).trace := by
  refine (trace_bind environment (update.on object) _ state).trans ?_
  exact List.append_nil _

end Update

end EmuScript
