import EmuScript.Engine.Bridge
import EmuScript.Proofs.Program

/-!
# Scopes of programs over host calls

A scope says for which sockets and servers a program may make requests, and which
signals it may give. Actions and updates stay in a scope if their parts do.
-/

set_option autoImplicit false

namespace EmuScript.Engine

/-- The request that a host call makes of the emulator. -/
def Request.of? {κ : Type} : HostCall κ → Option Request
  | .socket (.connect fd _ _) => some (.connect fd)
  | .socket (.accept fd) => some (.accept fd)
  | .socket (.read fd _) => some (.read fd)
  | .socket (.write fd _) => some (.write fd)
  | _ => none

structure Scope (κ : Type) where
  requests : Endpoint → Prop := fun _ => False
  signals : Signal κ → Prop := fun _ => False

namespace Scope

variable {κ α β σ : Type}

def Permits (scope : Scope κ) (call : HostCall κ) : Prop :=
  ∀ request, Request.of? call = some request → scope.requests request.endpoint

def contract (scope : Scope κ) (ends : α → Prop) : Contract (HostCall κ) (Notice κ) α where
  asks := scope.Permits
  tells notice := ∀ signal, notice = .signal signal → scope.signals signal
  ends

/-- A program stays in a scope and ends well. -/
def Confines (scope : Scope κ) (program : HostProgram κ α) (ends : α → Prop) : Prop :=
  program.Meets (scope.contract ends)

/-- An action stays in a scope. -/
def Does (scope : Scope κ) (action : Action κ α) (gives : α → Prop := fun _ => True) : Prop :=
  scope.Confines action.run fun result => ∀ value, result = .ok value → gives value

/-- An update stays in a scope and keeps a property of its object. -/
def Changes (scope : Scope κ) (keeps : σ → Prop) (update : Update κ σ α)
    (gives : α → Prop := fun _ => True) : Prop :=
  ∀ object, keeps object → scope.Confines (update.on object) fun ended =>
    keeps ended.2 ∧ ∀ value, ended.1 = .ok value → gives value

variable {scope : Scope κ} {keeps : σ → Prop}

theorem Confines.weaken {program : HostProgram κ α} {ends wider : α → Prop}
    (confined : scope.Confines program ends) (ended : ∀ value, ends value → wider value) :
    scope.Confines program wider :=
  Program.Meets.weaken confined (fun _ => id) (fun _ => id) ended

theorem confines_bind {program : HostProgram κ α} {next : α → HostProgram κ β} {between : α → Prop}
    {ends : β → Prop} (first : scope.Confines program between)
    (rest : ∀ value, between value → scope.Confines (next value) ends) :
    scope.Confines (program >>= next) ends :=
  Program.meets_bind.mpr (first.weaken rest)

/-! ## Actions -/

theorem does_pure {gives : α → Prop} {value : α} (given : gives value) :
    scope.Does (pure value) gives := by
  intro other same
  cases same
  exact given

theorem does_throw {gives : α → Prop} (error : ScriptError) :
    scope.Does (throw error : Action κ α) gives := by
  intro value same
  cases same

theorem does_bind {action : Action κ α} {next : α → Action κ β} {between : α → Prop}
    {gives : β → Prop} (first : scope.Does action between)
    (rest : ∀ value, between value → scope.Does (next value) gives) :
    scope.Does (action >>= next) gives := by
  refine confines_bind first fun result given => ?_
  cases result with
  | ok value => exact rest value (given value rfl)
  | error error => exact does_throw error

theorem does_map {action : Action κ α} (change : α → β) (first : scope.Does action) :
    scope.Does (change <$> action) := by
  refine confines_bind first fun result _ => ?_
  cases result <;> exact fun _ _ => trivial

theorem does_ask {call : HostCall κ} (permitted : scope.Permits call) :
    scope.Does (Action.ask call) :=
  ⟨permitted, fun _ _ _ => trivial⟩

theorem does_log (level : LogLevel) (text : String) :
    scope.Does (Action.log level text : Action κ Unit) :=
  ⟨by simp [contract], fun _ _ => trivial⟩

theorem does_emit {signal : Signal κ} (permitted : scope.signals signal) :
    scope.Does (Action.emit signal) := by
  refine ⟨fun other same => ?_, fun _ _ => trivial⟩
  cases same
  exact permitted

theorem does_lift {program : HostProgram κ α} {gives : α → Prop}
    (confined : scope.Confines program gives) :
    scope.Does (monadLift program : Action κ α) gives := by
  refine confines_bind confined fun value given other same => ?_
  cases same
  exact given

theorem does_getOrThrow (value : Option α) (error : ScriptError) :
    scope.Does (Action.getOrThrow value error : Action κ α) fun given => value = some given := by
  cases value with
  | some value => exact does_pure rfl
  | none => exact does_throw error

/-! ## Updates -/

theorem changes_pure {gives : α → Prop} {value : α} (given : gives value) :
    scope.Changes keeps (pure value) gives := by
  refine fun object kept => ⟨kept, fun other same => ?_⟩
  cases same
  exact given

theorem changes_throw {gives : α → Prop} (error : ScriptError) :
    scope.Changes keeps (throw error : Update κ σ α) gives :=
  fun _ kept => ⟨kept, fun _ same => by cases same⟩

theorem changes_bind {update : Update κ σ α} {next : α → Update κ σ β} {between : α → Prop}
    {gives : β → Prop} (first : scope.Changes keeps update between)
    (rest : ∀ value, between value → scope.Changes keeps (next value) gives) :
    scope.Changes keeps (update >>= next) gives := by
  intro object kept
  refine confines_bind (first object kept) fun (result, after) ⟨kept, given⟩ => ?_
  cases result with
  | ok value => exact rest value (given value rfl) after kept
  | error error => exact changes_throw error after kept

theorem changes_get : scope.Changes keeps (get : Update κ σ σ) keeps := by
  refine fun object kept => ⟨kept, fun other same => ?_⟩
  cases same
  exact kept

theorem changes_set {object : σ} (kept : keeps object) :
    scope.Changes keeps (set object : Update κ σ PUnit) :=
  fun _ _ => ⟨kept, fun _ _ => trivial⟩

theorem changes_modify {change : σ → σ} (kept : ∀ object, keeps object → keeps (change object)) :
    scope.Changes keeps (modify change : Update κ σ PUnit) :=
  fun object before => ⟨kept object before, fun _ _ => trivial⟩

theorem changes_ofAction {action : Action κ α} {gives : α → Prop} (does : scope.Does action gives) :
    scope.Changes keeps (Update.ofAction action) gives := by
  intro object kept
  exact confines_bind does fun result given => ⟨kept, given⟩

theorem changes_ask {call : HostCall κ} (permitted : scope.Permits call) :
    scope.Changes keeps (Update.ask call) :=
  changes_ofAction (does_ask permitted)

theorem changes_log (level : LogLevel) (text : String) :
    scope.Changes keeps (Update.log level text : Update κ σ Unit) :=
  changes_ofAction (does_log level text)

theorem changes_getOrThrow (value : Option α) (error : ScriptError) :
    scope.Changes keeps (Update.getOrThrow value error : Update κ σ α)
      fun given => value = some given :=
  changes_ofAction (does_getOrThrow value error)

theorem changes_emitTo {handler : Option κ} {signal : κ → Signal κ}
    (permitted : ∀ handler, scope.signals (signal handler)) :
    scope.Changes keeps (Update.emitTo handler signal : Update κ σ Unit) := by
  cases handler with
  | none => exact changes_pure trivial
  | some handler =>
      exact changes_ofAction (does_emit (permitted handler))

end Scope

end EmuScript.Engine
