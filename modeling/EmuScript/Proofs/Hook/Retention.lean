import EmuScript.Emulator.NativeTable
import EmuScript.Engine.Adapter
import EmuScript.Proofs.Hook.Registry

/-!
# Retained functions

Under a script engine a registry reaches the emulator through the adapter, which
retains a function for each hook. It retains just the functions of the
registrations: what holds for registries and emulators holds through the adapter,
for every native table that keeps its hooks.
-/

set_option autoImplicit false

namespace EmuScript

open Emulator Engine HookOperation HookRegistry

variable {φ σ α : Type}

abbrev NativeEnvironment (φ σ : Type) : Type :=
  Program.Environment (NativeCall φ) NativeCall.Reply (Effect φ) σ

namespace NativeEnvironment

abbrev Keeps (native : NativeEnvironment φ σ)
    (installed : σ → List (InstalledHook (Closure φ))) : Prop :=
  KeepsHooks (fun call => native.answer (.hook call)) native.note installed

/-- The emulator that the adapter makes of a native table. -/
def viaAdapter (native : NativeEnvironment φ σ) : HostEnvironment (Closure φ) (Adapter φ × σ) where
  answer call joint :=
    let ended := (Adapter.serve call joint.1).run native joint.2
    (ended.1.1, ended.1.2, ended.2)
  note notice joint := (joint.1, native.note (.notice notice) joint.2)

/-- A program that is carried out by native calls runs as it does on that emulator. -/
theorem lower_run (native : NativeEnvironment φ σ) (program : HostProgram (Closure φ) α)
    (adapter : Adapter φ) (state : σ) :
    (Adapter.lower program adapter).run native state =
      let ended := program.run native.viaAdapter (adapter, state)
      ((ended.1, ended.2.1), ended.2.2) := by
  induction program generalizing adapter state with
  | done value => rfl
  | tell notice rest ih => exact ih adapter _
  | ask call next ih =>
      simp only [Adapter.lower, Program.run_bind, ih]
      rfl

variable {native : NativeEnvironment φ σ} {installed : σ → List (InstalledHook (Closure φ))}

/-- The functions that the adapter retains after a call on hooks. -/
def retained (hooks : Table HostHookId (Closure φ)) :
    (call : HookCall (Closure φ)) → Except Thrown call.Answer → Table HostHookId (Closure φ)
  | .install _ _ callback, .ok id => hooks.insert id callback
  | .remove id, .ok () => hooks.erase id
  | _, .error _ => hooks

theorem serve_hook (call : HookCall (Closure φ)) (adapter : Adapter φ) :
    Adapter.serve (.hook call) adapter =
      .ask (.hook call) fun reply =>
        .done (reply.mapError (Adapter.failure call.primitive),
          { adapter with hooks := retained adapter.hooks call reply }) := by
  cases call with
  | install kind tag callback =>
      refine congrArg (Program.ask _) (funext fun reply => ?_)
      cases reply <;> rfl
  | remove id =>
      refine congrArg (Program.ask _) (funext fun reply => ?_)
      cases reply <;> rfl

theorem viaAdapter_hook (native : NativeEnvironment φ σ) (call : HookCall (Closure φ))
    (joint : Adapter φ × σ) :
    native.viaAdapter.answer (.hook call) joint =
      let ended := native.answer (.hook call) joint.2
      (ended.1.mapError (Adapter.failure call.primitive),
        { joint.1 with hooks := retained joint.1.hooks call ended.1 }, ended.2) := by
  simp only [viaAdapter, serve_hook, Program.run_ask]
  rfl

theorem ok_of_mapError {ε δ : Type} {convert : ε → δ} {result : Except ε α} {value : α}
    (ok : result.mapError convert = .ok value) : result = .ok value := by
  cases result with
  | ok other => exact congrArg _ (Except.ok.inj ok)
  | error error => cases ok

theorem error_of_mapError {ε δ : Type} {convert : ε → δ} {result : Except ε α} {failure : δ}
    (error : result.mapError convert = .error failure) : ∃ thrown, result = .error thrown := by
  cases result with
  | ok other => cases error
  | error thrown => exact ⟨thrown, rfl⟩

theorem Keeps.viaAdapter (keeps : native.Keeps installed) :
    native.viaAdapter.Keeps fun joint => installed joint.2 where
  install kind tag callback joint id answered := by
    simp only [viaAdapter_hook] at answered ⊢
    exact keeps.install kind tag callback joint.2 id (ok_of_mapError answered)
  remove id joint answered := by
    simp only [viaAdapter_hook] at answered ⊢
    exact keeps.remove id joint.2 (ok_of_mapError answered)
  fail call joint error answered := by
    simp only [viaAdapter_hook] at answered ⊢
    obtain ⟨thrown, threw⟩ := error_of_mapError answered
    exact keeps.fail call joint.2 thrown threw
  note notice joint := keeps.note (.notice notice) joint.2

/-! ## Retained functions -/

/-- The functions of just these hooks are retained. -/
def Retains (table : Table HostHookId (Closure φ)) (hooks : List (InstalledHook (Closure φ))) :
    Prop :=
  table.Perm (hooks.map fun hook => (hook.id, hook.callback))

variable {table : Table HostHookId (Closure φ)} {hooks others : List (InstalledHook (Closure φ))}

theorem Retains.perm (retains : Retains table hooks) (same : others.Perm hooks) :
    Retains table others :=
  retains.trans (same.symm.map _)

theorem Retains.insert (retains : Retains table hooks) (kind : HookKind) (tag : UInt32)
    (callback : Closure φ) {id : HostHookId} (fresh : id ∉ hooks.map (·.id)) :
    Retains (table.insert id callback) (⟨id, kind, tag, callback⟩ :: hooks) := by
  -- The id is not in use, so the table does not lose another function for it.
  have apart : table.erase id = table := by
    refine List.filter_eq_self.mpr fun entry member => ?_
    obtain ⟨hook, listed, rfl⟩ := List.mem_map.mp (retains.mem_iff.mp member)
    exact decide_eq_true fun same => fresh (same ▸ List.mem_map_of_mem listed)
  rw [Table.insert, apart]
  exact retains.cons _

theorem Retains.erase (retains : Retains table hooks) (id : HostHookId) :
    Retains (table.erase id) (hooks.filter (·.id ≠ id)) := by
  have kept := retains.filter fun entry => entry.1 ≠ id
  rw [List.filter_map] at kept
  exact kept

/-- Each call on hooks changes the retained functions as it changes the hooks. -/
theorem Keeps.maintains (keeps : native.Keeps installed) :
    native.viaAdapter.Maintains fun joint => Retains joint.1.hooks (installed joint.2) where
  answer call joint retains := by
    rw [viaAdapter_hook]
    cases replied : (native.answer (.hook call) joint.2).1 with
    | error thrown =>
        have same := keeps.fail call joint.2 thrown replied
        simp only [replied]
        cases call <;> exact retains.perm same
    | ok value =>
        simp only [replied]
        cases call with
        | install kind tag callback =>
            obtain ⟨fresh, added⟩ := keeps.install kind tag callback joint.2 value replied
            exact (retains.insert kind tag callback fresh).perm added
        | remove id => exact (retains.erase id).perm (keeps.remove id joint.2 replied)
  note notice joint retains := retains.perm (keeps.note (.notice notice) joint.2)

end NativeEnvironment

/-! ## A cautious table -/

namespace NativeTable

theorem insertHook_perm {κ : Type} {hook : InstalledHook κ} {hooks : List (InstalledHook κ)}
    (fresh : hook.id ∉ hooks.map (·.id)) : (insertHook hook hooks).Perm (hook :: hooks) := by
  induction hooks with
  | nil => exact .refl _
  | cons first rest ih =>
      rw [List.map_cons, List.mem_cons, not_or] at fresh
      by_cases before : hook.id.value < first.id.value
      · simp [insertHook, before]
      · have moved := ((ih fresh.2).cons first).trans (.swap hook first rest)
        simpa [insertHook, before, fresh.1] using moved

/-- A call is refused by an injected failure, or else carried out. -/
theorem serve_cases (call : NativeCall φ) (table : NativeTable φ) :
    ∃ failures, let counted := { table with emulator.failures := failures }
      (∃ thrown, table.serve call = (.error thrown, counted)) ∨
        ∃ convert, table.serve call =
          ((perform call counted).1.mapError convert, (perform call counted).2) := by
  unfold serve
  rcases countCall call.primitive table.emulator.failures with ⟨message, failures⟩
  refine ⟨failures, ?_⟩
  cases message with
  | none => exact .inr ⟨_, rfl⟩
  | some message => exact .inl ⟨_, rfl⟩

/-- The table, which refuses to install a hook under an id that is in use. -/
def cautious : NativeEnvironment φ (NativeTable φ) where
  answer call table :=
    if call.primitive = "addCallback" ∧
        table.emulator.nextHookId ∈ table.emulator.hooks.map (·.id) then
      (.error (.error "hook id in use"), table)
    else table.serve call
  note _ table := table

theorem cautious_install (kind : HookKind) (tag : UInt32) (callback : Closure φ)
    (table : NativeTable φ) :
    let ended := cautious.answer (.hook (.install kind tag callback)) table
    (∃ thrown, ended.1 = .error thrown ∧ ended.2.emulator.hooks = table.emulator.hooks) ∨
      ∃ id, ended.1 = .ok id ∧ id ∉ table.emulator.hooks.map (·.id) ∧
        ended.2.emulator.hooks = insertHook ⟨id, kind, tag, callback⟩ table.emulator.hooks := by
  intro ended
  by_cases clash : table.emulator.nextHookId ∈ table.emulator.hooks.map (·.id)
  · have refused : ended = (.error (.error "hook id in use"), table) := if_pos ⟨rfl, clash⟩
    exact .inl ⟨_, by rw [refused], by rw [refused]⟩
  · have served : ended = table.serve (.hook (.install kind tag callback)) :=
      if_neg fun both => clash both.2
    obtain ⟨failures, ⟨thrown, threw⟩ | ⟨convert, carried⟩⟩ :=
      serve_cases (.hook (.install kind tag callback)) table
    · exact .inl ⟨thrown, by rw [served, threw], by rw [served, threw]⟩
    · exact .inr ⟨_, by rw [served, carried]; rfl, clash, by rw [served, carried]; rfl⟩

theorem cautious_remove (id : HostHookId) (table : NativeTable φ) :
    let ended := cautious.answer (.hook (.remove id)) table
    (∃ thrown, ended.1 = .error thrown ∧ ended.2.emulator.hooks = table.emulator.hooks) ∨
      ended.1 = .ok () ∧ ended.2.emulator.hooks = table.emulator.hooks.filter (·.id ≠ id) := by
  intro ended
  have served : ended = table.serve (.hook (.remove id)) := by
    simp [ended, cautious, NativeCall.primitive, HookCall.primitive]
  obtain ⟨failures, ⟨thrown, threw⟩ | ⟨convert, carried⟩⟩ := serve_cases (.hook (.remove id)) table
  · exact .inl ⟨thrown, by rw [served, threw], by rw [served, threw]⟩
  · exact .inr ⟨by rw [served, carried]; rfl, by rw [served, carried]; rfl⟩

theorem cautious_keeps :
    (cautious : NativeEnvironment φ _).Keeps fun table => table.emulator.hooks where
  install kind tag callback table id answered := by
    obtain ⟨thrown, threw, _⟩ | ⟨other, replied, fresh, added⟩ :=
      cautious_install kind tag callback table
    · cases answered.symm.trans threw
    · cases answered.symm.trans replied
      exact ⟨fresh, added ▸ insertHook_perm fresh⟩
  remove id table answered := by
    obtain ⟨thrown, threw, _⟩ | ⟨_, removed⟩ := cautious_remove id table
    · cases answered.symm.trans threw
    · exact .of_eq removed
  fail call table error answered := by
    cases call with
    | install kind tag callback =>
        obtain ⟨_, _, same⟩ | ⟨_, replied, _⟩ := cautious_install kind tag callback table
        · exact .of_eq same
        · cases answered.symm.trans replied
    | remove id =>
        obtain ⟨_, _, same⟩ | ⟨replied, _⟩ := cautious_remove id table
        · exact .of_eq same
        · cases answered.symm.trans replied
  note notice table := .refl _

end NativeTable

/-! ## Registries after any operations -/

/-- After any operations, of which each may have failed, the registrations are the hooks
of the emulator; through the adapter, they also are what it retains functions for. -/
theorem registry_mirrors_hooks :
    (∀ {κ σ : Type} (environment : HostEnvironment κ σ) (installed : σ → List (InstalledHook κ))
      (operations : List (HookOperation κ)) (state : σ), environment.Keeps installed →
      installed state = [] → operations.countP isOn < UInt32.size →
      let ended := (programs operations {}).run environment state
      Mirrors ended.1 (installed ended.2)) ∧
    (∀ {φ σ : Type} (native : NativeEnvironment φ σ)
      (installed : σ → List (InstalledHook (Closure φ)))
      (operations : List (HookOperation (Closure φ))) (adapter : Adapter φ) (state : σ),
      native.Keeps installed → installed state = [] → adapter.hooks = [] →
      operations.countP isOn < UInt32.size →
      let ended := (Adapter.lower (programs operations {}) adapter).run native state
      Mirrors ended.1.1 (installed ended.2) ∧
        ended.1.2.hooks.Perm
          (ended.1.1.entries.map fun entry => (entry.host, entry.callback))) := by
  refine ⟨?_, ?_⟩
  · intro κ σ environment installed operations state keeps none few
    have free : environment.Maintains fun _ => True := ⟨fun _ _ _ => trivial, fun _ _ _ => trivial⟩
    rw [← Nat.zero_add (operations.countP _)] at few
    exact (programs_linked keeps free operations few (linked_nil trivial none)).inStep.mirrors
  · intro φ σ native installed operations adapter state keeps none empty few ended
    rw [← Nat.zero_add (operations.countP _)] at few
    have retains : NativeEnvironment.Retains adapter.hooks (installed state) := by
      rw [none, empty]
      exact .nil
    have start : Linked (fun joint => NativeEnvironment.Retains joint.1.hooks (installed joint.2))
        (fun joint => installed joint.2) 0 {} (adapter, state) := linked_nil retains none
    have linked := programs_linked keeps.viaAdapter keeps.maintains operations few start
    have lowered : ended = _ := native.lower_run (programs operations {}) adapter state
    rw [lowered]
    have listed := linked.inStep.linked.symm.map fun hook => (hook.id, hook.callback)
    rw [List.map_map] at listed
    exact ⟨linked.inStep.mirrors, linked.valid.trans listed⟩

/-- A table that removes one hook, and refuses to remove more. -/
def stubborn : NativeTable Nat :=
  { emulator.failures := [⟨"removeCallback", 1, "busy"⟩] }

/-- Three hooks are installed, two of them on one event, and a clear stops midway. -/
def hookOperations : List (HookOperation (Closure Nat)) :=
  [.on .exec 16 (.immediate 0), .on .write 32 (.immediate 1), .on .write 32 (.immediate 2), .clear]

/-- Two hooks are left at the emulator, in the registry and with the adapter. -/
theorem registry_mirrors_hooks_of_stubborn :
    let host := (programs hookOperations {}).run NativeTable.cautious.viaAdapter ({}, stubborn)
    let ended := (Adapter.lower (programs hookOperations {}) {}).run NativeTable.cautious stubborn
    Mirrors host.1 host.2.2.emulator.hooks ∧
    Mirrors ended.1.1 ended.2.emulator.hooks ∧
    ended.1.2.hooks.Perm (ended.1.1.entries.map fun entry => (entry.host, entry.callback)) ∧
    ended.1.1.entries.map (·.id) = [⟨1⟩, ⟨2⟩] ∧
    ended.2.emulator.hooksOn .write 32 = [.immediate 1, .immediate 2] := by
  intro host ended
  obtain ⟨mirrors, through⟩ := registry_mirrors_hooks
  have few : hookOperations.countP isOn < UInt32.size := by decide
  have keeps := NativeTable.cautious_keeps (φ := Nat)
  have plain := mirrors _ _ hookOperations ({}, stubborn) keeps.viaAdapter rfl few
  obtain ⟨both, retains⟩ := through _ _ hookOperations {} stubborn keeps rfl rfl few
  exact ⟨plain, both, retains, by decide +kernel, by decide +kernel⟩

end EmuScript
