import EmuScript.Hook.Registry
import EmuScript.Proofs.Host
import Mathlib.Data.List.Nodup

/-!
# Registries and the hooks of the emulator

A registry and the hooks that are installed at the emulator are changed by separate
calls, each of which can fail. They stay in step nevertheless: there is one
registration for each installed hook. Here this is shown for all operations of a
registry and for every emulator that keeps its hooks.
-/

set_option autoImplicit false

namespace EmuScript

open Emulator

variable {κ σ α β : Type}

/-- A host keeps its hooks: it installs a callback under an id that is not in use, it
removes what is under an id, and a call that fails changes nothing. -/
structure KeepsHooks {ε ν : Type} (answer : (call : HookCall κ) → σ → Except ε call.Answer × σ)
    (note : ν → σ → σ) (installed : σ → List (InstalledHook κ)) : Prop where
  install : ∀ kind tag callback state id, (answer (.install kind tag callback) state).1 = .ok id →
    id ∉ (installed state).map (·.id) ∧
      (installed (answer (.install kind tag callback) state).2).Perm
        (⟨id, kind, tag, callback⟩ :: installed state)
  remove : ∀ id state, (answer (.remove id) state).1 = .ok () →
    (installed (answer (.remove id) state).2).Perm ((installed state).filter (·.id ≠ id))
  fail : ∀ call state error, (answer call state).1 = .error error →
    (installed (answer call state).2).Perm (installed state)
  note : ∀ notice state, (installed (note notice state)).Perm (installed state)

abbrev HostEnvironment.Keeps (environment : HostEnvironment κ σ)
    (installed : σ → List (InstalledHook κ)) : Prop :=
  KeepsHooks (fun call => environment.answer (.hook call)) environment.note installed

/-- A condition that calls on hooks do not break. -/
structure HostEnvironment.Maintains (environment : HostEnvironment κ σ) (valid : σ → Prop) :
    Prop where
  answer : ∀ call state, valid state → valid (environment.answer (.hook call) state).2
  note : ∀ notice state, valid state → valid (environment.note notice state)

/-- The hook at the emulator that a registration stands for. -/
def Registration.hook (entry : Registration κ) : InstalledHook κ :=
  ⟨entry.host, entry.kind, entry.tag, entry.callback⟩

namespace HookRegistry

/-- A registry and the hooks at the emulator are in step. -/
structure InStep (registry : HookRegistry κ) (hooks : List (InstalledHook κ)) : Prop where
  linked : (registry.entries.map Registration.hook).Perm hooks
  ascending : registry.entries.Pairwise fun first second => first.id.value < second.id.value
  below : ∀ entry ∈ registry.entries, entry.id.value < registry.nextId
  distinct : (hooks.map (·.id)).Nodup

theorem insertEntry_last {entry : Registration κ} {entries : List (Registration κ)}
    (above : ∀ other ∈ entries, other.id.value < entry.id.value) :
    insertEntry entry entries = entries ++ [entry] := by
  induction entries with
  | nil => rfl
  | cons first rest ih =>
      rw [List.forall_mem_cons] at above
      have later : ¬ entry.id.value < first.id.value := UInt32.lt_asymm above.1
      have differ : entry.id ≠ first.id := by
        intro same
        rw [same] at above
        exact UInt32.lt_irrefl _ above.1
      simp [insertEntry, later, differ, ih above.2]

theorem toNat_succ {count : UInt32} (room : count.toNat + 1 < UInt32.size) :
    (count + 1).toNat = count.toNat + 1 := by
  rw [UInt32.toNat_add]
  exact Nat.mod_eq_of_lt room

theorem ids_nodup_of_pairwise {entries : List (Registration κ)}
    (ascending : entries.Pairwise fun first second => first.id.value < second.id.value) :
    (entries.map (·.id)).Nodup := by
  refine List.pairwise_map.mpr (ascending.imp fun below same => ?_)
  rw [same] at below
  exact UInt32.lt_irrefl _ below

namespace InStep

variable {registry : HookRegistry κ} {hooks : List (InstalledHook κ)}

theorem perm {others : List (InstalledHook κ)} (inStep : InStep registry hooks)
    (same : others.Perm hooks) : InStep registry others where
  linked := inStep.linked.trans same.symm
  ascending := inStep.ascending
  below := inStep.below
  distinct := (same.map _).nodup_iff.mpr inStep.distinct

/-- A request that the emulator has refused uses up an id. -/
theorem skip (inStep : InStep registry hooks) (room : registry.nextId.toNat + 1 < UInt32.size) :
    InStep { registry with nextId := registry.nextId + 1 } hooks where
  linked := inStep.linked
  ascending := inStep.ascending
  below entry member := by
    have before := inStep.below entry member
    rw [UInt32.lt_iff_toNat_lt] at before ⊢
    rw [toNat_succ room]
    exact Nat.lt_succ_of_lt before
  distinct := inStep.distinct

theorem add (inStep : InStep registry hooks) (room : registry.nextId.toNat + 1 < UInt32.size)
    (kind : HookKind) (tag : UInt32) (host : HostHookId) (callback : κ)
    (fresh : host ∉ hooks.map (·.id)) :
    InStep
      { entries := insertEntry ⟨⟨registry.nextId⟩, kind, tag, host, callback⟩ registry.entries
        nextId := registry.nextId + 1 }
      (⟨host, kind, tag, callback⟩ :: hooks) := by
  have last : insertEntry ⟨⟨registry.nextId⟩, kind, tag, host, callback⟩ registry.entries =
      registry.entries ++ [⟨⟨registry.nextId⟩, kind, tag, host, callback⟩] :=
    insertEntry_last inStep.below
  have skipped := inStep.skip room
  rw [last]
  refine ⟨?_, ?_, ?_, ?_⟩
  · rw [List.map_append]
    exact (List.perm_append_singleton _ _).trans (inStep.linked.cons _)
  · exact List.pairwise_append.mpr ⟨inStep.ascending, List.pairwise_singleton _ _, by
      simpa using inStep.below⟩
  · rw [List.forall_mem_append, List.forall_mem_singleton]
    refine ⟨skipped.below, ?_⟩
    rw [UInt32.lt_iff_toNat_lt, toNat_succ room]
    exact Nat.lt_succ_self _
  · exact List.nodup_cons.mpr ⟨fresh, inStep.distinct⟩

theorem hosts_nodup (inStep : InStep registry hooks) : (registry.entries.map (·.host)).Nodup := by
  have same := inStep.linked.map (·.id)
  rw [List.map_map] at same
  exact same.nodup_iff.mpr inStep.distinct

theorem ids_nodup (inStep : InStep registry hooks) : (registry.entries.map (·.id)).Nodup :=
  ids_nodup_of_pairwise inStep.ascending

theorem find?_id (inStep : InStep registry hooks) {entry : Registration κ}
    (member : entry ∈ registry.entries) : registry.find? entry.id = some entry :=
  find?_of_nodup_map inStep.ids_nodup member

theorem drop (inStep : InStep registry hooks) {id : CallbackId} {entry : Registration κ}
    (found : registry.find? id = some entry) :
    InStep { registry with entries := eraseEntry id registry.entries }
      (hooks.filter (·.id ≠ entry.host)) := by
  have member : entry ∈ registry.entries := List.mem_of_find?_eq_some found
  have own : entry.id = id := by simpa using List.find?_some found
  -- Both ids single out the same registration, so both tables lose the same hook.
  have apart : ∀ other ∈ registry.entries, (other.id = id ↔ other.host = entry.host) := by
    intro other listed
    refine ⟨fun same => ?_, fun same => ?_⟩
    · rw [List.inj_on_of_nodup_map inStep.ids_nodup listed member (same.trans own.symm)]
    · rw [List.inj_on_of_nodup_map inStep.hosts_nodup listed member same, own]
  refine ⟨?_, ?_, ?_, ?_⟩
  · have kept := inStep.linked.filter fun hook => hook.id ≠ entry.host
    rw [List.filter_map] at kept
    refine List.Perm.trans (List.Perm.of_eq ?_) kept
    congr 1
    refine List.filter_congr fun other listed => ?_
    exact decide_eq_decide.mpr (not_congr (apart other listed))
  · exact inStep.ascending.filter _
  · exact fun other listed => inStep.below other (List.mem_of_mem_filter listed)
  · exact inStep.distinct.sublist (List.filter_sublist.map _)

end InStep

/-- What one knows of the emulator from a registry: its hooks are the registrations,
and they run the callbacks that the registry runs. -/
structure Mirrors (registry : HookRegistry κ) (hooks : List (InstalledHook κ)) : Prop where
  linked : (registry.entries.map Registration.hook).Perm hooks
  distinct : (hooks.map (·.id)).Nodup
  keyed : ∀ entry ∈ registry.entries,
    registry.find? entry.id = some entry ∧ entry.id.value < registry.nextId
  fires : ∀ kind address, (callbacksOn hooks kind address).Perm
    ((registry.entries.filter fun entry => entry.kind = kind ∧ entry.tag = address).map
      (·.callback))
  invokes : ∀ id entry address, registry.find? id = some entry →
    ∃ hook, hooks.find? (fun hook => hook.id = entry.host) = some hook ∧
      (registry.invoke id address).run =
        .tell (.signal (.hook hook.callback address)) (.done (.ok ()))

theorem invoke_run {registry : HookRegistry κ} {id : CallbackId} {entry : Registration κ}
    (found : registry.find? id = some entry) (address : UInt32) :
    (registry.invoke id address).run =
      .tell (.signal (.hook entry.callback address)) (.done (.ok ())) := by
  change (Action.getOrThrow (registry.find? id) (.unknownCallback id) >>= fun entry =>
    Action.emit (.hook entry.callback address)).run = _
  rw [found]
  rfl

theorem InStep.mirrors {registry : HookRegistry κ} {hooks : List (InstalledHook κ)}
    (inStep : InStep registry hooks) : Mirrors registry hooks where
  linked := inStep.linked
  distinct := inStep.distinct
  keyed entry member := ⟨inStep.find?_id member, inStep.below entry member⟩
  fires kind address := by
    have matching := (inStep.linked.filter fun hook => hook.kind = kind ∧ hook.tag = address).map
      (·.callback)
    rw [List.filter_map, List.map_map] at matching
    exact matching.symm
  invokes id entry address found := by
    have member : entry.hook ∈ hooks :=
      inStep.linked.mem_iff.mp (List.mem_map_of_mem (List.mem_of_find?_eq_some found))
    exact ⟨entry.hook, find?_of_nodup_map inStep.distinct member, invoke_run found address⟩

/-! ## Operations -/

theorem install_on (kind : HookKind) (tag : UInt32) (callback : κ) (registry : HookRegistry κ) :
    (install kind tag callback).on registry =
      .ask (.hook (.install kind tag callback)) fun
        | .ok host =>
            let id : CallbackId := ⟨registry.nextId⟩
            .tell (.log ⟨.debug, installedText id kind tag host⟩) (.done (.ok ⟨id, host⟩,
              { entries := insertEntry ⟨id, kind, tag, host, callback⟩ registry.entries
                nextId := registry.nextId + 1 }))
        | .error error =>
            .done (.error (.host error), { registry with nextId := registry.nextId + 1 }) := by
  refine congrArg (Program.ask _) (funext fun reply => ?_)
  cases reply <;> rfl

theorem remove_on (id : CallbackId) (registry : HookRegistry κ) :
    (remove id).on registry =
      match registry.find? id with
      | none => .done (.error (.unknownCallback id), registry)
      | some entry =>
          .ask (.hook (.remove entry.host)) fun
            | .ok () =>
                .tell (.log ⟨.debug, removedText id entry.host⟩)
                  (.done (.ok entry, { registry with entries := eraseEntry id registry.entries }))
            | .error error => .done (.error (.host error), registry) := by
  change Program.bind ((Update.getOrThrow (registry.find? id) (.unknownCallback id) :
    Update κ (HookRegistry κ) (Registration κ)).on registry) _ = _
  cases registry.find? id with
  | none => rfl
  | some entry =>
      refine congrArg (Program.ask _) (funext fun reply => ?_)
      cases reply <;> rfl

end HookRegistry

/-! ## Runs -/

/-- An update, run in an environment, preserves a relation of its object to the state. -/
def Update.Preserves {τ : Type} (environment : HostEnvironment κ σ) (holds : τ → σ → Prop)
    (update : Update κ τ α) : Prop :=
  ∀ object state, holds object state →
    (update.on object).Leads environment (fun ended => holds ended.2) state

theorem Update.preserves_bind {τ : Type} {environment : HostEnvironment κ σ} {holds : τ → σ → Prop}
    {update : Update κ τ α} {next : α → Update κ τ β} (first : update.Preserves environment holds)
    (rest : ∀ value, (next value).Preserves environment holds) :
    (update >>= next).Preserves environment holds := by
  intro object state before
  refine Program.leads_bind.mpr ((first object state before).weaken ?_)
  rintro ⟨result, object⟩ state between
  cases result with
  | ok value => exact rest value object state between
  | error error => exact between

namespace HookRegistry

theorem removeAll_preserves {environment : HostEnvironment κ σ} {holds : HookRegistry κ → σ → Prop}
    (each : ∀ id, (remove id).Preserves environment holds) (ids : List CallbackId) :
    (removeAll ids).Preserves environment holds := by
  induction ids with
  | nil => exact fun registry state held => held
  | cons id rest ih => exact Update.preserves_bind (each id) fun _ => ih

/-- What every removal preserves holds after a clear, also after one that stops midway. -/
theorem clear_preserves_each {environment : HostEnvironment κ σ}
    {holds : HookRegistry κ → σ → Prop} (each : ∀ id, (remove id).Preserves environment holds) :
    (clear : Update κ _ _).Preserves environment holds := by
  refine Update.preserves_bind ?_ fun registry => removeAll_preserves each registry.ids
  exact fun registry state held => held

/-- A registry that has given out so many ids is in step with the emulator. -/
structure Linked (valid : σ → Prop) (installed : σ → List (InstalledHook κ)) (issued : Nat)
    (registry : HookRegistry κ) (state : σ) : Prop where
  valid : valid state
  inStep : InStep registry (installed state)
  issued : registry.nextId.toNat = issued

variable {environment : HostEnvironment κ σ} {valid : σ → Prop}
  {installed : σ → List (InstalledHook κ)}

theorem install_linked (keeps : environment.Keeps installed)
    (maintains : environment.Maintains valid) (kind : HookKind) (tag : UInt32) (callback : κ)
    {issued : Nat} {registry : HookRegistry κ} {state : σ} (room : issued + 1 < UInt32.size)
    (linked : Linked valid installed issued registry state) :
    ((install kind tag callback).on registry).Leads environment
      (fun ended => Linked valid installed (issued + 1) ended.2) state := by
  obtain ⟨held, inStep, rfl⟩ := linked
  have stays := maintains.answer (.install kind tag callback) state held
  rw [install_on, Program.leads_ask]
  cases replied : (environment.answer (.hook (.install kind tag callback)) state).1 with
  | ok host =>
      obtain ⟨fresh, added⟩ := keeps.install kind tag callback state host replied
      have both := (inStep.add room kind tag host callback fresh).perm added
      exact ⟨maintains.note _ _ stays, both.perm (keeps.note _ _), toNat_succ room⟩
  | error error =>
      have same := keeps.fail (.install kind tag callback) state error replied
      exact ⟨stays, (inStep.skip room).perm same, toNat_succ room⟩

theorem remove_preserves (keeps : environment.Keeps installed)
    (maintains : environment.Maintains valid) (issued : Nat) (id : CallbackId) :
    (remove id).Preserves environment (Linked valid installed issued) := by
  rintro registry state ⟨held, inStep, rfl⟩
  rw [remove_on]
  cases found : registry.find? id with
  | none => exact ⟨held, inStep, rfl⟩
  | some entry =>
      have stays := maintains.answer (.remove entry.host) state held
      simp only [Program.leads_ask]
      cases replied : (environment.answer (.hook (.remove entry.host)) state).1 with
      | ok value =>
          have dropped := (inStep.drop found).perm (keeps.remove entry.host state replied)
          exact ⟨maintains.note _ _ stays, dropped.perm (keeps.note _ _), rfl⟩
      | error error =>
          have same := keeps.fail (.remove entry.host) state error replied
          exact ⟨stays, inStep.perm same, rfl⟩

/-- A clear that stops midway leaves the registry in step, too. -/
theorem clear_preserves (keeps : environment.Keeps installed)
    (maintains : environment.Maintains valid) (issued : Nat) :
    (clear : Update κ _ _).Preserves environment (Linked valid installed issued) :=
  clear_preserves_each (remove_preserves keeps maintains issued)

end HookRegistry

/-- What scripts do with a registry. -/
inductive HookOperation (κ : Type) where
  | on (kind : HookKind) (tag : UInt32) (callback : κ)
  | off (id : CallbackId)
  | clear

namespace HookOperation

def isOn : HookOperation κ → Bool
  | on _ _ _ => true
  | off _ | clear => false

/-- The registry after an operation, whether or not it succeeds. -/
def program (operation : HookOperation κ) (registry : HookRegistry κ) :
    HostProgram κ (HookRegistry κ) :=
  match operation with
  | on kind tag callback => Prod.snd <$> (HookRegistry.install kind tag callback).on registry
  | off id => Prod.snd <$> (HookRegistry.remove id).on registry
  | clear => Prod.snd <$> HookRegistry.clear.on registry

def programs (operations : List (HookOperation κ)) (registry : HookRegistry κ) :
    HostProgram κ (HookRegistry κ) :=
  operations.foldlM (fun registry operation => operation.program registry) registry

theorem countP_isOn_cons (operation : HookOperation κ) (rest : List (HookOperation κ)) :
    (operation :: rest).countP isOn = [operation].countP isOn + rest.countP isOn := by
  simp [List.countP_cons, Nat.add_comm]

variable {environment : HostEnvironment κ σ} {valid : σ → Prop}
  {installed : σ → List (InstalledHook κ)}

open HookRegistry

theorem program_linked (keeps : environment.Keeps installed)
    (maintains : environment.Maintains valid) (operation : HookOperation κ) {issued : Nat}
    {registry : HookRegistry κ} {state : σ} (room : issued + [operation].countP isOn < UInt32.size)
    (linked : Linked valid installed issued registry state) :
    (operation.program registry).Leads environment
      (Linked valid installed (issued + [operation].countP isOn)) state := by
  cases operation with
  | on kind tag callback =>
      have installs := install_linked keeps maintains kind tag callback room linked
      exact Program.leads_bind.mpr installs
  | off id =>
      have removed := remove_preserves keeps maintains issued id registry state linked
      exact Program.leads_bind.mpr removed
  | clear =>
      have cleared := clear_preserves keeps maintains issued registry state linked
      exact Program.leads_bind.mpr cleared

/-- Operations keep a registry in step as long as it does not run out of ids. -/
theorem programs_linked (keeps : environment.Keeps installed)
    (maintains : environment.Maintains valid) (operations : List (HookOperation κ)) {issued : Nat}
    {registry : HookRegistry κ} {state : σ} (room : issued + operations.countP isOn < UInt32.size)
    (linked : Linked valid installed issued registry state) :
    (programs operations registry).Leads environment
      (Linked valid installed (issued + operations.countP isOn)) state := by
  induction operations generalizing issued registry state with
  | nil => exact linked
  | cons operation rest ih =>
      -- The first operation uses up its share of the ids, the others need the rest.
      rw [countP_isOn_cons, ← Nat.add_assoc] at room ⊢
      refine Program.leads_bind.mpr ?_
      have first := program_linked keeps maintains operation (by omega) linked
      exact first.weaken fun registry state between => ih room between

theorem linked_nil {state : σ} (held : valid state) (none : installed state = []) :
    Linked valid installed 0 {} state :=
  ⟨held, by rw [none]; exact ⟨.nil, .nil, by simp, .nil⟩, rfl⟩

end HookOperation

end EmuScript
