import EmuScript.Proofs.Hook.Numbering
import EmuScript.Proofs.Outcome

/-!
# Removal of hooks

An emulator may refuse to remove a hook. The registration then stays, and a clear stops at
it: the registrations before it are gone, it and those after it are as they were. A later
clear goes on from there. Over any operations each hook is removed once, and no hook but
those of live registrations is left.
-/

set_option autoImplicit false

namespace EmuScript

open Program

variable {κ σ τ α β : Type}

/-- A view of the emulator that a refused removal does not change. -/
def HostEnvironment.Withholds (environment : HostEnvironment κ σ) (view : σ → τ) : Prop :=
  ∀ id state error, (environment.answer (.hook (.remove id)) state).1 = .error error →
    view (environment.answer (.hook (.remove id)) state).2 = view state

/-- What an emulator sees when a hook is removed. -/
def Registration.removal (entry : Registration κ) : HostTrace κ :=
  [.asked (.hook (.remove entry.host)) (.ok ()),
    .told (.log ⟨.debug, HookRegistry.removedText entry.id entry.host⟩)]

/-- What it sees of a removal that it refuses. -/
def Registration.refusal (entry : Registration κ) (error : HostError) : HostTrace κ :=
  [.asked (.hook (.remove entry.host)) (.error error)]

namespace HookRegistry

/-- Registrations are in the order of their ids, and no id is there twice. -/
def Ascending (registry : HookRegistry κ) : Prop :=
  registry.entries.Pairwise fun first second => first.id.value < second.id.value

theorem pairwise_insertEntry {entry : Registration κ} {entries : List (Registration κ)}
    (ascending : entries.Pairwise fun first second => first.id.value < second.id.value) :
    (insertEntry entry entries).Pairwise fun first second => first.id.value < second.id.value := by
  induction entries with
  | nil => exact List.pairwise_singleton _ _
  | cons first rest ih =>
      obtain ⟨above, others⟩ := List.pairwise_cons.mp ascending
      unfold insertEntry
      split
      next before =>
        refine List.pairwise_cons.mpr ⟨?_, ascending⟩
        exact List.forall_mem_cons.mpr
          ⟨before, fun other member => UInt32.lt_trans before (above other member)⟩
      next before =>
        split
        next same => exact List.pairwise_cons.mpr ⟨same ▸ above, others⟩
        next differ =>
          refine List.pairwise_cons.mpr ⟨fun other member => ?_, ih others⟩
          obtain rfl | old := mem_insertEntry member
          · exact UInt32.lt_of_le_of_ne (UInt32.not_lt.mp before) fun same =>
              differ (congrArg CallbackId.mk same.symm)
          · exact above other old

namespace Ascending

variable {registry : HookRegistry κ}

theorem ids (ascending : Ascending registry) :
    registry.ids.Pairwise fun first second => first.value < second.value :=
  List.pairwise_map.mpr ascending

theorem find?_eq (ascending : Ascending registry) {entry : Registration κ}
    (member : entry ∈ registry.entries) : registry.find? entry.id = some entry :=
  find?_of_nodup_map (ids_nodup_of_pairwise ascending) member

theorem add (ascending : Ascending registry) (entry : Registration κ) (nextId : UInt32) :
    Ascending ⟨insertEntry entry registry.entries, nextId⟩ :=
  pairwise_insertEntry ascending

theorem suffix (ascending : Ascending registry) {before after : List (Registration κ)}
    (split : registry.entries = before ++ after) :
    after.Pairwise fun first second => first.id.value < second.id.value := by
  rw [Ascending, split] at ascending
  exact (List.pairwise_append.mp ascending).2.1

theorem drop (ascending : Ascending registry) (id : CallbackId) :
    Ascending { registry with entries := eraseEntry id registry.entries } :=
  List.Pairwise.filter _ ascending

end Ascending

theorem eraseEntry_cons_self {entry : Registration κ} {rest : List (Registration κ)}
    (above : ∀ other ∈ rest, entry.id.value < other.id.value) :
    eraseEntry entry.id (entry :: rest) = rest := by
  rw [eraseEntry, List.filter_cons_of_neg (by simp)]
  refine List.filter_eq_self.mpr fun other member => decide_eq_true fun same => ?_
  exact UInt32.lt_irrefl _ (same ▸ above other member)

/-! ## One removal -/

section Removal

variable (environment : HostEnvironment κ σ) {registry : HookRegistry κ} {id : CallbackId}
  {entry : Registration κ}

theorem remove_unknown (absent : registry.find? id = none) (state : σ) :
    (remove id).outcome environment registry state =
      ⟨[], .error (.unknownCallback id), registry, state⟩ := by
  simp only [Update.outcome, remove_on, absent]
  rfl

theorem remove_refused (found : registry.find? id = some entry) {state : σ} {error : HostError}
    (refused : (environment.answer (.hook (.remove entry.host)) state).1 = .error error) :
    (remove id).outcome environment registry state =
      ⟨entry.refusal error, .error (.host error), registry,
        (environment.answer (.hook (.remove entry.host)) state).2⟩ := by
  simp only [Update.outcome, remove_on, found, run_ask, trace, refused]
  rfl

theorem remove_granted (found : registry.find? id = some entry) {state : σ}
    (granted : (environment.answer (.hook (.remove entry.host)) state).1 = .ok ()) :
    (remove id).outcome environment registry state =
      ⟨entry.removal, .ok entry, { registry with entries := eraseEntry id registry.entries },
        environment.note (.log ⟨.debug, removedText entry.id entry.host⟩)
          (environment.answer (.hook (.remove entry.host)) state).2⟩ := by
  have own : entry.id = id := by simpa using List.find?_some found
  subst own
  simp only [Update.outcome, remove_on, found, run_ask, trace, granted]
  rfl

end Removal

/-! ## Removal in order -/

/-- Hooks are removed in order, all of them or those before the first that the emulator
refuses to remove. -/
theorem removeAll_cases (environment : HostEnvironment κ σ) {entries : List (Registration κ)}
    {nextId : UInt32} (ascending : Ascending ⟨entries, nextId⟩) (state : σ) :
    let ended := (removeAll (entries.map (·.id))).outcome environment ⟨entries, nextId⟩ state
    (ended.trace = entries.flatMap (·.removal) ∧ ended.result = .ok () ∧
      ended.object = ⟨[], nextId⟩) ∨
    ∃ before entry after error, entries = before ++ entry :: after ∧
      ended.trace = before.flatMap (·.removal) ++ entry.refusal error ∧
      ended.result = .error (.host error) ∧ ended.object = ⟨entry :: after, nextId⟩ := by
  induction entries generalizing state with
  | nil => exact .inl ⟨rfl, rfl, rfl⟩
  | cons first rest ih =>
      -- The first registration is found under its id, and no other goes with it.
      obtain ⟨above, others⟩ := List.pairwise_cons.mp ascending
      have found : find? ⟨first :: rest, nextId⟩ first.id = some first := by simp [find?]
      have step : removeAll ((first :: rest).map (·.id)) =
          (remove first.id >>= fun _ => removeAll (rest.map (·.id)) : Update κ _ _) := rfl
      simp only [step, Update.outcome_bind]
      cases reply : (environment.answer (.hook (.remove first.host)) state).1 with
      | error error =>
          rw [remove_refused environment found reply]
          exact .inr ⟨[], first, rest, error, rfl, rfl, rfl, rfl⟩
      | ok value =>
          rw [remove_granted environment found reply]
          simp only [eraseEntry_cons_self above]
          obtain ⟨seen, result, left⟩ | ⟨before, entry, after, error, split, seen, result, left⟩ :=
            ih others (environment.note _ _)
          · exact .inl ⟨by simp [seen], result, left⟩
          · exact .inr ⟨first :: before, entry, after, error, by simp [split], by simp [seen],
              result, left⟩

theorem clear_cases (environment : HostEnvironment κ σ) {registry : HookRegistry κ}
    (ascending : Ascending registry) (state : σ) :
    let ended := clear.outcome environment registry state
    (ended.trace = registry.entries.flatMap (·.removal) ∧ ended.result = .ok () ∧
      ended.object = { registry with entries := [] }) ∨
    ∃ before entry after error, registry.entries = before ++ entry :: after ∧
      ended.trace = before.flatMap (·.removal) ++ entry.refusal error ∧
      ended.result = .error (.host error) ∧
      ended.object = { registry with entries := entry :: after } :=
  removeAll_cases environment ascending state

end HookRegistry

/-! ## Hooks installed and removed -/

namespace HostTrace

/-- The hooks that the emulator has removed, in order. -/
def removals (trace : HostTrace κ) : List HostHookId :=
  trace.filterMap fun
    | .asked (.hook (.remove id)) (.ok _) => some id
    | _ => none

/-- The hooks that the emulator has installed, in order. -/
def installs (trace : HostTrace κ) : List HostHookId :=
  trace.filterMap fun
    | .asked (.hook (.install _ _ _)) (.ok id) => some id
    | _ => none

@[simp] theorem removals_append (first second : HostTrace κ) :
    removals (first ++ second) = removals first ++ removals second :=
  List.filterMap_append

@[simp] theorem installs_append (first second : HostTrace κ) :
    installs (first ++ second) = installs first ++ installs second :=
  List.filterMap_append

@[simp] theorem removals_refusal (entry : Registration κ) (error : HostError) :
    removals (entry.refusal error) = [] := rfl

@[simp] theorem installs_refusal (entry : Registration κ) (error : HostError) :
    installs (entry.refusal error) = [] := rfl

@[simp] theorem removals_flatMap (entries : List (Registration κ)) :
    removals (entries.flatMap (·.removal)) = entries.map (·.host) := by
  induction entries with
  | nil => rfl
  | cons entry rest ih => exact congrArg _ ih

@[simp] theorem installs_flatMap (entries : List (Registration κ)) :
    installs (entries.flatMap (·.removal)) = [] := by
  induction entries with
  | nil => rfl
  | cons entry rest ih => exact ih

end HostTrace

namespace HookRegistry

def hosts (registry : HookRegistry κ) : List HostHookId :=
  registry.entries.map (·.host)

/-- The hooks that there were and those that were installed have been removed, or there are
registrations for them. -/
def Balanced (before : HookRegistry κ) (trace : HostTrace κ) (after : HookRegistry κ) : Prop :=
  (trace.removals ++ after.hosts).Perm (before.hosts ++ trace.installs)

theorem Balanced.trans {first second third : HookRegistry κ} {early late : HostTrace κ}
    (one : Balanced first early second) (two : Balanced second late third) :
    Balanced first (early ++ late) third := by
  unfold Balanced at *
  rw [HostTrace.removals_append, HostTrace.installs_append, List.append_assoc]
  refine (two.append_left early.removals).trans ?_
  rw [← List.append_assoc, ← List.append_assoc]
  exact one.append_right late.installs

theorem perm_insertEntry {entry : Registration κ} {entries : List (Registration κ)}
    (fresh : ∀ other ∈ entries, other.id ≠ entry.id) :
    (insertEntry entry entries).Perm (entry :: entries) := by
  induction entries with
  | nil => exact .refl _
  | cons first rest ih =>
      obtain ⟨differ, fresh⟩ := List.forall_mem_cons.mp fresh
      unfold insertEntry
      split
      · exact .refl _
      · rw [if_neg fun same => differ same.symm]
        exact ((ih fresh).cons first).trans (.swap entry first rest)

theorem Ascending.perm_eraseEntry {registry : HookRegistry κ} (ascending : Ascending registry)
    {id : CallbackId} {entry : Registration κ} (found : registry.find? id = some entry) :
    registry.entries.Perm (entry :: eraseEntry id registry.entries) := by
  obtain ⟨own, before, after, split, others⟩ := List.find?_eq_some_iff_append.mp found
  have own : entry.id = id := of_decide_eq_true own
  subst own
  obtain ⟨later, -⟩ := List.pairwise_cons.mp (ascending.suffix split)
  have kept : eraseEntry entry.id before = before :=
    List.filter_eq_self.mpr fun other member => by simpa using others other member
  have erased : eraseEntry entry.id registry.entries = before ++ after := by
    rw [split, eraseEntry, List.filter_append]
    exact congr_arg₂ _ kept (eraseEntry_cons_self later)
  rw [erased, split]
  exact List.perm_middle

section Steps

variable (environment : HostEnvironment κ σ) {registry : HookRegistry κ}

theorem install_outcome (kind : HookKind) (tag : UInt32) (callback : κ)
    (registry : HookRegistry κ) (state : σ) :
    let ended := (install kind tag callback).outcome environment registry state
    (∃ host, ended.trace.installs = [host] ∧ ended.trace.removals = [] ∧
      ended.object = ⟨insertEntry ⟨⟨registry.nextId⟩, kind, tag, host, callback⟩ registry.entries,
        registry.nextId + 1⟩) ∨
    ended.trace.installs = [] ∧ ended.trace.removals = [] ∧
      ended.object = { registry with nextId := registry.nextId + 1 } := by
  simp only [Update.outcome, install_on, run_ask, trace]
  cases (environment.answer (.hook (.install kind tag callback)) state).1 with
  | ok host => exact .inl ⟨host, rfl, rfl, rfl⟩
  | error error => exact .inr ⟨rfl, rfl, rfl⟩

theorem install_ascending (kind : HookKind) (tag : UInt32) (callback : κ) (state : σ)
    (ascending : Ascending registry) :
    Ascending ((install kind tag callback).outcome environment registry state).object := by
  obtain ⟨host, -, -, after⟩ | ⟨-, -, after⟩ :=
    install_outcome environment kind tag callback registry state
  · rw [after]
    exact ascending.add _ _
  · rw [after]
    exact ascending

theorem install_balanced (kind : HookKind) (tag : UInt32) (callback : κ) (state : σ)
    (unused : registry.find? ⟨registry.nextId⟩ = none) :
    let ended := (install kind tag callback).outcome environment registry state
    Balanced registry ended.trace ended.object := by
  intro ended
  obtain ⟨host, installs, removals, after⟩ | ⟨installs, removals, after⟩ :=
    install_outcome environment kind tag callback registry state
  · have fresh (other : Registration κ) (member : other ∈ registry.entries) :
        other.id ≠ ⟨registry.nextId⟩ := by
      simpa using List.find?_eq_none.mp unused other member
    rw [Balanced, installs, removals, after]
    exact ((perm_insertEntry fresh).map _).trans (List.perm_append_singleton _ _).symm
  · rw [Balanced, installs, removals, after, List.append_nil]
    exact .refl _

theorem remove_steps (id : CallbackId) (state : σ) (ascending : Ascending registry) :
    let ended := (remove id).outcome environment registry state
    Ascending ended.object ∧ Balanced registry ended.trace ended.object := by
  cases found : registry.find? id with
  | none =>
      simp only [remove_unknown environment found]
      exact ⟨ascending, by simp [Balanced, HostTrace.removals, HostTrace.installs]⟩
  | some entry =>
      cases reply : (environment.answer (.hook (.remove entry.host)) state).1 with
      | error error =>
          simp only [remove_refused environment found reply]
          exact ⟨ascending, by simp [Balanced]⟩
      | ok value =>
          simp only [remove_granted environment found reply]
          refine ⟨ascending.drop id, ?_⟩
          rw [Balanced, show HostTrace.installs entry.removal = [] from rfl, List.append_nil]
          exact ((ascending.perm_eraseEntry found).map _).symm

theorem clear_steps (state : σ) (ascending : Ascending registry) :
    let ended := clear.outcome environment registry state
    Ascending ended.object ∧ Balanced registry ended.trace ended.object := by
  intro ended
  obtain ⟨seen, -, after⟩ | ⟨before, entry, rest, error, split, seen, -, after⟩ :=
    clear_cases environment ascending state
  · rw [Balanced, seen, after]
    exact ⟨.nil, by simp [hosts]⟩
  · rw [Balanced, seen, after]
    refine ⟨ascending.suffix split, ?_⟩
    simp [hosts, split]

end Steps

end HookRegistry

/-! ## Any operations -/

namespace HookOperation

open HookRegistry

variable (environment : HostEnvironment κ σ) {registry : HookRegistry κ}

theorem program_ascending (operation : HookOperation κ) (state : σ)
    (ascending : Ascending registry) :
    Ascending ((operation.program registry).run environment state).1 := by
  cases operation with
  | on kind tag callback =>
      rw [program, Update.run_snd]
      exact install_ascending environment kind tag callback state ascending
  | off id =>
      rw [program, Update.run_snd]
      exact (remove_steps environment id state ascending).1
  | clear =>
      rw [program, Update.run_snd]
      exact (clear_steps environment state ascending).1

theorem programs_ascending (operations : List (HookOperation κ)) (state : σ)
    (ascending : Ascending registry) :
    Ascending ((programs operations registry).run environment state).1 := by
  induction operations generalizing registry state with
  | nil => exact ascending
  | cons operation rest ih =>
      rw [programs_cons, run_bind]
      exact ih _ (program_ascending environment operation state ascending)

theorem program_balanced (operation : HookOperation κ) {issued : Nat} (state : σ)
    (numbered : Numbered issued registry) (ascending : Ascending registry)
    (room : 0 < [operation].countP isOn → issued + [operation].countP isOn ≤ UInt32.size) :
    Balanced registry ((operation.program registry).trace environment state)
      ((operation.program registry).run environment state).1 := by
  cases operation with
  | on kind tag callback =>
      rw [program, Update.run_snd, Update.trace_snd]
      exact install_balanced environment kind tag callback state
        (numbered.unused (room Nat.one_pos))
  | off id =>
      rw [program, Update.run_snd, Update.trace_snd]
      exact (remove_steps environment id state ascending).2
  | clear =>
      rw [program, Update.run_snd, Update.trace_snd]
      exact (clear_steps environment state ascending).2

/-- As long as the ids last, every hook that was installed has been removed or is registered.
Ids are of no concern where nothing is installed. -/
theorem programs_balanced (operations : List (HookOperation κ)) {issued : Nat} (state : σ)
    (numbered : Numbered issued registry) (ascending : Ascending registry)
    (room : 0 < operations.countP isOn → issued + operations.countP isOn ≤ UInt32.size) :
    Balanced registry ((programs operations registry).trace environment state)
      ((programs operations registry).run environment state).1 := by
  induction operations generalizing issued registry state with
  | nil => exact List.Perm.of_eq (by simp [programs, pure_eq, trace, run, HostTrace.removals,
      HostTrace.installs])
  | cons operation rest ih =>
      rw [countP_isOn_cons] at room
      rw [programs_cons, run_bind, trace_bind]
      have first := program_balanced environment operation state numbered ascending (by omega)
      exact first.trans (ih _ (program_numbered operation state numbered)
        (program_ascending environment operation state ascending) (by omega))

end HookOperation

namespace HookRegistry

open HookOperation

/-- For a registry after any operations: an id that is not live is refused without asking the
emulator, and a removal that the emulator refuses changes nothing. A clear asks for the
removals in the order of the ids, up to the first that is refused; the registration for it
and those after it stay. When a clear succeeds in the end, every hook has been removed once,
whatever was done before it; where hooks were installed, the ids must have lasted. -/
theorem removals_exact (environment : HostEnvironment κ σ) {view : σ → τ}
    (withholds : environment.Withholds view) (earlier : List (HookOperation κ)) (start : σ) :
    let registry := ((programs earlier {}).run environment start).1
    let state := ((programs earlier {}).run environment start).2
    let cleared := clear.outcome environment registry state
    (∀ id ∉ registry.ids, (remove id).outcome environment registry state =
      ⟨[], .error (.unknownCallback id), registry, state⟩) ∧
    (∀ entry ∈ registry.entries, ∀ error,
      (environment.answer (.hook (.remove entry.host)) state).1 = .error error →
        ∃ after, view after = view state ∧
          (remove entry.id).outcome environment registry state =
            ⟨entry.refusal error, .error (.host error), registry, after⟩) ∧
    registry.ids.Pairwise (fun first second => first.value < second.value) ∧
    ((cleared.trace = registry.entries.flatMap (·.removal) ∧ cleared.result = .ok () ∧
        cleared.object = { registry with entries := [] }) ∨
      ∃ before entry after error, registry.entries = before ++ entry :: after ∧
        cleared.trace = before.flatMap (·.removal) ++ entry.refusal error ∧
        cleared.result = .error (.host error) ∧
        cleared.object = { registry with entries := entry :: after }) ∧
    ∀ later,
      (0 < later.countP isOn → earlier.countP isOn + later.countP isOn ≤ UInt32.size) →
      let reached := ((programs later registry).run environment state).1
      let trace : HostTrace κ := (programs later registry).trace environment state
      let last := clear.outcome environment reached
        ((programs later registry).run environment state).2
      last.result = .ok () →
        last.object.entries = [] ∧ last.trace.removals = reached.hosts ∧
          (HostTrace.removals (trace ++ last.trace)).Perm (registry.hosts ++ trace.installs) := by
  intro registry state cleared
  have numbered : Numbered (earlier.countP isOn) registry := by
    have counted : (programs earlier {}).Leads environment _ start :=
      programs_numbered earlier start numbered_nil
    rw [Nat.zero_add] at counted
    exact counted
  have ascending : Ascending registry := programs_ascending environment earlier start .nil
  refine ⟨fun id absent => ?_, fun entry member error refused => ?_, ascending.ids,
    clear_cases environment ascending state, fun later room => ?_⟩
  · refine remove_unknown environment (List.find?_eq_none.mpr fun entry member => ?_) state
    simpa using fun own : entry.id = id => absent (own ▸ List.mem_map_of_mem member)
  · exact ⟨_, withholds entry.host state error refused,
      remove_refused environment (ascending.find?_eq member) refused⟩
  · intro reached trace last result
    have after : Ascending reached := programs_ascending environment later state ascending
    have balanced : Balanced registry trace reached :=
      programs_balanced environment later state numbered ascending room
    obtain ⟨seen, -, left⟩ | ⟨before, entry, rest, error, -, -, failed, -⟩ :=
      clear_cases environment after ((programs later registry).run environment state).2
    · have removed : last.trace.removals = reached.hosts :=
        (congrArg HostTrace.removals seen).trans (HostTrace.removals_flatMap _)
      refine ⟨congrArg HookRegistry.entries left, removed, ?_⟩
      rw [HostTrace.removals_append, removed]
      exact balanced
    · cases result.symm.trans failed

theorem hooks_of_refused {id : HostHookId} {emulator : Emulator κ} {error : HostError}
    (refused : (emulator.serve (.hook (.remove id))).1 = .error error) :
    (emulator.serve (.hook (.remove id))).2.hooks = emulator.hooks := by
  simp only [Emulator.serve, Emulator.guarded] at refused ⊢
  cases injected : (Emulator.countCall (HostCall.hook (.remove id) : HostCall κ).primitive
    emulator.failures).1 with
  | some message => rfl
  | none =>
      simp only [injected] at refused
      cases refused

/-- An emulator that refuses a removal where the list says so. -/
def grudging : HostEnvironment String (Emulator String × List Bool) where
  answer call state :=
    match call with
    | .hook (.remove id) =>
        if state.2.head? = some false then
          (.error ⟨"removeCallback", "busy"⟩, state.1, state.2.tail)
        else
          let (reply, emulator) := state.1.serve (.hook (.remove id))
          (reply, emulator, state.2.tail)
    | call =>
        let (reply, emulator) := state.1.serve call
        (reply, emulator, state.2)
  note _ state := state

theorem grudging_withholds : grudging.Withholds fun state => state.1.hooks := by
  intro id state error refused
  by_cases turn : state.2.head? = some false
  · simp [grudging, turn]
  · simp only [grudging, turn, if_false] at refused ⊢
    exact hooks_of_refused refused

/-- The second of three removals is refused. The first clear leaves two registrations; a
hook is installed before the second clear, which removes it and the two others. -/
theorem removals_exact_of_grudging :
    let earlier : List (HookOperation String) :=
      [.on .exec 16 "a", .on .write 32 "b", .off ⟨7⟩, .on .write 32 "c"]
    let reached := (programs earlier {}).run grudging ({}, [true, false])
    let first := clear.outcome grudging reached.1 reached.2
    let later : List (HookOperation String) := [.clear, .on .read 48 "d"]
    let between := (programs later reached.1).run grudging reached.2
    let last := clear.outcome grudging between.1 between.2
    first.result = .error (.host ⟨"removeCallback", "busy"⟩) ∧ first.object.ids = [⟨1⟩, ⟨2⟩] ∧
      last.result = .ok () ∧ last.object.entries = [] ∧
      last.trace.removals = [⟨101⟩, ⟨102⟩, ⟨103⟩] ∧
      (HostTrace.removals ((programs later reached.1).trace grudging reached.2 ++ last.trace)).Perm
        [⟨100⟩, ⟨101⟩, ⟨102⟩, ⟨103⟩] := by
  intro earlier reached first later between last
  obtain ⟨-, -, -, -, retried⟩ :=
    removals_exact grudging grudging_withholds earlier ({}, [true, false])
  have result : last.result = .ok () := by decide +kernel
  obtain ⟨left, removed, all⟩ := retried later (fun _ => by decide) result
  refine ⟨by decide +kernel, by decide +kernel, result, ?_, removed.trans (by decide +kernel),
    all.trans (.of_eq (by decide +kernel))⟩
  simp only [last, between, reached]
  exact left

end HookRegistry

end EmuScript
