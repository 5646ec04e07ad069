import EmuScript.Proofs.Hook.Registry

/-!
# Ids of hook requests

A registry counts its calls of `on`, those that the emulator refuses included, and the
count is the id. So the ids of a run ascend, and no live registration is replaced, as long
as the count fits the width of an id. After that it starts again, and takes the places of
the registrations that are left.
-/

set_option autoImplicit false

namespace EmuScript

variable {κ σ : Type}

namespace HookRegistry

/-- So many calls of `on` have been made, and each registration has the count of one. -/
structure Numbered (issued : Nat) (registry : HookRegistry κ) : Prop where
  next : registry.nextId = .ofNat issued
  earlier : ∀ entry ∈ registry.entries, ∃ number < issued, entry.id.value = .ofNat number

theorem mem_insertEntry {entry other : Registration κ} {entries : List (Registration κ)}
    (member : other ∈ insertEntry entry entries) : other = entry ∨ other ∈ entries := by
  induction entries with
  | nil => exact .inl (List.mem_singleton.mp member)
  | cons first rest ih =>
      unfold insertEntry at member
      split at member
      · exact List.mem_cons.mp member
      · split at member
        · exact (List.mem_cons.mp member).imp_right (List.mem_cons_of_mem _)
        · obtain rfl | later := List.mem_cons.mp member
          · exact .inr List.mem_cons_self
          · exact (ih later).imp_right (List.mem_cons_of_mem _)

theorem mem_insertEntry_of_ne {entry other : Registration κ} {entries : List (Registration κ)}
    (differ : other.id ≠ entry.id) (member : other ∈ entries) :
    other ∈ insertEntry entry entries := by
  induction entries with
  | nil => cases member
  | cons first rest ih =>
      unfold insertEntry
      split
      · exact List.mem_cons_of_mem _ member
      · split
        · rename_i same
          obtain rfl | later := List.mem_cons.mp member
          · exact absurd same.symm differ
          · exact List.mem_cons_of_mem _ later
        · obtain rfl | later := List.mem_cons.mp member
          · exact List.mem_cons_self
          · exact List.mem_cons_of_mem _ (ih later)

theorem numbered_nil : Numbered 0 ({} : HookRegistry κ) := ⟨rfl, by simp⟩

namespace Numbered

variable {issued : Nat} {registry : HookRegistry κ}

theorem skip (numbered : Numbered issued registry) :
    Numbered (issued + 1) { registry with nextId := registry.nextId + 1 } where
  next := by rw [numbered.next, UInt32.ofNat_add]; rfl
  earlier entry member := by
    obtain ⟨number, before, same⟩ := numbered.earlier entry member
    exact ⟨number, Nat.lt_succ_of_lt before, same⟩

theorem add (numbered : Numbered issued registry) (kind : HookKind) (tag : UInt32)
    (host : HostHookId) (callback : κ) :
    Numbered (issued + 1)
      { entries := insertEntry ⟨⟨registry.nextId⟩, kind, tag, host, callback⟩ registry.entries
        nextId := registry.nextId + 1 } where
  next := numbered.skip.next
  earlier entry member := by
    obtain rfl | old := mem_insertEntry member
    · exact ⟨issued, Nat.lt_succ_self _, numbered.next⟩
    · exact numbered.skip.earlier entry old

theorem drop (numbered : Numbered issued registry) (id : CallbackId) :
    Numbered issued { registry with entries := eraseEntry id registry.entries } where
  next := numbered.next
  earlier entry member := numbered.earlier entry (List.mem_of_mem_filter member)

theorem unused (numbered : Numbered issued registry) (room : issued < UInt32.size) :
    registry.find? ⟨registry.nextId⟩ = none := by
  apply List.find?_eq_none.mpr
  intro entry member
  obtain ⟨number, before, own⟩ := numbered.earlier entry member
  suffices entry.id ≠ ⟨registry.nextId⟩ by simpa using this
  intro same
  have less := (UInt32.ofNat_lt_iff_lt (Nat.lt_trans before room) room).mpr before
  rw [← own, ← numbered.next, same] at less
  exact UInt32.lt_irrefl _ less

end Numbered

/-! ## Operations -/

variable {environment : HostEnvironment κ σ}

/-- A request takes the next id, whether or not it is granted, and keeps what is live
under other ids. -/
theorem install_takes (environment : HostEnvironment κ σ) (kind : HookKind) (tag : UInt32)
    (callback : κ) (registry : HookRegistry κ) (state : σ) :
    ((install kind tag callback).on registry).Leads environment (fun ended _ =>
      ended.2.nextId = registry.nextId + 1 ∧
        (∀ handle, ended.1 = .ok handle → handle.id = ⟨registry.nextId⟩) ∧
        (registry.find? ⟨registry.nextId⟩ = none → registry.entries ⊆ ended.2.entries)) state := by
  rw [install_on, Program.leads_ask]
  cases (environment.answer (.hook (.install kind tag callback)) state).1 with
  | ok host =>
      refine ⟨rfl, ?_, fun unused entry member => ?_⟩
      · rintro _ ⟨⟩
        rfl
      · have other := List.find?_eq_none.mp unused entry member
        exact mem_insertEntry_of_ne (by simpa using other) member
  | error error => exact ⟨rfl, nofun, fun _ _ member => member⟩

theorem install_numbered (kind : HookKind) (tag : UInt32) (callback : κ) {issued : Nat}
    {registry : HookRegistry κ} (state : σ) (numbered : Numbered issued registry) :
    ((install kind tag callback).on registry).Leads environment
      (fun ended _ => Numbered (issued + 1) ended.2) state := by
  rw [install_on, Program.leads_ask]
  cases (environment.answer (.hook (.install kind tag callback)) state).1 with
  | ok host => exact numbered.add kind tag host callback
  | error error => exact numbered.skip

theorem remove_numbered (issued : Nat) (id : CallbackId) :
    (remove id : Update κ _ _).Preserves environment fun registry _ => Numbered issued registry := by
  intro registry state numbered
  rw [remove_on]
  cases registry.find? id with
  | none => exact numbered
  | some entry =>
      simp only [Program.leads_ask]
      cases (environment.answer (.hook (.remove entry.host)) state).1 with
      | ok value => exact numbered.drop id
      | error error => exact numbered

end HookRegistry

namespace HookOperation

open HookRegistry

variable {environment : HostEnvironment κ σ} {issued : Nat} {registry : HookRegistry κ}

theorem program_numbered (operation : HookOperation κ) (state : σ)
    (numbered : Numbered issued registry) :
    (operation.program registry).Leads environment
      (fun after _ => Numbered (issued + [operation].countP isOn) after) state := by
  cases operation with
  | on kind tag callback =>
      exact Program.leads_bind.mpr (install_numbered kind tag callback state numbered)
  | off id => exact Program.leads_bind.mpr (remove_numbered issued id registry state numbered)
  | clear =>
      have cleared : (HookRegistry.clear : Update κ _ _).Preserves environment
          fun registry _ => Numbered issued registry :=
        clear_preserves_each (remove_numbered issued)
      exact Program.leads_bind.mpr (cleared registry state numbered)

theorem programs_numbered (operations : List (HookOperation κ)) (state : σ)
    (numbered : Numbered issued registry) :
    (programs operations registry).Leads environment
      (fun after _ => Numbered (issued + operations.countP isOn) after) state := by
  induction operations generalizing issued registry state with
  | nil => exact numbered
  | cons operation rest ih =>
      rw [countP_isOn_cons, ← Nat.add_assoc]
      have first : (operation.program registry).Leads environment _ state :=
        program_numbered operation state numbered
      exact Program.leads_bind.mpr (first.weaken fun _ state between => ih state between)

/-- The ids that a run uses up, in order. -/
def idsTaken (environment : HostEnvironment κ σ) :
    List (HookOperation κ) → HookRegistry κ → σ → List CallbackId
  | [], _, _ => []
  | operation :: rest, registry, state =>
      let (after, between) := (operation.program registry).run environment state
      (if operation.isOn then [⟨registry.nextId⟩] else []) ++
        idsTaken environment rest after between

theorem idsTaken_eq (operations : List (HookOperation κ)) (state : σ)
    (numbered : Numbered issued registry) :
    idsTaken environment operations registry state =
      (List.range' issued (operations.countP isOn)).map fun number => ⟨.ofNat number⟩ := by
  induction operations generalizing issued registry state with
  | nil => rfl
  | cons operation rest ih =>
      have first : (operation.program registry).Leads environment _ state :=
        program_numbered operation state numbered
      have others := ih ((operation.program registry).run environment state).2 first
      cases operation with
      | on kind tag callback =>
          rw [List.countP_cons_of_pos rfl, List.range'_succ]
          simp [idsTaken, others, isOn, numbered.next]
      | off id => simpa [idsTaken, isOn] using others
      | clear => simpa [idsTaken, isOn] using others

/-- The ids of a run ascend as long as the count fits the width of an id, and no longer. -/
theorem ids_ascend_iff (environment : HostEnvironment κ σ) (operations : List (HookOperation κ))
    (state : σ) :
    (idsTaken environment operations {} state).Pairwise
        (fun earlier later => earlier.value < later.value) ↔
      operations.countP isOn ≤ UInt32.size := by
  rw [idsTaken_eq operations state numbered_nil, List.pairwise_map, ← List.range_eq_range']
  constructor
  · intro ascending
    by_contra many
    rw [Nat.not_le] at many
    -- The count that no longer fits begins at zero again.
    have last := List.pairwise_iff_getElem.mp ascending 0 UInt32.size
      (by simpa using Nat.zero_lt_of_lt many) (by simpa using many) (by decide)
    simp only [List.getElem_range] at last
    exact absurd last (by decide)
  · intro few
    apply List.pairwise_lt_range.imp_of_mem
    intro earlier later _ member before
    have fits := Nat.lt_of_lt_of_le (List.mem_range.mp member) few
    exact (UInt32.ofNat_lt_iff_lt (Nat.lt_trans before fits) fits).mpr before

/-- No request replaces a live registration while the count fits. -/
theorem live_registrations_kept (environment : HostEnvironment κ σ)
    (before : List (HookOperation κ)) (room : before.countP isOn < UInt32.size) (kind : HookKind)
    (tag : UInt32) (callback : κ) (state : σ) :
    (programs before {}).Leads environment (fun registry between =>
      ((install kind tag callback).on registry).Leads environment
        (fun ended _ => registry.entries ⊆ ended.2.entries) between) state := by
  rw [← Nat.zero_add (before.countP isOn)] at room
  apply (programs_numbered before state numbered_nil).weaken
  intro registry between numbered
  obtain ⟨-, -, keeps⟩ := install_takes environment kind tag callback registry between
  exact keeps (numbered.unused room)

/-! ## Beyond the width of an id -/

theorem programs_cons (operation : HookOperation κ) (rest : List (HookOperation κ))
    (registry : HookRegistry κ) :
    programs (operation :: rest) registry =
      (operation.program registry).bind (programs rest) := rfl

/-- Requests that are refused in one state of the emulator only advance the count. -/
theorem programs_refused {kind : HookKind} {tag : UInt32} {callback : κ} {state : σ}
    {error : HostError}
    (refused : environment.answer (.hook (.install kind tag callback)) state =
      (.error error, state)) (count : Nat) (registry : HookRegistry κ) :
    (programs (List.replicate count (.on kind tag callback)) registry).run environment state =
      ({ registry with nextId := registry.nextId + .ofNat count }, state) := by
  induction count generalizing registry with
  | zero => simp [programs, Program.pure_eq, Program.run]
  | succ count ih =>
      have once : ((on kind tag callback).program registry).run environment state =
          ({ registry with nextId := registry.nextId + 1 }, state) := by
        change (((install kind tag callback).on registry).bind _).run environment state = _
        rw [install_on, Program.bind_ask, Program.run_ask, refused]
        rfl
      rw [List.replicate_succ, programs_cons, Program.run_bind, once]
      simp only [ih, UInt32.ofNat_add, UInt32.add_assoc, UInt32.add_comm 1]
      rfl

/-- An emulator that installs one hook, and refuses to install more. -/
def crowded : Emulator String :=
  { failures := [⟨"addCallback", 1, "busy"⟩] }

/-- A registration that stays until all other ids are used up is replaced by the next one;
its hook stays at the emulator. -/
theorem registration_lost :
    let filled := (programs (.on .exec 16 "early" ::
      List.replicate (UInt32.size - 1) (.on .exec 32 "refused")) {}).run
        (Emulator.environment String) crowded
    let ended := (programs [.on .write 48 "late"] filled.1).run (Emulator.environment String)
      { filled.2 with failures := [] }
    filled.1.entries.map (fun entry => (entry.id, entry.callback)) = [(⟨0⟩, "early")] ∧
      ended.1.entries.map (fun entry => (entry.id, entry.callback)) = [(⟨0⟩, "late")] ∧
      ended.2.hooks.map (·.callback) = ["early", "late"] := by
  intro filled ended
  let first := ((HookOperation.on .exec 16 "early").program {}).run (Emulator.environment String)
    crowded
  have refused : (Emulator.environment String).answer (.hook (.install .exec 32 "refused")) first.2 =
      (.error ⟨"addCallback", "busy"⟩, first.2) := rfl
  have counted : filled = ({ first.1 with nextId := first.1.nextId + .ofNat (UInt32.size - 1) },
      first.2) := by
    simp only [filled, programs_cons, Program.run_bind]
    exact programs_refused refused _ first.1
  have again : first.1.nextId + .ofNat (UInt32.size - 1) = 0 := by decide
  rw [again] at counted
  refine ⟨?_, ?_, ?_⟩
  · rw [counted]; decide
  · simp only [ended]; rw [counted]; decide
  · simp only [ended]; rw [counted]; decide

end HookOperation

end EmuScript
