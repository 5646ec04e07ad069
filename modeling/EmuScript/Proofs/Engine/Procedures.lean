import EmuScript.Emulator.NativeTable
import EmuScript.Engine.Realm
import EmuScript.Proofs.Engine.Custody
import EmuScript.Proofs.Engine.Ledger

/-!
# The procedures of several sessions

The sessions of a realm keep the procedures of their threads in one table, each under
numbers of its own count. What the table holds for a session is what the session has
put there itself, as long as no other session touches the same numbers; the first
threads of any two sessions have the same one.
-/

set_option autoImplicit false

namespace EmuScript.Engine

open Program

variable {φ α β : Type}

/-! ## Filings -/

namespace Effect

/-- The key under which a procedure is kept or dropped. -/
def key? : Effect φ → Option UInt32
  | keepProcedure key _ | dropProcedure key => some key
  | notice _ | consoleLog _ | opened _ => none

/-- What an effect of a session does to the table of procedures. -/
def file (owner : Nat) (table : Table UInt32 (Procedure φ)) :
    Effect φ → Table UInt32 (Procedure φ)
  | keepProcedure key callback => table.insert key ⟨callback, owner⟩
  | dropProcedure key => table.erase key
  | notice _ | consoleLog _ | opened _ => table

variable {owner : Nat} {table : Table UInt32 (Procedure φ)} {effect : Effect φ} {key : UInt32}

theorem file_of_keyless (keyless : effect.key? = none) : effect.file owner table = table := by
  cases effect with
  | keepProcedure | dropProcedure => cases keyless
  | notice | consoleLog | opened => rfl

theorem find?_file_of_ne (other : effect.key? ≠ some key) :
    (effect.file owner table).find? key = table.find? key := by
  cases effect with
  | keepProcedure kept callback =>
      exact Table.find?_insert_of_ne _ _ fun same => other (congrArg some same.symm)
  | dropProcedure dropped =>
      exact Table.find?_erase_of_ne _ fun same => other (congrArg some same.symm)
  | notice | consoleLog | opened => rfl

/-- A procedure under the key of an effect belongs to the session of the effect. -/
theorem owner_of_find?_file (own : effect.key? = some key) {procedure : Procedure φ}
    (found : (effect.file owner table).find? key = some procedure) : procedure.owner = owner := by
  cases effect with
  | keepProcedure kept callback =>
      cases own
      cases (Table.find?_insert_self table key _).symm.trans found
      rfl
  | dropProcedure dropped =>
      cases own
      cases (Table.find?_erase_self table key).symm.trans found
  | notice | consoleLog | opened => cases own

/-- What one table finds and another finds too, both still find after an effect. -/
theorem find?_file_mono {wider : Table UInt32 (Procedure φ)}
    (found : ∀ procedure, table.find? key = some procedure → wider.find? key = some procedure)
    (procedure : Procedure φ) (after : (effect.file owner table).find? key = some procedure) :
    (effect.file owner wider).find? key = some procedure := by
  by_cases touched : effect.key? = some key
  · cases effect with
    | keepProcedure kept callback =>
        cases touched
        rw [← after]
        exact (Table.find?_insert_self _ _ _).trans (Table.find?_insert_self _ _ _).symm
    | dropProcedure dropped =>
        cases touched
        cases (Table.find?_erase_self table key).symm.trans after
    | notice | consoleLog | opened => cases touched
  · rw [find?_file_of_ne touched] at after ⊢
    exact found procedure after

end Effect

/-- A program keeps and drops no procedure. -/
def FilesNothing (program : NativeProgram φ α) : Prop :=
  program.Meets { tells := fun effect => effect.key? = none }

theorem filesNothing_bind {program : NativeProgram φ α} {next : α → NativeProgram φ β}
    (first : FilesNothing program) (rest : ∀ value, FilesNothing (next value)) :
    FilesNothing (program >>= next) :=
  meets_bind.mpr (first.weaken (fun _ => id) (fun _ => id) fun value _ => rest value)

theorem Adapter.lower_filesNothing (program : HostProgram (Closure φ) α)
    (adapter : Adapter φ) : FilesNothing (lower program adapter) := by
  induction program generalizing adapter with
  | done value => exact trivial
  | tell notice rest ih => exact ⟨rfl, ih adapter⟩
  | ask call next ih =>
      refine meets_bind.mpr ((serve_requests call adapter).weaken (fun _ _ => trivial)
        (fun _ => False.elim) ?_)
      exact fun (reply, after) _ => ih reply after

namespace Bridge

theorem through_filesNothing (program : HostProgram (Closure φ) α) (bridge : Bridge φ) :
    FilesNothing (through program bridge) :=
  filesNothing_bind (Adapter.lower_filesNothing program bridge.adapter) fun _ => trivial

theorem complete_filesNothing (completion : Completion) (bridge : Bridge φ) :
    FilesNothing (complete completion bridge) := by
  cases completion with
  | connected fd | received fd data | written fd =>
      cases found : bridge.sockets.find? fd.value with
      | none => simp [complete, onSocket, found, pure_eq, FilesNothing, Meets]
      | some socket =>
          simp only [complete, onSocket, found]
          exact filesNothing_bind (through_filesNothing _ bridge) fun _ => trivial
  | accepted server client =>
      cases found : bridge.servers.find? server.value with
      | none => simp [complete, onServer, found, pure_eq, FilesNothing, Meets]
      | some server =>
          simp only [complete, onServer, found]
          exact filesNothing_bind (through_filesNothing _ bridge) fun _ => trivial

theorem apply_filesNothing (completion : Completion) (bridge : Bridge φ) :
    FilesNothing (apply completion bridge) := by
  refine filesNothing_bind (complete_filesNothing completion bridge) ?_
  rintro ⟨_ | error | ⟨⟩, after⟩
  · exact trivial
  · refine filesNothing_bind (through_filesNothing _ after) ?_
    rintro ⟨reported, -⟩
    cases reported with
    | ok value => exact trivial
    | error error => exact ⟨rfl, trivial⟩
  · exact trivial

end Bridge

/-! ## One move -/

/-- What a session does to a table by some effects. -/
def shelve (owner : Nat) (effects : List (Effect φ)) (table : Table UInt32 (Procedure φ)) :
    Table UInt32 (Procedure φ) :=
  effects.foldl (fun table effect => effect.file owner table) table

section Shelve

variable {owner : Nat} {effects : List (Effect φ)} {table : Table UInt32 (Procedure φ)}
  {key : UInt32}

theorem shelve_concat (effect : Effect φ) :
    shelve owner (effects ++ [effect]) table = effect.file owner (shelve owner effects table) := by
  simp [shelve]

theorem find?_shelve_of_untouched (untouched : ∀ effect ∈ effects, effect.key? ≠ some key) :
    (shelve owner effects table).find? key = table.find? key := by
  induction effects using List.reverseRecOn with
  | nil => rfl
  | append_singleton effects effect ih =>
      obtain ⟨before, last⟩ := List.forall_mem_append.mp untouched
      rw [shelve_concat, Effect.find?_file_of_ne (last effect (by simp)), ih before]

theorem owner_of_find?_shelve (touched : ∃ effect ∈ effects, effect.key? = some key)
    {procedure : Procedure φ} (found : (shelve owner effects table).find? key = some procedure) :
    procedure.owner = owner := by
  induction effects using List.reverseRecOn with
  | nil => simp at touched
  | append_singleton effects effect ih =>
      rw [shelve_concat] at found
      by_cases own : effect.key? = some key
      · exact Effect.owner_of_find?_file own found
      · rw [Effect.find?_file_of_ne own] at found
        refine ih ?_ found
        obtain ⟨other, member, same⟩ := touched
        rcases List.mem_append.mp member with before | last
        · exact ⟨other, before, same⟩
        · exact (own (List.mem_singleton.mp last ▸ same)).elim

theorem find?_shelve_mono {wider : Table UInt32 (Procedure φ)}
    (found : ∀ procedure, table.find? key = some procedure → wider.find? key = some procedure) :
    ∀ procedure, (shelve owner effects table).find? key = some procedure →
      (shelve owner effects wider).find? key = some procedure := by
  induction effects using List.reverseRecOn with
  | nil => exact found
  | append_singleton effects effect ih =>
      rw [shelve_concat, shelve_concat]
      exact Effect.find?_file_mono ih

end Shelve

theorem FilesNothing.advance {program : NativeProgram φ α} (nothing : FilesNothing program)
    (owner : Nat) (table : Table UInt32 (Procedure φ)) :
    shelve owner program.advance.1 table = table := by
  induction program with
  | done value => rfl
  | ask call next ih => rfl
  | tell effect rest ih =>
      obtain ⟨keyless, later⟩ := nothing
      have kept : effect.file owner table = table := Effect.file_of_keyless keyless
      have same : shelve owner (Program.tell effect rest).advance.1 table =
          shelve owner rest.advance.1 (effect.file owner table) := rfl
      rw [same, kept, ih later]

namespace Machine

theorem effect_procedures (machine : Machine φ) (effect : Effect φ) :
    (machine.effect effect).1.procedures = effect.file machine.id machine.procedures := by
  cases effect with
  | notice notice =>
      cases notice with
      | log record => rfl
      | signal signal =>
          cases signal with
          | hook handler | connected handler | received handler | closed handler | written handler
          | accepted handler => cases handler <;> rfl
  | consoleLog | keepProcedure | dropProcedure | opened => rfl

/-- A session is left with its number and with a table of procedures. -/
structure Leaves (id : Nat) (procedures : Table UInt32 (Procedure φ)) (machine : Machine φ) :
    Prop where
  id : machine.id = id
  procedures : machine.procedures = procedures

theorem Leaves.trans {id : Nat} {procedures : Table UInt32 (Procedure φ)}
    {between machine : Machine φ} (first : Leaves id procedures between)
    (second : Leaves between.id between.procedures machine) : Leaves id procedures machine :=
  ⟨second.id.trans first.id, second.procedures.trans first.procedures⟩

theorem effects_leaves (machine : Machine φ) (effects : List (Effect φ)) :
    Leaves machine.id (shelve machine.id effects machine.procedures)
      (machine.effects effects).1 := by
  induction effects generalizing machine with
  | nil => exact ⟨rfl, rfl⟩
  | cons effect rest ih =>
      obtain ⟨-, -, -, -, same⟩ := machine.effect_frame effect
      have later := ih (machine.effect effect).1
      rw [same, effect_procedures] at later
      exact later

theorem release_leaves (bridge : Bridge φ) (outcome : Outcome) (machine : Machine φ) :
    Leaves machine.id machine.procedures (machine.release bridge outcome).1 := by
  cases machine with
  | mk id free queue ready adopted procedures tickets frames =>
      cases ready with
      | nil => cases outcome <;> exact ⟨rfl, rfl⟩
      | cons first rest => exact ⟨rfl, rfl⟩

/-- Completions file nothing. -/
theorem settle_leaves (outcome : Outcome) (completions : List Completion) (bridge : Bridge φ)
    (machine : Machine φ) :
    Leaves machine.id machine.procedures (settle outcome completions bridge machine).1 := by
  induction completions generalizing bridge machine with
  | nil => exact release_leaves bridge outcome { machine with queue := [] }
  | cons completion rest ih =>
      have told := effects_leaves { machine with queue := rest }
        (Bridge.apply completion bridge).advance.1
      rw [(Bridge.apply_filesNothing completion bridge).advance] at told
      refine told.trans ?_
      simp only [settle, after_fst]
      cases (Bridge.apply completion bridge).advance.2 with
      | done ended => exact ih ended.2 _
      | asking call next => exact ⟨rfl, rfl⟩

theorem pump_leaves (outcome : Outcome) (machine : Machine φ) :
    Leaves machine.id machine.procedures (machine.pump outcome).1 := by
  cases free : machine.bridge with
  | none =>
      rw [pump_held outcome free]
      exact ⟨rfl, rfl⟩
  | some bridge =>
      rw [pump_free outcome free]
      exact settle_leaves outcome machine.queue bridge machine.hold

theorem resume_leaves (machine : Machine φ) (resume : Resume φ) :
    Leaves machine.id machine.procedures (machine.resume resume).1 := by
  cases resume with
  | caller => exact ⟨rfl, rfl⟩
  | batch rest outcome =>
      cases rest with
      | nil => exact machine.pump_leaves outcome
      | cons first rest => exact ⟨rfl, rfl⟩

theorem advanceMethod_leaves (program : NativeProgram φ (Except Failure Answer × Bridge φ))
    (machine : Machine φ) :
    Leaves machine.id (shelve machine.id program.advance.1 machine.procedures)
      (machine.advanceMethod program).1 := by
  refine (machine.effects_leaves program.advance.1).trans ?_
  simp only [advanceMethod, after_fst]
  cases program.advance.2 with
  | done ended =>
      exact pump_leaves (some ended.1)
        { (machine.effects program.advance.1).1 with bridge := some ended.2 }
  | asking call next => exact ⟨rfl, rfl⟩

theorem advanceSettling_leaves (program : NativeProgram φ (Unit × Bridge φ)) (outcome : Outcome)
    (machine : Machine φ) :
    Leaves machine.id (shelve machine.id program.advance.1 machine.procedures)
      (machine.advanceSettling program outcome).1 := by
  refine (machine.effects_leaves program.advance.1).trans ?_
  simp only [advanceSettling, after_fst]
  cases program.advance.2 with
  | done ended => exact settle_leaves outcome _ ended.2 _
  | asking call next => exact ⟨rfl, rfl⟩

/-- The effects of the program that goes on by a move. -/
def filings (machine : Machine φ) : Move φ → List (Effect φ)
  | .call method =>
      match machine.bridge with
      | some bridge => (method.run bridge).advance.1
      | none => []
  | .answer reply =>
      match machine.frames with
      | .method call next :: _ => (next (reply call)).advance.1
      | .settling call next _ :: _ => (next (reply call)).advance.1
      | _ => []
  | .complete _ _ | .invoke _ _ | .finish _ => []

theorem answer_leaves (machine : Machine φ)
    (reply : (call : NativeCall φ) → NativeCall.Reply call) :
    Leaves machine.id (shelve machine.id (machine.filings (.answer reply)) machine.procedures)
      (machine.answer reply).1 := by
  cases top : machine.frames with
  | nil =>
      simp only [answer, filings, top]
      exact ⟨rfl, rfl⟩
  | cons frame frames =>
      cases frame with
      | method call next =>
          simp only [answer, filings, top]
          exact advanceMethod_leaves (next (reply call)) (machine.returnTo frames)
      | settling call next outcome =>
          simp only [answer, filings, top]
          exact advanceSettling_leaves (next (reply call)) outcome (machine.returnTo frames)
      | script invocation owner resume =>
          simp only [answer, filings, top]
          exact ⟨rfl, rfl⟩
      | reporting owner line resume =>
          simp only [answer, filings, top]
          cases reply (.console (.print line)) with
          | ok value => exact resume_leaves (machine.returnTo frames) resume
          | error thrown => exact resume_leaves (machine.returnTo frames) resume

theorem finishScript_leaves (machine : Machine φ) (thrown : Option Thrown) :
    Leaves machine.id machine.procedures (machine.finishScript thrown).1 := by
  cases top : machine.frames with
  | nil =>
      simp only [finishScript, top]
      exact ⟨rfl, rfl⟩
  | cons frame frames =>
      cases frame with
      | method | settling | reporting =>
          simp only [finishScript, top]
          exact ⟨rfl, rfl⟩
      | script invocation owner resume =>
          simp only [finishScript, top]
          cases thrown with
          | none => exact resume_leaves (machine.returnTo frames) resume
          | some thrown => exact ⟨rfl, rfl⟩

theorem complete_leaves (machine : Machine φ) (ticket : Ticket)
    (payload : ticket.request.Payload) :
    Leaves machine.id machine.procedures (machine.complete ticket payload).1 := by
  by_cases known : ticket ∈ machine.tickets
  · rw [complete_known payload known]
    exact pump_leaves none (machine.receive ticket payload)
  · simp only [complete, known, if_false]
    exact ⟨rfl, rfl⟩

theorem invoke_leaves (machine : Machine φ) (closure : Closure φ) (arguments : List Argument) :
    Leaves machine.id machine.procedures (machine.invoke closure arguments).1 := by
  cases closure with
  | immediate | deferred | silent => exact ⟨rfl, rfl⟩
  | procedure key =>
      cases found : machine.procedures.find? key <;> simp only [invoke, found] <;> exact ⟨rfl, rfl⟩

/-- A move does to the table of procedures what its filings say. -/
theorem step_leaves (machine : Machine φ) (move : Move φ) :
    Leaves machine.id (shelve machine.id (machine.filings move) machine.procedures)
      (machine.step move).1 := by
  cases move with
  | call method =>
      cases free : machine.bridge with
      | none =>
          simp only [step, call, filings, free]
          exact ⟨rfl, rfl⟩
      | some bridge =>
          simp only [step, call, filings, free]
          exact advanceMethod_leaves (method.run bridge) machine.hold
  | complete ticket payload => exact machine.complete_leaves ticket payload
  | invoke closure arguments => exact machine.invoke_leaves closure arguments
  | answer reply => exact machine.answer_leaves reply
  | finish thrown => exact machine.finishScript_leaves thrown

end Machine

/-! ## Realms -/

namespace Realm

/-- Where the sessions of a realm have come to after some moves. -/
def reached (configs : List SessionConfig) (moves : List (Nat × Move φ)) : Realm φ :=
  ((start configs).steps moves).1

def filings (realm : Realm φ) (id : Nat) (move : Move φ) : List (Effect φ) :=
  match realm.machine? id with
  | some machine => machine.filings move
  | none => []

/-- The effects of all moves in one session. -/
def filed (id : Nat) (realm : Realm φ) : List (Nat × Move φ) → List (Effect φ)
  | [] => []
  | (session, move) :: rest =>
      (if session = id then realm.filings session move else []) ++
        filed id (realm.step session move).1 rest

/-- The procedures that a session has kept and not dropped: the table that it would have
alone. -/
def own (configs : List SessionConfig) (id : Nat) (moves : List (Nat × Move φ)) :
    Table UInt32 (Procedure φ) :=
  shelve id (filed id (start configs) moves) []

/-- Every session has the number of its position. -/
def Numbered (realm : Realm φ) : Prop :=
  ∀ (id : Nat) (machine : Machine φ), realm.machines[id]? = some machine → machine.id = id

theorem start_numbered (configs : List SessionConfig) : (start configs : Realm φ).Numbered := by
  intro id machine found
  simp only [start, List.getElem?_mapIdx, Option.map_eq_some_iff] at found
  obtain ⟨config, -, rfl⟩ := found
  rfl

variable {realm : Realm φ} {id : Nat} {move : Move φ}

theorem step_of_missing (missing : realm.machine? id = none) :
    realm.step id move = (realm, []) := by
  simp [step, missing]

theorem step_of_machine {machine : Machine φ} (found : realm.machine? id = some machine) :
    realm.step id move =
      (⟨realm.machines.set id (machine.step move).1, (machine.step move).1.procedures⟩,
        (machine.step move).2) := by
  simp [step, found]

theorem machine?_eq_some {machine : Machine φ} (found : realm.machine? id = some machine) :
    machine.procedures = realm.procedures ∧
      ∃ kept, realm.machines[id]? = some kept ∧ kept.id = machine.id := by
  obtain ⟨kept, member, rfl⟩ := Option.map_eq_some_iff.mp found
  exact ⟨rfl, kept, member, rfl⟩

theorem step_numbered (numbered : realm.Numbered) :
    (realm.step id move).1.Numbered ∧
      (realm.step id move).1.procedures = shelve id (realm.filings id move) realm.procedures := by
  cases found : realm.machine? id with
  | none =>
      rw [step_of_missing found, filings, found]
      exact ⟨numbered, rfl⟩
  | some machine =>
      obtain ⟨shared, kept, member, same⟩ := machine?_eq_some found
      have own : machine.id = id := same.symm.trans (numbered id kept member)
      have leaves := machine.step_leaves move
      rw [own, shared] at leaves
      rw [step_of_machine found, filings, found]
      refine ⟨fun other stepped present => ?_, leaves.procedures⟩
      by_cases same : id = other
      · have inside : id < realm.machines.length := (List.getElem?_eq_some_iff.mp member).1
        simp only [← same, List.getElem?_set_self inside, Option.some.injEq] at present
        rw [← same, ← present]
        exact leaves.id
      · rw [List.getElem?_set_ne same] at present
        exact numbered other stepped present

theorem steps_concat (realm : Realm φ) (moves : List (Nat × Move φ)) (id : Nat) (move : Move φ) :
    (realm.steps (moves ++ [(id, move)])).1 = ((realm.steps moves).1.step id move).1 := by
  induction moves generalizing realm with
  | nil => rfl
  | cons first rest ih => exact ih (realm.step first.1 first.2).1

theorem filed_concat (realm : Realm φ) (moves : List (Nat × Move φ)) (session id : Nat)
    (move : Move φ) :
    filed id realm (moves ++ [(session, move)]) =
      filed id realm moves ++
        if session = id then (realm.steps moves).1.filings session move else [] := by
  induction moves generalizing realm with
  | nil => simp [filed, steps]
  | cons first rest ih => simp [filed, steps, ih]

variable {configs : List SessionConfig} {past : List (Nat × Move φ)}

theorem reached_numbered (configs : List SessionConfig) (moves : List (Nat × Move φ)) :
    (reached configs moves).Numbered := by
  induction moves using List.reverseRecOn with
  | nil => exact start_numbered configs
  | append_singleton past last ih =>
      rw [reached, steps_concat]
      exact (step_numbered ih).1

theorem reached_procedures (configs : List SessionConfig) (past : List (Nat × Move φ)) (id : Nat)
    (move : Move φ) :
    (reached configs (past ++ [(id, move)])).procedures =
      shelve id ((reached configs past).filings id move) (reached configs past).procedures := by
  rw [reached, steps_concat]
  exact (step_numbered (reached_numbered configs past)).2

theorem own_concat_self (configs : List SessionConfig) (past : List (Nat × Move φ)) (id : Nat)
    (move : Move φ) :
    own configs id (past ++ [(id, move)]) =
      shelve id ((reached configs past).filings id move) (own configs id past) := by
  simp [own, filed_concat, shelve, reached]

theorem own_concat_other (configs : List SessionConfig) (past : List (Nat × Move φ))
    {id session : Nat} (other : session ≠ id) (move : Move φ) :
    own configs id (past ++ [(session, move)]) = own configs id past := by
  simp [own, filed_concat, other]

/-- The procedures of a session report to it. -/
theorem owner_of_own {key : UInt32} {procedure : Procedure φ}
    (found : (own configs id past).find? key = some procedure) : procedure.owner = id := by
  by_cases touched : ∃ effect ∈ filed id (start configs) past, effect.key? = some key
  · exact owner_of_find?_shelve touched found
  · have untouched : ∀ effect ∈ filed id (start configs) past, effect.key? ≠ some key :=
      fun effect member same => touched ⟨effect, member, same⟩
    rw [own, find?_shelve_of_untouched untouched] at found
    cases found

/-- No session keeps or drops a procedure under a key under which another one has a
procedure. -/
def KeysApart (configs : List SessionConfig) (moves : List (Nat × Move φ)) : Prop :=
  ∀ past id move, past ++ [(id, move)] <+: moves →
    ∀ effect ∈ (reached configs past).filings id move, ∀ key, effect.key? = some key →
      ∀ other, other ≠ id → (own configs other past).find? key = none

/-- The shared table holds all that the sessions have kept and not dropped. -/
def HoldsAll (configs : List SessionConfig) (past : List (Nat × Move φ)) : Prop :=
  ∀ id key procedure, (own configs id past).find? key = some procedure →
    (reached configs past).procedures.find? key = some procedure

theorem KeysApart.holdsAll {moves : List (Nat × Move φ)} (apart : KeysApart configs moves)
    (isPrefix : past <+: moves) : HoldsAll configs past := by
  induction past using List.reverseRecOn with
  | nil =>
      intro id key procedure found
      cases found
  | append_singleton past last ih =>
      obtain ⟨session, move⟩ := last
      have before := ih ((List.prefix_append past _).trans isPrefix)
      intro id key procedure found
      rw [reached_procedures]
      by_cases same : session = id
      · cases same
        rw [own_concat_self] at found
        exact find?_shelve_mono (before session key) procedure found
      · rw [own_concat_other configs past same] at found
        have untouched : ∀ effect ∈ (reached configs past).filings session move,
            effect.key? ≠ some key := by
          intro effect member touched
          have free := apart past session move isPrefix effect member key touched id (Ne.symm same)
          cases free.symm.trans found
        rw [find?_shelve_of_untouched untouched]
        exact before id key procedure found

theorem keysApart_of_holdsAll {moves : List (Nat × Move φ)}
    (holds : ∀ past, past <+: moves → HoldsAll configs past) : KeysApart configs moves := by
  intro past session move isPrefix effect member key touched other differ
  cases found : (own configs other past).find? key with
  | none => rfl
  | some procedure =>
      -- After the move the key is the other's by its own table, and the mover's by the shared one.
      have kept : (own configs other (past ++ [(session, move)])).find? key = some procedure := by
        rw [own_concat_other configs past (Ne.symm differ), found]
      have shared := holds _ isPrefix other key procedure kept
      rw [reached_procedures] at shared
      have owner : procedure.owner = session :=
        owner_of_find?_shelve ⟨effect, member, touched⟩ shared
      exact (differ ((owner_of_own found).symm.trans owner)).elim

/-! ## Runs of procedures -/

theorem isSome_machine?_step (realm : Realm φ) (session id : Nat) (move : Move φ) :
    ((realm.step session move).1.machine? id).isSome = (realm.machine? id).isSome := by
  cases found : realm.machine? session with
  | none => rw [step_of_missing found]
  | some machine =>
      rw [step_of_machine found, Bool.eq_iff_iff]
      simp [machine?]

theorem machine?_of_own {key : UInt32} {procedure : Procedure φ}
    (found : (own configs id past).find? key = some procedure) :
    ((reached configs past).machine? id).isSome := by
  induction past using List.reverseRecOn with
  | nil => cases found
  | append_singleton past last ih =>
      obtain ⟨session, move⟩ := last
      rw [reached, steps_concat, isSome_machine?_step]
      by_cases same : session = id
      · rw [same] at found
        cases present : (reached configs past).machine? id with
        | some machine => exact Option.isSome_of_mem present
        | none =>
            have nothing : (reached configs past).filings id move = [] := by
              simp [filings, present]
            rw [own_concat_self, nothing] at found
            exact present ▸ ih found
      · rw [own_concat_other configs past same] at found
        exact ih found

/-- The emulator of a session runs the procedure under a key, and the procedure throws. -/
def throwing (id : Nat) (key : UInt32) (arguments : List Argument) (thrown : Thrown) :
    List (Nat × Move φ) :=
  [(id, .invoke (.procedure key) arguments), (id, .finish (some thrown))]

variable {key : UInt32} {machine : Machine φ}

theorem throwing_kept (present : realm.machine? id = some machine) {procedure : Procedure φ}
    (kept : realm.procedures.find? key = some procedure) (arguments : List Argument)
    (thrown : Thrown) :
    (realm.steps (throwing id key arguments thrown)).2 =
      [.entered ⟨procedure.callback, []⟩,
        .asked procedure.owner (.console (.print (Console.errorLine thrown.message)))] := by
  obtain ⟨shared, before, member, -⟩ := machine?_eq_some present
  have inside : id < realm.machines.length := (List.getElem?_eq_some_iff.mp member).1
  have invoked : machine.step (.invoke (.procedure key) arguments) =
      machine.run ⟨procedure.callback, []⟩ procedure.owner .caller := by
    simp [Machine.step, Machine.invoke, shared, kept]
  have entered : (realm.step id (.invoke (.procedure key) arguments)).1.machine? id =
      some (machine.enter ⟨procedure.callback, []⟩ procedure.owner .caller) := by
    rw [step_of_machine present, invoked]
    simp [machine?, Machine.run, Machine.enter, inside]
  have first : (realm.step id (.invoke (.procedure key) arguments)).2 =
      [.entered ⟨procedure.callback, []⟩] := by
    rw [step_of_machine present, invoked]
    rfl
  simp only [throwing, steps, first, step_of_machine entered]
  rfl

theorem throwing_missing (present : realm.machine? id = some machine)
    (missing : realm.procedures.find? key = none) (arguments : List Argument) (thrown : Thrown) :
    ∃ later, (realm.steps (throwing id key arguments thrown)).2 = .ended :: later := by
  obtain ⟨shared, -⟩ := machine?_eq_some present
  have first : (realm.step id (.invoke (.procedure key) arguments)).2 = [.ended] := by
    rw [step_of_machine present]
    simp [Machine.step, Machine.invoke, shared, missing]
  simp only [throwing, steps, first]
  exact ⟨_, rfl⟩

/-- Whenever the emulator runs a procedure that a session has kept, it runs that very
function, and what the function throws is printed by the session. -/
def RunsOwn (configs : List SessionConfig) (past : List (Nat × Move φ)) : Prop :=
  ∀ id key procedure, (own configs id past).find? key = some procedure →
    ∀ arguments thrown,
      ((reached configs past).steps (throwing id key arguments thrown)).2 =
        [.entered ⟨procedure.callback, []⟩,
          .asked id (.console (.print (Console.errorLine thrown.message)))]

theorem runsOwn_iff (configs : List SessionConfig) (past : List (Nat × Move φ)) :
    RunsOwn configs past ↔ HoldsAll configs past := by
  constructor
  · intro runs id key procedure found
    obtain ⟨machine, present⟩ := Option.isSome_iff_exists.mp (machine?_of_own found)
    have events := runs id key procedure found [] .null
    cases kept : (reached configs past).procedures.find? key with
    | none =>
        obtain ⟨later, ended⟩ := throwing_missing present kept [] .null
        rw [ended] at events
        cases events
    | some shared =>
        rw [throwing_kept present kept] at events
        obtain ⟨callback, owner⟩ : shared.callback = procedure.callback ∧ shared.owner = id := by
          simpa using events
        rw [← owner_of_own found] at owner
        cases shared
        cases procedure
        cases callback
        cases owner
        rfl
  · intro holds id key procedure found arguments thrown
    obtain ⟨machine, present⟩ := Option.isSome_iff_exists.mp (machine?_of_own found)
    rw [throwing_kept present (holds id key procedure found), owner_of_own found]

/-- The procedures of all sessions run as their own at all times if and only if no session
ever keeps or drops one under a key that another session uses. -/
theorem procedures_run_own_iff (configs : List SessionConfig) (moves : List (Nat × Move φ)) :
    (∀ past, past <+: moves → RunsOwn configs past) ↔ KeysApart configs moves := by
  constructor
  · intro runs
    refine keysApart_of_holdsAll fun past isPrefix => ?_
    exact (runsOwn_iff configs past).mp (runs past isPrefix)
  · intro apart past isPrefix
    exact (runsOwn_iff configs past).mpr (apart.holdsAll isPrefix)

/-! ## Keys -/

theorem spawn_files {bridge : Bridge φ} (free : machine.bridge = some bridge) (callback : φ) :
    machine.filings (.call (.spawn callback)) = [.keepProcedure bridge.nextThread callback] := by
  rw [Machine.filings, free]
  rfl

theorem machine?_start {config : SessionConfig} (present : configs[id]? = some config) :
    (start configs : Realm φ).machine? id = some (Machine.start id config) := by
  simp [machine?, start, present, Machine.start]

theorem bridge_step_other {session : Nat} (other : session ≠ id)
    (present : realm.machine? id = some machine) (move : Move φ) :
    ∃ later, (realm.step session move).1.machine? id = some later ∧
      later.bridge = machine.bridge := by
  cases found : realm.machine? session with
  | none =>
      rw [step_of_missing found]
      exact ⟨machine, present, rfl⟩
  | some moving =>
      obtain ⟨kept, member, rfl⟩ := Option.map_eq_some_iff.mp present
      rw [step_of_machine found]
      refine ⟨{ kept with procedures := (moving.step move).1.procedures }, ?_, rfl⟩
      simp [machine?, List.getElem?_set_ne other, member]

theorem isSome_machine?_reached (configs : List SessionConfig) (moves : List (Nat × Move φ))
    (id : Nat) : ((reached configs moves).machine? id).isSome = decide (id < configs.length) := by
  induction moves using List.reverseRecOn with
  | nil =>
      rw [Bool.eq_iff_iff]
      simp [reached, steps, machine?, start]
  | append_singleton past last ih => rw [reached, steps_concat, isSome_machine?_step, ← ih, reached]

/-- A session that has its thread of the engine for itself runs its own procedures. -/
theorem alone_runs_own (config : SessionConfig) (moves : List (Nat × Move φ)) :
    RunsOwn [config] moves := by
  have alone (id : Nat) (past : List (Nat × Move φ))
      (present : ((reached [config] past).machine? id).isSome) : id = 0 := by
    simpa [isSome_machine?_reached] using present
  have apart : KeysApart [config] moves := by
    intro past id move isPrefix effect member key touched other differ
    cases found : (own [config] other past).find? key with
    | none => rfl
    | some procedure =>
        have first : other = 0 := alone other past (machine?_of_own found)
        cases present : (reached [config] past).machine? id with
        | none => simp [filings, present] at member
        | some machine =>
            have same : id = 0 := alone id past (Option.isSome_of_mem present)
            exact (differ (first.trans same.symm)).elim
  exact (runsOwn_iff [config] moves).mpr (apart.holdsAll (List.prefix_refl moves))

/-- The first threads of any two sessions have the same key, so that the emulator of the
one runs the function of the other. -/
theorem first_spawns_collide {other : Nat} (inside : id < configs.length)
    (alsoInside : other < configs.length) (differ : id ≠ other) (callback replacing : φ)
    (arguments : List Argument) (thrown : Thrown) :
    let moves := [(id, .call (.spawn callback)), (other, .call (.spawn replacing))]
    (own configs id moves).find? 0 = some ⟨callback, id⟩ ∧
      ((reached configs moves).steps (throwing id 0 arguments thrown)).2 =
        [.entered ⟨replacing, []⟩,
          .asked other (.console (.print (Console.errorLine thrown.message)))] := by
  intro moves
  have split : moves =
      ([] ++ [(id, .call (.spawn callback))]) ++ [(other, .call (.spawn replacing))] := rfl
  have first := machine?_start (φ := φ) (List.getElem?_eq_getElem inside)
  have second := machine?_start (φ := φ) (List.getElem?_eq_getElem alsoInside)
  obtain ⟨later, moved, bridge⟩ :=
    bridge_step_other differ second (.call (.spawn callback))
  have keeps : (reached configs []).filings id (.call (.spawn callback)) =
      [.keepProcedure 0 callback] := by
    rw [filings, show (reached configs [] : Realm φ).machine? id = _ from first]
    rfl
  have replaces : (reached configs ([] ++ [(id, .call (.spawn callback))])).filings other
      (.call (.spawn replacing)) = [.keepProcedure 0 replacing] := by
    rw [filings, show (reached configs ([] ++ [(id, .call (.spawn callback))]) : Realm φ).machine?
      other = _ from moved]
    exact spawn_files bridge replacing
  have kept : (own configs id moves).find? 0 = some ⟨callback, id⟩ := by
    rw [split, own_concat_other configs _ differ.symm, own_concat_self, keeps]
    exact Table.find?_insert_self _ _ _
  have shared : (reached configs moves).procedures.find? 0 = some ⟨replacing, other⟩ := by
    rw [split, reached_procedures, replaces]
    exact Table.find?_insert_self _ _ _
  obtain ⟨machine, present⟩ := Option.isSome_iff_exists.mp (machine?_of_own kept)
  exact ⟨kept, throwing_kept present shared arguments thrown⟩

/-- The same after the emulator has created both threads. -/
example :
    ((reached [{}, {}] [(0, .call (.spawn 10)), (0, .answer (NativeTable.replies {})),
        (1, .call (.spawn 11)), (1, .answer (NativeTable.replies {}))]).steps
        (throwing 0 0 [] (.text "oops"))).2 =
      [.entered ⟨11, []⟩, .asked 1 (.console (.print (Console.errorLine "oops")))] :=
  rfl

end Realm

end EmuScript.Engine
