import EmuScript.Proofs.Engine.Concerns
import EmuScript.Proofs.Numeric.Integers
import EmuScript.Proofs.Thread.Lifecycle

/-!
# Threads, procedures and retained functions

The threads of a session are on record in three tables: the threads themselves, the
procedures under their keys, and the functions that the adapter retains under their
handles. The tables change at different moments of a method. Here they are related for
whole methods, whatever the emulator answers, as long as it gives a new thread a handle
that no living thread has.
-/

set_option autoImplicit false

namespace EmuScript.Engine

open Numeric

variable {φ α β : Type}

/-! ## Living threads -/

/-- A call by which the emulator has created or ended a thread. -/
inductive ThreadDeed where
  | created (number : Double)
  | terminated (number : Double)
  deriving DecidableEq

def NativeCall.deed? : (call : NativeCall φ) → NativeCall.Reply call → Option ThreadDeed
  | thread (.create _), .ok number => some (.created number)
  | thread (.terminate number), .ok () => some (.terminated number)
  | _, _ => none

theorem NativeCall.deed?_eq_none {call : NativeCall φ} (other : call.concern ≠ .thread)
    (reply : NativeCall.Reply call) : call.deed? reply = none := by
  cases call with
  | thread call => cases call <;> first | rfl | exact absurd rfl other
  | _ => rfl

/-- The numbers of the threads that the emulator has, after a call. -/
def livingAfter (living : List Double) : Option ThreadDeed → List Double
  | none => living
  | some (.created number) => number :: living
  | some (.terminated number) => living.filter (· ≠ number)

/-- A new thread gets a whole number of at most 53 bits that no living thread has. -/
def Lawful (living : List Double) (deed? : Option ThreadDeed) : Prop :=
  ∀ number, deed? = some (.created number) →
    number ∉ living ∧ ∃ handle, handle < Nat.pow 2 53 ∧ number = Binary.ofInt (handle : Nat)

theorem lawful_none (living : List Double) : Lawful living none := by
  rintro number ⟨⟩

theorem lawful_terminated (living : List Double) (number : Double) :
    Lawful living (some (.terminated number)) := by
  rintro other ⟨⟩

/-- All new threads get such numbers, one after another. -/
def Orderly (living : List Double) : List (Option ThreadDeed) → Prop
  | [] => True
  | deed? :: rest => Lawful living deed? ∧ Orderly (livingAfter living deed?) rest

theorem orderly_append {living : List Double} {past later : List (Option ThreadDeed)} :
    Orderly living (past ++ later) ↔
      Orderly living past ∧ Orderly (past.foldl livingAfter living) later := by
  induction past generalizing living with
  | nil => exact (true_and _).symm.to_iff
  | cons deed? rest ih => exact (and_congr_right' ih).trans and_assoc.symm

/-! ## Programs -/

/-- A program of a session, from given procedures and living threads on, ends well with
those that there are then. -/
def Keeps (owner : Nat) (ends : Table UInt32 (Procedure φ) → List Double → α → Prop) :
    Table UInt32 (Procedure φ) → List Double → NativeProgram φ α → Prop
  | procedures, living, .done value => ends procedures living value
  | procedures, living, .tell effect rest =>
      Keeps owner ends (effect.file owner procedures) living rest
  | procedures, living, .ask call next =>
      ∀ reply, Lawful living (call.deed? reply) →
        Keeps owner ends procedures (livingAfter living (call.deed? reply)) (next reply)

section Keeps

variable {owner : Nat} {ends wider : Table UInt32 (Procedure φ) → List Double → α → Prop}
  {procedures : Table UInt32 (Procedure φ)} {living : List Double} {program : NativeProgram φ α}

theorem Keeps.weaken (keeps : Keeps owner ends procedures living program)
    (allowed : ∀ procedures living value, ends procedures living value →
      wider procedures living value) : Keeps owner wider procedures living program := by
  induction program generalizing procedures living with
  | done value => exact allowed _ _ value keeps
  | tell effect rest ih => exact ih keeps
  | ask call next ih => exact fun reply lawful => ih reply (keeps reply lawful)

theorem keeps_bind {between : Table UInt32 (Procedure φ) → List Double → β → Prop}
    {program : NativeProgram φ β} {next : β → NativeProgram φ α}
    (first : Keeps owner between procedures living program)
    (rest : ∀ procedures living value, between procedures living value →
      Keeps owner ends procedures living (next value)) :
    Keeps owner ends procedures living (program >>= next) := by
  induction program generalizing procedures living with
  | done value => exact rest _ _ value first
  | tell effect later ih => exact ih first
  | ask call later ih => exact fun reply lawful => ih reply (first reply lawful)

/-- What works beside the threads keeps the procedures and the living threads. -/
theorem keeps_of_beside {ends' : α → Prop} (spares : program.Meets (Bridge.beside ends'))
    (ended : ∀ value, ends' value → ends procedures living value) :
    Keeps owner ends procedures living program := by
  induction program with
  | done value => exact ended value spares
  | tell effect rest ih =>
      have same : effect.file owner procedures = procedures := Effect.file_of_keyless spares.1
      simp only [Keeps, same]
      exact ih spares.2
  | ask call next ih =>
      intro reply _
      rw [NativeCall.deed?_eq_none spares.1]
      exact ih reply (spares.2 reply)

end Keeps

/-! ## Rosters -/

/-- The tables of a session that have to do with threads. -/
structure Roster (φ : Type) where
  procedures : Table UInt32 (Procedure φ)
  threads : Table UInt32 (Thread (Closure φ))
  retained : Table ThreadHandle (Closure φ)
  nextThread : UInt32

def Bridge.roster (bridge : Bridge φ) (procedures : Table UInt32 (Procedure φ)) : Roster φ :=
  ⟨procedures, bridge.threads, bridge.adapter.threads, bridge.nextThread⟩

theorem Bridge.KeepsThreads.roster {before after : Bridge φ} (kept : before.KeepsThreads after)
    (procedures : Table UInt32 (Procedure φ)) :
    after.roster procedures = before.roster procedures := by
  rw [Bridge.roster, Bridge.roster, kept.threads, kept.nextThread, kept.retained]

namespace Roster

/-- The thread under a key is not stopped, and the emulator knows it by a handle. -/
def Lives (roster : Roster φ) (key : UInt32) (handle : ThreadHandle) : Prop :=
  ∃ thread, roster.threads.find? key = some thread ∧ thread.state ≠ .stopped ∧
    thread.handle = some handle

/-- The tables agree, after so many threads were asked for. -/
structure Consistent (roster : Roster φ) (asked : Nat) (living : List Double) : Prop where
  counted : roster.nextThread = UInt32.ofNat asked
  listed : ∀ key thread, roster.threads.find? key = some thread →
    thread.state ≠ .ready ∧ thread.handle.isSome ∧ key.toNat < asked
  filed : ∀ key, (roster.procedures.find? key).isSome ↔ ∃ handle, roster.Lives key handle
  retained : ∀ handle closure, roster.retained.find? handle = some closure ↔
    ∃ key, roster.Lives key handle ∧ closure = .procedure key
  living : ∀ key handle, roster.Lives key handle →
    Adapter.handleNumber handle ∈ living ∧
      handle = ⟨Binary.toUInt64 (Adapter.handleNumber handle)⟩

/-- The tables agree: every thread that is listed was started, and those that are not stopped
have their procedures filed and their functions retained. -/
structure Agrees (roster : Roster φ) : Prop where
  started : ∀ key thread, roster.threads.find? key = some thread →
    thread.state ≠ .ready ∧ thread.handle.isSome
  filed : ∀ key, (roster.procedures.find? key).isSome ↔
    ∃ thread, roster.threads.find? key = some thread ∧ thread.state ≠ .stopped
  retained : ∀ handle closure, roster.retained.find? handle = some closure ↔
    ∃ key thread, roster.threads.find? key = some thread ∧ thread.state ≠ .stopped ∧
      thread.handle = some handle ∧ closure = .procedure key

theorem Consistent.agrees {roster : Roster φ} {asked : Nat} {living : List Double}
    (consistent : roster.Consistent asked living) : roster.Agrees where
  started key thread found :=
    let ⟨started, handled, _⟩ := consistent.listed key thread found
    ⟨started, handled⟩
  filed key := by
    rw [consistent.filed]
    constructor
    · rintro ⟨handle, thread, found, alive, -⟩
      exact ⟨thread, found, alive⟩
    · rintro ⟨thread, found, alive⟩
      obtain ⟨-, handled, -⟩ := consistent.listed key thread found
      obtain ⟨handle, known⟩ := Option.isSome_iff_exists.mp handled
      exact ⟨handle, thread, found, alive, known⟩
  retained handle closure := by
    rw [consistent.retained]
    constructor
    · rintro ⟨key, ⟨thread, found, alive, known⟩, same⟩
      exact ⟨key, thread, found, alive, known, same⟩
    · rintro ⟨key, thread, found, alive, known, same⟩
      exact ⟨key, ⟨thread, found, alive, known⟩, same⟩

/-- The tables of two rosters give the same answers. -/
structure Same (before after : Roster φ) : Prop where
  procedures : ∀ key, after.procedures.find? key = before.procedures.find? key
  threads : ∀ key, after.threads.find? key = before.threads.find? key
  retained : ∀ handle, after.retained.find? handle = before.retained.find? handle

variable {roster after : Roster φ} {asked : Nat} {living : List Double}

theorem Same.lives (same : roster.Same after) {key : UInt32} {handle : ThreadHandle} :
    after.Lives key handle ↔ roster.Lives key handle := by
  constructor
  · rintro ⟨thread, found, rest⟩
    exact ⟨thread, (same.threads key).symm.trans found, rest⟩
  · rintro ⟨thread, found, rest⟩
    exact ⟨thread, (same.threads key).trans found, rest⟩

namespace Consistent

/-- Tables that give the same answers agree as well. -/
theorem congr (consistent : roster.Consistent asked living) (same : roster.Same after)
    {more : Nat} (grown : asked ≤ more) (counted : after.nextThread = UInt32.ofNat more) :
    after.Consistent more living where
  counted := counted
  listed := by
    intro key thread found
    obtain ⟨started, handled, early⟩ := consistent.listed key thread
      ((same.threads key).symm.trans found)
    exact ⟨started, handled, Nat.lt_of_lt_of_le early grown⟩
  filed := by
    intro key
    simp only [same.procedures, same.lives]
    exact consistent.filed key
  retained := by
    intro handle closure
    simp only [same.retained, same.lives]
    exact consistent.retained handle closure
  living := by
    intro key handle lives
    exact consistent.living key handle (same.lives.mp lives)

/-- A handle belongs to one thread. -/
theorem key_unique (consistent : roster.Consistent asked living) {first second : UInt32}
    {handle : ThreadHandle} (one : roster.Lives first handle) (other : roster.Lives second handle) :
    first = second := by
  have under₁ := (consistent.retained handle _).mpr ⟨first, one, rfl⟩
  have under₂ := (consistent.retained handle _).mpr ⟨second, other, rfl⟩
  rw [under₁] at under₂
  cases under₂
  rfl

/-- A key that was not given yet is in no table. -/
theorem fresh (consistent : roster.Consistent asked living) (few : asked < UInt32.size) :
    roster.threads.find? roster.nextThread = none ∧
      roster.procedures.find? roster.nextThread = none := by
  have unlisted : roster.threads.find? roster.nextThread = none := by
    cases found : roster.threads.find? roster.nextThread with
    | none => rfl
    | some thread =>
        have early := (consistent.listed _ _ found).2.2
        rw [consistent.counted, UInt32.toNat_ofNat_of_lt' few] at early
        exact absurd early (Nat.lt_irrefl _)
  refine ⟨unlisted, Option.not_isSome_iff_eq_none.mp fun filed => ?_⟩
  obtain ⟨handle, thread, found, -⟩ := (consistent.filed _).mp filed
  rw [unlisted] at found
  cases found

end Consistent

/-- A roster with another thread under a key. -/
def enroll (roster : Roster φ) (key : UInt32) (thread : Thread (Closure φ)) : Roster φ :=
  { roster with threads := roster.threads.insert key thread }

theorem lives_enroll_self {key : UInt32} {thread : Thread (Closure φ)} {handle : ThreadHandle} :
    (roster.enroll key thread).Lives key handle ↔
      thread.state ≠ .stopped ∧ thread.handle = some handle := by
  simp [Lives, enroll]

theorem lives_enroll_of_ne {key other : UInt32} (differ : other ≠ key)
    {thread : Thread (Closure φ)} {handle : ThreadHandle} :
    (roster.enroll key thread).Lives other handle ↔ roster.Lives other handle := by
  simp [Lives, enroll, Table.find?_insert_of_ne _ _ differ]

theorem same_enroll {key : UInt32} {thread : Thread (Closure φ)}
    (found : roster.threads.find? key = some thread) : roster.Same (roster.enroll key thread) where
  procedures _ := rfl
  retained _ := rfl
  threads other := by
    by_cases same : other = key
    · rw [same, found]
      exact Table.find?_insert_self _ _ _
    · exact Table.find?_insert_of_ne _ _ same

namespace Consistent

/-- A living thread is suspended or resumed. -/
theorem changed (consistent : roster.Consistent asked living) {key : UInt32}
    {thread : Thread (Closure φ)} (found : roster.threads.find? key = some thread)
    (alive : thread.state ≠ .stopped) {state : ThreadState} (started : state ≠ .ready)
    (goes : state ≠ .stopped) :
    (roster.enroll key { thread with state }).Consistent asked living := by
  have lives (other : UInt32) (handle : ThreadHandle) :
      (roster.enroll key { thread with state }).Lives other handle ↔
        roster.Lives other handle := by
    by_cases same : other = key
    · subst same
      rw [lives_enroll_self]
      simp [Lives, found, alive, goes]
    · exact lives_enroll_of_ne same
  obtain ⟨-, handled, early⟩ := consistent.listed key thread found
  refine ⟨consistent.counted, fun other listed member => ?_, ?_, ?_, ?_⟩
  · by_cases same : other = key
    · subst same
      cases (Table.find?_insert_self _ _ _).symm.trans member
      exact ⟨started, handled, early⟩
    · exact consistent.listed other listed ((Table.find?_insert_of_ne _ _ same).symm.trans member)
  · simp only [lives]
    exact consistent.filed
  · simp only [lives]
    exact consistent.retained
  · simp only [lives]
    exact consistent.living

/-- The emulator has created a thread for the next key. -/
theorem created (consistent : roster.Consistent asked living) (few : asked < UInt32.size)
    {number : Double} (lawful : Lawful living (some (.created number))) (procedure : Procedure φ) :
    let key := roster.nextThread
    let handle : ThreadHandle := ⟨Binary.toUInt64 number⟩
    Consistent
      ⟨roster.procedures.insert key procedure,
        roster.threads.insert key ⟨.procedure key, .running, some handle⟩,
        roster.retained.insert handle (.procedure key), key + 1⟩
      (asked + 1) (number :: living) := by
  intro key handle
  have unlisted : roster.threads.find? key = none := (consistent.fresh few).1
  have counted : key.toNat = asked := by
    simp only [key, consistent.counted, UInt32.toNat_ofNat_of_lt' few]
  obtain ⟨unused, number_eq⟩ := lawful number rfl
  have own : Adapter.handleNumber handle = number := by
    obtain ⟨whole, small, rfl⟩ := number_eq
    have wide : whole < UInt64.size := Nat.lt_trans small (by decide)
    have value : handle.value = UInt64.ofNat whole := Binary.toUInt64_ofInt small
    rw [Adapter.handleNumber, value, UInt64.toNat_ofNat_of_lt' wide]
  have lives (other : UInt32) (handle' : ThreadHandle) :
      (roster.enroll key ⟨.procedure key, .running, some handle⟩).Lives other handle' ↔
        (other = key ∧ handle' = handle) ∨ roster.Lives other handle' := by
    by_cases same : other = key
    · subst same
      rw [lives_enroll_self]
      simp [Lives, unlisted, eq_comm]
    · rw [lives_enroll_of_ne same]
      simp [same]
  -- No thread that lives has the new handle: its number would be a living one.
  have new (other : UInt32) : ¬ roster.Lives other handle := by
    intro known
    exact unused (own ▸ (consistent.living other handle known).1)
  refine ⟨?_, fun other listed member => ?_, fun other => ?_, fun handle' closure => ?_,
    fun other handle' known => ?_⟩
  · rw [UInt32.ofNat_add, ← consistent.counted]
    rfl
  · by_cases same : other = key
    · subst same
      cases (Table.find?_insert_self _ _ _).symm.trans member
      exact ⟨by simp, rfl, counted ▸ Nat.lt_succ_self asked⟩
    · obtain ⟨started, handled, early⟩ := consistent.listed other listed
        ((Table.find?_insert_of_ne _ _ same).symm.trans member)
      exact ⟨started, handled, Nat.lt_succ_of_lt early⟩
  · refine Iff.trans ?_ (exists_congr fun handle' => (lives other handle').symm)
    by_cases same : other = key
    · subst same
      simp
    · simp [Table.find?_insert_of_ne _ _ same, consistent.filed, same]
  · refine Iff.trans ?_ (exists_congr fun other => and_congr_left' (lives other handle').symm)
    by_cases same : handle' = handle
    · subst same
      simp [new, eq_comm]
    · simp [Table.find?_insert_of_ne _ _ same, consistent.retained, same]
  · rcases (lives other handle').mp known with ⟨-, rfl⟩ | before
    · rw [own]
      exact ⟨List.mem_cons_self, rfl⟩
    · obtain ⟨member, value⟩ := consistent.living other handle' before
      exact ⟨List.mem_cons_of_mem _ member, value⟩

/-- The emulator has refused to create a thread, whose procedure was filed already. -/
theorem same_of_refused (consistent : roster.Consistent asked living) (few : asked < UInt32.size)
    (procedure : Procedure φ) (next : UInt32) :
    roster.Same ⟨(roster.procedures.insert roster.nextThread procedure).erase roster.nextThread,
      roster.threads, roster.retained, next⟩ where
  threads _ := rfl
  retained _ := rfl
  procedures key := by
    by_cases same : key = roster.nextThread
    · rw [same, (consistent.fresh few).2]
      exact Table.find?_erase_self _ _
    · exact (Table.find?_erase_of_ne _ same).trans (Table.find?_insert_of_ne _ _ same)

/-- A thread was terminated, and its procedure and its retained function are dropped. -/
theorem terminated (consistent : roster.Consistent asked living) {key : UInt32}
    {thread : Thread (Closure φ)} (found : roster.threads.find? key = some thread)
    (alive : thread.state ≠ .stopped) {handle : ThreadHandle}
    (handled : thread.handle = some handle) :
    Consistent
      ⟨roster.procedures.erase key, roster.threads.insert key { thread with state := .stopped },
        roster.retained.erase handle, roster.nextThread⟩
      asked (living.filter (· ≠ Adapter.handleNumber handle)) := by
  have own : roster.Lives key handle := ⟨thread, found, alive, handled⟩
  have lives (other : UInt32) (handle' : ThreadHandle) :
      (roster.enroll key { thread with state := .stopped }).Lives other handle' ↔
        other ≠ key ∧ roster.Lives other handle' := by
    by_cases same : other = key
    · subst same
      rw [lives_enroll_self]
      simp
    · rw [lives_enroll_of_ne same]
      simp [same]
  refine ⟨consistent.counted, fun other listed member => ?_, fun other => ?_,
    fun handle' closure => ?_, fun other handle' known => ?_⟩
  · by_cases same : other = key
    · subst same
      cases (Table.find?_insert_self _ _ _).symm.trans member
      obtain ⟨-, handled, early⟩ := consistent.listed other thread found
      exact ⟨by simp, handled, early⟩
    · exact consistent.listed other listed ((Table.find?_insert_of_ne _ _ same).symm.trans member)
  · refine Iff.trans ?_ (exists_congr fun handle' => (lives other handle').symm)
    by_cases same : other = key
    · subst same
      simp
    · simp [Table.find?_erase_of_ne _ same, consistent.filed, same]
  · refine Iff.trans ?_ (exists_congr fun other => and_congr_left' (lives other handle').symm)
    by_cases same : handle' = handle
    · subst same
      simp only [Table.find?_erase_self, reduceCtorEq, false_iff, not_exists, not_and]
      rintro other ⟨differ, known⟩ -
      exact differ (consistent.key_unique known own)
    · rw [Table.find?_erase_of_ne _ same, consistent.retained]
      refine exists_congr fun other => and_congr_left' ⟨fun known => ⟨?_, known⟩, And.right⟩
      rintro rfl
      obtain ⟨listed, member, -, other⟩ := known
      rw [found] at member
      cases member
      rw [handled] at other
      exact same (Option.some.inj other).symm
  · obtain ⟨differ, before⟩ := (lives other handle').mp known
    obtain ⟨member, value⟩ := consistent.living other handle' before
    refine ⟨List.mem_filter.mpr ⟨member, decide_eq_true fun equal => differ ?_⟩, value⟩
    -- Handles with one number are one handle, which belongs to one thread.
    have same : handle' = handle := by
      rw [value, (consistent.living key handle own).2, equal]
    exact consistent.key_unique (same ▸ before) own

end Consistent

end Roster

/-! ## Methods -/

/-- What a spawn gives back: the next key, under which a thread runs now, or an error, and
then the tables are what they were. -/
def Roster.Spawned (before after : Roster φ) (result : Except Failure Answer) : Prop :=
  (result = .ok (.word before.nextThread) ∧ ∃ thread,
    after.threads.find? before.nextThread = some thread ∧ thread.state = .running) ∨
  ∃ error, result = .error (.script error) ∧ before.Same after

namespace Method

variable {owner asked : Nat} {bridge : Bridge φ} {procedures : Table UInt32 (Procedure φ)}
  {living : List Double}

theorem spawn_keeps (consistent : (bridge.roster procedures).Consistent asked living)
    (few : asked < UInt32.size) (callback : φ) :
    Keeps owner (fun procedures' living ended =>
      (ended.2.roster procedures').Consistent (asked + 1) living ∧
        (bridge.roster procedures).Spawned (ended.2.roster procedures') ended.1)
      procedures living (runSpawn callback bridge) := by
  intro reply lawful
  cases reply with
  | error thrown =>
      have same := consistent.same_of_refused few ⟨callback, owner⟩ (bridge.nextThread + 1)
      have counted : bridge.nextThread + 1 = UInt32.ofNat (asked + 1) := by
        rw [UInt32.ofNat_add, ← consistent.counted]
        rfl
      exact ⟨consistent.congr same (Nat.le_succ asked) counted, .inr ⟨_, rfl, same⟩⟩
  | ok number =>
      exact ⟨consistent.created few lawful ⟨callback, owner⟩,
        .inl ⟨rfl, _, Table.find?_insert_self _ _ _, rfl⟩⟩

/-- What an operation on a thread leaves when it has failed: the thread is put back. -/
theorem consistent_of_failed (consistent : (bridge.roster procedures).Consistent asked living)
    {key : UInt32} {thread : Thread (Closure φ)}
    (found : bridge.threads.find? key = some thread) :
    (Bridge.roster { bridge with threads := bridge.threads.insert key thread }
      procedures).Consistent asked living :=
  consistent.congr (Roster.same_enroll found) (Nat.le_refl asked) consistent.counted

theorem forbidden_keeps (consistent : (bridge.roster procedures).Consistent asked living)
    (operation : Thread.Operation) {key : UInt32} {thread : Thread (Closure φ)}
    (found : bridge.threads.find? key = some thread)
    (wrong : thread.state ∉ operation.allowed) :
    Keeps owner (fun procedures' living ended =>
      (ended.2.roster procedures').Consistent asked living)
      procedures living (Bridge.onThread key operation.update bridge) := by
  simp only [Bridge.onThread, found, Thread.forbidden_on operation thread wrong]
  exact consistent_of_failed consistent found

theorem suspend_keeps (consistent : (bridge.roster procedures).Consistent asked living)
    (key : UInt32) :
    Keeps owner (fun procedures' living ended =>
      (ended.2.roster procedures').Consistent asked living)
      procedures living (Bridge.onThread key Thread.suspend bridge) := by
  cases found : bridge.threads.find? key with
  | none =>
      simp only [Bridge.onThread, found]
      exact consistent
  | some thread =>
      by_cases right : thread.state ∈ Thread.Operation.suspend.allowed
      · have running : thread.state = .running := by simpa [Thread.Operation.allowed] using right
        obtain ⟨-, handled, -⟩ := consistent.listed key thread found
        obtain ⟨handle, stored⟩ := Option.isSome_iff_exists.mp handled
        simp only [Bridge.onThread, found, Thread.suspend_on thread handle running stored]
        intro reply _
        cases reply with
        | ok value => exact consistent.changed found (by simp [running]) (by decide) (by decide)
        | error thrown => exact consistent_of_failed consistent found
      · exact forbidden_keeps consistent .suspend found right

theorem resume_keeps (consistent : (bridge.roster procedures).Consistent asked living)
    (key : UInt32) :
    Keeps owner (fun procedures' living ended =>
      (ended.2.roster procedures').Consistent asked living)
      procedures living (Bridge.onThread key Thread.resume bridge) := by
  cases found : bridge.threads.find? key with
  | none =>
      simp only [Bridge.onThread, found]
      exact consistent
  | some thread =>
      by_cases right : thread.state ∈ Thread.Operation.resume.allowed
      · have suspended : thread.state = .suspended := by
          simpa [Thread.Operation.allowed] using right
        obtain ⟨-, handled, -⟩ := consistent.listed key thread found
        obtain ⟨handle, stored⟩ := Option.isSome_iff_exists.mp handled
        simp only [Bridge.onThread, found, Thread.resume_on thread handle suspended stored]
        intro reply _
        cases reply with
        | ok value => exact consistent.changed found (by simp [suspended]) (by decide) (by decide)
        | error thrown => exact consistent_of_failed consistent found
      · exact forbidden_keeps consistent .resume found right

/-- Only a thread that runs is stopped: every thread of a session was started. -/
theorem stop_keeps (consistent : (bridge.roster procedures).Consistent asked living)
    (key : UInt32) :
    Keeps owner (fun procedures' living ended =>
      (ended.2.roster procedures').Consistent asked living) procedures living
      (runStop key bridge) := by
  cases found : bridge.threads.find? key with
  | none =>
      simp only [runStop, Bridge.onThread, found]
      exact consistent
  | some thread =>
      obtain ⟨started, handled, -⟩ := consistent.listed key thread found
      by_cases right : thread.state ∈ Thread.Operation.stop.allowed
      · have running : thread.state = .running := by
          simpa [Thread.Operation.allowed, started] using right
        obtain ⟨handle, stored⟩ := Option.isSome_iff_exists.mp handled
        simp only [runStop, Bridge.onThread, found,
          Thread.stop_on_running thread handle running stored]
        intro reply _
        cases reply with
        | ok value => exact consistent.terminated found (by simp [running]) stored
        | error thrown => exact consistent_of_failed consistent found
      · have refused : (Thread.stop : Update (Closure φ) _ Unit).on thread = _ :=
          Thread.forbidden_on .stop thread right
        simp only [runStop, Bridge.onThread, found, refused]
        exact consistent_of_failed consistent found

/-- How many keys a method uses up. -/
def keysUsed : Method φ → Nat
  | .spawn _ => 1
  | _ => 0

/-- Every method leaves tables that agree, whether or not it succeeds. -/
theorem run_keeps (consistent : (bridge.roster procedures).Consistent asked living)
    (few : asked < UInt32.size) (method : Method φ) :
    Keeps owner (fun procedures' living ended =>
      (ended.2.roster procedures').Consistent (asked + method.keysUsed) living)
      procedures living (method.run bridge) := by
  cases known : method.onThreads with
  | false =>
      have none : method.keysUsed = 0 := by
        cases method <;> first | rfl | cases known
      refine keeps_of_beside (run_spares known bridge) fun ended kept => ?_
      rw [none, kept.roster]
      exact consistent
  | true =>
      cases method with
      | spawn callback => exact (spawn_keeps consistent few callback).weaken fun _ _ _ => And.left
      | suspendThread key =>
          exact keeps_bind (suspend_keeps consistent key) fun _ _ _ kept => kept
      | resumeThread key =>
          exact keeps_bind (resume_keeps consistent key) fun _ _ _ kept => kept
      | stopThread key => exact stop_keeps consistent key
      | _ => cases known

end Method

end EmuScript.Engine
