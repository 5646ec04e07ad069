import EmuScript.Proofs.Engine.Exchange
import EmuScript.Proofs.Hook.Retention

/-!
# Failures of memory calls

A memory call that fails is reported under the primitive that it asks for, whether the native
call throws or the adapter refuses to make one. There is one exception: a block of ROM that is
too large for the native table is refused under the name that goes with main memory.
-/

set_option autoImplicit false

namespace EmuScript.Engine

open Program

variable {φ σ : Type}

/-- The native table as an environment; it does not act on what the library tells. -/
def tableEnvironment (φ : Type) : NativeEnvironment φ (NativeTable φ) where
  answer := NativeTable.serve
  note _ table := table

namespace Adapter

/-- A block of ROM is read whose size does not fit a word. -/
def OversizedRomBlock (call : MemoryCall) : Prop :=
  ∃ address size, call = .readBlock .rom address size ∧ UInt32.size ≤ size.toNat

theorem wordSize?_eq_none {size : UInt64} : wordSize? size = none ↔ UInt32.size ≤ size.toNat := by
  simp [wordSize?]

theorem not_oversizedRomBlock {call : MemoryCall} {native : NativeMemoryCall}
    (carried : nativeMemory? call = some native) : ¬ OversizedRomBlock call := by
  rintro ⟨address, size, rfl, large⟩
  rw [nativeMemory?, wordSize?_eq_none.mpr large] at carried
  cases carried

/-- A host call that fails by its native call is reported under its own primitive. -/
theorem Exchange.call_of_failed {call : HostCall (Closure φ)} {adapter : Adapter φ}
    {native : NativeCall φ} (exchange : Exchange call adapter native)
    (carried : native? adapter.ticketsIssued call = some native) {reply : native.Reply}
    {error : HostError} (failed : exchange.result reply = .error error) :
    error.call = call.primitive := by
  rw [← native?_primitive carried]
  cases reply with
  | ok value =>
      obtain ⟨answer, succeeded⟩ := exchange.answered value
      cases succeeded.symm.trans failed
  | error thrown =>
      cases (exchange.failed thrown).symm.trans failed
      rfl

theorem serveMemory_refused {call : MemoryCall} (missing : nativeMemory? call = none)
    (adapter : Adapter φ) :
    ∃ error, serve (.memory call) adapter = .done (.error error, adapter) ∧
      (error.call = call.primitive ↔ ¬ OversizedRomBlock call) := by
  cases call with
  | readInt | readFloat | writeFloat | readString => cases missing
  | writeInt space | writeBlock space | writeString space =>
      cases space with
      | main => cases missing
      | rom => exact ⟨_, rfl, iff_of_true rfl (by rintro ⟨_, _, ⟨⟩, -⟩)⟩
  | readBlock space address size =>
      have large : wordSize? size = none := Option.map_eq_none_iff.mp missing
      refine ⟨⟨"getRDRAMBlock", sizeMessage⟩, ?_, ?_⟩
      · simp only [serve, serveMemory, large]
        rfl
      · -- The name does not follow the space here.
        cases space with
        | main => exact iff_of_true rfl (by rintro ⟨_, _, ⟨⟩, -⟩)
        | rom =>
            have differ : "getRDRAMBlock" ≠ "getROMBlock" := by decide
            exact iff_of_false differ fun fine => fine ⟨_, _, rfl, wordSize?_eq_none.mp large⟩

/-- A memory call for which there is no native call is refused and asks for nothing. Any other
makes one native call, of the primitive that it asks for, and fails, under the name of that
primitive, just if the native call throws. So an error names the primitive that was asked for
unless a block of ROM was to be read whose size does not fit a word. -/
theorem memory_failures_named_iff (native : NativeEnvironment φ σ) (call : MemoryCall)
    (adapter : Adapter φ) (state : σ) :
    let program := serve (.memory call) adapter
    let ended := program.run native state
    (nativeMemory? call = none →
      program.questions native state = [] ∧ ∃ error, ended = ((.error error, adapter), state)) ∧
    (∀ asked, nativeMemory? call = some asked →
      program.questions native state = [.memory asked] ∧ asked.primitive = call.primitive ∧
      (∀ thrown, (native.answer (.memory asked) state).1 = .error thrown →
        ended.1.1 = .error ⟨call.primitive, thrown.message⟩) ∧
      ∀ value, (native.answer (.memory asked) state).1 = .ok value →
        ∃ answer, ended.1.1 = .ok answer) ∧
    ∀ error, ended.1.1 = .error error →
      (error.call = call.primitive ↔ ¬ OversizedRomBlock call) := by
  intro program ended
  cases found : nativeMemory? call with
  | none =>
      obtain ⟨error, refused, named_iff⟩ := serveMemory_refused found adapter
      have stopped : ended = ((.error error, adapter), state) :=
        congrArg (Program.run native · state) refused
      refine ⟨fun _ => ⟨?_, error, stopped⟩, by simp, ?_⟩
      · exact congrArg (Program.questions native · state) refused
      · intro other failed
        rw [stopped] at failed
        cases failed
        exact named_iff
  | some asked =>
      obtain ⟨exchange, asks⟩ := serveMemory_carried adapter found
      have same : asked.primitive = call.primitive := nativeMemory?_primitive found
      have result : ended.1.1 = exchange.result (native.answer (.memory asked) state).1 :=
        congrArg (fun program => (Program.run native program state).1.1) asks
      refine ⟨by simp, ?_, ?_⟩
      · rintro other ⟨⟩
        refine ⟨congrArg (Program.questions native · state) asks, same, ?_, ?_⟩
        · intro thrown threw
          rw [result, threw, exchange.failed, ← same]
          rfl
        · intro value answered
          rw [result, answered]
          exact exchange.answered value
      · intro error failed
        rw [result] at failed
        have named : error.call = call.primitive :=
          exchange.call_of_failed (congrArg (Option.map _) found) failed
        exact iff_of_true named (not_oversizedRomBlock found)

/-- The first size that does not fit a word, at an address of ROM: the error names the
primitive of main memory, and no primitive was called. -/
theorem rom_block_misnamed :
    let call : MemoryCall := .readBlock .rom 0 4294967296
    let program : NativeProgram Nat _ := serve (.memory call) {}
    OversizedRomBlock call ∧ call.primitive = "getROMBlock" ∧
    program.questions (tableEnvironment Nat) {} = [] ∧
    (program.run (tableEnvironment Nat) {}).1.1 =
      .error ⟨"getRDRAMBlock", "size exceeds 32 bits"⟩ := by
  refine ⟨⟨0, 4294967296, rfl, ?_⟩, ?_, ?_, ?_⟩
  · decide
  · decide
  · rfl
  · rfl

end Adapter

end EmuScript.Engine
