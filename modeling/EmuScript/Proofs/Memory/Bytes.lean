import EmuScript.Memory.Access
import EmuScript.Proofs.Host

/-!
# Values in byte memory

A value of a type takes as many bytes as the type is wide. Reading it looks at these
bytes only, and writing it changes no other. A byte host is an emulator that answers
typed accesses by such a memory; the model emulator is one.
-/

set_option autoImplicit false

namespace EmuScript

/-- An address among `width` addresses from `place` on, where the last address is
followed by the first. -/
def InRange (place : UInt32) (width : Nat) (address : UInt32) : Prop :=
  (address - place).toNat < width

theorem InRange.of_succ {place address : UInt32} {width : Nat}
    (inRange : InRange (place + 1) width address) : InRange place (width + 1) address := by
  have next : address - place = address - (place + 1) + 1 := by grind
  have bound : ((address - (place + 1)).toNat + 1) % UInt32.size ≤ _ := Nat.mod_le _ _
  unfold InRange at inRange ⊢
  rw [next, UInt32.toNat_add]
  exact Nat.lt_of_le_of_lt bound (Nat.succ_lt_succ inRange)

/-- How many bytes an encoding takes. -/
def Encoding.byteCount : Encoding → Nat
  | integer bits _ => bits.toNat / 8
  | floating true => 8
  | floating false => 4

theorem byteCount_encoding (type : PrimitiveType) :
    type.encoding.byteCount = type.byteWidth.toNat := by
  cases type <;> rfl

namespace Emulator

@[simp] theorem length_bigEndianBytes (count value : Nat) :
    (bigEndianBytes count value).length = count := by
  induction count with
  | zero => rfl
  | succ count ih => simp [bigEndianBytes, ih]

namespace Memory

variable {memory other : Memory}

theorem byteAt_write_outside {place address : UInt32} {bytes : Bytes}
    (outside : ¬ InRange place bytes.length address) :
    (memory.write place bytes).byteAt address = memory.byteAt address := by
  rw [byteAt_write, List.getElem?_eq_none (Nat.le_of_not_lt outside), Option.getD_none]

/-- What is read from a range depends on the bytes of the range only. -/
theorem read_congr {place : UInt32} {count : Nat}
    (same : ∀ address, InRange place count address → memory.byteAt address = other.byteAt address) :
    memory.read place count = other.read place count := by
  induction count generalizing place with
  | zero => rfl
  | succ count ih =>
      have first : memory.byteAt place = other.byteAt place := same place (by simp [InRange])
      have rest : memory.read (place + 1) count = other.read (place + 1) count :=
        ih fun address inRange => same address inRange.of_succ
      rw [read, read, first, rest]

/-- The value of a type that a memory holds at an address. -/
def value (memory : Memory) (type : PrimitiveType) (address : UInt32) : Value :=
  match type.encoding with
  | .integer bits signed => .int (Int64.ofInt (memory.readInt address bits signed))
  | .floating double => .float (memory.readFloat address double)

/-- The memory after a value was stored as one of a type. -/
def store (memory : Memory) (type : PrimitiveType) (address : UInt32) (value : Value) : Memory :=
  match type.encoding with
  | .integer bits _ => memory.writeInt address bits value.toInt64.toInt
  | .floating double => memory.writeFloat address value.toDouble double

/-- The value of a type depends on the bytes that it takes. -/
theorem value_congr {type : PrimitiveType} {place : UInt32}
    (same : ∀ address, InRange place type.byteWidth.toNat address →
      memory.byteAt address = other.byteAt address) :
    memory.value type place = other.value type place := by
  have bytes := read_congr same
  rw [← byteCount_encoding] at bytes
  cases coded : type.encoding with
  | integer bits signed =>
      simp only [coded, Encoding.byteCount] at bytes
      simp only [value, coded, readInt, bytes]
  | floating double =>
      cases double with
      | true =>
          simp only [coded, Encoding.byteCount] at bytes
          simp only [value, coded, readFloat, bytes, if_true]
      | false =>
          simp only [coded, Encoding.byteCount] at bytes
          simp only [value, coded, readFloat, bytes, Bool.false_eq_true, if_false]

theorem byteAt_store_outside {type : PrimitiveType} {place address : UInt32} {value : Value}
    (outside : ¬ InRange place type.byteWidth.toNat address) :
    (memory.store type place value).byteAt address = memory.byteAt address := by
  rw [← byteCount_encoding] at outside
  cases coded : type.encoding with
  | integer bits signed =>
      simp only [coded, Encoding.byteCount] at outside
      simp only [store, coded, writeInt]
      exact byteAt_write_outside (by rwa [length_bigEndianBytes])
  | floating double =>
      cases double with
      | true =>
          simp only [coded, Encoding.byteCount] at outside
          simp only [store, coded, writeFloat, if_true]
          exact byteAt_write_outside (by rwa [length_bigEndianBytes])
      | false =>
          simp only [coded, Encoding.byteCount] at outside
          simp only [store, coded, writeFloat, Bool.false_eq_true, if_false]
          exact byteAt_write_outside (by rwa [length_bigEndianBytes])

end Memory

end Emulator

/-! ## Byte hosts -/

/-- How an emulator is seen as a byte memory. -/
structure MemoryView (σ : Type) where
  memory : σ → MemorySpace → Emulator.Memory
  /-- Reads are answered by what the memory holds. -/
  plain : σ → Prop
  /-- The error by which a read is refused. -/
  refusal : σ → MemorySpace → UInt32 → Encoding → Option HostError

/-- The reply to a read, unless it is refused. -/
def replyUnless {α : Type} (refusal : Option HostError) (answer : α) : Except HostError α :=
  match refusal with
  | some error => .error error
  | none => .ok answer

/-- All that a write has changed is the memory of a space, which now is as given. -/
structure MemoryView.Stored {σ : Type} (view : MemoryView σ) (before after : σ)
    (space : MemorySpace) (written : Emulator.Memory) : Prop where
  plain : view.plain after
  here : ∀ address, (view.memory after space).byteAt address = written.byteAt address
  elsewhere : ∀ other, other ≠ space → ∀ address,
    (view.memory after other).byteAt address = (view.memory before other).byteAt address
  refusal : view.refusal after = view.refusal before

/-- An emulator that reads and writes numbers as byte memories do, most significant byte
first; it may refuse. -/
structure ByteHost {κ σ : Type} (environment : HostEnvironment κ σ) (view : MemoryView σ) :
    Prop where
  readInt : ∀ state, view.plain state → ∀ space address bits signed,
    (environment.answer (.memory (.readInt space address bits signed)) state).1 =
      replyUnless (view.refusal state space address (.integer bits signed))
        (Int64.ofInt ((view.memory state space).readInt address bits signed))
  readFloat : ∀ state, view.plain state → ∀ space address double,
    (environment.answer (.memory (.readFloat space address double)) state).1 =
      replyUnless (view.refusal state space address (.floating double))
        ((view.memory state space).readFloat address double)
  writeInt : ∀ state, view.plain state → ∀ space address bits (value : Int64),
    let (reply, after) := environment.answer (.memory (.writeInt space address bits value)) state
    reply = .ok () →
      view.Stored state after space ((view.memory state space).writeInt address bits value.toInt)
  writeFloat : ∀ state, view.plain state → ∀ space address value double,
    let (reply, after) := environment.answer (.memory (.writeFloat space address value double)) state
    reply = .ok () →
      view.Stored state after space ((view.memory state space).writeFloat address value double)

namespace ByteHost

variable {κ σ : Type} {environment : HostEnvironment κ σ} {view : MemoryView σ} {state : σ}

theorem perform_readValue (host : ByteHost environment view) (plain : view.plain state)
    (space : MemorySpace) (address : UInt32) (type : PrimitiveType) :
    (environment.perform (readValue space address type) state).1 =
      (replyUnless (view.refusal state space address type.encoding)
        ((view.memory state space).value type address)).mapError .host := by
  unfold readValue Emulator.Memory.value
  cases type.encoding with
  | integer bits signed =>
      have asked := environment.perform_map_ask (.memory (.readInt space address bits signed))
        (fun number : Int64 => Value.int number) state
      rw [host.readInt state plain] at asked
      refine (congrArg Prod.fst asked).trans ?_
      cases view.refusal state space address (.integer bits signed) <;> rfl
  | floating double =>
      have asked := environment.perform_map_ask (.memory (.readFloat space address double))
        (fun number : Numeric.Double => Value.float number) state
      rw [host.readFloat state plain] at asked
      refine (congrArg Prod.fst asked).trans ?_
      cases view.refusal state space address (.floating double) <;> rfl

/-- An action that asks one question succeeds only if the answer is not a failure. -/
theorem reply_of_perform_ask {call : HostCall κ} {answer : call.Answer}
    (done : (environment.perform (Action.ask call) state).1 = .ok answer) :
    (environment.answer call state).1 = .ok answer := by
  rw [HostEnvironment.perform_ask] at done
  cases reply : (environment.answer call state).1 with
  | error error => simp [reply] at done
  | ok value => simpa [reply] using done

theorem stored_of_writeValue (host : ByteHost environment view) (plain : view.plain state)
    {space : MemorySpace} {address : UInt32} {type : PrimitiveType} {value : Value}
    (written : (environment.perform (writeValue space address type value) state).1 = .ok ()) :
    view.Stored state (environment.perform (writeValue space address type value) state).2 space
      ((view.memory state space).store type address value) := by
  unfold writeValue at written ⊢
  unfold Emulator.Memory.store
  cases coded : type.encoding with
  | integer bits signed =>
      rw [coded] at written
      exact host.writeInt state plain space address bits value.toInt64 (reply_of_perform_ask written)
  | floating double =>
      rw [coded] at written
      exact host.writeFloat state plain space address value.toDouble double
        (reply_of_perform_ask written)

end ByteHost

/-! ## The model emulator -/

namespace Emulator

variable {κ : Type}

/-- The failures injected for a primitive are not counted by calls of another. -/
theorem countCall_other {primitive other : String} (differ : primitive ≠ other)
    (failures : List Failure) :
    (countCall other (countCall primitive failures).2).1 = (countCall other failures).1 := by
  induction failures with
  | nil => rfl
  | cons failure rest ih =>
      by_cases mine : failure.primitive = primitive
      · have notOther : failure.primitive ≠ other := by rwa [mine]
        cases passes : failure.passes <;> simp [countCall, mine, differ, passes]
      · by_cases others : failure.primitive = other
        · cases passes : failure.passes <;> simp [countCall, others, differ.symm, passes]
        · simp [countCall, mine, others, ih]

/-- The primitive by which numbers of an encoding are read. -/
def readPrimitive (space : MemorySpace) : Encoding → String
  | .integer _ _ => "get" ++ MemoryCall.spaceMark space ++ "Int"
  | .floating _ => "get" ++ MemoryCall.spaceMark space ++ "Float"

/-- The two memories of the model emulator, as long as no answers are queued. -/
def view : MemoryView (Emulator κ) where
  memory := Emulator.memory
  plain emulator := emulator.queuedInts = [] ∧ emulator.queuedFloats = []
  refusal emulator space _ encoding :=
    (countCall (readPrimitive space encoding) emulator.failures).1.map
      (HostError.mk (readPrimitive space encoding))

/-- The reply to a call that succeeds unless a failure is injected. -/
theorem serve_reply {call : HostCall κ} {emulator : Emulator κ} {answer : call.Answer}
    (performed : ∀ failures, (perform call { emulator with failures }).1 = .ok answer) :
    (serve call emulator).1 =
      replyUnless ((countCall call.primitive emulator.failures).1.map
        (HostError.mk call.primitive)) answer := by
  cases counted : countCall call.primitive emulator.failures with
  | mk injected failures =>
      cases injected with
      | some message => simp [serve, guarded, counted, replyUnless]
      | none => simp [serve, guarded, counted, replyUnless, performed]

/-- A call that succeeds was carried out, and its primitive was counted. -/
theorem perform_of_serve {call : HostCall κ} {emulator : Emulator κ} {answer : call.Answer}
    (done : (serve call emulator).1 = .ok answer) :
    let counted := { emulator with failures := (countCall call.primitive emulator.failures).2 }
    (perform call counted).1 = .ok answer ∧ (serve call emulator).2 = (perform call counted).2 := by
  cases counted : countCall call.primitive emulator.failures with
  | mk injected failures =>
      cases injected with
      | some message => simp [serve, guarded, counted] at done
      | none =>
          cases performed : perform call { emulator with failures } with
          | mk result after =>
              cases result with
              | error message =>
                  simp [serve, guarded, counted, performed] at done
              | ok value =>
                  simpa [serve, guarded, counted, performed] using done

theorem view_stored {emulator : Emulator κ} (plain : view.plain emulator) {primitive : String}
    (writes : ∀ space encoding, primitive ≠ readPrimitive space encoding) (space : MemorySpace)
    (written : Memory) :
    view.Stored emulator
      (setMemory space written
        { emulator with failures := (countCall primitive emulator.failures).2 }) space written := by
  have refusal (space : MemorySpace) (encoding : Encoding) :
      (countCall (readPrimitive space encoding) (countCall primitive emulator.failures).2).1 =
        (countCall (readPrimitive space encoding) emulator.failures).1 :=
    countCall_other (writes space encoding) emulator.failures
  cases space with
  | main =>
      refine ⟨plain, fun _ => rfl, ?_, by simp [view, setMemory, refusal]⟩
      intro other differs address
      cases other with
      | main => exact (differs rfl).elim
      | rom => rfl
  | rom =>
      refine ⟨plain, fun _ => rfl, ?_, by simp [view, setMemory, refusal]⟩
      intro other differs address
      cases other with
      | main => rfl
      | rom => exact (differs rfl).elim

/-- The primitives that write are not among those that read. -/
theorem set_ne_readPrimitive (space : MemorySpace) (suffix : String) (other : MemorySpace)
    (encoding : Encoding) :
    "set" ++ MemoryCall.spaceMark space ++ suffix ≠ readPrimitive other encoding := by
  intro same
  have first := congrArg (·.toList.head?) same
  cases encoding <;> simp [readPrimitive, String.toList_append] at first

theorem byteHost : ByteHost (environment κ) view where
  readInt := by
    rintro emulator ⟨ints, -⟩ space address bits signed
    refine serve_reply fun failures => ?_
    simp only [perform, performMemory, ints]
    cases space <;> rfl
  readFloat := by
    rintro emulator ⟨-, floats⟩ space address double
    refine serve_reply fun failures => ?_
    simp only [perform, performMemory, floats]
    cases space <;> rfl
  writeInt := by
    intro emulator plain space address bits value done
    obtain ⟨performed, after⟩ := perform_of_serve done
    cases space with
    | main =>
        have written := view_stored plain (set_ne_readPrimitive .main "Int") .main
          (emulator.main.writeInt address bits value.toInt)
        exact after ▸ written
    | rom => cases performed
  writeFloat := by
    intro emulator plain space address value double done
    obtain ⟨-, after⟩ := perform_of_serve done
    have written := view_stored plain (set_ne_readPrimitive space "Float") space
      ((emulator.memory space).writeFloat address value double)
    cases space with
    | main => exact after ▸ written
    | rom => exact after ▸ written

end Emulator

end EmuScript
