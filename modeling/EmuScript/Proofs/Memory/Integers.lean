import EmuScript.Proofs.Memory.Bytes

/-!
# Integers in byte memory

An integer that is written keeps what fits into the bytes of its type: reading it gives the
number of the type that is the same modulo a power of two. This is seen first on bytes,
then on numbers, last on hosts.
-/

set_option autoImplicit false

namespace EmuScript

namespace Emulator

/-! ## Bytes -/

theorem foldl_bigEndianBytes (count start value : Nat) :
    (bigEndianBytes count value).foldl (fun value byte => value * 256 + byte.toNat) start =
      start * Nat.pow 256 count + value % Nat.pow 256 count := by
  induction count generalizing start with
  | zero => simp [bigEndianBytes, Nat.mod_one]
  | succ count ih =>
      have power : Nat.pow 256 (count + 1) = Nat.pow 256 count * 256 := rfl
      have digit : (UInt8.ofNat (value / Nat.pow 256 count)).toNat =
          value / Nat.pow 256 count % 256 := UInt8.toNat_ofNat'
      rw [bigEndianBytes, List.foldl_cons, ih, power, Nat.mod_mul, digit]
      grind

theorem bigEndianValue_bytes (count value : Nat) :
    bigEndianValue (bigEndianBytes count value) = value % Nat.pow 256 count := by
  rw [bigEndianValue, foldl_bigEndianBytes, Nat.zero_mul, Nat.zero_add]

namespace Memory

variable {memory : Memory}

@[simp] theorem length_read (address : UInt32) (count : Nat) :
    (memory.read address count).length = count := by
  induction count generalizing address with
  | zero => rfl
  | succ count ih => simp [read, ih]

theorem getElem?_read {address : UInt32} {count index : Nat} (inside : index < count) :
    (memory.read address count)[index]? =
      some (memory.byteAt (address + UInt32.ofNat index)) := by
  induction count generalizing address index with
  | zero => omega
  | succ count ih =>
      cases index with
      | zero => simp [read]
      | succ index =>
          have later : address + 1 + UInt32.ofNat index = address + UInt32.ofNat (index + 1) := by
            rw [UInt32.ofNat_add, UInt32.add_assoc, UInt32.add_comm 1]
            rfl
          rw [read, List.getElem?_cons_succ, ih (Nat.lt_of_succ_lt_succ inside), later]

/-- What is stored is read back, also past the last address. -/
theorem read_write {address : UInt32} {bytes : Bytes} (fits : bytes.length ≤ UInt32.size) :
    (memory.write address bytes).read address bytes.length = bytes := by
  refine List.ext_getElem? fun index => ?_
  by_cases inside : index < bytes.length
  · have offset : (address + UInt32.ofNat index - address).toNat = index := by
      rw [UInt32.add_comm, UInt32.add_sub_cancel]
      exact UInt32.toNat_ofNat_of_lt (Nat.lt_of_lt_of_le inside fits)
    rw [getElem?_read inside, byteAt_write, offset, List.getElem?_eq_getElem inside,
      Option.getD_some]
  · rw [List.getElem?_eq_none (by rw [length_read]; omega), List.getElem?_eq_none (by omega)]

end Memory

/-! ## Numbers -/

/-- The number of `count` bytes that is the same as an integer modulo their power. -/
def reduced (count : Nat) (signed : Bool) (value : Int) : Int :=
  let rest := value % Nat.pow 256 count
  if signed && (Nat.pow 256 count : Int) ≤ 2 * rest then rest - Nat.pow 256 count else rest

theorem Memory.value_writeInt {memory : Memory} (address bits : UInt32) (value : Int) :
    (bigEndianValue ((memory.writeInt address bits value).read address (bits.toNat / 8)) : Int) =
      value % Nat.pow 256 (bits.toNat / 8) := by
  rw [writeInt]
  generalize counted : bits.toNat / 8 = count
  have few : count ≤ UInt32.size := by
    have bound := bits.toNat_lt_size
    omega
  have positive : (0 : Int) < Nat.pow 256 count := Int.natCast_pos.mpr (Nat.pow_pos (by decide))
  have least : 0 ≤ value % Nat.pow 256 count := Int.emod_nonneg value (Int.ne_of_gt positive)
  have below : value % Nat.pow 256 count < Nat.pow 256 count := Int.emod_lt_of_pos value positive
  generalize rest : (value % Nat.pow 256 count).toNat = number
  have stored : (memory.write address (bigEndianBytes count number)).read address
      (bigEndianBytes count number).length = bigEndianBytes count number :=
    read_write (by simpa using few)
  rw [length_bigEndianBytes] at stored
  rw [stored, bigEndianValue_bytes, Nat.mod_eq_of_lt (by omega), ← rest, Int.toNat_of_nonneg least]

theorem Memory.readInt_writeInt {memory : Memory} (address bits : UInt32) (signed : Bool)
    (value : Int) :
    (memory.writeInt address bits value).readInt address bits signed =
      reduced (bits.toNat / 8) signed value := by
  simp only [reduced, ← @value_writeInt memory address bits value, readInt]
  norm_cast

/-- With a sign it is the remainder of the least absolute value. -/
theorem reduced_signed (count : Nat) (value : Int) :
    reduced count true value = value.bmod (Nat.pow 256 count) := by
  simp only [reduced, Int.bmod, Bool.true_and, decide_eq_true_eq]
  split <;> split <;> omega

theorem reduced_unsigned (count : Nat) (value : Int) :
    reduced count false value = value % Nat.pow 256 count := rfl

theorem reduced_mod (count : Nat) (signed : Bool) (value : Int) :
    reduced count signed value % Nat.pow 256 count = value % Nat.pow 256 count := by
  simp only [reduced]
  split
  · rw [Int.sub_emod_right, Int.emod_emod]
  · rw [Int.emod_emod]

theorem reduced_bounds (count : Nat) (signed : Bool) (value : Int) :
    if signed then
      -Nat.pow 256 count ≤ 2 * reduced count signed value ∧
        2 * reduced count signed value < Nat.pow 256 count
    else 0 ≤ reduced count signed value ∧ reduced count signed value < Nat.pow 256 count := by
  have positive : (0 : Int) < Nat.pow 256 count := Int.natCast_pos.mpr (Nat.pow_pos (by decide))
  have least : 0 ≤ value % Nat.pow 256 count := Int.emod_nonneg value (Int.ne_of_gt positive)
  have below : value % Nat.pow 256 count < Nat.pow 256 count := Int.emod_lt_of_pos value positive
  cases signed with
  | false =>
      simp only [reduced, Bool.false_and, Bool.false_eq_true, if_false]
      exact ⟨least, below⟩
  | true =>
      by_cases high : (Nat.pow 256 count : Int) ≤ 2 * (value % Nat.pow 256 count)
      · simp only [reduced, high, decide_true, Bool.and_self, if_true]
        omega
      · simp only [reduced, high, decide_false, Bool.and_false, Bool.false_eq_true, if_false]
        simp only [if_true]
        omega

end Emulator

/-! ## Integer types -/

namespace PrimitiveType

/-- The least number of a type. -/
def least (type : PrimitiveType) : Int :=
  if type.isSigned then -Nat.pow 2 (type.bitWidth.toNat - 1) else 0

/-- How many numbers a type has. -/
def count (type : PrimitiveType) : Int :=
  Nat.pow 2 type.bitWidth.toNat

/-- The number is one of the type. -/
def Holds (type : PrimitiveType) (number : Int) : Prop :=
  type.least ≤ number ∧ number < type.least + type.count

instance (type : PrimitiveType) (number : Int) : Decidable (type.Holds number) :=
  inferInstanceAs (Decidable (_ ∧ _))

theorem Holds.unique {type : PrimitiveType} {first second : Int} (holds₁ : type.Holds first)
    (holds₂ : type.Holds second) (same : first % type.count = second % type.count) :
    first = second := by
  have zero : (first - second) % type.count = 0 := Int.emod_eq_emod_iff_emod_sub_eq_zero.mp same
  have small : (first - second).natAbs < type.count.natAbs := by
    unfold Holds at holds₁ holds₂
    omega
  exact Int.sub_eq_zero.mp
    (Int.eq_zero_of_dvd_of_natAbs_lt_natAbs (Int.dvd_of_emod_eq_zero zero) small)

/-- The number of the type that is the same as an integer modulo the count of its numbers. -/
def reduce (type : PrimitiveType) (value : Int) : Int :=
  Emulator.reduced (type.bitWidth.toNat / 8) type.isSigned value

theorem count_eq (type : PrimitiveType) : type.count = Nat.pow 256 (type.bitWidth.toNat / 8) := by
  cases type <;> rfl

theorem reduce_mod (type : PrimitiveType) (value : Int) :
    type.reduce value % type.count = value % type.count := by
  rw [count_eq]
  exact Emulator.reduced_mod _ _ _

theorem holds_reduce (type : PrimitiveType) (value : Int) : type.Holds (type.reduce value) := by
  have bounds := Emulator.reduced_bounds (type.bitWidth.toNat / 8) type.isSigned value
  rw [← count_eq] at bounds
  have half : type.least = if type.isSigned then -(type.count / 2) else 0 := by
    cases type <;> rfl
  have even : type.count % 2 = 0 := by
    cases type <;> rfl
  unfold Holds reduce
  rw [half]
  cases signed : type.isSigned with
  | false =>
      simp only [signed, Bool.false_eq_true, if_false] at bounds ⊢
      omega
  | true =>
      simp only [signed, if_true] at bounds ⊢
      omega

theorem reduce_of_holds {type : PrimitiveType} {number : Int} (holds : type.Holds number) :
    type.reduce number = number :=
  (type.holds_reduce number).unique holds (type.reduce_mod number)

/-- The number of an integer type is one of 64 bits. -/
theorem toInt_reduce {type : PrimitiveType} (integral : type.isFloat = false) (value : Int) :
    (Int64.ofInt (type.reduce value)).toInt = type.reduce value := by
  obtain ⟨above, below⟩ := type.holds_reduce value
  have low : -2 ^ 63 ≤ type.least := by
    cases type <;> decide
  have high : type.least + type.count ≤ 2 ^ 63 := by
    cases type <;> cases integral <;> decide
  exact Int64.toInt_ofInt_of_le (Int.le_trans low above) (Int.lt_of_lt_of_le below high)

theorem toNat_emod (number : Int64) {modulus : Int} (divides : modulus ∣ UInt64.size) :
    (number.toBitVec.toNat : Int) % modulus = number.toInt % modulus := by
  obtain ⟨factor, product⟩ := divides
  rw [← Int64.toInt_toBitVec, BitVec.toInt_eq_toNat_cond]
  split
  · rfl
  · rw [show ((2 ^ 64 : Nat) : Int) = modulus * factor from product, Int.sub_mul_emod_self_left]

theorem bmod_toNat (number : Int64) {modulus : Nat} (divides : (modulus : Int) ∣ UInt64.size) :
    (number.toBitVec.toNat : Int).bmod modulus = number.toInt.bmod modulus := by
  simp only [Int.bmod, toNat_emod number divides]

/-- Narrowing keeps the number modulo the count of the numbers of the type. -/
theorem widen_narrow {type : PrimitiveType} (integral : type.isFloat = false) (number : Int64) :
    type.widen (type.narrow (.int number)) = .int (Int64.ofInt (type.reduce number.toInt)) := by
  cases type <;> cases integral <;>
    simp [narrow, widen, Value.toInt64, bmod_toNat, toNat_emod, reduce, isSigned,
      Emulator.reduced_signed, Emulator.reduced_unsigned, bitWidth, byteWidth, UInt64.size]

theorem setWidth_signExtend {width more : Nat} (wider : width ≤ more) (bits : BitVec width) :
    (bits.signExtend more).setWidth width = bits := by
  ext position inside
  simp [BitVec.getElem_signExtend, inside, Nat.lt_of_lt_of_le inside wider]

theorem narrow_widen {type : PrimitiveType} (integral : type.isFloat = false)
    (scalar : type.Scalar) : type.narrow (type.widen scalar) = scalar := by
  cases type <;> cases integral <;> simp [narrow, widen, Value.toInt64, setWidth_signExtend]

theorem widen_holds {type : PrimitiveType} (integral : type.isFloat = false)
    (scalar : type.Scalar) :
    ∃ number : Int, type.widen scalar = .int (Int64.ofInt number) ∧ type.Holds number := by
  cases type <;> cases integral <;> refine ⟨_, rfl, ?_⟩ <;>
    simp [Holds, least, count, bitWidth, byteWidth, isSigned]
  case u8 =>
    have bound := UInt8.toNat_lt scalar
    omega
  case u16 =>
    have bound := UInt16.toNat_lt scalar
    omega
  case u32 =>
    have bound := UInt32.toNat_lt scalar
    omega
  case s8 => exact ⟨Int8.le_toInt scalar, Int8.toInt_lt scalar⟩
  case s16 => exact ⟨Int16.le_toInt scalar, Int16.toInt_lt scalar⟩
  case s32 => exact ⟨Int32.le_toInt scalar, Int32.toInt_lt scalar⟩

end PrimitiveType

/-! ## Hosts -/

/-- The dynamic read of a space, as scripts have it. -/
def readIn {κ : Type} (space : MemorySpace) (type : PrimitiveType) (address : UInt32) :
    Action κ Value :=
  match space with
  | .main => Memory.read type address
  | .rom => Rom.read type address

/-- The typed read of a space. -/
def getIn {κ : Type} (space : MemorySpace) (type : PrimitiveType) (address : UInt32) :
    Action κ type.Scalar :=
  match space with
  | .main => Memory.get type address
  | .rom => Rom.get type address

/-- No byte has changed but those of a type at one place of a space. -/
def MemoryView.ChangedWithin {σ : Type} (view : MemoryView σ) (before after : σ)
    (space : MemorySpace) (place : UInt32) (type : PrimitiveType) : Prop :=
  ∀ other address, other ≠ space ∨ ¬ InRange place type.byteWidth.toNat address →
    (view.memory after other).byteAt address = (view.memory before other).byteAt address

namespace Emulator.Memory

/-- An integer that was stored is read as the number of the type that it narrows to. -/
theorem value_store {memory : Memory} {type : PrimitiveType} (integral : type.isFloat = false)
    (address : UInt32) (number : Int64) :
    (memory.store type address (.int number)).value type address =
      .int (Int64.ofInt (type.reduce number.toInt)) := by
  have coded : type.encoding = .integer type.bitWidth type.isSigned := by
    cases type <;> cases integral <;> rfl
  simp only [value, store, coded, readInt_writeInt, Value.toInt64, PrimitiveType.reduce]

end Emulator.Memory

namespace ByteHost

variable {κ σ : Type} {environment : HostEnvironment κ σ} {view : MemoryView σ} {state : σ}

theorem perform_readIn (host : ByteHost environment view) (plain : view.plain state)
    (space : MemorySpace) (type : PrimitiveType) (address : UInt32) :
    (environment.perform (readIn space type address) state).1 =
      (replyUnless (view.refusal state space address type.encoding)
        ((view.memory state space).value type address)).mapError .host := by
  cases space <;> exact host.perform_readValue plain _ address type

theorem perform_getIn (host : ByteHost environment view) (plain : view.plain state)
    (space : MemorySpace) (type : PrimitiveType) (address : UInt32) :
    (environment.perform (getIn space type address) state).1 =
      (replyUnless (view.refusal state space address type.encoding)
        (type.narrow ((view.memory state space).value type address))).mapError .host := by
  have got : environment.perform (getIn space type address) state =
      environment.perform (do return type.narrow (← readIn space type address)) state := by
    cases space <;> rfl
  have answered := host.perform_readIn plain space type address
  rw [got, HostEnvironment.perform_bind]
  cases ran : environment.perform (readIn space type address) state with
  | mk result after =>
      rw [ran] at answered
      cases refused : view.refusal state space address type.encoding with
      | some error =>
          rw [refused] at answered
          cases answered
          rfl
      | none =>
          rw [refused] at answered
          cases answered
          rfl

/-- After an integer was written a read, if it is not refused, gives the number of the type
that it narrows to, and only the bytes of the type have changed. -/
theorem reads_after_write (host : ByteHost environment view) (plain : view.plain state)
    {type : PrimitiveType} (integral : type.isFloat = false) {space : MemorySpace}
    {address : UInt32} {number : Int64}
    (written : (environment.perform (writeValue space address type (.int number)) state).1 =
      .ok ()) :
    let after := (environment.perform (writeValue space address type (.int number)) state).2
    let refused := view.refusal state space address type.encoding
    let kept : Value := .int (Int64.ofInt (type.reduce number.toInt))
    (environment.perform (readIn space type address) after).1 =
        (replyUnless refused kept).mapError .host ∧
      (environment.perform (getIn space type address) after).1 =
        (replyUnless refused (type.narrow kept)).mapError .host ∧
      view.ChangedWithin state after space address type := by
  intro after refused kept
  have stored : view.Stored state after space
      ((view.memory state space).store type address (.int number)) :=
    host.stored_of_writeValue plain written
  have held : (view.memory after space).value type address = kept := by
    rw [Emulator.Memory.value_congr fun place _ => stored.here place,
      Emulator.Memory.value_store integral]
  refine ⟨?_, ?_, fun other place apart => ?_⟩
  · rw [host.perform_readIn stored.plain, held, stored.refusal]
  · rw [host.perform_getIn stored.plain, held, stored.refusal]
  · by_cases same : other = space
    · subst same
      rw [stored.here]
      exact Emulator.Memory.byteAt_store_outside (apart.resolve_left (fun differs => differs rfl))
    · exact stored.elsewhere other same place

end ByteHost

/-- An integer that was written is read as the one number of its type that is the same
modulo the count of the type's numbers, by dynamic and by typed reads, at every address.
What a typed access sets is what it gets. A write changes no byte but those of its type in
its own space. A read may be refused, for a reason that was there before the write. -/
theorem integers_kept {κ σ : Type} {environment : HostEnvironment κ σ} {view : MemoryView σ}
    (host : ByteHost environment view) {state : σ} (plain : view.plain state)
    {type : PrimitiveType} (integral : type.isFloat = false) (space : MemorySpace)
    (address : UInt32) :
    let refused (space : MemorySpace) := view.refusal state space address type.encoding
    (∀ number : Int64,
      let result := environment.perform (writeValue space address type (.int number)) state
      result.1 = .ok () → ∃ (kept : Int64) (scalar : type.Scalar),
        (∀ other, type.Holds other ∧ other % type.count = number.toInt % type.count ↔
          other = kept.toInt) ∧
        type.widen scalar = .int kept ∧
        (environment.perform (readIn space type address) result.2).1 =
          (replyUnless (refused space) (.int kept)).mapError .host ∧
        (environment.perform (getIn space type address) result.2).1 =
          (replyUnless (refused space) scalar).mapError .host ∧
        view.ChangedWithin state result.2 space address type) ∧
    ∀ scalar,
      let result := environment.perform (Memory.set type address scalar) state
      result.1 = .ok () →
        (environment.perform (Memory.get type address) result.2).1 =
          (replyUnless (refused .main) scalar).mapError .host ∧
        view.ChangedWithin state result.2 .main address type := by
  intro refused
  constructor
  · intro number result written
    obtain ⟨read, got, within⟩ := host.reads_after_write plain integral written
    have whole := PrimitiveType.toInt_reduce integral number.toInt
    refine ⟨Int64.ofInt (type.reduce number.toInt), _, fun other => ?_, ?_, read, got, within⟩
    · rw [whole]
      constructor
      · rintro ⟨holds, same⟩
        exact holds.unique (type.holds_reduce _) (same.trans (type.reduce_mod _).symm)
      · rintro rfl
        exact ⟨type.holds_reduce _, type.reduce_mod _⟩
    · rw [PrimitiveType.widen_narrow integral, whole,
        PrimitiveType.reduce_of_holds (type.holds_reduce _)]
  · intro scalar result written
    obtain ⟨number, widened, holds⟩ := PrimitiveType.widen_holds integral scalar
    have written : (environment.perform
        (writeValue .main address type (.int (Int64.ofInt number))) state).1 = .ok () := by
      rw [← widened]
      exact written
    have same : result = environment.perform
        (writeValue .main address type (.int (Int64.ofInt number))) state := by
      rw [← widened]
      rfl
    have whole : (Int64.ofInt number).toInt = number := by
      rw [← PrimitiveType.reduce_of_holds holds]
      exact PrimitiveType.toInt_reduce integral number
    obtain ⟨-, got, within⟩ := host.reads_after_write plain integral written
    have kept : type.narrow (.int (Int64.ofInt (type.reduce (Int64.ofInt number).toInt))) =
        scalar := by
      rw [whole, PrimitiveType.reduce_of_holds holds, ← widened,
        PrimitiveType.narrow_widen integral]
    rw [kept] at got
    rw [same]
    exact ⟨got, within⟩

/-- A negative number in the last address and the first: as one of 16 bits without a sign it
is read as its remainder, and the byte after it is the one that was there. -/
theorem integers_kept_of_halfword :
    let state : Emulator Unit := { main := Emulator.Memory.blank.write 0 [7, 8] }
    let environment := Emulator.environment Unit
    let result := environment.perform (Memory.write .u16 0xFFFFFFFF (.int (-2))) state
    let next := environment.perform (Memory.set .u16 0xFFFFFFFF (513 : UInt16)) result.2
    result.1 = .ok () ∧ next.1 = .ok () ∧
      (environment.perform (Memory.read .u16 0xFFFFFFFF) result.2).1 = .ok (.int 65534) ∧
      (environment.perform (Memory.get .u16 0xFFFFFFFF) next.2).1 = .ok (513 : UInt16) ∧
      result.2.main.byteAt 1 = 8 ∧ next.2.main.byteAt 1 = 8 := by
  intro state environment result next
  have written : result.1 = .ok () := by rfl
  have set : next.1 = .ok () := by rfl
  have integral : PrimitiveType.u16.isFloat = false := rfl
  have plain : Emulator.view.plain state ∧ Emulator.view.plain result.2 :=
    ⟨⟨rfl, rfl⟩, rfl, rfl⟩
  obtain ⟨kept, scalar, unique, -, read, -, within⟩ :=
    (integers_kept Emulator.byteHost plain.1 integral .main 0xFFFFFFFF).1 (-2) written
  have number : (65534 : Int) = kept.toInt := (unique 65534).mp ⟨by decide, by decide⟩
  have found : kept = 65534 := Int64.toInt_inj.mp number.symm
  obtain ⟨got, later⟩ :=
    (integers_kept Emulator.byteHost plain.2 integral .main 0xFFFFFFFF).2 (513 : UInt16) set
  have beside := within .main 1 (.inr (by unfold InRange; decide))
  exact ⟨written, set, found ▸ read, got, beside,
    (later .main 1 (.inr (by unfold InRange; decide))).trans beside⟩

end EmuScript
