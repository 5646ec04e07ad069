import EmuScript.Memory.Binding
import EmuScript.Proofs.Host

/-!
# Calls of memory operations

Every operation on memory makes at most one call of the emulator, and its arguments alone
decide which. So the calls of a sequence of operations are known in advance. Into the ROM
they write floating point numbers only, but for one operation: the function that writes a
value to a space of the caller's choice also writes integers there.
-/

set_option autoImplicit false

namespace EmuScript

variable {κ σ α β : Type}

/-! ## Actions of one call -/

/-- The action is one call of the emulator and nothing else. -/
def Action.IsCall (action : Action κ α) (call : HostCall κ) : Prop :=
  ∃ outcome : HostCall.Reply call → Except ScriptError α,
    action.run = .ask call fun reply => .done (outcome reply)

theorem Action.isCall_ask (call : HostCall κ) : (Action.ask call).IsCall call :=
  ⟨fun reply => reply.mapError .host, rfl⟩

theorem Action.IsCall.map {action : Action κ α} {call : HostCall κ} (once : action.IsCall call)
    (change : α → β) : (do return change (← action) : Action κ β).IsCall call := by
  obtain ⟨outcome, runs⟩ := once
  have mapped : (do return change (← action) : Action κ β).run =
      action.run.bind fun result => .done (result.map change) := by
    refine congrArg (Program.bind action.run) (funext fun result => ?_)
    cases result <;> rfl
  refine ⟨fun reply => (outcome reply).map change, ?_⟩
  rw [mapped, runs]
  rfl

/-! ## Calls that read and write -/

namespace MemoryCall

def reading (space : MemorySpace) (address : UInt32) (type : PrimitiveType) : MemoryCall :=
  match type.encoding with
  | .integer bits signed => .readInt space address bits signed
  | .floating double => .readFloat space address double

def writing (space : MemorySpace) (address : UInt32) (type : PrimitiveType) (value : Value) :
    MemoryCall :=
  match type.encoding with
  | .integer bits _ => .writeInt space address bits value.toInt64
  | .floating double => .writeFloat space address value.toDouble double

def Writes : MemoryCall → Prop
  | writeInt _ _ _ _ | writeFloat _ _ _ _ | writeBlock _ _ _ | writeString _ _ _ => True
  | readInt _ _ _ _ | readFloat _ _ _ | readBlock _ _ _ | readString _ _ => False

/-- If the call writes to the ROM, it writes a floating point number. -/
def SparesRom (call : MemoryCall) : Prop :=
  call.Writes → call.space = .rom →
    ∃ address value double, call = .writeFloat .rom address value double

theorem spares_reading (space : MemorySpace) (address : UInt32) (type : PrimitiveType) :
    (reading space address type).SparesRom := by
  cases type <;> exact fun writes => writes.elim

theorem spares_writing_iff (space : MemorySpace) (address : UInt32) (type : PrimitiveType)
    (value : Value) :
    (writing space address type value).SparesRom ↔ ¬ (space = .rom ∧ type.isFloat = false) := by
  cases space with
  | main => cases type <;> simp [SparesRom, writing, PrimitiveType.encoding, MemoryCall.space]
  | rom =>
      cases type <;>
        simp [SparesRom, writing, Writes, PrimitiveType.encoding, PrimitiveType.isFloat,
          MemoryCall.space]

end MemoryCall

theorem readValue_isCall (space : MemorySpace) (address : UInt32) (type : PrimitiveType) :
    (readValue space address type : Action κ Value).IsCall
      (.memory (.reading space address type)) := by
  unfold readValue MemoryCall.reading
  cases type.encoding with
  | integer bits signed =>
      exact (Action.isCall_ask (.memory (.readInt space address bits signed))).map Value.int
  | floating double =>
      exact (Action.isCall_ask (.memory (.readFloat space address double))).map Value.float

theorem writeValue_isCall (space : MemorySpace) (address : UInt32) (type : PrimitiveType)
    (value : Value) :
    (writeValue space address type value : Action κ Unit).IsCall
      (.memory (.writing space address type value)) := by
  unfold writeValue MemoryCall.writing
  cases type.encoding with
  | integer bits signed => exact Action.isCall_ask _
  | floating double => exact Action.isCall_ask _

/-! ## Operations -/

/-- What scripts and the rest of the library do with memory. -/
inductive MemoryOperation where
  | read (type : PrimitiveType) (address : UInt32)
  | write (type : PrimitiveType) (address : UInt32) (value : Value)
  | get (type : PrimitiveType) (address : UInt32)
  | set (type : PrimitiveType) (address : UInt32) (scalar : type.Scalar)
  | getBlock (address : UInt32) (size : UInt64)
  | setBlock (address : UInt32) (data : Bytes)
  | getString (address : UInt32)
  | setString (address : UInt32) (text : String)
  | readRom (type : PrimitiveType) (address : UInt32)
  | getRom (type : PrimitiveType) (address : UInt32)
  | setRom (type : PrimitiveType) (isFloat : type.isFloat = true) (address : UInt32)
      (scalar : type.Scalar)
  | getRomBlock (address : UInt32) (size : UInt64)
  | getRomString (address : UInt32)
  | getProperty (object : BoundObject) (name : String)
  | getPropertyAs (object : BoundObject) (type : PrimitiveType) (name : String)
  | setProperty (object : BoundObject) (name : String) (value : Value)
  /-- A read from a space of the caller's choice. -/
  | readValue (space : MemorySpace) (address : UInt32) (type : PrimitiveType)
  /-- A write to a space of the caller's choice. -/
  | writeValue (space : MemorySpace) (address : UInt32) (type : PrimitiveType) (value : Value)

namespace MemoryOperation

/-- Carries out an action whatever becomes of it. -/
def attempt (action : Action κ α) : HostProgram κ Unit :=
  action.run.bind fun _ => .done ()

def program : MemoryOperation → HostProgram κ Unit
  | read type address => attempt (Memory.read type address)
  | write type address value => attempt (Memory.write type address value)
  | get type address => attempt (Memory.get type address)
  | set type address scalar => attempt (Memory.set type address scalar)
  | getBlock address size => attempt (Memory.getBlock address size)
  | setBlock address data => attempt (Memory.setBlock address data)
  | getString address => attempt (Memory.getString address)
  | setString address text => attempt (Memory.setString address text)
  | readRom type address => attempt (Rom.read type address)
  | getRom type address => attempt (Rom.get type address)
  | setRom type isFloat address scalar => attempt (Rom.set type isFloat address scalar)
  | getRomBlock address size => attempt (Rom.getBlock address size)
  | getRomString address => attempt (Rom.getString address)
  | getProperty object name => attempt (object.get name)
  | getPropertyAs object type name => attempt (object.getAs type name)
  | setProperty object name value => attempt (object.set name value)
  | readValue space address type => attempt (EmuScript.readValue space address type)
  | writeValue space address type value => attempt (EmuScript.writeValue space address type value)

/-- The operations one after another; one that fails does not stop the others. -/
def programs : List MemoryOperation → HostProgram κ Unit
  | [] => .done ()
  | operation :: rest => operation.program.bind fun _ => programs rest

/-- The call that an operation makes. Properties that are not bound need none. -/
def call? : MemoryOperation → Option MemoryCall
  | read type address | get type address => some (.reading .main address type)
  | write type address value => some (.writing .main address type value)
  | set type address scalar => some (.writing .main address type (type.widen scalar))
  | getBlock address size => some (.readBlock .main address size)
  | setBlock address data => some (.writeBlock .main address data)
  | getString address => some (.readString .main address)
  | setString address text => some (.writeString .main address text)
  | readRom type address | getRom type address => some (.reading .rom address type)
  | setRom type _ address scalar => some (.writing .rom address type (type.widen scalar))
  | getRomBlock address size => some (.readBlock .rom address size)
  | getRomString address => some (.readString .rom address)
  | getProperty object name | getPropertyAs object _ name =>
      (object.binding? name).map fun binding => .reading .main binding.address binding.type
  | setProperty object name value =>
      (object.binding? name).map fun binding =>
        .writing .main binding.address binding.type value
  | readValue space address type => some (.reading space address type)
  | writeValue space address type value => some (.writing space address type value)

/-- The operation writes to the ROM in a type of integers. -/
def WritesRomInteger : MemoryOperation → Prop
  | writeValue space _ type _ => space = .rom ∧ type.isFloat = false
  | _ => False

/-- The calls that the emulator receives for a sequence of operations. -/
def received (environment : HostEnvironment κ σ) (operations : List MemoryOperation) (state : σ) :
    List (HostCall κ) :=
  (programs operations).questions environment state

theorem questions_attempt {action : Action κ α} {call : HostCall κ} (once : action.IsCall call)
    (environment : HostEnvironment κ σ) (state : σ) :
    (attempt action).questions environment state = [call] := by
  obtain ⟨outcome, runs⟩ := once
  simp [attempt, runs]

theorem getProperty_questions (object : BoundObject) (name : String)
    (environment : HostEnvironment κ σ) (state : σ) :
    (attempt (object.get name)).questions environment state =
      (getProperty object name).call?.toList.map .memory := by
  simp only [BoundObject.get, call?]
  cases object.binding? name with
  | none => rfl
  | some binding => exact questions_attempt (readValue_isCall _ _ _) environment state

theorem getPropertyAs_questions (object : BoundObject) (type : PrimitiveType) (name : String)
    (environment : HostEnvironment κ σ) (state : σ) :
    (attempt (object.getAs type name)).questions environment state =
      (getPropertyAs object type name).call?.toList.map .memory := by
  simp only [BoundObject.getAs, BoundObject.get, call?]
  cases object.binding? name with
  | none => rfl
  | some binding =>
      exact questions_attempt ((readValue_isCall _ _ _).map type.narrow) environment state

theorem setProperty_questions (object : BoundObject) (name : String) (value : Value)
    (environment : HostEnvironment κ σ) (state : σ) :
    (attempt (object.set name value)).questions environment state =
      (setProperty object name value).call?.toList.map .memory := by
  simp only [BoundObject.set, call?]
  cases object.binding? name with
  | none => rfl
  | some binding => exact questions_attempt (writeValue_isCall _ _ _ _) environment state

/-- An operation makes the call that its arguments decide, whatever the emulator answers. -/
theorem program_questions (operation : MemoryOperation) (environment : HostEnvironment κ σ)
    (state : σ) :
    operation.program.questions environment state = operation.call?.toList.map .memory := by
  cases operation with
  | read type address => exact questions_attempt (readValue_isCall _ _ _) environment state
  | write type address value =>
      exact questions_attempt (writeValue_isCall _ _ _ _) environment state
  | get type address =>
      exact questions_attempt ((readValue_isCall _ _ _).map type.narrow) environment state
  | set type address scalar =>
      exact questions_attempt (writeValue_isCall _ _ _ _) environment state
  | readRom type address => exact questions_attempt (readValue_isCall _ _ _) environment state
  | getRom type address =>
      exact questions_attempt ((readValue_isCall _ _ _).map type.narrow) environment state
  | setRom type isFloat address scalar =>
      exact questions_attempt (writeValue_isCall _ _ _ _) environment state
  | readValue space address type =>
      exact questions_attempt (readValue_isCall _ _ _) environment state
  | writeValue space address type value =>
      exact questions_attempt (writeValue_isCall _ _ _ _) environment state
  | getBlock | setBlock | getString | setString | getRomBlock | getRomString =>
      exact questions_attempt (Action.isCall_ask _) environment state
  | getProperty object name => exact getProperty_questions object name environment state
  | getPropertyAs object type name =>
      exact getPropertyAs_questions object type name environment state
  | setProperty object name value =>
      exact setProperty_questions object name value environment state

theorem received_eq (environment : HostEnvironment κ σ) (operations : List MemoryOperation)
    (state : σ) :
    received environment operations state = (operations.filterMap call?).map .memory := by
  induction operations generalizing state with
  | nil => rfl
  | cons operation rest ih =>
      have later := ih ((operation.program (κ := κ)).run environment state).2
      simp only [received] at later
      simp only [received, programs, Program.questions_bind, program_questions, later]
      cases called : operation.call? <;> simp [called]

/-! ## Writes to the ROM -/

theorem spares_iff {operation : MemoryOperation} {call : MemoryCall}
    (called : operation.call? = some call) :
    call.SparesRom ↔ ¬ operation.WritesRomInteger := by
  cases operation with
  | read type address | get type address | readRom type address | getRom type address
  | readValue space address type =>
      cases called
      exact iff_of_true (MemoryCall.spares_reading _ _ _) id
  | getProperty object name | getPropertyAs object type name =>
      obtain ⟨binding, _, rfl⟩ := Option.map_eq_some_iff.mp called
      exact iff_of_true (MemoryCall.spares_reading _ _ _) id
  | write type address value | set type address scalar =>
      cases called
      exact iff_of_true ((MemoryCall.spares_writing_iff _ _ _ _).mpr (by simp)) id
  | setProperty object name value =>
      obtain ⟨binding, _, rfl⟩ := Option.map_eq_some_iff.mp called
      exact iff_of_true ((MemoryCall.spares_writing_iff _ _ _ _).mpr (by simp)) id
  | setRom type isFloat address scalar =>
      cases called
      exact iff_of_true ((MemoryCall.spares_writing_iff _ _ _ _).mpr (by simp [isFloat])) id
  | getBlock | getString | getRomBlock | getRomString =>
      cases called
      exact iff_of_true (fun writes => writes.elim) id
  | setBlock | setString =>
      cases called
      exact iff_of_true (fun _ inRom => by cases inRom) id
  | writeValue space address type value =>
      cases called
      exact MemoryCall.spares_writing_iff space address type value

/-- The emulator receives the calls that the arguments of the operations decide. To the ROM
they write nothing but floating point numbers if and only if no operation is the write of a
value to the ROM in a type of integers. -/
theorem rom_written_by_floats_iff (environment : HostEnvironment κ σ)
    (operations : List MemoryOperation) (state : σ) :
    let calls := received environment operations state
    calls = (operations.filterMap call?).map .memory ∧
    ((∀ call, .memory call ∈ calls → call.SparesRom) ↔
      ∀ operation ∈ operations, ¬ operation.WritesRomInteger) := by
  intro calls
  have known : calls = (operations.filterMap call?).map .memory :=
    received_eq environment operations state
  have made (call : MemoryCall) : HostCall.memory call ∈ calls ↔
      ∃ operation ∈ operations, operation.call? = some call := by
    simp [known, List.mem_map, List.mem_filterMap]
  refine ⟨known, fun spares operation member => ?_, fun floats call member => ?_⟩
  · -- An operation that makes no call is one on a property, and writes nothing to the ROM.
    cases called : operation.call? with
    | none =>
        cases operation with
        | writeValue => cases called
        | _ => exact id
    | some call =>
        exact (spares_iff called).mp (spares call ((made call).mpr ⟨operation, member, called⟩))
  · obtain ⟨operation, listed, called⟩ := (made call).mp member
    exact (spares_iff called).mpr (floats operation listed)

/-- The function that writes a value to a space of the caller's choice asks the emulator to
write an integer to the ROM. -/
theorem rom_receives_integer :
    received (Emulator.environment Nat) [.writeValue .rom 0 .u8 (.int 1)] {} =
      [.memory (.writeInt .rom 0 8 1)] := by
  decide

end MemoryOperation

end EmuScript
