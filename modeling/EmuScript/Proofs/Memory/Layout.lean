import EmuScript.Proofs.Memory.Bytes
import EmuScript.Proofs.Memory.Change

/-!
# Places of fields

The fields of a structure follow one another, each at the sum of the widths before it.
In an array of structures the bytes of all fields of all elements have numbers of their
own, which stay apart also as addresses as long as the array is no larger than the
address space.
-/

set_option autoImplicit false

namespace EmuScript

/-- The number of bytes that fields take one after another. -/
def span : List FieldDescriptor → Nat
  | [] => 0
  | field :: rest => field.type.byteWidth.toNat + span rest

@[simp] theorem span_nil : span [] = 0 := rfl

@[simp] theorem span_cons (field : FieldDescriptor) (rest : List FieldDescriptor) :
    span (field :: rest) = field.type.byteWidth.toNat + span rest := rfl

@[simp] theorem span_append (before after : List FieldDescriptor) :
    span (before ++ after) = span before + span after := by
  induction before with
  | nil => simp
  | cons field rest ih => simp [ih, Nat.add_assoc]

namespace StructLayout

/-- What a layout of the fields that come after others says. -/
theorem of_place_cons {seen : List String} {offset : UInt32} {field : FieldDescriptor}
    {rest : List FieldDescriptor} {layout : StructLayout}
    (placed : place seen offset (field :: rest) = .ok layout) :
    field.name ∉ seen ∧ ∃ others,
      place (field.name :: seen) (offset + field.type.byteWidth) rest = .ok others ∧
        layout = ⟨⟨field, offset⟩ :: others.fields, others.size⟩ := by
  by_cases known : field.name ∈ seen
  · simp [place, known] at placed
  · refine ⟨known, ?_⟩
    cases later : place (field.name :: seen) (offset + field.type.byteWidth) rest with
    | error error => simp [place, known, later, bind, Except.bind] at placed
    | ok others =>
        refine ⟨others, rfl, ?_⟩
        simpa [place, known, later, bind, Except.bind, pure, Except.pure] using placed.symm

theorem place_fresh {seen : List String} {offset : UInt32} {fields : List FieldDescriptor}
    {layout : StructLayout} (placed : place seen offset fields = .ok layout) :
    ∀ field ∈ fields, field.name ∉ seen := by
  induction fields generalizing seen offset layout with
  | nil => nofun
  | cons first rest ih =>
      obtain ⟨fresh, others, later, -⟩ := of_place_cons placed
      refine List.forall_mem_cons.mpr ⟨fresh, fun field member known => ?_⟩
      exact ih later field member (.tail _ known)

theorem place_size {seen : List String} {offset : UInt32} {fields : List FieldDescriptor}
    {layout : StructLayout} (placed : place seen offset fields = .ok layout) :
    layout.size = offset + UInt32.ofNat (span fields) := by
  induction fields generalizing seen offset layout with
  | nil =>
      cases placed
      simp
  | cons first rest ih =>
      obtain ⟨-, others, later, rfl⟩ := of_place_cons placed
      simp [ih later, UInt32.add_assoc]

/-- A field is found by its name at the sum of the widths before it. -/
theorem place_lookup {seen : List String} {offset : UInt32} {before after : List FieldDescriptor}
    {field : FieldDescriptor} {layout : StructLayout}
    (placed : place seen offset (before ++ field :: after) = .ok layout) (base : UInt32) :
    (BoundObject.placeFields base layout).lookup field.name =
      some ⟨base + (offset + UInt32.ofNat (span before)), field.type⟩ := by
  induction before generalizing seen offset layout with
  | nil =>
      obtain ⟨-, others, -, rfl⟩ := of_place_cons placed
      simp [BoundObject.placeFields]
  | cons first rest ih =>
      obtain ⟨-, others, later, rfl⟩ := of_place_cons placed
      have fresh : field.name ∉ first.name :: seen := place_fresh later field (by simp)
      have other : (field.name == first.name) = false :=
        beq_eq_false_iff_ne.mpr fun same => fresh (by simp [same])
      have found := ih later
      simp only [BoundObject.placeFields] at found
      simp [BoundObject.placeFields, List.lookup_cons, other, found, UInt32.add_assoc]

end StructLayout

namespace StructType

variable {fields : List FieldDescriptor} {type : StructType}

theorem layout_of_fields (built : ofFields fields = .ok type) :
    StructLayout.place [] 0 fields = .ok type.layout := by
  cases placed : StructLayout.place [] 0 fields with
  | error error =>
      simp [ofFields, StructLayout.ofFields, placed, bind, Except.bind] at built
  | ok layout =>
      have same : (⟨layout⟩ : StructType) = type := by
        simpa [ofFields, StructLayout.ofFields, placed, bind, Except.bind, pure, Except.pure]
          using built
      rw [← same]

theorem size_of_fields (built : ofFields fields = .ok type) :
    type.size = UInt32.ofNat (span fields) := by
  simpa [size] using StructLayout.place_size (layout_of_fields built)

/-- Where a field of an element of an array is. -/
def fieldAddress (fields before : List FieldDescriptor) (base index : UInt32) : UInt32 :=
  base + index * UInt32.ofNat (span fields) + UInt32.ofNat (span before)

theorem element_binding {before after : List FieldDescriptor} {field : FieldDescriptor}
    (built : ofFields fields = .ok type) (split : fields = before ++ field :: after)
    (base index : UInt32) :
    (type.element base index).binding? field.name =
      some ⟨fieldAddress fields before base index, field.type⟩ := by
  have placed := layout_of_fields built
  rw [split] at placed
  have found := StructLayout.place_lookup placed (base + index * type.size)
  rw [UInt32.zero_add] at found
  rw [fieldAddress, ← size_of_fields built, element, place_eq]
  exact found

end StructType

/-! ## Bytes of an array -/

theorem fields_apart {before₁ after₁ before₂ after₂ : List FieldDescriptor}
    {first second : FieldDescriptor}
    (same : before₁ ++ first :: after₁ = before₂ ++ second :: after₂) {byte₁ byte₂ : Nat}
    (inFirst : byte₁ < first.type.byteWidth.toNat) (inSecond : byte₂ < second.type.byteWidth.toNat)
    (meet : span before₁ + byte₁ = span before₂ + byte₂) : first = second := by
  -- One of the two lists begins with the other, so the earlier field lies before the later.
  obtain ⟨between, later, split⟩ | ⟨between, later, split⟩ := List.append_eq_append_iff.mp same
  · cases between with
    | nil => exact List.head_eq_of_cons_eq split
    | cons next rest =>
        cases split
        simp only [later, span_append, span_cons] at meet
        omega
  · cases between with
    | nil => exact (List.head_eq_of_cons_eq split).symm
    | cons next rest =>
        cases split
        simp only [later, span_append, span_cons] at meet
        omega

/-- The number that a byte of a field has among the bytes of an array. -/
theorem sub_base_of_inRange {fields before after : List FieldDescriptor}
    {field : FieldDescriptor} (split : fields = before ++ field :: after) {count : Nat}
    (fits : count * span fields ≤ UInt32.size) {base index : UInt32} (inside : index.toNat < count)
    {address : UInt32}
    (inRange : InRange (StructType.fieldAddress fields before base index)
      field.type.byteWidth.toNat address) :
    ∃ byte, byte < field.type.byteWidth.toNat ∧
      (address - base).toNat = index.toNat * span fields + (span before + byte) := by
  refine ⟨_, inRange, ?_⟩
  have width : span before + field.type.byteWidth.toNat ≤ span fields := by
    simp [split, ← Nat.add_assoc]
  have last : (index.toNat + 1) * span fields ≤ count * span fields :=
    Nat.mul_le_mul_right _ inside
  have number : address - base = UInt32.ofNat (index.toNat * span fields + (span before +
      (address - StructType.fieldAddress fields before base index).toNat)) := by
    simp only [StructType.fieldAddress, UInt32.ofNat_add, UInt32.ofNat_mul, UInt32.ofNat_toNat]
    grind
  rw [number]
  apply UInt32.toNat_ofNat_of_lt
  unfold InRange at inRange
  rw [Nat.succ_mul] at last
  omega

/-- Two bytes of different elements have different numbers. -/
theorem elements_apart {size first second byte₁ byte₂ : Nat} (inFirst : byte₁ < size)
    (inSecond : byte₂ < size) (meet : first * size + byte₁ = second * size + byte₂) :
    first = second ∧ byte₁ = byte₂ := by
  rcases Nat.lt_trichotomy first second with before | same | after
  · have later : (first + 1) * size ≤ second * size := Nat.mul_le_mul_right _ before
    rw [Nat.succ_mul] at later
    omega
  · subst same
    exact ⟨rfl, Nat.add_left_cancel meet⟩
  · have later : (second + 1) * size ≤ first * size := Nat.mul_le_mul_right _ after
    rw [Nat.succ_mul] at later
    omega

/-- An address within an array that fits the address space belongs to one field of one
element. -/
theorem field_unique {fields before₁ after₁ before₂ after₂ : List FieldDescriptor}
    {first second : FieldDescriptor} (split₁ : fields = before₁ ++ first :: after₁)
    (split₂ : fields = before₂ ++ second :: after₂) {count : Nat}
    (fits : count * span fields ≤ UInt32.size) {base i j : UInt32} (inside₁ : i.toNat < count)
    (inside₂ : j.toNat < count) {address : UInt32}
    (inFirst : InRange (StructType.fieldAddress fields before₁ base i)
      first.type.byteWidth.toNat address)
    (inSecond : InRange (StructType.fieldAddress fields before₂ base j)
      second.type.byteWidth.toNat address) : i = j ∧ first = second := by
  obtain ⟨byte₁, within₁, number₁⟩ := sub_base_of_inRange split₁ fits inside₁ inFirst
  obtain ⟨byte₂, within₂, number₂⟩ := sub_base_of_inRange split₂ fits inside₂ inSecond
  have small₁ : span before₁ + byte₁ < span fields := by
    rw [split₁, span_append, span_cons]
    omega
  have small₂ : span before₂ + byte₂ < span fields := by
    rw [split₂, span_append, span_cons]
    omega
  obtain ⟨sameIndex, sameByte⟩ := elements_apart small₁ small₂ (number₁.symm.trans number₂)
  exact ⟨UInt32.toNat_inj.mp sameIndex,
    fields_apart (split₁.symm.trans split₂) within₁ within₂ sameByte⟩

/-! ## Reads and writes of fields -/

theorem BoundObject.get_of_binding {κ : Type} {object : BoundObject} {name : String}
    {binding : VarBinding} (bound : object.binding? name = some binding) :
    (object.get name : Action κ Value) = readValue .main binding.address binding.type := by
  simp only [get, bound]
  rfl

theorem BoundObject.set_of_binding {κ : Type} {object : BoundObject} {name : String}
    {binding : VarBinding} {value : Value} (bound : object.binding? name = some binding) :
    (object.set name value : Action κ Unit) =
      writeValue .main binding.address binding.type value := by
  simp only [set, bound]
  rfl

/-- A property is written within its own bytes, and a property that has other bytes reads
the same before and after. -/
theorem BoundObject.set_frame {κ σ : Type} {environment : HostEnvironment κ σ}
    {view : MemoryView σ} (host : ByteHost environment view) {state : σ}
    (plain : view.plain state) {object other : BoundObject} {name otherName : String}
    {binding otherBinding : VarBinding} (bound : object.binding? name = some binding)
    (otherBound : other.binding? otherName = some otherBinding)
    (apart : ∀ address, ¬ (InRange binding.address binding.type.byteWidth.toNat address ∧
      InRange otherBinding.address otherBinding.type.byteWidth.toNat address))
    {value : Value} (written : (environment.perform (object.set name value) state).1 = .ok ()) :
    let after := (environment.perform (object.set name value) state).2
    (∀ address, ¬ InRange binding.address binding.type.byteWidth.toNat address →
      (view.memory after .main).byteAt address = (view.memory state .main).byteAt address) ∧
    (∀ address, (view.memory after .rom).byteAt address = (view.memory state .rom).byteAt address) ∧
    (environment.perform (other.get otherName) after).1 =
      (environment.perform (other.get otherName) state).1 := by
  intro after
  have stored : view.Stored state after .main
      ((view.memory state .main).store binding.type binding.address value) := by
    simp only [after, set_of_binding bound] at written ⊢
    exact host.stored_of_writeValue plain written
  have frame (address : UInt32)
      (outside : ¬ InRange binding.address binding.type.byteWidth.toNat address) :
      (view.memory after .main).byteAt address = (view.memory state .main).byteAt address :=
    (stored.here address).trans (Emulator.Memory.byteAt_store_outside outside)
  refine ⟨frame, stored.elsewhere .rom (by decide), ?_⟩
  have same : (view.memory after .main).value otherBinding.type otherBinding.address =
      (view.memory state .main).value otherBinding.type otherBinding.address :=
    Emulator.Memory.value_congr fun address inOther =>
      frame address fun inRange => apart address ⟨inRange, inOther⟩
  rw [get_of_binding otherBound, host.perform_readValue stored.plain,
    host.perform_readValue plain, same, stored.refusal]

/-- The fields of the elements of an array that fits the address space have bytes of their
own, also where the array runs past the last address. So a field that is set changes no
byte but its own, and no other field. -/
theorem element_fields_apart {fields : List FieldDescriptor} {type : StructType}
    (built : StructType.ofFields fields = .ok type) {count : Nat}
    (fits : count * span fields ≤ UInt32.size) (base : UInt32) {i j : UInt32}
    (inside₁ : i.toNat < count) (inside₂ : j.toNat < count) {first second : FieldDescriptor}
    (member₁ : first ∈ fields) (member₂ : second ∈ fields) (differ : (i, first) ≠ (j, second)) :
    ∃ place other,
      (type.element base i).binding? first.name = some ⟨place, first.type⟩ ∧
      (type.element base j).binding? second.name = some ⟨other, second.type⟩ ∧
      (∀ address, ¬ (InRange place first.type.byteWidth.toNat address ∧
        InRange other second.type.byteWidth.toNat address)) ∧
      ∀ {κ σ : Type} {environment : HostEnvironment κ σ} {view : MemoryView σ} (state : σ)
        (value : Value), ByteHost environment view → view.plain state →
        let result := environment.perform ((type.element base i).set first.name value) state
        result.1 = .ok () →
          (∀ address, ¬ InRange place first.type.byteWidth.toNat address →
            (view.memory result.2 .main).byteAt address =
              (view.memory state .main).byteAt address) ∧
          (∀ address, (view.memory result.2 .rom).byteAt address =
            (view.memory state .rom).byteAt address) ∧
          (environment.perform ((type.element base j).get second.name) result.2).1 =
            (environment.perform ((type.element base j).get second.name) state).1 := by
  obtain ⟨before₁, after₁, split₁⟩ := List.append_of_mem member₁
  obtain ⟨before₂, after₂, split₂⟩ := List.append_of_mem member₂
  have bound₁ := StructType.element_binding built split₁ base i
  have bound₂ := StructType.element_binding built split₂ base j
  have apart (address : UInt32) :
      ¬ (InRange (StructType.fieldAddress fields before₁ base i) first.type.byteWidth.toNat
          address ∧
        InRange (StructType.fieldAddress fields before₂ base j) second.type.byteWidth.toNat
          address) := by
    rintro ⟨inFirst, inSecond⟩
    obtain ⟨rfl, rfl⟩ := field_unique split₁ split₂ fits inside₁ inside₂ inFirst inSecond
    exact differ rfl
  refine ⟨_, _, bound₁, bound₂, apart, ?_⟩
  intro κ σ environment view state value host plain result written
  exact BoundObject.set_frame host plain bound₁ bound₂ apart written

/-- A byte and a halfword, in an array that begins at the last but one address. -/
def pair : List FieldDescriptor :=
  [⟨"a", .u8⟩, ⟨"b", .u16⟩]

def pairType : StructType :=
  ⟨⟨[⟨⟨"a", .u8⟩, 0⟩, ⟨⟨"b", .u16⟩, 1⟩], 3⟩⟩

/-- The halfword of the first pair takes the last address and the first. The byte of the
second pair, which comes after it, reads the same when the halfword is set. -/
theorem element_fields_apart_of_pair :
    let base : UInt32 := 0xFFFFFFFE
    let state : Emulator Unit := {}
    let environment := Emulator.environment Unit
    let result := environment.perform ((pairType.element base 0).set "b" (.int 258)) state
    2 * span pair ≤ UInt32.size ∧ result.1 = .ok () ∧
      (pairType.element base 0).binding? "b" = some ⟨0xFFFFFFFF, .u16⟩ ∧
      (pairType.element base 1).binding? "a" = some ⟨1, .u8⟩ ∧
      (∀ address, ¬ InRange 0xFFFFFFFF 2 address →
        result.2.main.byteAt address = state.main.byteAt address) ∧
      result.2.main.byteAt 0xFFFFFFFF = 1 ∧ result.2.main.byteAt 0 = 2 ∧
      (environment.perform ((pairType.element base 1).get "a") result.2).1 =
        (environment.perform ((pairType.element base 1).get "a") state).1 := by
  intro base state environment result
  have fits : 2 * span pair ≤ UInt32.size := by decide
  have written : result.1 = .ok () := by rfl
  have bound : (pairType.element base 0).binding? "b" = some ⟨0xFFFFFFFF, .u16⟩ := by decide
  obtain ⟨place, other, placed, _, _, frame⟩ := element_fields_apart
    (show StructType.ofFields pair = .ok pairType by rfl) fits base
    (show (0 : UInt32).toNat < 2 by decide) (show (1 : UInt32).toNat < 2 by decide)
    (show (⟨"b", .u16⟩ : FieldDescriptor) ∈ pair by decide)
    (show (⟨"a", .u8⟩ : FieldDescriptor) ∈ pair by decide) (by decide)
  have same : place = 0xFFFFFFFF := by
    rw [bound] at placed
    cases placed
    rfl
  subst same
  obtain ⟨outside, -, reads⟩ := frame state (.int 258) Emulator.byteHost ⟨rfl, rfl⟩ written
  exact ⟨fits, written, bound, by decide, outside, by decide, by decide, reads⟩

end EmuScript
