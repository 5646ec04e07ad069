import EmuScript.Proofs.Memory.Binding
import Mathlib.Data.List.Induction

/-!
# Declared structures

What a list of names and type tags declares, for every list. A tag that is not known is
reported first, wherever it stands; then the first name that repeats one before it. Without
either the fields are placed in order, each at the sum of the widths before it, and each is
found by its name.
-/

set_option autoImplicit false

namespace EmuScript

/-- No type has the tag of a declared field. -/
def isUnknown (field : String × String) : Bool :=
  (PrimitiveType.ofTag? field.2).isNone

/-- The declared fields whose tags are known. -/
def recognized (fields : List (String × String)) : List FieldDescriptor :=
  fields.filterMap fun (name, tag) => (PrimitiveType.ofTag? tag).map (⟨name, ·⟩)

/-- The name is at the first position that repeats an earlier name. -/
def FirstRepeat (names : List String) (name : String) : Prop :=
  ∃ before after, names = before ++ name :: after ∧ before.Nodup ∧ name ∈ before

theorem nodup_or_firstRepeat (names : List String) :
    names.Nodup ∨ ∃ name, FirstRepeat names name := by
  induction names using List.reverseRecOn with
  | nil => exact .inl .nil
  | append_singleton names last ih =>
      obtain distinct | ⟨name, before, after, rfl, distinct, member⟩ := ih
      · by_cases repeated : last ∈ names
        · exact .inr ⟨last, names, [], rfl, distinct, repeated⟩
        · refine .inl (List.nodup_append'.mpr ⟨distinct, List.nodup_singleton last, ?_⟩)
          simpa using repeated
      · exact .inr ⟨name, before, after ++ [last], by simp, distinct, member⟩

/-! ## Reading tags -/

/-- The fields of a declaration, up to the first tag that is not known. -/
def readTags (fields : List (String × String)) : Except ScriptError (List FieldDescriptor) :=
  fields.mapM fun (name, tag) => FieldDescriptor.ofTag name tag

theorem readTags_cons (name tag : String) (rest : List (String × String)) :
    readTags ((name, tag) :: rest) =
      match PrimitiveType.ofTag? tag with
      | some type => (readTags rest).map (⟨name, type⟩ :: ·)
      | none => .error (.unrecognizedType tag) := by
  simp only [readTags, List.mapM_cons, FieldDescriptor.ofTag, PrimitiveType.ofTag]
  cases PrimitiveType.ofTag? tag with
  | none => rfl
  | some type => rfl

theorem readTags_eq (fields : List (String × String)) :
    readTags fields =
      match fields.find? isUnknown with
      | some (_, tag) => .error (.unrecognizedType tag)
      | none => .ok (recognized fields) := by
  induction fields with
  | nil => rfl
  | cons field rest ih =>
      obtain ⟨name, tag⟩ := field
      rw [readTags_cons]
      cases read : PrimitiveType.ofTag? tag with
      | none => simp [isUnknown, read]
      | some type =>
          have known : isUnknown (name, tag) = false := by simp [isUnknown, read]
          rw [List.find?_cons_of_neg (by simp [known]), ih]
          cases rest.find? isUnknown with
          | some field => rfl
          | none => simp [recognized, read, Except.map]

theorem PrimitiveType.tag_of_ofTag? {tag : String} {type : PrimitiveType}
    (read : ofTag? tag = some type) : type.tag = tag := by
  simpa using List.find?_some read

theorem recognized_map {fields : List (String × String)} (known : fields.find? isUnknown = none) :
    (recognized fields).map (fun field => (field.name, field.type.tag)) = fields := by
  induction fields with
  | nil => rfl
  | cons field rest ih =>
      obtain ⟨name, tag⟩ := field
      obtain ⟨first, others⟩ := List.forall_mem_cons.mp (List.find?_eq_none.mp known)
      cases read : PrimitiveType.ofTag? tag with
      | none => simp [isUnknown, read] at first
      | some type =>
          have rest := ih (List.find?_eq_none.mpr others)
          rw [recognized] at rest
          simp [recognized, read, PrimitiveType.tag_of_ofTag? read, rest]

theorem recognized_names {fields : List (String × String)}
    (known : fields.find? isUnknown = none) :
    (recognized fields).map (·.name) = fields.map (·.1) := by
  have written := congrArg (List.map Prod.fst) (recognized_map known)
  rw [List.map_map] at written
  exact written

namespace StructLayout

/-! ## Placing fields -/

theorem place_of_nodup {seen : List String} {fields : List FieldDescriptor}
    (distinct : (fields.map (·.name)).Nodup) (fresh : ∀ field ∈ fields, field.name ∉ seen)
    (offset : UInt32) : ∃ layout, place seen offset fields = .ok layout := by
  induction fields generalizing seen offset with
  | nil => exact ⟨_, rfl⟩
  | cons first rest ih =>
      obtain ⟨once, distinct⟩ := List.nodup_cons.mp distinct
      obtain ⟨new, fresh⟩ := List.forall_mem_cons.mp fresh
      obtain ⟨others, placed⟩ := @ih (first.name :: seen) distinct
        (fun field member => List.not_mem_cons_of_ne_of_not_mem
          (fun same => once (List.mem_map.mpr ⟨field, member, same⟩)) (fresh field member))
        (offset + first.type.byteWidth)
      exact ⟨_, by simp only [place, new, if_false, placed]; rfl⟩

theorem place_of_repeat {seen before after : List String} {name : String}
    {fields : List FieldDescriptor} (split : fields.map (·.name) = before ++ name :: after)
    (distinct : before.Nodup) (fresh : ∀ other ∈ before, other ∉ seen)
    (taken : name ∈ seen ∨ name ∈ before) (offset : UInt32) :
    place seen offset fields = .error (.duplicateField name) := by
  -- With each field its name moves from those before the repeat to those that were seen.
  induction fields generalizing seen before offset with
  | nil => simp at split
  | cons first rest ih =>
      cases before with
      | nil =>
          obtain ⟨same, -⟩ := List.cons_eq_cons.mp split
          simp [place, same, taken.resolve_right List.not_mem_nil]
      | cons other before =>
          obtain ⟨same, split⟩ := List.cons_eq_cons.mp split
          obtain ⟨once, distinct⟩ := List.nodup_cons.mp distinct
          obtain ⟨new, fresh⟩ := List.forall_mem_cons.mp fresh
          have later := @ih (other :: seen) before split distinct
            (fun third member => List.not_mem_cons_of_ne_of_not_mem
              (fun equal => once (equal ▸ member)) (fresh third member))
            (by grind) (offset + first.type.byteWidth)
          simp only [place, show first.name = other from same, new, if_false, later]
          rfl

/-- Fields are placed one after another. -/
theorem place_getElem? {seen : List String} {offset : UInt32} {fields : List FieldDescriptor}
    {layout : StructLayout} (placed : place seen offset fields = .ok layout) (index : Nat) :
    layout.fields[index]? =
      fields[index]?.map fun field => ⟨field, offset + .ofNat (span (fields.take index))⟩ := by
  induction fields generalizing seen offset layout index with
  | nil =>
      cases placed
      rfl
  | cons first rest ih =>
      obtain ⟨-, others, later, rfl⟩ := of_place_cons placed
      cases index with
      | zero => simp
      | succ index => simp [ih later, UInt32.add_assoc]

theorem descriptors_of_place {seen : List String} {offset : UInt32}
    {fields : List FieldDescriptor} {layout : StructLayout}
    (placed : place seen offset fields = .ok layout) :
    layout.fields.map (·.descriptor) = fields := by
  apply List.ext_getElem?
  intro index
  rw [List.getElem?_map, place_getElem? placed, Option.map_map]
  exact Option.map_id'

/-- What a layout of fields says: they are there in order, each at the sum of the widths
before it, and a name finds the field that has it and no other. -/
structure Places (layout : StructLayout) (fields : List FieldDescriptor) : Prop where
  order : layout.fields.map (·.descriptor) = fields
  offset : ∀ index field, layout.fields[index]? = some field →
    field.offset.toNat = span (fields.take index)
  size : layout.size.toNat = span fields
  field? : ∀ name field, layout.field? name = some field ↔
    field ∈ layout.fields ∧ field.descriptor.name = name
  offsetOf? : ∀ name offset, layout.offsetOf? name = some offset ↔
    ∃ field ∈ layout.fields, field.descriptor.name = name ∧ field.offset = offset

theorem Built.field?_iff {layout : StructLayout} (built : layout.Built) {name : String}
    {field : LayoutField} :
    layout.field? name = some field ↔ field ∈ layout.fields ∧ field.descriptor.name = name := by
  constructor
  · intro found
    exact ⟨List.mem_of_find?_eq_some found, by simpa using List.find?_some found⟩
  · rintro ⟨member, rfl⟩
    exact find?_of_nodup_map built.nodup member

theorem places_of_fields {fields : List FieldDescriptor} {layout : StructLayout}
    (placed : ofFields fields = .ok layout) (fits : span fields < UInt32.size) :
    layout.Places fields where
  order := descriptors_of_place placed
  offset index field found := by
    rw [place_getElem? placed] at found
    obtain ⟨descriptor, -, rfl⟩ := Option.map_eq_some_iff.mp found
    have before : span (fields.take index) ≤ span fields := by
      conv => rhs; rw [← List.take_append_drop index fields, span_append]
      exact Nat.le_add_right _ _
    rw [UInt32.zero_add, UInt32.toNat_ofNat_of_lt' (Nat.lt_of_le_of_lt before fits)]
  size := by
    rw [place_size placed, UInt32.zero_add, UInt32.toNat_ofNat_of_lt' fits]
  field? name field := Built.field?_iff ⟨fields, placed⟩
  offsetOf? name offset := by
    simp only [offsetOf?, Option.map_eq_some_iff, Built.field?_iff ⟨fields, placed⟩, and_assoc]

/-! ## Declarations -/

theorem ofTags_eq (fields : List (String × String)) :
    ofTags fields =
      match fields.find? isUnknown with
      | some (_, tag) => .error (.unrecognizedType tag)
      | none => ofFields (recognized fields) := by
  change (readTags fields).bind ofFields = _
  rw [readTags_eq]
  cases fields.find? isUnknown with
  | some field => rfl
  | none => rfl

theorem ofFields_cases (fields : List FieldDescriptor) :
    ((fields.map (·.name)).Nodup ∧ ∃ layout, ofFields fields = .ok layout) ∨
      ∃ name, FirstRepeat (fields.map (·.name)) name ∧
        ofFields fields = .error (.duplicateField name) := by
  obtain distinct | ⟨name, before, after, split, distinct, member⟩ :=
    nodup_or_firstRepeat (fields.map (·.name))
  · exact .inl ⟨distinct, place_of_nodup distinct (by simp) 0⟩
  · exact .inr ⟨name, ⟨before, after, split, distinct, member⟩,
      place_of_repeat split distinct (by simp) (.inr member) 0⟩

theorem ofFields_eq_error_iff {fields : List FieldDescriptor} {error : ScriptError} :
    ofFields fields = .error error ↔
      ∃ name, FirstRepeat (fields.map (·.name)) name ∧ error = .duplicateField name := by
  constructor
  · intro failed
    obtain ⟨-, layout, placed⟩ | ⟨name, first, repeated⟩ := ofFields_cases fields
    · cases failed.symm.trans placed
    · exact ⟨name, first, Except.error.inj (failed.symm.trans repeated)⟩
  · rintro ⟨name, ⟨before, after, split, distinct, member⟩, rfl⟩
    exact place_of_repeat split distinct (by simp) (.inr member) 0

theorem ofFields_eq_ok_iff {fields : List FieldDescriptor} :
    (∃ layout, ofFields fields = .ok layout) ↔ (fields.map (·.name)).Nodup :=
  ⟨fun ⟨_, placed⟩ => nodup_of_place placed, fun distinct => place_of_nodup distinct (by simp) 0⟩

/-- A declaration fails for the first tag that is not known, else for the first name that
repeats, else it has a layout of all its fields. The fields that its tags are read to have
the same layout. -/
theorem declaration_read (fields : List (String × String))
    (fits : span (recognized fields) < UInt32.size) :
    (∀ tag, ofTags fields = .error (.unrecognizedType tag) ↔
      ∃ name, fields.find? isUnknown = some (name, tag)) ∧
    (∀ name, ofTags fields = .error (.duplicateField name) ↔
      fields.find? isUnknown = none ∧ FirstRepeat (fields.map (·.1)) name) ∧
    ((∃ layout, ofTags fields = .ok layout) ↔
      fields.find? isUnknown = none ∧ (fields.map (·.1)).Nodup) ∧
    (∀ layout, ofTags fields = .ok layout →
      layout.fields.map (fun field => (field.descriptor.name, field.descriptor.type.tag)) = fields ∧
        layout.Places (recognized fields)) ∧
    (fields.find? isUnknown = none →
      readTags fields = .ok (recognized fields) ∧
        ofFields (recognized fields) = ofTags fields) := by
  rw [ofTags_eq]
  cases known : fields.find? isUnknown with
  | some field => simp [Prod.ext_iff]
  | none =>
      have names : (recognized fields).map (·.name) = fields.map (·.1) := recognized_names known
      simp only [ofFields_eq_error_iff, ofFields_eq_ok_iff, names]
      refine ⟨by simp, by simp, by simp, fun layout placed => ⟨?_, places_of_fields placed fits⟩,
        fun _ => ⟨?_, trivial⟩⟩
      · have written := recognized_map known
        rw [← descriptors_of_place placed, List.map_map] at written
        exact written
      · rw [readTags_eq, known]

/-- A name that repeats is not reported while a later tag is unknown. With that tag left out
it is, and with another name in its place the fields are placed. -/
theorem declaration_read_of_pair :
    let mixed := [("a", "u8"), ("a", "u16"), ("b", "u64")]
    let repeated := [("a", "u8"), ("a", "u16")]
    let sound := [("a", "u8"), ("b", "u16")]
    span (recognized mixed) < UInt32.size ∧ ofTags mixed = .error (.unrecognizedType "u64") ∧
      ofTags repeated = .error (.duplicateField "a") ∧ ofTags sound = .ok pairType.layout ∧
      pairType.layout.Places pair ∧ pairType.layout.offsetOf? "b" = some 1 := by
  intro mixed repeated sound
  have small : span (recognized mixed) < UInt32.size := by decide
  obtain ⟨unknown, -⟩ := declaration_read mixed small
  obtain ⟨-, duplicate, -⟩ := declaration_read repeated (by decide)
  obtain ⟨-, -, -, success, -⟩ := declaration_read sound (by decide)
  have placed : ofTags sound = .ok pairType.layout := by rfl
  obtain ⟨-, places⟩ := success _ placed
  refine ⟨small, (unknown "u64").mpr ⟨"b", by rfl⟩, ?_, placed, places, ?_⟩
  · exact (duplicate "a").mpr ⟨by rfl, ["a"], [], rfl, List.nodup_singleton _, by simp⟩
  · exact (places.offsetOf? "b" 1).mpr ⟨⟨⟨"b", .u16⟩, 1⟩, by simp [pairType], rfl, rfl⟩

end StructLayout

end EmuScript
