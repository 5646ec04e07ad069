import EmuScript.Proofs.Memory.Layout
import Mathlib.Data.List.Nodup

/-!
# Names of bound objects

Every operation that binds names is `bindVars` of its own list of places. So the checks of
the three operations are one check, and an object whose names differ keeps them different.
-/

set_option autoImplicit false

namespace EmuScript

/-! ## Layouts -/

theorem StructLayout.names_of_place {seen : List String} {offset : UInt32}
    {fields : List FieldDescriptor} {layout : StructLayout}
    (placed : place seen offset fields = .ok layout) :
    layout.fields.map (·.descriptor.name) = fields.map (·.name) := by
  induction fields generalizing seen offset layout with
  | nil =>
      cases placed
      rfl
  | cons first rest ih =>
      obtain ⟨-, others, later, rfl⟩ := of_place_cons placed
      simp [ih later]

theorem StructLayout.nodup_of_place {seen : List String} {offset : UInt32}
    {fields : List FieldDescriptor} {layout : StructLayout}
    (placed : place seen offset fields = .ok layout) : (fields.map (·.name)).Nodup := by
  induction fields generalizing seen offset layout with
  | nil => exact List.nodup_nil
  | cons first rest ih =>
      obtain ⟨-, others, later, -⟩ := of_place_cons placed
      refine List.nodup_cons.mpr ⟨fun repeated => ?_, ih later⟩
      obtain ⟨field, member, same⟩ := List.mem_map.mp repeated
      exact place_fresh later field member (same ▸ List.mem_cons_self)

/-- A layout that declared fields have been placed in. -/
def StructLayout.Built (layout : StructLayout) : Prop :=
  ∃ fields, ofFields fields = .ok layout

theorem StructLayout.Built.nodup {layout : StructLayout} (built : layout.Built) :
    (layout.fields.map (·.descriptor.name)).Nodup := by
  obtain ⟨fields, placed⟩ := built
  rw [names_of_place placed]
  exact nodup_of_place placed

theorem StructType.layout_built {fields : List FieldDescriptor} {type : StructType}
    (built : StructType.ofFields fields = .ok type) : type.layout.Built :=
  ⟨fields, layout_of_fields built⟩

namespace BoundObject

/-! ## Names and bindings -/

@[simp] theorem names_extend (object : BoundObject) (properties : List (String × VarBinding)) :
    (object.extend properties).names = object.names ++ properties.map (·.1) := by
  simp [names, extend]

theorem contains_iff {object : BoundObject} {name : String} :
    object.contains name = true ↔ name ∈ object.names := by
  simp [contains, binding?, names]

theorem binding?_extend {object : BoundObject} {name : String} {binding : VarBinding}
    (bound : object.binding? name = some binding) (properties : List (String × VarBinding)) :
    (object.extend properties).binding? name = some binding := by
  simp [binding?, extend, List.lookup_append, show object.properties.lookup name = _ from bound]

/-- The second object has the properties of the first, at the same positions, and maybe
more. -/
def Extends (earlier later : BoundObject) : Prop :=
  ∃ properties, later = earlier.extend properties

theorem Extends.refl (object : BoundObject) : object.Extends object :=
  ⟨[], by simp [extend]⟩

theorem Extends.trans {first second third : BoundObject} (early : first.Extends second)
    (late : second.Extends third) : first.Extends third := by
  obtain ⟨properties, rfl⟩ := early
  obtain ⟨others, rfl⟩ := late
  exact ⟨properties ++ others, by simp [extend]⟩

theorem Extends.binding? {earlier later : BoundObject} (extended : earlier.Extends later)
    {name : String} {binding : VarBinding} (bound : earlier.binding? name = some binding) :
    later.binding? name = some binding := by
  obtain ⟨properties, rfl⟩ := extended
  exact binding?_extend bound properties

theorem Extends.idxOf {earlier later : BoundObject} (extended : earlier.Extends later)
    {name : String} (member : name ∈ earlier.names) :
    later.names.idxOf name = earlier.names.idxOf name := by
  obtain ⟨properties, rfl⟩ := extended
  rw [names_extend, List.idxOf_append_of_mem member]

/-! ## The check before a list is bound -/

theorem firstClash?_eq_none {object : BoundObject} {seen names : List String} :
    object.firstClash? seen names = none ↔
      names.Nodup ∧ ∀ name ∈ names, name ∉ seen ∧ name ∉ object.names := by
  induction names generalizing seen with
  | nil => simp [firstClash?]
  | cons first rest ih =>
      by_cases known : first ∈ seen ∨ first ∈ object.names
      · have clash : object.firstClash? seen (first :: rest) = some first := by
          simp [firstClash?, known, contains_iff]
        simp only [clash, reduceCtorEq, List.forall_mem_cons, false_iff]
        rintro ⟨-, free, -⟩
        exact known.elim free.1 free.2
      · have next : object.firstClash? seen (first :: rest) =
            object.firstClash? (first :: seen) rest := by
          simp [firstClash?, known, contains_iff]
        rw [not_or] at known
        rw [next, ih]
        rw [List.nodup_cons, List.forall_mem_cons]
        simp only [List.mem_cons, not_or]
        constructor
        · rintro ⟨distinct, free⟩
          exact ⟨⟨fun repeated => (free first repeated).1.1 rfl, distinct⟩, known,
            fun name member => ⟨(free name member).1.2, (free name member).2⟩⟩
        · rintro ⟨⟨once, distinct⟩, -, free⟩
          exact ⟨distinct, fun name member =>
            ⟨⟨fun same => once (same ▸ member), (free name member).1⟩, (free name member).2⟩⟩

theorem of_firstClash?_eq_some {object : BoundObject} {seen names : List String} {name : String}
    (clash : object.firstClash? seen names = some name) :
    name ∈ names ∧ (name ∈ seen ∨ name ∈ object.names ∨ 1 < names.count name) := by
  induction names generalizing seen with
  | nil => cases clash
  | cons first rest ih =>
      by_cases known : first ∈ seen ∨ first ∈ object.names
      · have same : first = name := by simpa [firstClash?, known, contains_iff] using clash
        subst same
        exact ⟨List.mem_cons_self, known.imp_right .inl⟩
      · have next : object.firstClash? (first :: seen) rest = some name := by
          simpa [firstClash?, known, contains_iff] using clash
        obtain ⟨member, reason⟩ := ih next
        refine ⟨.tail _ member, ?_⟩
        rcases reason with earlier | bound | repeated
        · rcases List.mem_cons.mp earlier with rfl | before
          · have again : 0 < rest.count name := List.count_pos_iff.mpr member
            exact .inr (.inr (by simpa using again))
          · exact .inl before
        · exact .inr (.inl bound)
        · exact .inr (.inr (Nat.lt_of_lt_of_le repeated List.count_le_count_cons))

/-- Where names do not repeat, the first that clashes is the first that is bound already. -/
theorem firstClash?_fields {object : BoundObject} {seen : List String} {fields : List LayoutField}
    (distinct : (fields.map (·.descriptor.name)).Nodup)
    (fresh : ∀ field ∈ fields, field.descriptor.name ∉ seen) :
    object.firstClash? seen (fields.map (·.descriptor.name)) =
      (fields.find? fun field => object.contains field.descriptor.name).map
        (·.descriptor.name) := by
  induction fields generalizing seen with
  | nil => rfl
  | cons field rest ih =>
      obtain ⟨once, distinct⟩ := List.nodup_cons.mp distinct
      obtain ⟨new, fresh⟩ := List.forall_mem_cons.mp fresh
      cases bound : object.contains field.descriptor.name with
      | true => simp [firstClash?, bound]
      | false =>
          have others (other : LayoutField) (member : other ∈ rest) :
              other.descriptor.name ∉ field.descriptor.name :: seen :=
            List.not_mem_cons_of_ne_of_not_mem
              (fun same => once (List.mem_map.mpr ⟨other, member, same⟩)) (fresh other member)
          simp [firstClash?, bound, new, ih distinct others]

/-! ## Operations -/

/-- An operation that binds names. -/
inductive Operation where
  | var (address : UInt32) (name : String) (type : PrimitiveType)
  | vars (list : List (UInt32 × String × PrimitiveType))
  | struct (base : UInt32) (layout : StructLayout) (built : layout.Built)

namespace Operation

def change : Operation → Change Unit
  | var address name type => bindVar address name type
  | vars list => bindVars list
  | struct base layout _ => bindStruct base layout

/-- The result of an operation and the object after it. -/
def on (operation : Operation) (object : BoundObject) : Except ScriptError Unit × BoundObject :=
  operation.change.on object

/-- The places that an operation names, in the order in which it adds them. -/
def places : Operation → List (UInt32 × String × PrimitiveType)
  | var address name type => [(address, name, type)]
  | vars list => list
  | struct base layout _ =>
      layout.fields.map fun field =>
        (base + field.offset, field.descriptor.name, field.descriptor.type)

def names (operation : Operation) : List String :=
  operation.places.map fun (_, name, _) => name

def properties (operation : Operation) : List (String × VarBinding) :=
  operation.places.map fun (address, name, type) => (name, ⟨address, type⟩)

theorem names_properties (operation : Operation) :
    operation.properties.map (·.1) = operation.names := by
  simp [properties, names]

/-- A layout is checked like a list of places: its names do not repeat. -/
theorem bindStruct_on_eq (object : BoundObject) (base : UInt32) {layout : StructLayout}
    (built : layout.Built) :
    (bindStruct base layout).on object = (bindVars (struct base layout built).places).on object := by
  have clash : object.firstClash? [] (layout.fields.map (·.descriptor.name)) = _ :=
    firstClash?_fields built.nodup (by simp)
  have listed : (struct base layout built).places.map (fun (_, name, _) => name) =
      layout.fields.map (·.descriptor.name) := by
    simp [places]
  rw [bindStruct_on, bindVars_on, listed, clash]
  cases layout.fields.find? fun field => object.contains field.descriptor.name with
  | some field => rfl
  | none => simp [places, placeFields, Function.comp_def]

theorem on_eq_bindVars (operation : Operation) (object : BoundObject) :
    operation.on object = (bindVars operation.places).on object := by
  cases operation with
  | var address name type =>
      have checked : (var address name type).on object = _ := bindVar_on address name type object
      rw [checked, bindVars_on]
      cases bound : object.contains name <;> simp [places, firstClash?, bound]
  | vars list => rfl
  | struct base layout built => exact bindStruct_on_eq object base built

/-- What an operation does: it adds all of its properties, or it fails for a name that it
cannot add and adds none. -/
theorem on_cases (operation : Operation) (object : BoundObject) :
    (operation.on object = (.ok (), object.extend operation.properties) ∧
      operation.names.Nodup ∧ ∀ name ∈ operation.names, name ∉ object.names) ∨
    ∃ name ∈ operation.names, (name ∈ object.names ∨ 1 < operation.names.count name) ∧
      operation.on object = (.error (.propertyRedefined name), object) := by
  have whole : operation.on object = _ :=
    (operation.on_eq_bindVars object).trans (bindVars_on operation.places object)
  cases clash : object.firstClash? [] operation.names with
  | none =>
      rw [show object.firstClash? [] (operation.places.map _) = _ from clash] at whole
      obtain ⟨distinct, free⟩ := firstClash?_eq_none.mp clash
      exact .inl ⟨whole, distinct, fun name member => (free name member).2⟩
  | some name =>
      rw [show object.firstClash? [] (operation.places.map _) = _ from clash] at whole
      obtain ⟨member, reason⟩ := of_firstClash?_eq_some clash
      exact .inr ⟨name, member, reason.resolve_left (by simp), whole⟩

theorem on_extends (operation : Operation) (object : BoundObject) :
    object.Extends (operation.on object).2 := by
  rcases operation.on_cases object with ⟨added, -⟩ | ⟨name, -, -, refused⟩
  · exact ⟨_, congrArg Prod.snd added⟩
  · rw [refused]
    exact .refl object

theorem nodup_on {object : BoundObject} (distinct : object.names.Nodup) (operation : Operation) :
    (operation.on object).2.names.Nodup := by
  rcases operation.on_cases object with ⟨added, once, free⟩ | ⟨name, -, -, refused⟩
  · rw [added, names_extend, names_properties]
    exact List.nodup_append'.mpr ⟨distinct, once, fun name bound new => free name new bound⟩
  · rwa [refused]

end Operation

/-- The object after operations, each of which may have failed. -/
def after (object : BoundObject) (operations : List Operation) : BoundObject :=
  operations.foldl (fun object operation => (operation.on object).2) object

theorem nodup_after {object : BoundObject} (distinct : object.names.Nodup)
    (operations : List Operation) : (object.after operations).names.Nodup := by
  induction operations generalizing object with
  | nil => exact distinct
  | cons operation rest ih => exact ih (operation.nodup_on distinct)

theorem after_extends (object : BoundObject) (operations : List Operation) :
    object.Extends (object.after operations) := by
  induction operations generalizing object with
  | nil => exact .refl object
  | cons operation rest ih => exact (operation.on_extends object).trans (ih _)

/-- An object as scripts get it. -/
inductive Fresh : BoundObject → Prop
  | empty : Fresh {}
  | place {fields : List FieldDescriptor} {type : StructType}
      (built : StructType.ofFields fields = .ok type) (base : UInt32) : Fresh (type.place base)
  | element {fields : List FieldDescriptor} {type : StructType}
      (built : StructType.ofFields fields = .ok type) (base index : UInt32) :
      Fresh (type.element base index)

theorem nodup_place {fields : List FieldDescriptor} {type : StructType}
    (built : StructType.ofFields fields = .ok type) (base : UInt32) :
    (type.place base).names.Nodup := by
  simpa [StructType.place_eq, names, placeFields, Function.comp_def] using
    (StructType.layout_built built).nodup

theorem Fresh.nodup {object : BoundObject} (fresh : object.Fresh) : object.names.Nodup := by
  cases fresh with
  | empty => exact List.nodup_nil
  | place built base => exact nodup_place built base
  | element built base index => exact nodup_place built _

/-- The names of an object differ whatever has been bound to it, and a name that is bound
keeps its place in memory and its position. An operation either adds all of its properties
or leaves the object as it was, and it fails exactly if it would bind a name that is bound
already or that it has twice itself; the error names it. -/
theorem names_of_operations {origin : BoundObject} (fresh : origin.Fresh)
    (earlier later : List Operation) (operation : Operation) :
    let object := origin.after earlier
    let (result, next) := operation.on object
    object.names.Nodup ∧
    (∀ name binding, object.binding? name = some binding →
      (object.after later).binding? name = some binding ∧
      (object.after later).names.idxOf name = object.names.idxOf name) ∧
    (result = .ok () → next.properties = object.properties ++ operation.properties) ∧
    (∀ error, result = .error error → next = object ∧
      ∃ name ∈ operation.names, error = .propertyRedefined name ∧
        (object.contains name = true ∨ 1 < operation.names.count name)) ∧
    ((∃ error, result = .error error) ↔
      (∃ name ∈ operation.names, object.contains name = true) ∨ ¬ operation.names.Nodup) := by
  intro object
  have distinct : object.names.Nodup := nodup_after fresh.nodup earlier
  have kept (name : String) (binding : VarBinding) (bound : object.binding? name = some binding) :
      (object.after later).binding? name = some binding ∧
        (object.after later).names.idxOf name = object.names.idxOf name := by
    have member : name ∈ object.names := contains_iff.mp (by simp [contains, bound])
    exact ⟨(object.after_extends later).binding? bound, (object.after_extends later).idxOf member⟩
  simp only [contains_iff]
  rcases operation.on_cases object with ⟨added, once, free⟩ | ⟨name, member, reason, refused⟩
  · rw [added]
    refine ⟨distinct, kept, fun _ => rfl, by nofun, ⟨by nofun, ?_⟩⟩
    rintro (⟨name, member, bound⟩ | repeated)
    · exact absurd bound (free name member)
    · exact absurd once repeated
  · rw [refused]
    refine ⟨distinct, kept, by nofun, ?_, ⟨fun _ => ?_, fun _ => ⟨_, rfl⟩⟩⟩
    · rintro error ⟨⟩
      exact ⟨rfl, name, member, rfl, reason⟩
    · rcases reason with bound | repeated
      · exact .inl ⟨name, member, bound⟩
      · exact .inr fun once =>
          absurd (List.nodup_iff_count_le_one.mp once name) (Nat.not_le.mpr repeated)

theorem pairType_built : pairType.layout.Built :=
  ⟨pair, by rfl⟩

/-- A list that has a name twice binds nothing, and a name may be bound after it. The same
structure cannot be bound to the object again, and what comes later moves no name. -/
theorem names_of_operations_of_pair :
    let object := (pairType.element 0xFFFFFFFE 1).after
      [.vars [(0x10, "c", .u8), (0x20, "c", .u8)], .var 0x30 "c" .s16]
    let (result, next) := (Operation.struct 0x40 pairType.layout pairType_built).on object
    object.names = ["a", "b", "c"] ∧ object.names.Nodup ∧
      result = .error (.propertyRedefined "a") ∧ next = object ∧
      (object.after [.vars [(0, "d", .float), (4, "e", .u8)]]).binding? "c" = some ⟨0x30, .s16⟩ ∧
      (object.after [.vars [(0, "d", .float), (4, "e", .u8)]]).names.idxOf "c" = 2 := by
  intro object
  have fresh : (pairType.element 0xFFFFFFFE 1).Fresh :=
    .element (show StructType.ofFields pair = .ok pairType by rfl) _ _
  have named : object.names = ["a", "b", "c"] := by decide
  have bound : object.binding? "c" = some ⟨0x30, .s16⟩ := by decide
  have position : object.names.idxOf "c" = 2 := by decide
  have refused : ((Operation.struct 0x40 pairType.layout pairType_built).on object).1 =
      .error (.propertyRedefined "a") := by rfl
  obtain ⟨distinct, kept, -, failed, -⟩ := names_of_operations fresh
    [.vars [(0x10, "c", .u8), (0x20, "c", .u8)], .var 0x30 "c" .s16]
    [.vars [(0, "d", .float), (4, "e", .u8)]] (.struct 0x40 pairType.layout pairType_built)
  obtain ⟨still, place⟩ := kept "c" ⟨0x30, .s16⟩ bound
  exact ⟨named, distinct, refused, (failed _ refused).1, still, place.trans position⟩

end BoundObject

end EmuScript
