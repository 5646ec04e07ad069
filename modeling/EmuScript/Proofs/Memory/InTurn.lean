import EmuScript.Proofs.Memory.Binding

/-!
# Places bound in turn

A list of places is bound as its entries would be bound one after another, except that
nothing stays bound when one of them fails. A structure is bound as the list of its fields,
and a new object of a structure type is an empty one that the structure is bound to.
-/

set_option autoImplicit false

namespace EmuScript.BoundObject

/-- Binds the entries of a list one after another, up to the first failure. What was bound
before the failure stays bound. -/
def bindEach (list : List (UInt32 × String × PrimitiveType)) : Change Unit :=
  list.forM fun (address, name, type) => bindVar address name type

theorem bindEach_cons_on (address : UInt32) (name : String) (type : PrimitiveType)
    (rest : List (UInt32 × String × PrimitiveType)) (object : BoundObject) :
    (bindEach ((address, name, type) :: rest)).on object =
      if object.contains name then (.error (.propertyRedefined name), object)
      else (bindEach rest).on (object.extend [(name, ⟨address, type⟩)]) := by
  have joined : (bindEach ((address, name, type) :: rest)).on object =
      (bindVar address name type >>= fun _ => bindEach rest).on object := rfl
  rw [joined, Change.bind_on, bindVar_on]
  cases object.contains name with
  | true => rfl
  | false => rfl

/-- The check of a list asks only which names are taken, not whether the object or an
earlier entry has taken them. -/
theorem firstClash?_congr {object other : BoundObject} {seen before names : List String}
    (same : ∀ name, name ∈ seen ∨ name ∈ object.names ↔ name ∈ before ∨ name ∈ other.names) :
    object.firstClash? seen names = other.firstClash? before names := by
  induction names generalizing seen before with
  | nil => rfl
  | cons first rest ih =>
      have next : object.firstClash? (first :: seen) rest =
          other.firstClash? (first :: before) rest := by
        refine ih fun name => ?_
        rw [List.mem_cons, List.mem_cons, or_assoc, or_assoc, same]
      simp only [firstClash?, Bool.or_eq_true, decide_eq_true_eq, contains_iff, same first, next]

/-- A list is bound by binding its first entry and then the others, unless they fail. -/
theorem bindVars_cons_on (address : UInt32) (name : String) (type : PrimitiveType)
    (rest : List (UInt32 × String × PrimitiveType)) (object : BoundObject) :
    (bindVars ((address, name, type) :: rest)).on object =
      if object.contains name then (.error (.propertyRedefined name), object)
      else
        match (bindVars rest).on (object.extend [(name, ⟨address, type⟩)]) with
        | (.ok (), next) => (.ok (), next)
        | (.error error, _) => (.error error, object) := by
  rw [bindVars_on, bindVars_on]
  cases bound : object.contains name with
  | true => simp [firstClash?, bound]
  | false =>
      have moved (names : List String) : object.firstClash? [name] names =
          (object.extend [(name, ⟨address, type⟩)]).firstClash? [] names :=
        firstClash?_congr fun other => by simp [or_comm]
      simp only [firstClash?, bound, List.map_cons, List.not_mem_nil, decide_false, Bool.or_false,
        Bool.false_eq_true, if_false, moved]
      generalize (object.extend [(name, ⟨address, type⟩)]).firstClash? [] _ = clash
      cases clash with
      | some clash => rfl
      | none => simp [extend]

/-- Binding a list and binding its entries in turn have the same result, but a list that
fails leaves the object as it was. -/
theorem bindVars_on_eq (list : List (UInt32 × String × PrimitiveType)) (object : BoundObject) :
    (bindVars list).on object =
      match (bindEach list).on object with
      | (.ok (), next) => (.ok (), next)
      | (.error error, _) => (.error error, object) := by
  induction list generalizing object with
  | nil => rfl
  | cons entry rest ih =>
      obtain ⟨address, name, type⟩ := entry
      rw [bindVars_cons_on, bindEach_cons_on, ih]
      cases object.contains name with
      | true => rfl
      | false =>
          simp only [Bool.false_eq_true, if_false]
          rcases (bindEach rest).on (object.extend [(name, ⟨address, type⟩)]) with ⟨result, after⟩
          cases result with
          | ok value => rfl
          | error error => rfl

/-- In turn, the first entry that cannot be bound after those before it ends the list. -/
theorem bindEach_on_eq_error_iff {object reached : BoundObject}
    {list : List (UInt32 × String × PrimitiveType)} {error : ScriptError} :
    (bindEach list).on object = (.error error, reached) ↔
      ∃ before address name type after, list = before ++ (address, name, type) :: after ∧
        (bindEach before).on object = (.ok (), reached) ∧
        (bindVar address name type).on reached = (.error error, reached) := by
  induction list generalizing object with
  | nil =>
      constructor
      · intro failed
        cases failed
      · intro found
        obtain ⟨before, address, name, type, after, split, -⟩ := found
        simp at split
  | cons entry rest ih =>
      obtain ⟨address, name, type⟩ := entry
      rw [bindEach_cons_on]
      by_cases bound : object.contains name
      · rw [if_pos bound]
        constructor
        · intro failed
          cases failed
          exact ⟨[], address, name, type, rest, rfl, rfl, by simp [bindVar_on, bound]⟩
        · intro found
          obtain ⟨before, address', name', type', after, split, early, late⟩ := found
          cases before with
          | nil =>
              cases split
              cases early
              simpa [bindVar_on, bound] using late
          | cons first before =>
              cases split
              simp [bindEach_cons_on, bound] at early
      · rw [if_neg bound, ih]
        constructor
        · intro found
          obtain ⟨before, address', name', type', after, rfl, early, late⟩ := found
          have first : (bindEach ((address, name, type) :: before)).on object =
              (.ok (), reached) := by
            rw [bindEach_cons_on, if_neg bound, early]
          exact ⟨(address, name, type) :: before, address', name', type', after, rfl, first, late⟩
        · intro found
          obtain ⟨before, address', name', type', after, split, early, late⟩ := found
          cases before with
          | nil =>
              cases split
              cases early
              simp [bindVar_on, bound] at late
          | cons first before =>
              cases split
              rw [bindEach_cons_on, if_neg bound] at early
              exact ⟨before, address', name', type', after, rfl, early, late⟩

theorem bindVars_on_eq_ok_iff {object next : BoundObject}
    {list : List (UInt32 × String × PrimitiveType)} :
    (bindVars list).on object = (.ok (), next) ↔ (bindEach list).on object = (.ok (), next) := by
  rw [bindVars_on_eq]
  rcases (bindEach list).on object with ⟨result, after⟩
  cases result with
  | ok value => rfl
  | error error => simp

theorem bindVars_on_eq_error_iff {object next : BoundObject}
    {list : List (UInt32 × String × PrimitiveType)} {error : ScriptError} :
    (bindVars list).on object = (.error error, next) ↔
      next = object ∧ ∃ reached, (bindEach list).on object = (.error error, reached) := by
  rw [bindVars_on_eq]
  rcases (bindEach list).on object with ⟨result, after⟩
  cases result with
  | ok value => simp
  | error first => simp [and_comm, eq_comm]

/-- The check of a structure finds nothing in an empty object. -/
theorem bindStruct_empty_on (base : UInt32) (type : StructType) :
    (bindStruct base type.layout).on {} = (.ok (), type.place base) := by
  have free : type.layout.fields.find? (fun field =>
      ({} : BoundObject).contains field.descriptor.name) = none :=
    List.find?_eq_none.mpr fun field _ => by simp [contains, binding?]
  rw [bindStruct_on, free, StructType.place_eq]
  rfl

/-- A list is bound with the result that binding its entries in turn has, and with the same
object if all of them can be bound; else it fails for the first entry that cannot, and the
object is as it was. A structure is bound as the list of its fields at their addresses, and
placed as it is bound to an empty object. -/
theorem lists_bound_in_turn (object : BoundObject) :
    (∀ list next, (Operation.vars list).on object = (.ok (), next) ↔
      (bindEach list).on object = (.ok (), next)) ∧
    (∀ list error next, (Operation.vars list).on object = (.error error, next) ↔
      next = object ∧
      ∃ before address name type after reached, list = before ++ (address, name, type) :: after ∧
        (bindEach before).on object = (.ok (), reached) ∧
        (bindVar address name type).on reached = (.error error, reached)) ∧
    (∀ layout (built : layout.Built) base,
      (Operation.struct base layout built).on object =
        (Operation.vars (layout.fields.map fun field =>
          (base + field.offset, field.descriptor.name, field.descriptor.type))).on object) ∧
    ∀ (type : StructType) base, (bindStruct base type.layout).on {} =
      (.ok (), type.place base) := by
  refine ⟨fun list next => ?_, fun list error next => ?_, fun layout built base => ?_, ?_⟩
  · exact bindVars_on_eq_ok_iff
  · refine bindVars_on_eq_error_iff.trans (and_congr_right fun _ => ?_)
    constructor
    · intro ended
      obtain ⟨reached, failed⟩ := ended
      obtain ⟨before, address, name, type, after, split, early, late⟩ :=
        bindEach_on_eq_error_iff.mp failed
      exact ⟨before, address, name, type, after, reached, split, early, late⟩
    · intro found
      obtain ⟨before, address, name, type, after, reached, split, early, late⟩ := found
      exact ⟨reached,
        bindEach_on_eq_error_iff.mpr ⟨before, address, name, type, after, split, early, late⟩⟩
  · exact Operation.on_eq_bindVars (.struct base layout built) object
  · exact fun type base => bindStruct_empty_on base type

/-- The second entry has a name of the object. In turn the first entry would be bound
before that is found; as a list none is. A structure is bound past the last address. -/
theorem lists_bound_in_turn_of_pair :
    let object := pairType.place 0x40
    let list := [(0x10, "c", .u8), (0x20, "a", .u16), (0x30, "c", .s8)]
    let placed := [(0xFFFFFFFF, "a", .u8), (0, "b", .u16)]
    ((bindEach list).on object).2.names = ["a", "b", "c"] ∧
      (Operation.vars list).on object = (.error (.propertyRedefined "a"), object) ∧
      (Operation.struct 0xFFFFFFFF pairType.layout pairType_built).on {} =
        (Operation.vars placed).on {} ∧
      (bindEach placed).on {} = (.ok (), pairType.place 0xFFFFFFFF) := by
  intro object list placed
  obtain ⟨-, failed, -, -⟩ := lists_bound_in_turn object
  obtain ⟨bound, -, struct, place⟩ := lists_bound_in_turn {}
  have listed : (Operation.struct 0xFFFFFFFF pairType.layout pairType_built).on {} =
      (Operation.vars placed).on {} := struct pairType.layout pairType_built 0xFFFFFFFF
  refine ⟨by decide, ?_, listed, ?_⟩
  · exact (failed list _ object).mpr
      ⟨rfl, [(0x10, "c", .u8)], 0x20, "a", .u16, [(0x30, "c", .s8)], _, rfl, rfl, rfl⟩
  · apply (bound placed _).mp
    rw [← listed]
    exact place pairType 0xFFFFFFFF

end EmuScript.BoundObject
