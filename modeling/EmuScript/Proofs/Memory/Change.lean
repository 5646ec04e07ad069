import EmuScript.Memory.Binding

/-!
# Changes of bound objects

What each change of an object comes to, as its result and the object after it. A change
looks at all names before it binds the first one, so the object is as it was after an
error.
-/

set_option autoImplicit false

namespace EmuScript.BoundObject

/-- A change goes on with another one where it succeeds. -/
theorem Change.bind_on {α β : Type} (change : Change α) (next : α → Change β)
    (object : BoundObject) :
    (change >>= next).on object =
      match change.on object with
      | (.ok value, after) => (next value).on after
      | (.error error, after) => (.error error, after) := by
  have reached : (change >>= next).on object =
      StateT.run (ExceptT.bindCont next (change.on object).1) (change.on object).2 := rfl
  rw [reached]
  rcases change.on object with ⟨result, after⟩
  cases result with
  | ok value => rfl
  | error error => rfl

theorem extend_extend (object : BoundObject) (first second : List (String × VarBinding)) :
    (object.extend first).extend second = object.extend (first ++ second) := by
  simp [extend]

theorem bindVar_on (address : UInt32) (name : String) (type : PrimitiveType)
    (object : BoundObject) :
    (bindVar address name type).on object =
      if object.contains name then (.error (.propertyRedefined name), object)
      else (.ok (), object.extend [(name, ⟨address, type⟩)]) := by
  have checked : (bindVar address name type).on object =
      (if object.contains name then throw (.propertyRedefined name)
        else define name ⟨address, type⟩ : Change Unit).on object := rfl
  rw [checked]
  split
  · rfl
  · rfl

theorem defineAll_on (properties : List (String × VarBinding)) (object : BoundObject) :
    (defineAll properties).on object = (.ok (), object.extend properties) := by
  induction properties generalizing object with
  | nil =>
      have same : object.extend [] = object := by simp [extend]
      rw [same]
      rfl
  | cons property rest ih =>
      have later : (defineAll (property :: rest)).on object =
          (defineAll rest).on (object.extend [property]) := rfl
      rw [later, ih, extend_extend, List.singleton_append]

theorem bindVars_on (list : List (UInt32 × String × PrimitiveType)) (object : BoundObject) :
    (bindVars list).on object =
      match object.firstClash? [] (list.map fun (_, name, _) => name) with
      | some name => (.error (.propertyRedefined name), object)
      | none => (.ok (), object.extend (list.map fun (address, name, type) =>
          (name, ⟨address, type⟩))) := by
  have checked : (bindVars list).on object =
      (match object.firstClash? [] (list.map fun (_, name, _) => name) with
        | some name => throw (.propertyRedefined name)
        | none => defineAll (list.map fun (address, name, type) => (name, ⟨address, type⟩)) :
        Change Unit).on object := rfl
  rw [checked]
  split
  · rfl
  · exact defineAll_on _ object

theorem bindLayout_on (base : UInt32) (layout : StructLayout) (object : BoundObject) :
    (bindLayout base layout).on object = (.ok (), object.extend (placeFields base layout)) :=
  defineAll_on _ object

theorem bindStruct_on (base : UInt32) (layout : StructLayout) (object : BoundObject) :
    (bindStruct base layout).on object =
      match layout.fields.find? fun field => object.contains field.descriptor.name with
      | some field => (.error (.propertyRedefined field.descriptor.name), object)
      | none => (.ok (), object.extend (placeFields base layout)) := by
  have checked : (bindStruct base layout).on object =
      (match layout.fields.find? fun field => object.contains field.descriptor.name with
        | some field => throw (.propertyRedefined field.descriptor.name)
        | none => bindLayout base layout : Change Unit).on object := rfl
  rw [checked]
  split
  · rfl
  · exact bindLayout_on base layout object

end EmuScript.BoundObject

namespace EmuScript.StructType

theorem place_eq (type : StructType) (base : UInt32) :
    type.place base = ⟨BoundObject.placeFields base type.layout⟩ := by
  rw [place, BoundObject.bindLayout_on]
  rfl

end EmuScript.StructType
