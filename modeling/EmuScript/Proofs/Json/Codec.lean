import EmuScript.Json.Codec
import EmuScript.Proofs.Json.Text

/-!
# Data of scripts in JSON text

All data that scripts hand over survive being written and read. A record is found whatever
the order of its members is, and whatever other members there are. The names of choices are
those that the library itself knows.
-/

set_option autoImplicit false

namespace EmuScript.Json

variable {α : Type}

/-- A decoder takes a value, and the text that is written for it, to stand for `meaning`. -/
def Means (decode : Json → Option α) (value : Json) (meaning : α) : Prop :=
  decode value = some meaning ∧ (value.Proper → (ofText? value.text).bind decode = some meaning)

/-- Data of a type are read from the text that is written for them. -/
def Survives (encode : α → Json) (decode : Json → Option α) : Prop :=
  ∀ data, (ofText? (encode data).text).bind decode = some data

theorem means_of_decode {decode : Json → Option α} {value : Json} {meaning : α}
    (decoded : decode value = some meaning) : Means decode value meaning :=
  ⟨decoded, fun proper => by rw [proper.ofText?_text, Option.bind_some, decoded]⟩

theorem survives_of_proper {encode : α → Json} {decode : Json → Option α}
    (proper : ∀ data, (encode data).Proper) (decoded : ∀ data, decode (encode data) = some data) :
    Survives encode decode :=
  fun data => (means_of_decode (decoded data)).2 (proper data)

/-! ## Choices -/

theorem lowerCase_type (type : PrimitiveType) : lowerCase type.label = type.tag := by
  cases type <;> decide

theorem lowerCase_kind (kind : HookKind) : lowerCase kind.label = kind.name := by
  cases kind <;> decide

theorem choice?_string (choices : List α) (name : α → String) (written : String) :
    choice? choices name (.string written) = choices.find? fun choice => name choice == written :=
  rfl

theorem primitiveType?_string (written : String) :
    primitiveType? (.string written) = PrimitiveType.ofTag? written := by
  simp only [primitiveType?, choice?_string, lowerCase_type, PrimitiveType.ofTag?]

theorem primitiveType?_iff (written : String) (type : PrimitiveType) :
    primitiveType? (.string written) = some type ↔ PrimitiveType.ofTag written = .ok type := by
  rw [primitiveType?_string, PrimitiveType.ofTag]
  cases PrimitiveType.ofTag? written <;> simp

theorem hookKind?_string (written : String) :
    hookKind? (.string written) = HookKind.ofName? written := by
  simp only [hookKind?, choice?_string, lowerCase_kind]
  unfold HookKind.ofName?
  split
  case h_1 | h_2 | h_3 => rfl
  case h_4 exec read write =>
    refine List.find?_eq_none.mpr fun kind _ same => ?_
    have named : kind.name = written := by simpa using same
    cases kind with
    | exec => exact exec named.symm
    | read => exact read named.symm
    | write => exact write named.symm

theorem primitiveType?_ofPrimitiveType (type : PrimitiveType) :
    primitiveType? (ofPrimitiveType type) = some type := by
  cases type <;> decide

theorem hookKind?_ofHookKind (kind : HookKind) : hookKind? (ofHookKind kind) = some kind := by
  cases kind <;> decide

theorem threadState?_ofThreadState (state : ThreadState) :
    threadState? (ofThreadState state) = some state := by
  cases state <;> decide

theorem memorySpace?_ofMemorySpace (space : MemorySpace) :
    memorySpace? (ofMemorySpace space) = some space := by
  cases space <;> decide

/-! ## Records -/

/-- An object has the members of a record, in any order, and maybe others. -/
def Extends (members known : List (String × Json)) : Prop :=
  ∃ others, members.Perm (known ++ others) ∧ ∀ other ∈ others, other.1 ∉ known.map Prod.fst

theorem lookup_of_unique {key : String} {value : Json} {members : List (String × Json)}
    (listed : (key, value) ∈ members) (unique : ∀ other, (key, other) ∈ members → other = value) :
    members.lookup key = some value := by
  induction members with
  | nil => cases listed
  | cons member rest ih =>
      obtain ⟨name, content⟩ := member
      by_cases same : key = name
      · subst same
        have equal := unique content List.mem_cons_self
        simp [equal]
      · have later : (key, value) ∈ rest := by
          rcases List.mem_cons.mp listed with first | later
          · exact (same (congrArg Prod.fst first)).elim
          · exact later
        rw [List.lookup_cons, beq_eq_false_iff_ne.mpr same]
        exact ih later fun other member => unique other (List.mem_cons_of_mem _ member)

theorem Extends.lookup {members known : List (String × Json)} (extended : Extends members known)
    (distinct : (known.map Prod.fst).Nodup) {member : String × Json} (listed : member ∈ known) :
    members.lookup member.1 = some member.2 := by
  obtain ⟨others, perm, unknown⟩ := extended
  refine lookup_of_unique (perm.mem_iff.mpr (List.mem_append_left _ listed)) ?_
  intro content found
  rcases List.mem_append.mp (perm.mem_iff.mp found) with first | other
  · exact congrArg Prod.snd (List.inj_on_of_nodup_map distinct first listed rfl)
  · exact (unknown _ other (List.mem_map.mpr ⟨member, listed, rfl⟩)).elim

theorem Extends.record? {members known : List (String × Json)} (extended : Extends members known)
    (distinct : (known.map Prod.fst).Nodup) (dialect : Dialect) :
    record? dialect (known.map Prod.fst) (.object members) = some (known.map Prod.snd) := by
  have each (list : List (String × Json))
      (found : ∀ member ∈ list, members.lookup member.1 = some member.2) :
      (list.map Prod.fst).mapM (fun key => members.lookup key) = some (list.map Prod.snd) := by
    induction list with
    | nil => rfl
    | cons member rest ih =>
        obtain ⟨first, others⟩ := List.forall_mem_cons.mp found
        simp [first, ih others]
  exact each known fun member listed => extended.lookup distinct listed

theorem Extends.refl (known : List (String × Json)) : Extends known known :=
  ⟨[], by simp, by simp⟩

theorem record?_array (known : List (String × Json)) :
    record? .text (known.map Prod.fst) (.array (known.map Prod.snd)) =
      some (known.map Prod.snd) := by
  simp [Json.record?]

/-! ## Numbers -/

theorem natural?_integer {bound number : Nat} (small : number < bound) :
    natural? .text bound (.integer number) = some number := by
  simp [natural?, small]

theorem word?_integer (word : UInt32) : word? .text (.integer word.toNat) = some word := by
  rw [word?, natural?_integer word.toNat_lt]
  simp

theorem port?_integer (port : UInt16) : port? .text (.integer port.toNat) = some port := by
  rw [port?, natural?_integer port.toNat_lt]
  simp

theorem size?_integer (size : UInt64) : size? .text (.integer size.toNat) = some size := by
  rw [size?, natural?_integer size.toNat_lt]
  simp

/-! ## Fields -/

def fieldMembers (field : FieldDescriptor) : List (String × Json) :=
  [("name", .string field.name), ("type", ofPrimitiveType field.type)]

theorem field?_of_record {dialect : Dialect} {field : FieldDescriptor} {value : Json}
    (found : value.record? dialect ["name", "type"] = some ((fieldMembers field).map Prod.snd)) :
    field? dialect value = some field := by
  simp [field?, found, fieldMembers, string?, primitiveType?_ofPrimitiveType]

theorem field?_of_extends {field : FieldDescriptor} {members : List (String × Json)}
    (extended : Extends members (fieldMembers field)) (dialect : Dialect) :
    field? dialect (.object members) = some field :=
  field?_of_record (extended.record? (by simp [fieldMembers]) dialect)

theorem field?_ofField (field : FieldDescriptor) : field? .text (ofField field) = some field :=
  field?_of_extends (.refl (fieldMembers field)) .text

theorem list?_map {encode : α → Json} {decode : Json → Option α}
    (decoded : ∀ data, decode (encode data) = some data) (list : List α) :
    list? decode (.array (list.map encode)) = some list := by
  simp only [list?]
  induction list with
  | nil => rfl
  | cons data rest ih => simp [decoded, ih]

theorem property?_ofProperty (entry : UInt32 × String × PrimitiveType) :
    property? .text (ofProperty entry) = some entry := by
  obtain ⟨address, name, type⟩ := entry
  simp [property?, ofProperty, tuple?, word?_integer, string?, primitiveType?_ofPrimitiveType]

/-! ## Configurations -/

def configMembers (config : SessionConfig) : List (String × Json) :=
  [("socket_buffer_size", .integer config.socketBufferSize.toNat),
    ("connect_host", .string config.connectHost),
    ("connect_port", .integer config.connectPort.toNat),
    ("hex_digits", .integer config.hexDigits.toNat),
    ("report_errors_to_console", .bool config.reportErrorsToConsole)]

theorem config?_of_record {config : SessionConfig} {value : Json}
    (found : value.record? .text configKeys = some ((configMembers config).map Prod.snd)) :
    config? .text value = some config := by
  simp [config?, found, configMembers, size?_integer, port?_integer, string?, bool?]

theorem config?_of_extends {config : SessionConfig} {members : List (String × Json)}
    (extended : Extends members (configMembers config)) :
    config? .text (.object members) = some config :=
  config?_of_record (extended.record? (by simp [configMembers]) .text)

theorem config?_ofConfig (config : SessionConfig) :
    config? .text (ofConfig config) = some config :=
  config?_of_extends (.refl (configMembers config))

/-! ## Data -/

theorem ofField_proper (field : FieldDescriptor) : (ofField field).Proper := by
  refine .object (by simp) fun member listed => ?_
  simp only [List.mem_cons, List.not_mem_nil, or_false] at listed
  rcases listed with rfl | rfl <;> exact .string _

theorem ofProperty_proper (entry : UInt32 × String × PrimitiveType) :
    (ofProperty entry).Proper := by
  refine .array fun element listed => ?_
  simp only [List.mem_cons, List.not_mem_nil, or_false] at listed
  rcases listed with rfl | rfl | rfl
  · exact .integer _
  · exact .string _
  · exact .string _

theorem ofConfig_proper (config : SessionConfig) : (ofConfig config).Proper := by
  refine .object (by simp) fun member listed => ?_
  simp only [List.mem_cons, List.not_mem_nil, or_false] at listed
  rcases listed with rfl | rfl | rfl | rfl | rfl
  · exact .integer _
  · exact .string _
  · exact .integer _
  · exact .integer _
  · exact .bool _

theorem list_proper {encode : α → Json} (proper : ∀ data, (encode data).Proper) (list : List α) :
    (Json.array (list.map encode)).Proper := by
  refine .array fun element listed => ?_
  obtain ⟨data, -, rfl⟩ := List.mem_map.mp listed
  exact proper data

/-- All data survive being written as JSON text and read again. A record may also be an object
with its members in any order and other members, or the list of its fields. A name stands for
the type and for the kind of hook that the library finds under it. -/
theorem data_survive :
    Survives ofPrimitiveType primitiveType? ∧ Survives ofField (field? .text) ∧
    Survives ofFields (fields? .text) ∧ Survives ofPropertyList (propertyList? .text) ∧
    Survives ofHookKind hookKind? ∧ Survives ofThreadState threadState? ∧
    Survives ofMemorySpace memorySpace? ∧ Survives ofConfig (config? .text) ∧
    (∀ field members, Extends members (fieldMembers field) →
      Means (field? .text) (.object members) field) ∧
    (∀ field, Means (field? .text) (.array ((fieldMembers field).map Prod.snd)) field) ∧
    (∀ config members, Extends members (configMembers config) →
      Means (config? .text) (.object members) config) ∧
    (∀ config, Means (config? .text) (.array ((configMembers config).map Prod.snd)) config) ∧
    (∀ name type, primitiveType? (.string name) = some type ↔
      PrimitiveType.ofTag name = .ok type) ∧
    ∀ name, hookKind? (.string name) = HookKind.ofName? name := by
  have named (name : String) : (Json.string name).Proper := .string name
  have fields := list?_map field?_ofField
  have properties := list?_map property?_ofProperty
  refine ⟨?type, ?field, ?fields, ?properties, ?kind, ?state, ?space, ?config, ?fieldObject,
    ?fieldList, ?configObject, ?configList, primitiveType?_iff, hookKind?_string⟩
  case type => exact survives_of_proper (fun _ => named _) primitiveType?_ofPrimitiveType
  case field => exact survives_of_proper ofField_proper field?_ofField
  case fields => exact survives_of_proper (list_proper ofField_proper) fields
  case properties => exact survives_of_proper (list_proper ofProperty_proper) properties
  case kind => exact survives_of_proper (fun _ => named _) hookKind?_ofHookKind
  case state => exact survives_of_proper (fun _ => named _) threadState?_ofThreadState
  case space => exact survives_of_proper (fun _ => named _) memorySpace?_ofMemorySpace
  case config => exact survives_of_proper ofConfig_proper config?_ofConfig
  case fieldObject =>
    intro field members extended
    exact means_of_decode (field?_of_extends extended .text)
  case fieldList =>
    intro field
    exact means_of_decode (field?_of_record (record?_array (fieldMembers field)))
  case configObject =>
    intro config members extended
    exact means_of_decode (config?_of_extends extended)
  case configList =>
    intro config
    exact means_of_decode (config?_of_record (record?_array (configMembers config)))

/-- A field with its members in another order and a note besides. -/
theorem noted_field_survives :
    Means (field? .text)
      (.object [("type", .string "u8"), ("note", .null), ("name", .string "hits")])
      ⟨"hits", .u8⟩ := by
  have object := data_survive.2.2.2.2.2.2.2.2.1
  refine object ⟨"hits", .u8⟩ _ ⟨[("note", .null)], ?_, by simp [fieldMembers]⟩
  have tag : lowerCase PrimitiveType.u8.label = "u8" := lowerCase_type .u8
  rw [fieldMembers, ofPrimitiveType, tag]
  exact List.perm_append_singleton _ [_, _]

end EmuScript.Json
