import PackedJson.Proofs.Packing.Likeness

namespace PackedJson
namespace Packer

/-!
Packing with two schemas that say the same.

A matching pairs the types of one schema with those of another one, wherever
the two keep them.  Types that are paired say the same of themselves, and refer
to types that are paired in turn.  Then it makes no difference which of the two
a document is packed with: writers of paired types are the same function, for
every document and every destination.
-/

/-- Two fields of types of some shape say the same. -/
structure FieldsMatch (first second : Packer) (matched : TypeId -> TypeId -> Prop) (shape : Shape)
    (field other : FieldDef) : Prop where
  name : exists text, first.schema.text field.jsonName = .ok text ∧
    second.schema.text other.jsonName = .ok text
  types : exists inner otherInner, field.type = some inner ∧ other.type = some otherInner ∧
    matched inner otherInner
  offset : other.offset = field.offset
  activation : other.activation = field.activation
  /-- Only members of structs may be missing. -/
  required : shape = .struct -> other.isRequired = field.isRequired
  choice : shape = .variant -> other.choice = field.choice

/-- Two types say the same. -/
structure TypesMatch (first second : Packer) (matched : TypeId -> TypeId -> Prop)
    (id otherId : TypeId) (type other : TypeDef) : Prop where
  found : first.schema.type id = .ok type
  otherFound : second.schema.type otherId = .ok other
  name : second.schema.name other = first.schema.name type
  builtin : second.context.builtinOf? otherId = first.context.builtinOf? id
  option : second.isInstance other .option = first.isInstance type .option
  result : second.isInstance other .result = first.isInstance type .result
  shape : other.shape = type.shape
  size : other.size = type.size
  slot : other.slot = type.slot
  align : other.align = type.align
  byReference : other.isStoredByReference = type.isStoredByReference
  instanceAlign : second.schema.instanceAlign other = first.schema.instanceAlign type
  argument : Option.Rel matched type.argument other.argument
  /-- In the order of declaration. -/
  fields : exists fields others, first.schema.fieldsInOrder type = .ok fields ∧
    second.schema.fieldsInOrder other = .ok others ∧
    List.Forall₂ (FieldsMatch first second matched type.shape) fields others

/-- Two packers differ only in where they keep their types. -/
structure Matching (first second : Packer) (matched : TypeId -> TypeId -> Prop) : Prop where
  target : second.target = first.target
  pointerBase : second.pointerBase = first.pointerBase
  maxDepth : second.maxDepth = first.maxDepth
  once : forall id otherId next otherNext, matched id otherId -> matched next otherNext ->
    (otherId = otherNext ↔ id = next)
  types : forall id otherId, matched id otherId -> exists type other,
    TypesMatch first second matched id otherId type other

/-- Two writers write alike as types that are paired. -/
def WritersMatch (matched : TypeId -> TypeId -> Prop) (write otherWrite : Writer) : Prop :=
  forall id otherId place path value, matched id otherId ->
    write id place path value = otherWrite otherId place path value

/-! ### Steps that agree -/

/-- Two steps end in one state, with related results or with one failure. -/
inductive EndAlike {First Second : Type} (related : First -> Second -> Prop) :
    EStateM.Result PackError PackState First -> EStateM.Result PackError PackState Second -> Prop where
  | ok {first : First} {second : Second} {after : PackState} : related first second ->
      EndAlike related (.ok first after) (.ok second after)
  | error {failure : PackError} {after : PackState} :
      EndAlike related (.error failure after) (.error failure after)

/-- Two steps end alike from every state. -/
def Agrees {First Second : Type} (related : First -> Second -> Prop) (step : PackM First)
    (other : PackM Second) : Prop :=
  forall state, EndAlike related (step state) (other state)

section Steps

variable {First Second Next Other : Type} {related : First -> Second -> Prop}
  {nextRelated : Next -> Other -> Prop} {step : PackM First} {other : PackM Second}

theorem agrees_pure {first : First} {second : Second} (isRelated : related first second) :
    Agrees related (pure first) (pure second) :=
  fun _ => .ok isRelated

theorem agrees_throw (failure : PackError) :
    Agrees related (throw failure) (throw failure) :=
  fun _ => .error

/-- A step agrees with itself. -/
theorem Agrees.refl (step : PackM First) : Agrees Eq step step := by
  intro state
  cases step state with
  | ok => exact .ok rfl
  | error => exact .error

/-- Steps that agree on the same results are the same. -/
theorem Agrees.eq {other : PackM First} (agrees : Agrees Eq step other) : step = other := by
  funext state
  have ends := agrees state
  generalize step state = first, other state = second at ends
  cases ends with
  | ok same => rw [same]
  | error => rfl

theorem Agrees.andThen {next : First -> PackM Next} {otherNext : Second -> PackM Other}
    (agrees : Agrees related step other)
    (continued : forall first second, related first second ->
      Agrees nextRelated (next first) (otherNext second)) :
    Agrees nextRelated (step >>= next) (other >>= otherNext) := by
  intro state
  have ends := agrees state
  change EndAlike _ (EStateM.bind step next state) (EStateM.bind other otherNext state)
  unfold EStateM.bind
  generalize step state = first, other state = second at ends
  cases ends with
  | ok isRelated => exact continued _ _ isRelated _
  | error => exact .error

/-- The same answer comes first. -/
theorem agrees_after {step : PackM First} {next : First -> PackM Next}
    {otherNext : First -> PackM Other}
    (continued : forall result, Agrees nextRelated (next result) (otherNext result)) :
    Agrees nextRelated (step >>= next) (step >>= otherNext) :=
  (Agrees.refl step).andThen fun _ _ same => same ▸ continued _

end Steps

/-! ### Types that say the same -/

section Types

variable {first second : Packer} {matched : TypeId -> TypeId -> Prop} {id otherId : TypeId}
  {type other : TypeDef} {shape : Shape} {field otherField : FieldDef}

theorem TypesMatch.malformed_eq (types : TypesMatch first second matched id otherId type other)
    (defect : Defect) : second.schema.malformed other defect = first.schema.malformed type defect := by
  unfold Schema.malformed
  rw [types.name]

/-- The parts of arrays are at the same positions. -/
theorem TypesMatch.arrayLayout_eq (types : TypesMatch first second matched id otherId type other) :
    second.schema.arrayLayout other = first.schema.arrayLayout type := by
  obtain ⟨fields, others, inOrder, otherInOrder, areMatched⟩ := types.fields
  unfold Schema.arrayLayout
  rw [inOrder, otherInOrder, types.malformed_eq, types.shape]
  simp only [bind, Except.bind]
  generalize type.shape = shape at areMatched
  cases shape with
  | array =>
      rcases areMatched with _ | ⟨pointer, _ | ⟨capacity, _ | ⟨length, _ | _⟩⟩⟩
      · rfl
      · rfl
      · rfl
      · simp only [pointer.offset, capacity.offset, length.offset]
      · rfl
  | _ => rfl

/-- Two parts of maps are at one position, and of types that are paired. -/
structure PartsMatch (matched : TypeId -> TypeId -> Prop) (part other : Schema.MapPart) : Prop where
  offset : other.offset = part.offset
  types : matched part.type other.type

/-- The parts of maps are alike, or neither type is a map. -/
theorem TypesMatch.mapLayout_eq (types : TypesMatch first second matched id otherId type other) :
    (exists cause, first.schema.mapLayout type = .error cause ∧
      second.schema.mapLayout other = .error cause) ∨
    exists layout otherLayout, first.schema.mapLayout type = .ok layout ∧
      second.schema.mapLayout other = .ok otherLayout ∧
      PartsMatch matched layout.keys otherLayout.keys ∧
      PartsMatch matched layout.values otherLayout.values ∧
      PartsMatch matched layout.strings otherLayout.strings := by
  obtain ⟨fields, others, inOrder, otherInOrder, areMatched⟩ := types.fields
  unfold Schema.mapLayout
  rw [inOrder, otherInOrder, types.malformed_eq, types.shape]
  simp only [bind, Except.bind]
  generalize type.shape = shape at areMatched
  cases shape with
  | map =>
      rcases areMatched with _ | ⟨keys, _ | ⟨values, _ | ⟨strings, _ | _⟩⟩⟩
      · exact .inl ⟨_, rfl, rfl⟩
      · exact .inl ⟨_, rfl, rfl⟩
      · exact .inl ⟨_, rfl, rfl⟩
      · obtain ⟨keysId, otherKeys, isKeys, areOtherKeys, keysPaired⟩ := keys.types
        obtain ⟨valuesId, otherValues, isValues, areOtherValues, valuesPaired⟩ := values.types
        obtain ⟨stringsId, otherStrings, isStrings, areOtherStrings, stringsPaired⟩ := strings.types
        simp only [Layout.fieldType_of _ isKeys, Layout.fieldType_of _ areOtherKeys,
          Layout.fieldType_of _ isValues, Layout.fieldType_of _ areOtherValues,
          Layout.fieldType_of _ isStrings, Layout.fieldType_of _ areOtherStrings]
        exact .inr ⟨_, _, rfl, rfl, ⟨keys.offset, keysPaired⟩, ⟨values.offset, valuesPaired⟩,
          ⟨strings.offset, stringsPaired⟩⟩
      · exact .inl ⟨_, rfl, rfl⟩
  | _ => exact .inl ⟨_, rfl, rfl⟩


/-- What is asked about types that are paired is answered alike. -/
theorem Matching.type_agrees (matching : Matching first second matched)
    (isMatched : matched id otherId) :
    Agrees (TypesMatch first second matched id otherId) (ask (first.schema.type id))
      (ask (second.schema.type otherId)) := by
  obtain ⟨type, other, types⟩ := matching.types id otherId isMatched
  rw [ask_ok types.found, ask_ok types.otherFound]
  exact agrees_pure types

end Types

/-! ### Numbers and texts -/

section Writes

variable {first second : Packer} {matched : TypeId -> TypeId -> Prop} {id otherId : TypeId}
  {type other : TypeDef} (matching : Matching first second matched)

include matching

theorem Matching.writeSize_eq (place : Offset) (value : Nat) :
    first.writeSize place value = second.writeSize place value := by
  unfold writeSize
  rw [matching.target]

theorem Matching.writePointer_eq (place target : Offset) :
    first.writePointer place target = second.writePointer place target := by
  unfold writePointer
  rw [matching.target, matching.pointerBase]

theorem Matching.readPointer_eq (place : Offset) :
    first.readPointer place = second.readPointer place := by
  unfold readPointer
  rw [matching.target, matching.pointerBase]

theorem Matching.writeText_eq (types : TypesMatch first second matched id otherId type other)
    (place : Offset) (text : String) :
    first.writeText type place text = second.writeText other place text := by
  unfold writeText
  simp only [types.arrayLayout_eq, matching.writePointer_eq, matching.writeSize_eq]

theorem Matching.writeBuiltin_eq (types : TypesMatch first second matched id otherId type other)
    (place : Offset) (path : Path) (value : Json) (builtin : Builtin) :
    first.writeBuiltin type place path value builtin =
      second.writeBuiltin other place path value builtin := by
  unfold writeBuiltin
  cases builtin with
  | string =>
      change first.string type place path value = second.string other place path value
      unfold Packer.string
      simp only [matching.writeText_eq types]
  | _ => simp only [types.size, types.name]

end Writes

/-! ### Containers -/

section Containers

variable {first second : Packer} {matched : TypeId -> TypeId -> Prop} {id otherId : TypeId}
  {type other : TypeDef} {write otherWrite : Writer}
  (matching : Matching first second matched) (writers : WritersMatch matched write otherWrite)

include matching writers

theorem Matching.nested_eq (isMatched : matched id otherId) (place : Offset) (path : Path)
    (segment : Segment) (value : Json) :
    first.nested write id place path segment value =
      second.nested otherWrite otherId place path segment value := by
  unfold nested
  rw [matching.maxDepth, writers id otherId place (path.child segment) value isMatched]

theorem Matching.object_eq (types : TypesMatch first second matched id otherId type other)
    (isStruct : type.shape = .struct) (place : Offset) (path : Path) (value : Json) :
    first.object write type place path value = second.object otherWrite other place path value := by
  obtain ⟨fields, others, inOrder, otherInOrder, areMatched⟩ := types.fields
  unfold object
  cases value with
  | object members =>
      simp only [ask_ok inOrder, ask_ok otherInOrder, pure_bind]
      rw [foldlM_congr (areMatched.imp fun field otherField same found => ?_)]
      obtain ⟨name, isName, isOtherName⟩ := same.name
      obtain ⟨inner, otherInner, isType, isOtherType, isMatched⟩ := same.types
      unfold writeField
      simp only [ask_ok isName, ask_ok isOtherName, pure_bind, fieldType_eq isType,
        fieldType_eq isOtherType, same.offset, same.required isStruct,
        matching.nested_eq writers isMatched]
  | _ => rfl

/-- The items of an array are written alike from some index on. -/
theorem Matching.writeItems_eq (isMatched : matched id otherId) (stride : Nat) (storage : Offset)
    (path : Path) (items : List Json) (index : Nat) (found : Option Violation) :
    first.writeItems write id stride storage path items index found =
      second.writeItems otherWrite otherId stride storage path items index found := by
  induction items generalizing index found with
  | nil => rfl
  | cons item rest ih =>
      unfold writeItems
      simp only [matching.nested_eq writers isMatched, ih]

omit matching writers in
/-- The arguments of types that are paired are paired, or neither has one. -/
theorem TypesMatch.argument_agrees (types : TypesMatch first second matched id otherId type other) :
    Agrees matched (first.argument type) (second.argument other) := by
  have related := types.argument
  unfold Packer.argument
  rw [types.name]
  generalize type.argument = argument, other.argument = otherArgument at related
  cases related with
  | none => exact agrees_throw _
  | some isMatched => exact agrees_pure isMatched

omit writers in
theorem Matching.arrayStorage_eq (types : TypesMatch first second matched id otherId type other)
    (place : Offset) (length : Nat) :
    first.arrayStorage type place length = second.arrayStorage other place length := by
  unfold arrayStorage
  rw [types.arrayLayout_eq]
  simp only [matching.writePointer_eq, matching.writeSize_eq]
  refine bind_congr fun layout => ?_
  split
  · rfl
  · refine (types.argument_agrees.andThen fun argument otherArgument isMatched => ?_).eq
    refine (matching.type_agrees isMatched).andThen fun element otherElement elements => ?_
    rw [elements.slot, elements.align]
    exact .refl _

theorem Matching.array_eq (types : TypesMatch first second matched id otherId type other)
    (place : Offset) (path : Path) (value : Json) :
    first.array write type place path value = second.array otherWrite other place path value := by
  unfold array
  cases value with
  | array items =>
      refine (types.argument_agrees.andThen fun argument otherArgument isMatched => ?_).eq
      rw [matching.arrayStorage_eq types]
      refine agrees_after fun storage => ?_
      refine (matching.type_agrees isMatched).andThen fun element otherElement elements => ?_
      rw [elements.slot, matching.writeItems_eq writers isMatched]
      exact .refl _
  | _ => rfl

end Containers

/-! ### Maps -/

/-- The parallel arrays of a map, whose keys are of types that are paired. -/
structure StoragesMatch (first second : Packer) (matched : TypeId -> TypeId -> Prop)
    (storage other : MapStorage) : Prop where
  hashes : other.hashes = storage.hashes
  values : other.values = storage.values
  valueStride : other.valueStride = storage.valueStride
  strings : other.strings = storage.strings
  stringType : exists id otherId,
    TypesMatch first second matched id otherId storage.stringType other.stringType

section Maps

variable {first second : Packer} {matched : TypeId -> TypeId -> Prop} {id otherId : TypeId}
  {type other : TypeDef} {write otherWrite : Writer} {storage otherStorage : MapStorage}
  (matching : Matching first second matched)

theorem StoragesMatch.keyPlace_eq (storages : StoragesMatch first second matched storage otherStorage)
    (slot : Nat) : keyPlace storage slot = keyPlace otherStorage slot := by
  obtain ⟨_, _, types⟩ := storages.stringType
  unfold keyPlace
  rw [storages.strings, types.slot]

include matching

theorem Matching.mapStorage_agrees {layout otherLayout : Schema.MapLayout}
    (keys : PartsMatch matched layout.keys otherLayout.keys)
    (values : PartsMatch matched layout.values otherLayout.values)
    (strings : PartsMatch matched layout.strings otherLayout.strings)
    (isMatched : matched id otherId) (place : Offset) (names : List String) :
    Agrees (StoragesMatch first second matched) (first.mapStorage place id layout names)
      (second.mapStorage place otherId otherLayout names) := by
  unfold mapStorage
  refine (matching.type_agrees keys.types).andThen fun keysType otherKeys keyTypes => ?_
  rw [keys.offset]
  refine agrees_after fun keysPlace => ?_
  rw [matching.arrayStorage_eq keyTypes]
  refine agrees_after fun keyStorage => agrees_after fun _ => ?_
  refine (matching.type_agrees values.types).andThen fun valuesType otherValues valueTypes => ?_
  rw [values.offset]
  refine agrees_after fun valuesPlace => ?_
  rw [matching.arrayStorage_eq valueTypes]
  refine agrees_after fun valueStorage => ?_
  refine (matching.type_agrees strings.types).andThen fun stringsType otherStrings stringTypes => ?_
  rw [strings.offset]
  refine agrees_after fun stringsPlace => ?_
  rw [matching.arrayStorage_eq stringTypes]
  refine agrees_after fun stringStorage => ?_
  refine stringTypes.argument_agrees.andThen fun stringId otherStringId isString => ?_
  refine (matching.type_agrees isString).andThen fun stringType otherStringType areStrings => ?_
  refine (matching.type_agrees isMatched).andThen fun valueType otherValueType areValues => ?_
  exact agrees_pure ⟨rfl, rfl, congrArg UInt32.toNat areValues.slot, rfl, _, _, areStrings⟩

theorem Matching.storedKey_eq (storages : StoragesMatch first second matched storage otherStorage)
    (slot : Nat) : first.storedKey storage slot = second.storedKey otherStorage slot := by
  obtain ⟨_, _, types⟩ := storages.stringType
  unfold storedKey
  simp only [storages.keyPlace_eq, types.arrayLayout_eq, matching.readPointer_eq, matching.target]

theorem Matching.freeSlot_eq (storages : StoragesMatch first second matched storage otherStorage)
    (key : ByteArray) (slots : List Nat) :
    first.freeSlot storage key slots = second.freeSlot otherStorage key slots := by
  induction slots with
  | nil => rfl
  | cons slot rest ih =>
      unfold freeSlot
      rw [matching.storedKey_eq storages, ih]

theorem Matching.mapSlot_eq (types : TypesMatch first second matched id otherId type other)
    (storages : StoragesMatch first second matched storage otherStorage) (key : String) :
    first.mapSlot type storage key = second.mapSlot other otherStorage key := by
  unfold mapSlot
  simp only [matching.freeSlot_eq storages, storages.hashes, types.malformed_eq]

variable (writers : WritersMatch matched write otherWrite)

include writers

theorem Matching.writeMember_eq {valueId otherValueId : TypeId}
    (types : TypesMatch first second matched id otherId type other)
    (isMatched : matched valueId otherValueId)
    (storages : StoragesMatch first second matched storage otherStorage) (path : Path)
    (found : Option Violation) (member : String × Json) :
    first.writeMember write type valueId storage path found member =
      second.writeMember otherWrite other otherValueId otherStorage path found member := by
  obtain ⟨_, _, strings⟩ := storages.stringType
  unfold writeMember
  simp only [matching.mapSlot_eq types storages, storages.keyPlace_eq, matching.writeText_eq strings,
    storages.values, storages.valueStride, matching.nested_eq writers isMatched]

theorem Matching.map_eq (types : TypesMatch first second matched id otherId type other)
    (place : Offset) (path : Path) (value : Json) :
    first.map write type place path value = second.map otherWrite other place path value := by
  unfold map
  cases value with
  | object members =>
      obtain ⟨cause, fails, otherFails⟩ | ⟨layout, otherLayout, isLayout, isOther, keys, values,
        strings⟩ := types.mapLayout_eq
      · simp only [fails, otherFails]
        rfl
      · simp only [ask_ok isLayout, ask_ok isOther, pure_bind]
        refine (types.argument_agrees.andThen fun valueId otherValueId isMatched => ?_).eq
        refine (matching.mapStorage_agrees keys values strings isMatched place _).andThen ?_
        intro storage otherStorage storages
        rw [foldlM_congr (List.forall₂_same.mpr fun member _ found =>
          matching.writeMember_eq writers types isMatched storages path found member)]
        exact .refl _
  | _ => rfl

end Maps

/-! ### Alternatives -/

/-- What is found first in two lists that are related item by item is related. -/
theorem rel_find? {First Second : Type} {related : First -> Second -> Prop} {firsts : List First}
    {seconds : List Second} (areRelated : List.Forall₂ related firsts seconds)
    {test : First -> Bool} {otherTest : Second -> Bool}
    (same : forall first second, related first second -> test first = otherTest second) :
    Option.Rel related (firsts.find? test) (seconds.find? otherTest) := by
  induction areRelated with
  | nil => exact .none
  | @cons first second _ _ isRelated _ ih =>
      rw [List.find?_cons, List.find?_cons, same first second isRelated]
      cases otherTest second with
      | true => exact .some isRelated
      | false => exact ih

theorem rel_findSome? {Item First Second : Type} {related : First -> Second -> Prop}
    {find : Item -> Option First} {otherFind : Item -> Option Second} (items : List Item)
    (areRelated : forall item, Option.Rel related (find item) (otherFind item)) :
    Option.Rel related (items.findSome? find) (items.findSome? otherFind) := by
  induction items with
  | nil => exact .none
  | cons item rest ih =>
      have found := areRelated item
      rw [List.findSome?_cons, List.findSome?_cons]
      generalize find item = first, otherFind item = second at found
      cases found with
      | none => exact ih
      | some isRelated => exact .some isRelated

/-- The fields of wrappers that say the same. -/
structure WrappersMatch (first second : Packer) (matched : TypeId -> TypeId -> Prop) (shape : Shape)
    (fields others : WrapperFields) : Prop where
  tag : FieldsMatch first second matched shape fields.tag others.tag
  zero : FieldsMatch first second matched shape fields.zero others.zero
  one : FieldsMatch first second matched shape fields.one others.one

section Alternatives

variable {first second : Packer} {matched : TypeId -> TypeId -> Prop} {id otherId : TypeId}
  {type other : TypeDef} {same otherSame : Writer} {shape : Shape} {field otherField : FieldDef}

theorem FieldsMatch.type_agrees (fields : FieldsMatch first second matched shape field otherField)
    (type other : TypeDef) :
    Agrees matched (ask (first.schema.fieldType type field))
      (ask (second.schema.fieldType other otherField)) := by
  obtain ⟨inner, otherInner, isType, isOtherType, isMatched⟩ := fields.types
  rw [fieldType_eq isType, fieldType_eq isOtherType]
  exact agrees_pure isMatched

/-- A value is handed on to the type of a field. -/
theorem FieldsMatch.onward_eq (fields : FieldsMatch first second matched shape field otherField)
    (writers : WritersMatch matched same otherSame) (type other : TypeDef) (place : Offset) (path : Path) (value : Json) :
    (do
      let id ← ask (first.schema.fieldType type field)
      same id (← inside place field.offset) path value) = (do
      let id ← ask (second.schema.fieldType other otherField)
      otherSame id (← inside place otherField.offset) path value) := by
  refine ((fields.type_agrees type other).andThen fun id otherId isMatched => ?_).eq
  rw [fields.offset]
  refine agrees_after fun inner => ?_
  rw [writers id otherId inner path value isMatched]
  exact .refl _

/-- The same alternative is chosen. -/
theorem rel_choose {candidates otherCandidates : List (Form × FieldDef)}
    (areAlike : List.Forall₂ (fun candidate otherCandidate => candidate.1 = otherCandidate.1 ∧
      FieldsMatch first second matched shape candidate.2 otherCandidate.2) candidates
      otherCandidates) (value : Json) :
    Option.Rel (FieldsMatch first second matched shape) (choose candidates value)
      (choose otherCandidates value) := by
  refine rel_findSome? _ fun form => ?_
  have found : Option.Rel _ (candidates.find? fun candidate => candidate.1 == form)
      (otherCandidates.find? fun candidate => candidate.1 == form) :=
    rel_find? areAlike fun _ _ same => by rw [same.1]
  generalize candidates.find? (fun candidate => candidate.1 == form) = candidate,
    otherCandidates.find? (fun candidate => candidate.1 == form) = otherCandidate at found
  cases found with
  | none => exact .none
  | some same => exact .some same.2

theorem TypesMatch.wrapperFields_agrees
    (types : TypesMatch first second matched id otherId type other) :
    Agrees (WrappersMatch first second matched type.shape) (first.wrapperFields type)
      (second.wrapperFields other) := by
  obtain ⟨fields, others, inOrder, otherInOrder, areMatched⟩ := types.fields
  have selected (tag : UInt8) : Option.Rel (FieldsMatch first second matched type.shape)
      ((fields.drop 1).find? fun field => field.activation == tag)
      ((others.drop 1).find? fun field => field.activation == tag) :=
    rel_find? (List.forall₂_drop 1 areMatched) fun _ _ fields => by rw [fields.activation]
  have head : Option.Rel (FieldsMatch first second matched type.shape) fields.head?
      others.head? := by
    cases areMatched with
    | nil => exact .none
    | cons first _ => exact .some first
  unfold wrapperFields
  simp only [ask_ok inOrder, ask_ok otherInOrder, pure_bind, types.malformed_eq]
  have zero := selected 0
  have one := selected 1
  generalize fields.head? = tag, others.head? = otherTag at head
  generalize (fields.drop 1).find? (fun field => field.activation == 0) = zero,
    (others.drop 1).find? (fun field => field.activation == 0) = otherZero at zero
  generalize (fields.drop 1).find? (fun field => field.activation == 1) = one,
    (others.drop 1).find? (fun field => field.activation == 1) = otherOne at one
  cases head with
  | none => exact agrees_throw _
  | some tag =>
      cases zero with
      | none => exact agrees_throw _
      | some zero =>
          cases one with
          | none => exact agrees_throw _
          | some one => exact agrees_pure ⟨tag, zero, one⟩

variable (matching : Matching first second matched)

include matching

theorem Matching.writeTag_eq (fields : FieldsMatch first second matched shape field otherField)
    (type other : TypeDef) (place : Offset) (value : UInt8) :
    first.writeTag place type field value = second.writeTag place other otherField value := by
  unfold writeTag
  refine ((fields.type_agrees type other).andThen fun id otherId isMatched => ?_).eq
  refine (matching.type_agrees isMatched).andThen fun tagType otherTagType types => ?_
  rw [fields.offset, types.size]
  exact .refl _

theorem Matching.capture_eq (types : TypesMatch first second matched id otherId type other)
    {fields others : WrapperFields} (wrappers : WrappersMatch first second matched shape fields others)
    (place : Offset) (violation : Violation) :
    first.capture type fields place violation = second.capture other others place violation := by
  unfold capture
  rw [wrappers.one.offset, wrappers.one.activation, types.size]
  refine bind_congr fun payload => bind_congr fun _ => ?_
  rw [matching.writeTag_eq wrappers.tag type other]
  refine bind_congr fun _ => ?_
  refine ((wrappers.one.type_agrees type other).andThen fun id otherId isMatched => ?_).eq
  refine (matching.type_agrees isMatched).andThen fun textType otherTextType texts => ?_
  rw [matching.writeText_eq texts]
  exact .refl _

theorem Matching.form?_eq (isMatched : matched id otherId) :
    first.form? id = second.form? otherId := by
  obtain ⟨type, other, types⟩ := matching.types id otherId isMatched
  unfold form?
  rw [types.builtin, types.found, types.otherFound]
  cases first.context.builtinOf? id with
  | some builtin => rfl
  | none =>
      rw [ask_ok rfl, ask_ok rfl, pure_bind, pure_bind, types.shape]

/-- The alternatives of variants take the same forms. -/
theorem Matching.candidates_agrees {fields others : List FieldDef}
    (areMatched : List.Forall₂ (FieldsMatch first second matched shape) fields others) :
    Agrees (List.Forall₂ fun candidate otherCandidate => candidate.1 = otherCandidate.1 ∧
        FieldsMatch first second matched shape candidate.2 otherCandidate.2)
      (first.candidates type fields) (second.candidates other others) := by
  induction areMatched with
  | nil => exact agrees_pure .nil
  | cons fields _ ih =>
      unfold candidates
      refine (fields.type_agrees type other).andThen fun id otherId isMatched => ?_
      rw [matching.form?_eq isMatched]
      refine agrees_after fun form => ?_
      refine ih.andThen fun candidates otherCandidates areAlike => ?_
      cases form with
      | none => exact agrees_pure areAlike
      | some form => exact agrees_pure (.cons ⟨rfl, fields⟩ areAlike)

variable (writers : WritersMatch matched same otherSame)

include writers

theorem Matching.option_eq (types : TypesMatch first second matched id otherId type other)
    (place : Offset) (path : Path) (value : Json) :
    first.option same type place path value = second.option otherSame other place path value := by
  unfold option
  refine (types.wrapperFields_agrees.andThen fun fields others wrappers => ?_).eq
  rw [wrappers.zero.activation, wrappers.one.activation, matching.writeTag_eq wrappers.tag type other,
    matching.writeTag_eq wrappers.tag type other, wrappers.one.onward_eq writers type other]
  exact .refl _

theorem Matching.result_eq (types : TypesMatch first second matched id otherId type other)
    (place : Offset) (path : Path) (value : Json) :
    first.result same type place path value = second.result otherSame other place path value := by
  unfold result
  refine (types.wrapperFields_agrees.andThen fun fields others wrappers => ?_).eq
  refine (wrappers.zero.type_agrees type other).andThen fun id otherId isMatched => ?_
  rw [wrappers.zero.offset]
  refine agrees_after fun inner => ?_
  rw [writers id otherId inner path value isMatched]
  refine agrees_after fun found => ?_
  cases found with
  | none =>
      rw [wrappers.zero.activation]
      exact matching.writeTag_eq wrappers.tag type other place _ ▸ .refl _
  | some violation =>
      change Agrees Eq (first.capture type fields place violation)
        (second.capture other others place violation)
      rw [matching.capture_eq types wrappers]
      exact .refl _

theorem Matching.variant_eq (types : TypesMatch first second matched id otherId type other)
    (isVariant : type.shape = .variant) (place : Offset) (path : Path) (value : Json) :
    first.variant same type place path value = second.variant otherSame other place path value := by
  obtain ⟨fields, others, inOrder, otherInOrder, areMatched⟩ := types.fields
  unfold variant
  simp only [ask_ok inOrder, ask_ok otherInOrder, pure_bind, types.name]
  refine ((matching.candidates_agrees (List.forall₂_drop 1 areMatched)).andThen ?_).eq
  intro candidates otherCandidates areAlike
  have chosen := rel_choose areAlike value
  cases areMatched with
  | nil => exact .refl _
  | cons tag _ =>
      generalize choose candidates value = field, choose otherCandidates value = otherField at chosen
      cases chosen with
      | none => exact .refl _
      | some chosen =>
          simp only [List.head?_cons]
          rw [chosen.choice isVariant, matching.writeTag_eq tag type other,
            chosen.onward_eq writers type other]
          exact .refl _

end Alternatives

/-! ### Values of all types -/

/-- Two handoffs are of types that are paired, and are otherwise the same. -/
structure HandoffsMatch (matched : TypeId -> TypeId -> Prop) (handoff other : Handoff) : Prop where
  type : matched handoff.type other.type
  place : handoff.place = other.place
  used : handoff.used = other.used

section Values

variable {first second : Packer} {matched : TypeId -> TypeId -> Prop} {id otherId : TypeId}
  {type other : TypeDef} {same otherSame write otherWrite : Writer}
  (matching : Matching first second matched)

include matching

theorem Matching.writeInstance_eq (sames : WritersMatch matched same otherSame)
    (writers : WritersMatch matched write otherWrite)
    (types : TypesMatch first second matched id otherId type other) (place : Offset) (path : Path)
    (value : Json) :
    first.writeInstance same write id type place path value =
      second.writeInstance otherSame otherWrite otherId other place path value := by
  unfold writeInstance
  rw [types.builtin]
  cases first.context.builtinOf? id with
  | some builtin => exact matching.writeBuiltin_eq types place path value builtin
  | none =>
      simp only [types.option, types.result, types.shape]
      split
      · exact matching.option_eq sames types place path value
      split
      · exact matching.result_eq sames types place path value
      cases shape : type.shape with
      | struct => exact matching.object_eq writers types shape place path value
      | array => exact matching.array_eq writers types place path value
      | map => exact matching.map_eq writers types place path value
      | variant => exact matching.variant_eq sames types shape place path value

omit matching in
theorem TypesMatch.allocInstance_eq (types : TypesMatch first second matched id otherId type other) :
    first.allocInstance type = second.allocInstance other := by
  unfold allocInstance
  rw [types.instanceAlign, types.size]

theorem Matching.writeVariable_eq (sames : WritersMatch matched same otherSame)
    (writers : WritersMatch matched write otherWrite) :
    WritersMatch matched (first.writeVariable same write) (second.writeVariable otherSame otherWrite) := by
  intro id otherId place path value isMatched
  unfold writeVariable
  refine ((matching.type_agrees isMatched).andThen fun type other types => ?_).eq
  simp only [types.byReference, types.allocInstance_eq, matching.writePointer_eq,
    matching.writeInstance_eq sames writers types]
  exact .refl _

/-- A handoff came before where its counterpart did. -/
theorem Matching.contains_eq {earlier others : List Handoff} (isMatched : matched id otherId)
    (areMatched : List.Forall₂ (HandoffsMatch matched) earlier others) (place : Offset) (used : Nat) :
    earlier.contains ⟨id, place, used⟩ = others.contains ⟨otherId, place, used⟩ := by
  induction areMatched with
  | nil => rfl
  | @cons handoff other _ _ handoffs _ ih =>
      obtain ⟨earlierId, earlierPlace, earlierUsed⟩ := handoff
      obtain ⟨otherEarlierId, _, _⟩ := other
      obtain ⟨types, rfl, rfl⟩ := handoffs
      have sameTypes := matching.once id otherId earlierId otherEarlierId isMatched types
      rw [List.contains_cons, List.contains_cons, ih]
      congr 1
      rw [Bool.eq_iff_iff, beq_iff_eq, beq_iff_eq, Handoff.mk.injEq, Handoff.mk.injEq, sameTypes]

theorem Matching.writeWrapped_match (writers : WritersMatch matched write otherWrite) (steps : Nat)
    {earlier others : List Handoff}
    (areMatched : List.Forall₂ (HandoffsMatch matched) earlier others) :
    WritersMatch matched (first.writeWrapped write steps earlier)
      (second.writeWrapped otherWrite steps others) := by
  induction steps generalizing earlier others with
  | zero => exact fun _ _ _ _ _ _ => rfl
  | succ steps ih =>
      intro id otherId place path value isMatched
      unfold writeWrapped
      refine bind_congr fun used => ?_
      have alike : List.Forall₂ (HandoffsMatch matched)
          (earlier.filter fun other => other.used == used)
          (others.filter fun other => other.used == used) :=
        List.rel_filter (fun _ _ handoffs =>
          iff_of_eq (congrArg (fun found => (found == used) = true) handoffs.used)) areMatched
      simp only [matching.contains_eq isMatched alike]
      split
      · rfl
      · have more : List.Forall₂ (HandoffsMatch matched)
            (⟨id, place, used⟩ :: earlier.filter fun other => other.used == used)
            (⟨otherId, place, used⟩ :: others.filter fun other => other.used == used) :=
          .cons ⟨isMatched, rfl, rfl⟩ alike
        exact matching.writeVariable_eq (ih more) writers id otherId place path value isMatched

theorem Matching.write_match (levels : Nat) :
    WritersMatch matched (first.write levels) (second.write levels) := by
  induction levels with
  | zero => exact fun _ _ _ _ _ _ => rfl
  | succ levels ih => exact matching.writeWrapped_match ih handoffLimit .nil

/-- Documents are packed the same as types that are paired. -/
theorem Matching.pack_eq (isMatched : matched id otherId) (value : Json) :
    first.pack id value = second.pack otherId value := by
  unfold pack
  refine bind_congr fun _ => ?_
  refine ((matching.type_agrees isMatched).andThen fun type other types => ?_).eq
  have inner := matching.write_match value.height
  have instances := matching.writeInstance_eq (matching.writeWrapped_match inner handoffLimit .nil)
    inner types
  simp only [types.allocInstance_eq, instances]
  exact .refl _

end Values

end Packer
end PackedJson
