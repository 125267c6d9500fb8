import PackedJson.Proofs.Schema.Operations

namespace PackedJson
namespace Builder

open Heap

/-!
Instances and contexts are made of single operations.

What is made may be changed until it is complete, the types that were there
before stay.
-/

variable {heap later : Heap} {builder : Builder} {changed : TypeId -> Prop}

/-- Types that are not stored yet may be changed. -/
def Permits (changed : TypeId -> Prop) (heap : Heap) : Prop :=
  forall id, ¬ IsStored heap id -> changed id

theorem Permits.keeps (permits : Permits changed heap) (keeps : Keeps heap later) :
    Permits changed later :=
  fun id isNew => permits id fun isStored => isNew (keeps.isStored isStored)

/-! ### Instances -/

section Instances

variable {argument : TypeId}

theorem tends_bindFields {construct : TypeId -> BuildM TypeId} {fields : List FieldDef}
    (stands : Stands heap builder) (permits : Permits changed heap)
    (isArgument : IsStored heap argument)
    (constructs : forall later after type, Stands later after -> Permits changed later ->
      IsStored later argument -> IsStored later type ->
      Tends changed (construct type) later after fun id last => IsStored last id)
    (fieldsStand : forall field, field ∈ fields -> FieldStands heap field) :
    Tends changed (bindFields construct argument fields) heap builder fun bound last =>
      forall field, field ∈ bound -> FieldStands last field := by
  induction fields generalizing heap builder with
  | nil => exact tends_pure stands nofun
  | cons field rest ih =>
      have fieldStands := fieldsStand field List.mem_cons_self
      have continued (type : TypeId) (second : Heap) (after : Builder)
          (leads : (upkeep changed).Leads heap builder second after) (isStored : IsStored second type) :
          Tends changed (do
              let bound ← bindFields construct argument rest
              return { field with type := some type } :: bound) second after fun bound last =>
            forall field, field ∈ bound -> FieldStands last field := by
        have keeps := leads.2.toKeeps
        refine Course.Takes.andThen (ih leads.1 (permits.keeps keeps) (keeps.isStored isArgument)
          fun other member => keeps.fieldStands (fieldsStand other (List.mem_cons_of_mem _ member))) ?_
        rintro bound third _ ⟨thirdStands, more⟩ boundStand
        refine tends_pure thirdStands fun other member => ?_
        cases List.mem_cons.mp member with
        | inl same =>
            subst same
            refine ⟨(more.toKeeps.fieldStands (keeps.fieldStands fieldStands)).name, ?_⟩
            rintro _ ⟨rfl⟩
            exact more.toKeeps.isStored isStored
        | inr inRest => exact boundStand other inRest
      unfold bindFields
      cases isType : field.type with
      | none =>
          have asIs : Tends changed (pure argument) heap builder fun id last => IsStored last id :=
            tends_pure stands isArgument
          exact Course.Takes.andThen asIs continued
      | some type =>
          exact Course.Takes.andThen (constructs heap builder type stands permits isArgument
            (fieldStands.type type isType)) continued

theorem mem_of_findInstance {generic id : TypeId}
    (found : builder.instances.lookup (generic, argument) = some id) :
    ((generic, argument), id) ∈ builder.instances := by
  obtain ⟨before, after, split, _⟩ := List.lookup_eq_some_iff.mp found
  rw [split]
  exact List.mem_append_right _ List.mem_cons_self

/-- A new entry of the table. -/
theorem tends_register (stands : Stands heap builder) {generic id : TypeId} {shape : Shape}
    (hasGeneric : HasShape heap generic shape) (hasInstance : HasShape heap id shape) :
    Tends changed (register generic argument id) heap builder fun _ last => last = heap := by
  refine ⟨heap, ⟨⟨stands.holds, stands.types, ?_⟩, .refl changed heap⟩, rfl⟩
  intro otherGeneric otherArgument other member
  cases List.mem_cons.mp member with
  | inl same =>
      cases same
      exact ⟨shape, hasGeneric, hasInstance⟩
  | inr earlier => exact stands.instances otherGeneric otherArgument other earlier

theorem storable_instanceDef {generic : TypeId} {prototype : TypeDef} {name : TextRef}
    (stands : Stands heap builder) (isArgument : IsStored heap argument)
    (isGeneric : IsStored heap generic) :
    (instanceDef generic argument prototype name).Storable := by
  obtain ⟨argumentType, argumentStored⟩ := isArgument
  obtain ⟨genericType, genericStored⟩ := isGeneric
  constructor
  · rintro _ ⟨rfl⟩
    exact stands.holds.ne_null genericStored
  · rintro _ ⟨rfl⟩
    exact stands.holds.ne_null argumentStored

/-- A new instance, whose fields are bound by `construct`. -/
theorem tends_newInstance {construct : TypeId -> BuildM TypeId} {generic : TypeId}
    {prototype : TypeDef} (stands : Stands heap builder) (permits : Permits changed heap)
    (isArgument : IsStored heap argument) (genericStored : HasType heap generic prototype)
    (constructs : forall later after type, Stands later after -> Permits changed later ->
      IsStored later argument -> IsStored later type ->
      Tends changed (construct type) later after fun id last => IsStored last id) :
    Tends changed (do
        let argumentDef ← query fun schema => schema.type argument
        let name ← query fun schema =>
          .ok (schema.name prototype ++ "<" ++ schema.name argumentDef ++ ">")
        let stored ← storeText name
        let id ← addType (instanceDef generic argument prototype stored)
        register generic argument id
        let fields ← query fun schema => schema.fields prototype
        let bound ← bindFields construct argument fields
        let _ ← setFields id bound
        return id) heap builder fun id last => HasShape last id prototype.shape := by
  refine tends_ask stands fun argumentDef _ => tends_ask stands fun name _ => ?_
  refine Course.Takes.andThen (tends_storeText stands name) ?_
  rintro stored named namedBuilder ⟨namedStands, namedUpholds⟩ ⟨namedKept, _⟩
  have isGeneric := namedUpholds.isStored ⟨prototype, genericStored⟩
  refine Course.Takes.andThen (tends_addType namedStands _
    (storable_instanceDef namedStands (namedUpholds.isStored isArgument) isGeneric) rfl ?_) ?_
  · rintro _ ⟨rfl⟩
    exact namedUpholds.isStored isArgument
  rintro id added addedBuilder ⟨addedStands, addedUpholds⟩ ⟨addedKept, isNew, idStored⟩
  have upholds := namedUpholds.trans addedUpholds
  have isChanged := permits id fun isStored => isNew (namedUpholds.isStored isStored)
  refine Course.Takes.andThen (tends_register addedStands
    (upholds.shape _ _ ⟨prototype, genericStored, rfl⟩) ⟨_, idStored, rfl⟩) ?_
  rintro _ _ registered ⟨registeredStands, _⟩ rfl
  refine tends_ask registeredStands fun fields isFields => ?_
  obtain ⟨⟨genericFields, hasFields, fieldsStand⟩, _⟩ := stands.types generic prototype genericStored
  have stillHas := (namedKept.trans addedKept).hasFields hasFields
  cases (registeredStands.holds.fields stillHas).symm.trans isFields
  refine Course.Takes.andThen (tends_bindFields registeredStands (permits.keeps upholds.toKeeps)
    (upholds.isStored isArgument) constructs fun field member =>
      upholds.fieldStands (fieldsStand field member)) ?_
  rintro boundFields bound boundBuilder ⟨boundStands, boundUpholds⟩ boundStand
  obtain ⟨boundType, boundStored, isShape⟩ := boundUpholds.shape _ _ ⟨_, idStored, rfl⟩
  refine Course.Takes.andThen (tends_setFields boundStands boundStored isChanged boundStand) ?_
  rintro _ last lastBuilder ⟨lastStands, _⟩ hasShape
  exact tends_pure lastStands (isShape ▸ hasShape)

/-- An instance has the shape of its generic type. -/
theorem tends_instantiateWithin (levels : Nat) {generic : TypeId} (stands : Stands heap builder)
    (permits : Permits changed heap) (isArgument : IsStored heap argument)
    (isGeneric : IsStored heap generic) :
    Tends changed (instantiateWithin argument levels generic) heap builder fun id last =>
      forall shape, HasShape heap generic shape -> HasShape last id shape := by
  induction levels generalizing generic heap builder with
  | zero => exact .throw (upkeep_refl stands)
  | succ levels ih =>
      refine tends_ask stands fun prototype isType => ?_
      obtain ⟨genericType, genericStored⟩ := isGeneric
      cases (stands.holds.type genericStored).symm.trans isType
      split
      · exact tends_pure stands fun shape hasShape => hasShape
      · have answers : findInstance? generic argument builder =
            .ok (builder.instances.lookup (generic, argument)) builder := rfl
        refine run_bind.mpr ((run_of_ok answers).mpr ?_)
        cases found : builder.instances.lookup (generic, argument) with
        | some existing =>
            obtain ⟨shape, hasGeneric, hasInstance⟩ :=
              stands.instances _ _ _ (mem_of_findInstance found)
            refine tends_pure stands fun other hasShape => ?_
            obtain ⟨first, firstStored, rfl⟩ := hasGeneric
            obtain ⟨second, secondStored, rfl⟩ := hasShape
            cases hasType_inj firstStored secondStored
            exact hasInstance
        | none =>
            refine (tends_newInstance stands permits isArgument genericStored
              fun later after type laterStands laterPermits stillArgument isStored => ?_).imp ?_
            · obtain ⟨type, stored⟩ := isStored
              exact (ih laterStands laterPermits stillArgument ⟨type, stored⟩).imp
                fun id last _ _ hasShape => (hasShape type.shape ⟨type, stored, rfl⟩).isStored
            · rintro id last _ _ hasShape shape ⟨other, otherStored, rfl⟩
              cases hasType_inj genericStored otherStored
              exact hasShape

theorem tends_instantiate {generic : TypeId} (stands : Stands heap builder)
    (permits : Permits changed heap) (isArgument : IsStored heap argument)
    (isGeneric : IsStored heap generic) :
    Tends changed (instantiate generic argument) heap builder fun id last => IsStored last id := by
  obtain ⟨type, stored⟩ := id isGeneric
  exact (tends_instantiateWithin _ stands permits isArgument isGeneric).imp
    fun id last _ _ hasShape => (hasShape type.shape ⟨type, stored, rfl⟩).isStored

end Instances

/-! ### Contexts -/

section Contexts

variable {context : Context} {made : List Builtin}

/-- Some builtins of a context are stored. -/
def Provides (heap : Heap) (context : Context) (made : List Builtin) : Prop :=
  forall builtin, builtin ∈ made -> IsStored heap (context.builtin builtin)

theorem Provides.keeps (provides : Provides heap context made) (keeps : Keeps heap later) :
    Provides later context made :=
  fun builtin member => keeps.isStored (provides builtin member)

theorem Provides.enter (provides : Provides heap context made) (builtin : Builtin) {id : TypeId}
    (isStored : IsStored heap id) :
    Provides heap (context.setBuiltin builtin id) (builtin :: made) := by
  intro other member
  rw [Context.builtin_setBuiltin]
  split
  · exact isStored
  next different =>
    cases List.mem_cons.mp member with
    | inl same => exact absurd same different
    | inr earlier => exact provides other earlier

theorem tends_builtinType (stands : Stands heap builder) (permits : Permits changed heap)
    (builtin : Builtin) (shape : Shape) (flags : TypeFlags) :
    Tends changed (builtinType builtin shape flags) heap builder fun id last =>
      changed id ∧ HasShape last id shape := by
  refine Course.Takes.andThen (tends_newType stands builtin.name shape) ?_
  rintro id second secondBuilder ⟨secondStands, _⟩ ⟨isNew, stored, isType⟩
  have isChanged := permits id isNew
  refine Course.Takes.andThen (tends_updateType secondStands isType
    (fun type => { type with flags := flags }) ⟨TypeId.storable_none, TypeId.storable_none⟩ rfl
    ⟨rfl, rfl⟩ rfl fun unchanged => absurd isChanged unchanged) ?_
  rintro _ last lastBuilder ⟨lastStands, _⟩ ⟨_, rfl⟩
  exact tends_pure lastStands ⟨isChanged, _, set_same second _ _, rfl⟩

/-- A type that is declared by a context. -/
theorem tends_newDeclaredType (stands : Stands heap builder) (permits : Permits changed heap)
    (name : String) (shape : Shape) {prototype : Builtin}
    (isPrototype : IsStored heap (context.builtin prototype)) :
    Tends changed (newDeclaredType context name shape prototype) heap builder fun id last =>
      ¬ IsStored heap id ∧ exists stored, HasType last id
        { TypeDef.ofShape stored shape with prototype := some (context.builtin prototype) } := by
  refine Course.Takes.andThen (tends_newType stands name shape) ?_
  rintro id second secondBuilder ⟨secondStands, upholds⟩ ⟨isNew, stored, isType⟩
  obtain ⟨prototypeType, prototypeStored⟩ := upholds.isStored isPrototype
  refine Course.Takes.andThen (tends_updateType secondStands isType
    (fun type => { type with prototype := some (context.builtin prototype) }) ⟨?_, TypeId.storable_none⟩
    rfl ⟨rfl, rfl⟩ rfl fun unchanged => absurd (permits id isNew) unchanged) ?_
  · rintro _ ⟨rfl⟩
    exact secondStands.holds.ne_null prototypeStored
  · rintro _ last lastBuilder ⟨lastStands, _⟩ ⟨_, rfl⟩
    exact tends_pure lastStands ⟨isNew, stored, set_same second _ _⟩

/-- A field of a stored type stands. -/
theorem fieldStands_of {field : FieldDef} {name : String} {type : Option TypeId}
    (named : HasText heap field.jsonName name ∧ field.hash = Checksum.nameHash name ∧
      field.type = type)
    (isStored : forall inner, type = some inner -> IsStored heap inner) : FieldStands heap field :=
  ⟨⟨name, named.1, named.2.1⟩, fun inner isType => isStored inner (named.2.2 ▸ isType)⟩

/-- A field is made that stands, whatever is added before. -/
def TendsField (changed : TypeId -> Prop) (heap : Heap) (step : BuildM FieldDef) : Prop :=
  forall later after, Stands later after -> Keeps heap later ->
    Tends changed step later after fun field last => FieldStands last field

theorem tendsField_field (name : String) {type : TypeId} (isStored : IsStored heap type)
    (order : Nat) : TendsField changed heap (field name (some type) order) := by
  intro later after stands keeps
  refine (tends_field stands name (some type) order).imp ?_
  rintro made last _ ⟨_, upholds⟩ named
  refine fieldStands_of named ?_
  rintro _ ⟨rfl⟩
  exact upholds.isStored (keeps.isStored isStored)

theorem tendsField_wrapperField (name : String) {type : Option TypeId}
    (isStored : forall inner, type = some inner -> IsStored heap inner) (order : Nat) (tag : UInt8) :
    TendsField changed heap (wrapperField name type order tag) := by
  intro later after stands keeps
  refine Course.Takes.andThen (tends_field stands name type order) ?_
  rintro made last _ ⟨lastStands, upholds⟩ named
  have standing := fieldStands_of named fun inner isType =>
    upholds.isStored (keeps.isStored (isStored inner isType))
  exact tends_pure lastStands ⟨standing.name, standing.type⟩

/-- A type gets three fields. -/
theorem tends_setThree {Result : Type} {id : TypeId} {first second third : BuildM FieldDef}
    (stands : Stands heap builder) (isStored : IsStored heap id) (isChanged : changed id)
    (makesFirst : TendsField changed heap first) (makesSecond : TendsField changed heap second)
    (makesThird : TendsField changed heap third) (result : Result) :
    Tends changed (do
        let firstField ← first
        let secondField ← second
        let thirdField ← third
        let _ ← setFields id [firstField, secondField, thirdField]
        return result) heap builder fun answer _ => answer = result := by
  refine Course.Takes.andThen (makesFirst heap builder stands (.refl heap)) ?_
  rintro firstField one _ ⟨oneStands, oneUpholds⟩ firstStands
  refine Course.Takes.andThen (makesSecond one _ oneStands oneUpholds.toKeeps) ?_
  rintro secondField two _ ⟨twoStands, twoUpholds⟩ secondStands
  have before := oneUpholds.trans twoUpholds
  refine Course.Takes.andThen (makesThird two _ twoStands before.toKeeps) ?_
  rintro thirdField three _ ⟨threeStands, threeUpholds⟩ thirdStands
  obtain ⟨type, stored⟩ := (before.trans threeUpholds).isStored isStored
  have standing : forall field, field ∈ [firstField, secondField, thirdField] ->
      FieldStands three field := by
    simpa using ⟨threeUpholds.fieldStands (twoUpholds.fieldStands firstStands),
      threeUpholds.fieldStands secondStands, thirdStands⟩
  refine Course.Takes.andThen (tends_setFields threeStands stored isChanged standing) ?_
  rintro _ last _ ⟨lastStands, _⟩ _
  exact tends_pure lastStands rfl

/-- The type that a field of a declared type is stored with. -/
theorem tends_wrapFieldType (stands : Stands heap builder) (permits : Permits changed heap)
    (provides : forall builtin, IsStored heap (context.builtin builtin)) {type : TypeId}
    (isStored : IsStored heap type) (flags : FieldFlags) :
    Tends changed (wrapFieldType context type flags) heap builder fun id last =>
      IsStored last id := by
  have inner : Tends changed (if flags.contains FieldFlags.canFail then resultOf context type
      else pure type) heap builder fun id last => IsStored last id := by
    split
    · exact tends_instantiate stands permits isStored (provides .result)
    · exact tends_pure stands isStored
  have continued (id : TypeId) (second : Heap) (after : Builder)
      (leads : (upkeep changed).Leads heap builder second after) (innerStored : IsStored second id) :
      Tends changed (if flags.contains FieldFlags.required then pure id else optionOf context id)
        second after fun id last => IsStored last id := by
    split
    · exact tends_pure leads.1 innerStored
    · exact tends_instantiate leads.1 (permits.keeps leads.2.toKeeps) innerStored
        (leads.2.isStored (provides .option))
  unfold wrapFieldType
  split at inner
  next canFail =>
    rw [if_pos canFail]
    exact Course.Takes.andThen inner continued
  next cannotFail =>
    rw [if_neg cannotFail]
    exact Course.Takes.andThen inner continued

theorem tends_addScalars {scalars : List (Builtin × Nat)} (stands : Stands heap builder)
    (provides : Provides heap context made) :
    Tends changed (addScalars scalars context) heap builder fun result last =>
      Provides last result ((scalars.map Prod.fst).reverse ++ made) := by
  induction scalars generalizing made context heap builder with
  | nil => exact tends_pure stands provides
  | cons scalar rest ih =>
      obtain ⟨builtin, size⟩ := scalar
      refine Course.Takes.andThen (tends_storeText stands builtin.name) ?_
      rintro name second secondBuilder ⟨secondStands, upholds⟩ _
      refine Course.Takes.andThen (tends_addType secondStands (TypeDef.scalar name (UInt32.ofNat size))
        ⟨nofun, nofun⟩ rfl nofun) ?_
      rintro id third thirdBuilder ⟨thirdStands, more⟩ ⟨_, _, stored⟩
      have next := ih thirdStands
        ((provides.keeps (upholds.trans more).toKeeps).enter builtin ⟨_, stored⟩)
      rw [List.map_cons, List.reverse_cons, List.append_assoc]
      exact next

/-- The generic array. -/
theorem tends_addArray (stands : Stands heap builder) (permits : Permits changed heap)
    (provides : Provides heap context made) (pointer : .pointer ∈ made) (size : .size ∈ made) :
    Tends changed (addArray context) heap builder fun result last =>
      Provides last result (.array :: made) ∧ HasShape last (result.builtin .array) .array := by
  refine Course.Takes.andThen (tends_builtinType stands permits .array .array genericFlags) ?_
  rintro id second _ ⟨secondStands, upholds⟩ ⟨isChanged, hasShape⟩
  have provides := provides.keeps upholds.toKeeps
  refine (tends_setThree secondStands hasShape.isStored isChanged
    (tendsField_field "ptr" (provides _ pointer) 0) (tendsField_field "cap" (provides _ size) 1)
    (tendsField_field "len" (provides _ size) 2) _).imp ?_
  rintro _ last _ ⟨_, upholds⟩ rfl
  have still := upholds.shape _ _ hasShape
  refine ⟨(provides.keeps upholds.toKeeps).enter .array still.isStored, ?_⟩
  rw [Context.builtin_setBuiltin, if_pos rfl]
  exact still

/-- The text type is the array of text bytes under another name. -/
theorem tends_addString (stands : Stands heap builder) (permits : Permits changed heap)
    (provides : Provides heap context made) (isArray : HasShape heap (context.builtin .array) .array)
    (char : .char ∈ made) :
    Tends changed (addString context) heap builder fun result last =>
      Provides last result (.string :: made) := by
  refine Course.Takes.andThen (tends_instantiateWithin _ stands permits (provides _ char)
    isArray.isStored) ?_
  rintro id second _ ⟨secondStands, secondUpholds⟩ hasShape
  refine Course.Takes.andThen (tends_storeText secondStands _) ?_
  rintro name third _ ⟨thirdStands, thirdUpholds⟩ _
  obtain ⟨type, stored, isShape⟩ := thirdUpholds.shape _ _ (hasShape _ isArray)
  have storable := thirdStands.holds.storable _ _ stored
  refine Course.Takes.andThen (tends_updateType thirdStands stored
    (fun type => { type with name := name, flags := type.flags.insert TypeFlags.builtin })
    ⟨storable.prototype, storable.argument⟩ rfl ⟨rfl, rfl⟩ rfl fun _ isStruct => ?_) ?_
  · rw [isShape] at isStruct
    cases isStruct
  · rintro _ last _ ⟨lastStands, lastUpholds⟩ _
    have upholds := (secondUpholds.trans thirdUpholds).trans lastUpholds
    exact tends_pure lastStands
      ((provides.keeps upholds.toKeeps).enter .string (lastUpholds.isStored ⟨type, stored⟩))

/-- The tag and the two alternatives of a generic wrapper. -/
theorem tends_addOption (stands : Stands heap builder) (permits : Permits changed heap)
    (provides : Provides heap context made) (tag : .tag ∈ made) (unit : .unit ∈ made) :
    Tends changed (addOption context) heap builder fun result last =>
      Provides last result (.option :: made) := by
  refine Course.Takes.andThen (tends_builtinType stands permits .option .variant genericFlags) ?_
  rintro id second _ ⟨secondStands, upholds⟩ ⟨isChanged, hasShape⟩
  have provides := provides.keeps upholds.toKeeps
  refine (tends_setThree secondStands hasShape.isStored isChanged
    (tendsField_field "tag" (provides _ tag) 0)
    (tendsField_wrapperField "None" (by rintro _ ⟨rfl⟩; exact provides _ unit) 1 0)
    (tendsField_wrapperField "Some" (fun _ isType => by cases isType) 2 1) _).imp ?_
  rintro _ last _ ⟨_, upholds⟩ rfl
  exact (provides.keeps upholds.toKeeps).enter .option (upholds.isStored hasShape.isStored)

theorem tends_addResult (stands : Stands heap builder) (permits : Permits changed heap)
    (provides : Provides heap context made) (tag : .tag ∈ made) (string : .string ∈ made) :
    Tends changed (addResult context) heap builder fun result last =>
      Provides last result (.result :: made) := by
  refine Course.Takes.andThen (tends_builtinType stands permits .result .variant genericFlags) ?_
  rintro id second _ ⟨secondStands, upholds⟩ ⟨isChanged, hasShape⟩
  have provides := provides.keeps upholds.toKeeps
  refine (tends_setThree secondStands hasShape.isStored isChanged
    (tendsField_field "tag" (provides _ tag) 0)
    (tendsField_wrapperField "Ok" (fun _ isType => by cases isType) 1 0)
    (tendsField_wrapperField "Err" (by rintro _ ⟨rfl⟩; exact provides _ string) 2 1) _).imp ?_
  rintro _ last _ ⟨_, upholds⟩ rfl
  exact (provides.keeps upholds.toKeeps).enter .result (upholds.isStored hasShape.isStored)

theorem tends_addMap (stands : Stands heap builder) (permits : Permits changed heap)
    (provides : Provides heap context made) (array : .array ∈ made) (hash : .hash ∈ made)
    (string : .string ∈ made) :
    Tends changed (addMap context) heap builder fun result last =>
      Provides last result (.map :: made) := by
  refine Course.Takes.andThen (tends_builtinType stands permits .map .map genericFlags) ?_
  rintro id second _ ⟨secondStands, secondUpholds⟩ ⟨isChanged, hasShape⟩
  have secondProvides := provides.keeps secondUpholds.toKeeps
  refine Course.Takes.andThen (tends_instantiate secondStands (permits.keeps secondUpholds.toKeeps)
    (secondProvides _ hash) (secondProvides _ array)) ?_
  rintro keysType third _ ⟨thirdStands, thirdUpholds⟩ keysStored
  have thirdProvides := secondProvides.keeps thirdUpholds.toKeeps
  have before := secondUpholds.trans thirdUpholds
  refine Course.Takes.andThen (tends_instantiate thirdStands (permits.keeps before.toKeeps)
    (thirdProvides _ string) (thirdProvides _ array)) ?_
  rintro stringsType fourth _ ⟨fourthStands, fourthUpholds⟩ stringsStored
  have fourthProvides := thirdProvides.keeps fourthUpholds.toKeeps
  have stillStored := (thirdUpholds.trans fourthUpholds).isStored hasShape.isStored
  refine (tends_setThree fourthStands stillStored isChanged
    (tendsField_field "keys" (fourthUpholds.isStored keysStored) 0)
    (tendsField_field "values" (fourthProvides _ array) 1)
    (tendsField_field "strings" stringsStored 2) _).imp ?_
  rintro _ last _ ⟨_, upholds⟩ rfl
  exact (fourthProvides.keeps upholds.toKeeps).enter .map (upholds.isStored stillStored)

theorem tends_addPrototypes (stands : Stands heap builder) (permits : Permits changed heap)
    (provides : Provides heap context made) :
    Tends changed (addPrototypes context) heap builder fun result last =>
      Provides last result (.variantPrototype :: .structPrototype :: made) := by
  refine Course.Takes.andThen
    (tends_builtinType stands permits .structPrototype .struct TypeFlags.builtin) ?_
  rintro struct second _ ⟨secondStands, upholds⟩ ⟨_, hasStruct⟩
  have entered := (provides.keeps upholds.toKeeps).enter .structPrototype hasStruct.isStored
  refine Course.Takes.andThen (tends_builtinType secondStands (permits.keeps upholds.toKeeps)
    .variantPrototype .variant TypeFlags.builtin) ?_
  rintro variant third _ ⟨thirdStands, more⟩ ⟨_, hasVariant⟩
  exact tends_pure thirdStands
    ((entered.keeps more.toKeeps).enter .variantPrototype hasVariant.isStored)

/-- Every builtin of a new context is stored. -/
theorem tends_newContext (stands : Stands heap builder) (permits : Permits changed heap)
    (target : Target) :
    Tends changed (newContext target) heap builder fun result last =>
      forall builtin, IsStored last (result.builtin builtin) := by
  have nothing : Provides heap Context.empty [] := nofun
  refine Course.Takes.andThen (tends_addScalars stands nothing) ?_
  rintro first one _ ⟨oneStands, oneUpholds⟩ provides
  have permits := permits.keeps oneUpholds.toKeeps
  refine Course.Takes.andThen (tends_addArray oneStands permits provides (by simp [scalarSizes])
    (by simp [scalarSizes])) ?_
  rintro second two _ ⟨twoStands, twoUpholds⟩ ⟨provides, isArray⟩
  have permits := permits.keeps twoUpholds.toKeeps
  refine Course.Takes.andThen (tends_addString twoStands permits provides isArray
    (by simp [scalarSizes])) ?_
  rintro third three _ ⟨threeStands, threeUpholds⟩ provides
  have permits := permits.keeps threeUpholds.toKeeps
  refine Course.Takes.andThen (tends_addOption threeStands permits provides (by simp [scalarSizes])
    (by simp [scalarSizes])) ?_
  rintro fourth four _ ⟨fourStands, fourUpholds⟩ provides
  have permits := permits.keeps fourUpholds.toKeeps
  refine Course.Takes.andThen (tends_addResult fourStands permits provides (by simp [scalarSizes])
    (by simp [scalarSizes])) ?_
  rintro fifth five _ ⟨fiveStands, fiveUpholds⟩ provides
  have permits := permits.keeps fiveUpholds.toKeeps
  refine Course.Takes.andThen (tends_addMap fiveStands permits provides (by simp [scalarSizes])
    (by simp [scalarSizes]) (by simp [scalarSizes])) ?_
  rintro sixth six _ ⟨sixStands, sixUpholds⟩ provides
  refine (tends_addPrototypes sixStands (permits.keeps sixUpholds.toKeeps) provides).imp ?_
  intro result last _ _ provides builtin
  exact provides builtin (by cases builtin <;> simp [scalarSizes])

end Contexts

end Builder
end PackedJson
