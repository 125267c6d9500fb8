import PackedJson.Proofs.Schema.Instantiation

namespace PackedJson

theorem Builtin.mem_all (builtin : Builtin) : builtin ∈ Builtin.all := by
  cases builtin <;> decide

namespace Context

theorem index_inj {first second : Builtin} (same : first.index = second.index) : first = second := by
  revert same
  cases first <;> cases second <;> decide

/-- The table after a builtin was entered. -/
theorem builtin_setBuiltin (context : Context) (builtin other : Builtin) (id : TypeId) :
    (context.setBuiltin builtin id).builtin other =
      if other = builtin then id else context.builtin other := by
  unfold Context.builtin setBuiltin
  by_cases same : other = builtin
  · subst same
    rw [if_pos rfl]
    simp only [Fin.getElem_fin, Vector.getElem_set_self]
  · rw [if_neg same]
    have apart : builtin.index.val ≠ other.index.val := by
      intro equal
      exact same (index_inj (Fin.ext equal)).symm
    simp only [Fin.getElem_fin, Vector.getElem_set_ne _ _ apart]

/-- The members of arrays. -/
def arrayMembers (context : Context) : List Member :=
  [{ name := "ptr", type := some (context.builtin .pointer) },
    { name := "cap", type := some (context.builtin .size) },
    { name := "len", type := some (context.builtin .size) }]

/-- The field that every variant starts with. -/
def tagMember (context : Context) : Member :=
  { name := "tag", type := some (context.builtin .tag) }

/-- The members of options of some type. -/
def optionMembers (context : Context) (inner : Option TypeId) : List Member :=
  [context.tagMember,
    { name := "None", type := some (context.builtin .unit), activation := 0, choice := 0 },
    { name := "Some", type := inner, activation := 1, choice := 1 }]

/-- The members of results of some type. -/
def resultMembers (context : Context) (inner : Option TypeId) : List Member :=
  [context.tagMember,
    { name := "Ok", type := inner, activation := 0, choice := 0 },
    { name := "Err", type := some (context.builtin .string), activation := 1, choice := 1 }]

/-- The members of maps with some parallel arrays. -/
def mapMembers (keys values strings : TypeId) : List Member :=
  [{ name := "keys", type := some keys }, { name := "values", type := some values },
    { name := "strings", type := some strings }]

/-- The entry of the table that the text type takes. -/
def textKey (context : Context) : TypeId × TypeId :=
  (context.builtin .array, context.builtin .char)

end Context

namespace Builder

open Heap

/-!
The builtin types of a context.

Making a context adds sixteen types to the heap, all different and none of
them there before: scalars, the text type, four generic types and two
prototypes.  Afterwards the generic types can be instantiated.
-/

/-- Some builtins have been made, each as a new type. -/
structure Made (old heap : Heap) (made : List Builtin) (context : Context) : Prop where
  new : forall builtin, builtin ∈ made -> old (context.builtin builtin).offset.toNat = none
  stored : forall builtin, builtin ∈ made -> exists type,
    HasType heap (context.builtin builtin) type ∧ type.isBuiltin = true
  distinct : forall first second, first ∈ made -> second ∈ made ->
    context.builtin first = context.builtin second -> first = second

theorem Made.nil (old heap : Heap) (context : Context) : Made old heap [] context :=
  ⟨nofun, nofun, nofun⟩

/-- Another builtin is made. -/
theorem Made.add {old heap larger : Heap} {made : List Builtin} {context : Context}
    (earlier : Made old heap made context) (since : old.Extends heap) (kept : heap.Extends larger)
    (builtin : Builtin) {id : TypeId} {type : TypeDef} (isNew : builtin ∉ made)
    (free : heap id.offset.toNat = none) (stored : HasType larger id type)
    (isBuiltin : type.isBuiltin = true) :
    Made old larger (builtin :: made) (context.setBuiltin builtin id) := by
  have other {member : Builtin} (inMade : member ∈ made) :
      (context.setBuiltin builtin id).builtin member = context.builtin member := by
    rw [Context.builtin_setBuiltin, if_neg]
    intro same
    subst same
    exact isNew inMade
  have self : (context.setBuiltin builtin id).builtin builtin = id := by
    rw [Context.builtin_setBuiltin, if_pos rfl]
  have apart {member : Builtin} (inMade : member ∈ made) : context.builtin member ≠ id := by
    intro same
    obtain ⟨memberType, memberStored, _⟩ := earlier.stored member inMade
    rw [same] at memberStored
    cases free.symm.trans memberStored
  refine ⟨?_, ?_, ?_⟩
  · intro member inAll
    cases List.mem_cons.mp inAll with
    | inl same =>
        subst same
        rw [self]
        exact since.grows.free free
    | inr inMade =>
        rw [other inMade]
        exact earlier.new member inMade
  · intro member inAll
    cases List.mem_cons.mp inAll with
    | inl same =>
        subst same
        rw [self]
        exact ⟨type, stored, isBuiltin⟩
    | inr inMade =>
        rw [other inMade]
        obtain ⟨memberType, memberStored, memberBuiltin⟩ := earlier.stored member inMade
        exact ⟨memberType, kept.hasType memberStored, memberBuiltin⟩
  · intro first second firstIn secondIn equal
    cases List.mem_cons.mp firstIn with
    | inl firstSame =>
        subst firstSame
        cases List.mem_cons.mp secondIn with
        | inl secondSame => exact secondSame.symm
        | inr secondMade =>
            rw [self, other secondMade] at equal
            exact absurd equal.symm (apart secondMade)
    | inr firstMade =>
        cases List.mem_cons.mp secondIn with
        | inl secondSame =>
            subst secondSame
            rw [self, other firstMade] at equal
            exact absurd equal (apart firstMade)
        | inr secondMade =>
            rw [other firstMade, other secondMade] at equal
            exact earlier.distinct first second firstMade secondMade equal

/-- Only which builtins are made counts. -/
theorem Made.of_subset {old heap : Heap} {made fewer : List Builtin} {context : Context}
    (earlier : Made old heap made context)
    (subset : forall builtin, builtin ∈ fewer -> builtin ∈ made) :
    Made old heap fewer context :=
  ⟨fun builtin member => earlier.new builtin (subset builtin member),
    fun builtin member => earlier.stored builtin (subset builtin member),
    fun first second firstIn secondIn =>
      earlier.distinct first second (subset first firstIn) (subset second secondIn)⟩

/-! ### Scalars -/

theorem TypeDef.isBuiltin_scalar (name : TextRef) (size : UInt32) :
    (TypeDef.scalar name size).isBuiltin = true := by
  change FlagSet.contains TypeFlags.builtin TypeFlags.builtin = true
  decide

theorem TypeDef.isStoredByReference_scalar (name : TextRef) (size : UInt32) :
    (TypeDef.scalar name size).isStoredByReference = false := by
  change FlagSet.contains TypeFlags.builtin TypeFlags.storedByReference = false
  decide

/-- A builtin is a scalar of some size. -/
def IsScalar (heap : Heap) (id : TypeId) (name : String) (size : Nat) : Prop :=
  exists stored, HasType heap id (TypeDef.scalar stored (UInt32.ofNat size)) ∧
    HasText heap stored name

theorem IsScalar.extends {heap larger : Heap} {id : TypeId} {name : String} {size : Nat}
    (scalar : IsScalar heap id name size) (kept : heap.Extends larger) :
    IsScalar larger id name size := by
  obtain ⟨stored, hasType, hasText⟩ := scalar
  exact ⟨stored, kept.hasType hasType, kept.hasText hasText⟩

/-- The room that scalars may take. -/
def scalarsCost : List (Builtin × Nat) -> Nat
  | [] => 0
  | scalar :: rest => textCost scalar.1.name + typeCost + scalarsCost rest

theorem builds_addScalars {old : Heap} {scalars : List (Builtin × Nat)} {made : List Builtin}
    {context : Context} {heap : Heap} {builder : Builder} (holds : heap.Holds builder.arena)
    (since : old.Extends heap) (earlier : Made old heap made context)
    (different : (scalars.map Prod.fst ++ made).Nodup) :
    Builds (addScalars scalars context) builder (scalarsCost scalars) fun result after =>
      exists larger, Added heap builder larger after ∧
        Made old larger ((scalars.map Prod.fst).reverse ++ made) result ∧
        (forall builtin, builtin ∈ made -> result.builtin builtin = context.builtin builtin) ∧
        forall builtin size, (builtin, size) ∈ scalars ->
          IsScalar larger (result.builtin builtin) builtin.name size := by
  induction scalars generalizing made context heap builder with
  | nil =>
      exact Builds.pure ⟨heap, Added.refl holds, earlier, fun _ _ => rfl, nofun⟩
  | cons scalar rest ih =>
      obtain ⟨builtin, size⟩ := scalar
      have parts := List.nodup_cons.mp different
      have isNew : builtin ∉ made := fun inMade => parts.1 (List.mem_append_right _ inMade)
      refine Builds.andThen (builds_storeText holds builtin.name)
        (typeCost + scalarsCost rest) ?_ (by simp only [scalarsCost]; omega)
      rintro name withName ⟨nameHeap, nameAdded, hasName⟩
      refine Builds.andThen (builds_addType nameAdded.holds
        (TypeDef.scalar name (UInt32.ofNat size)) ⟨nofun, nofun⟩) (scalarsCost rest) ?_
        (Nat.le_refl _)
      rintro id withType ⟨free, typeHeap, typeAdded, stored⟩
      have made' := earlier.add since (nameAdded.kept.trans typeAdded.kept) builtin isNew
        (nameAdded.kept.grows.free free) stored (TypeDef.isBuiltin_scalar _ _)
      have next := ih typeAdded.holds (since.trans (nameAdded.kept.trans typeAdded.kept)) made'
        (by
          have shuffled : (builtin :: (rest.map Prod.fst ++ made)).Perm
              (rest.map Prod.fst ++ builtin :: made) := List.perm_middle.symm
          exact shuffled.nodup_iff.mp different)
      refine next.imp ?_ (Nat.le_refl _)
      rintro result after ⟨larger, added, allMade, same, areScalars⟩
      refine ⟨larger, (nameAdded.trans typeAdded).trans added, ?_, ?_, ?_⟩
      · rw [List.map_cons, List.reverse_cons, List.append_assoc]
        exact allMade
      · intro member inMade
        rw [same member (List.mem_cons_of_mem _ inMade), Context.builtin_setBuiltin, if_neg]
        intro equal
        subst equal
        exact isNew inMade
      · intro member memberSize inAll
        cases List.mem_cons.mp inAll with
        | inl first =>
            cases first
            rw [same builtin List.mem_cons_self, Context.builtin_setBuiltin, if_pos rfl]
            exact ⟨name, added.kept.hasType stored,
              (typeAdded.kept.trans added.kept).hasText hasName⟩
        | inr later => exact areScalars member memberSize later

/-! ### Generic types -/

/-- The record of a new generic type without fields. -/
def genericDef (name : TextRef) (shape : Shape) : TypeDef :=
  { TypeDef.ofShape name shape with flags := genericFlags }

theorem flags_genericFlags :
    FlagSet.contains genericFlags TypeFlags.builtin = true ∧
    FlagSet.contains genericFlags TypeFlags.generic = true ∧
    FlagSet.contains genericFlags TypeFlags.storedByReference = false := by
  decide

/-- A new generic type with some members. -/
def IsGenericType (old heap : Heap) (id : TypeId) (shape : Shape) (name : String)
    (members : List Member) : Prop :=
  exists type fields, old id.offset.toNat = none ∧ HasType heap id type ∧
    HasFields heap id type fields ∧ type.Is heap ⟨shape, none, none, true, true, members⟩ fields ∧
    FieldsAre heap 0 members fields ∧ HasText heap type.name name ∧ type.flags = genericFlags

/-- The marks of a stored type are the given ones. -/
def Flagged (heap : Heap) (id : TypeId) (flags : TypeFlags) : Prop :=
  exists type, HasType heap id type ∧ type.flags = flags

theorem Flagged.extends {heap larger : Heap} {id : TypeId} {flags : TypeFlags}
    (flagged : Flagged heap id flags) (kept : heap.Extends larger) : Flagged larger id flags := by
  obtain ⟨type, stored, same⟩ := flagged
  exact ⟨type, kept.hasType stored, same⟩

/-- The marks of a builtin do not change when other types are marked. -/
theorem Flagged.grows {heap later : Heap} {id : TypeId} {flags : TypeFlags}
    (flagged : Flagged heap id flags) (grows : Grows heap later)
    (isBuiltin : flags.contains TypeFlags.builtin = true) : Flagged later id flags := by
  obtain ⟨type, stored, rfl⟩ := flagged
  refine ⟨type, grows.hasType_of_not stored ?_, rfl⟩
  intro declared
  cases isBuiltin.symm.trans declared.builtin

section GenericTypes

variable {old heap larger : Heap} {id : TypeId} {shape : Shape} {name : String}
  {members : List Member}

theorem IsGenericType.grows (is : IsGenericType old heap id shape name members)
    (grows : Grows heap larger) : IsGenericType old larger id shape name members := by
  obtain ⟨type, fields, new, stored, hasFields, is, are, hasText, flags⟩ := is
  have undeclared : ¬ type.IsDeclared := by
    intro declared
    cases is.generic.symm.trans declared.generic
  exact ⟨type, fields, new, grows.hasType_of_not stored undeclared, grows.hasFields hasFields,
    ⟨is.shape, is.prototype, is.argument, is.builtin, is.generic, is.byReference,
      grows.fieldsAre is.members⟩, grows.fieldsAre are, grows.hasText hasText, flags⟩

theorem IsGenericType.declares (is : IsGenericType old heap id shape name members) :
    Declares heap id ⟨shape, none, none, true, true, members⟩ := by
  obtain ⟨type, fields, _, stored, hasFields, is, _, _⟩ := is
  exact ⟨type, fields, stored, hasFields, is⟩

theorem mem_type_of_fieldsAre {order : Nat} {fields : List FieldDef}
    (are : FieldsAre heap order members fields) {field : FieldDef} (member : field ∈ fields) :
    exists said, said ∈ members ∧ field.type = said.type := by
  induction members generalizing order fields with
  | nil =>
      cases are
      cases member
  | cons said rest ih =>
      cases are with
      | cons is others =>
          cases List.mem_cons.mp member with
          | inl same => exact ⟨said, List.mem_cons_self, same ▸ is.type⟩
          | inr later =>
              obtain ⟨other, inRest, type⟩ := ih others later
              exact ⟨other, List.mem_cons_of_mem _ inRest, type⟩

/-- A small generic type can be instantiated when the types of its members can. -/
theorem IsGenericType.ready (is : IsGenericType old heap id shape name members) {levels : Nat}
    (short : name.utf8ByteSize ≤ 6) (nonempty : members ≠ []) (few : members.length ≤ 3)
    (inner : forall member, member ∈ members -> forall type, member.type = some type ->
      Ready old heap levels type) : Ready old heap (levels + 1) id := by
  obtain ⟨type, fields, new, stored, hasFields, is, are, hasText, _⟩ := is
  have length := are.length
  refine Or.inr ⟨type, fields, _, name, new, stored, hasFields, is, are, rfl, hasText, short, ?_,
    by omega, ?_⟩
  · intro isEmpty
    subst isEmpty
    exact nonempty (List.length_eq_zero_iff.mp length.symm)
  · intro field member innerId same
    obtain ⟨said, inMembers, sameType⟩ := mem_type_of_fieldsAre are member
    exact inner said inMembers innerId (sameType.symm.trans same)

theorem Ready.of_concrete {levels : Nat} {type : TypeId} (concrete : Concrete heap type) :
    Ready old heap (levels + 1) type :=
  Or.inl concrete

variable {builder : Builder} {exempt : List (TypeId × TypeId)}

theorem builds_builtinType (holds : heap.Holds builder.arena) (builtin : Builtin) (shape : Shape)
    (flags : TypeFlags) :
    Builds (builtinType builtin shape flags) builder (textCost builtin.name + typeCost)
      fun id after => heap id.offset.toNat = none ∧ exists larger stored,
        Added heap builder larger after ∧ HasText larger stored builtin.name ∧
        HasType larger id { TypeDef.ofShape stored shape with flags := flags } := by
  refine Builds.andThen (builds_newType holds builtin.name shape) 0 ?_
    (Nat.le_refl _)
  rintro id middle ⟨free, larger, stored, added, hasText, hasType⟩
  refine Builds.andThen (builds_updateType added.holds (fun type => { type with flags := flags })
    hasType ⟨nofun, nofun⟩) 0 ?_
    (Nat.le_refl _)
  rintro changed after ⟨_, instances, held⟩
  refine Builds.pure ⟨free, _, stored, ⟨held, added.kept.set _ free,
    instances.trans added.instances⟩, ?_, set_same _ _ _⟩
  refine ⟨hasText.1, fun nonempty => ?_⟩
  have present := hasText.2 nonempty
  rw [set_other _ _ ?_]
  · exact present
  · intro same
    rw [same] at present
    cases hasType.symm.trans present

theorem builds_plainField (holds : heap.Holds builder.arena) (name : String)
    (type : Option TypeId) (order : Nat) :
    Builds (field name type order) builder (textCost name) fun field after =>
      exists larger, Added heap builder larger after ∧
        field.Is larger { name := name, type := type } order := by
  refine (builds_field holds name type order).imp ?_ (Nat.le_refl _)
  rintro field after ⟨larger, stored, added, hasText, same⟩
  subst same
  exact ⟨larger, added, hasText, rfl, rfl, rfl, rfl, rfl, rfl, hasText⟩

theorem builds_wrapperField (holds : heap.Holds builder.arena) (name : String)
    (type : Option TypeId) (order : Nat) (tag : UInt8) :
    Builds (wrapperField name type order tag) builder (textCost name) fun field after =>
      exists larger, Added heap builder larger after ∧
        field.Is larger { name := name, type := type, activation := tag, choice := tag } order := by
  refine Builds.andThen (builds_plainField holds name type order) 0 ?_
    (Nat.le_refl _)
  rintro field after ⟨larger, added, is⟩
  exact Builds.pure ⟨larger, added, is.name, is.type, is.hash, is.order, is.flags, rfl, rfl,
    is.companion⟩

/-- The type of a member, if it has one, is stored. -/
def Stores (heap : Heap) (type : Option TypeId) : Prop :=
  forall id, type = some id -> exists cell, heap id.offset.toNat = some cell

theorem Stores.none : Stores heap none := nofun

theorem Stores.of_concrete (concrete : Concrete heap id) : Stores heap (some id) := by
  rintro _ ⟨rfl⟩
  obtain ⟨type, stored, _⟩ := concrete
  exact ⟨_, stored⟩

theorem storable_of_fieldsAre {order : Nat} {fields : List FieldDef} (holds : heap.Holds builder.arena)
    (are : FieldsAre heap order members fields)
    (present : forall member, member ∈ members -> Stores heap member.type) :
    forall field, field ∈ fields -> field.Storable := by
  intro field inFields type same
  obtain ⟨said, inMembers, sameType⟩ := mem_type_of_fieldsAre are inFields
  obtain ⟨cell, stored⟩ := present said inMembers type (sameType.symm.trans same)
  exact holds.ne_null stored

/-- A new builtin type is generic once its fields are set. -/
theorem builds_setGeneric {start : Heap} (tabled : Tabled old exempt heap builder)
    (since : old.Extends start) (kept : start.Extends heap) (free : start id.offset.toNat = none)
    {storedName : TextRef} (hasText : HasText heap storedName name)
    (stored : HasType heap id (genericDef storedName shape))
    {fields : List FieldDef} (are : FieldsAre heap 0 members fields) (few : members.length ≤ 3)
    (present : forall member, member ∈ members -> Stores heap member.type) :
    Builds (setFields id fields) builder (fieldsCost fields.length) fun _ after =>
      exists larger, Tabled old exempt larger after ∧ start.Extends larger ∧
        after.instances = builder.instances ∧ IsGenericType old larger id shape name members := by
  refine (builds_setFields tabled.holds stored
    (storable_of_fieldsAre tabled.holds are present)).imp ?_ (Nat.le_refl _)
  rintro changed after ⟨larger, altered, ⟨place, isChanged⟩, changedStored, changedFields⟩
  have newAre := altered.kept.grows.fieldsAre (fieldsAre_without stored are)
  have unused : (genericDef storedName shape).isGeneric = true ->
      (genericDef storedName shape).fieldCount = 0 := fun _ => rfl
  have sameFlags : changed.flags = genericFlags := by
    rw [isChanged]
    rfl
  have flags := flags_genericFlags
  rw [← sameFlags] at flags
  have sameGeneric : changed.isGeneric = (genericDef storedName shape).isGeneric :=
    congrArg (fun flags => FlagSet.contains flags TypeFlags.generic) sameFlags
  have allKept : start.Extends larger := by
    intro position cell before
    have elsewhere : position ≠ id.offset.toNat := by
      intro same
      subst same
      cases free.symm.trans before
    exact altered.kept _ _ ((without_other _ elsewhere).trans (kept _ _ before))
  refine ⟨larger, ⟨since.trans allKept, altered.holds, ?_, ?_, ?_⟩, allKept, altered.instances, ?_⟩
  · rw [altered.instances]
    refine tabled.complete.change tabled.known stored unused changedStored sameGeneric altered.kept
      nofun fun _ _ _ _ _ => ?_
    rw [isChanged]
  · rw [altered.instances]
    exact tabled.known.change stored unused changedStored altered.kept
  · rw [altered.instances]
    exact tabled.new
  · have few' : 0 + members.length ≤ 2 ^ 32 := by omega
    refine ⟨changed, fields, since.grows.free free, changedStored, changedFields, ?_, newAre, ?_,
      sameFlags⟩
    · refine ⟨?_, ?_, ?_, flags.1, flags.2.1, ?_, ?_⟩
      · rw [isChanged]
        rfl
      · rw [isChanged]
        rfl
      · rw [isChanged]
        rfl
      · intro byReference
        cases flags.2.2.symm.trans byReference
      · rw [newAre.sortBy_eq few']
        exact newAre
    · rw [isChanged]
      exact altered.kept.hasText (hasText_without stored hasText)

/-- A generic builtin was made under a new identifier. -/
def AddsGeneric (old : Heap) (exempt : List (TypeId × TypeId)) (heap : Heap) (context : Context)
    (builtin : Builtin) (shape : Shape) (members : List Member) (result : Context)
    (after : Builder) : Prop :=
  exists larger id, Tabled old exempt larger after ∧ heap.Extends larger ∧
    heap id.offset.toNat = none ∧ result = context.setBuiltin builtin id ∧
    IsGenericType old larger id shape builtin.name members

theorem IsGenericType.isBuiltin (is : IsGenericType old heap id shape name members) :
    exists type, HasType heap id type ∧ type.isBuiltin = true := by
  obtain ⟨type, _, _, stored, _, is, _⟩ := is
  exact ⟨type, stored, is.builtin⟩

variable {context : Context}

/-- A computation makes the field of a member, wherever it starts. -/
def MakesField (step : BuildM FieldDef) (member : Member) (order : Nat) : Prop :=
  forall {heap : Heap} {builder : Builder}, heap.Holds builder.arena ->
    Builds step builder 9 fun field after => exists larger, Added heap builder larger after ∧
      field.Is larger member order

/-- A generic type is finished with three fields. -/
theorem builds_threeFields {start : Heap} (tabled : Tabled old exempt heap builder)
    (since : old.Extends start) (kept : start.Extends heap) (free : start id.offset.toNat = none)
    {builtin : Builtin} {storedName : TextRef} (hasText : HasText heap storedName builtin.name)
    (stored : HasType heap id (genericDef storedName shape))
    {first second third : BuildM FieldDef} {firstMember secondMember thirdMember : Member}
    (makesFirst : MakesField first firstMember 0) (makesSecond : MakesField second secondMember 1)
    (makesThird : MakesField third thirdMember 2)
    (present : forall member, member ∈ [firstMember, secondMember, thirdMember] ->
      Stores heap member.type) :
    Builds (do
        let firstField ← first
        let secondField ← second
        let thirdField ← third
        let _ ← setFields id [firstField, secondField, thirdField]
        return context.setBuiltin builtin id) builder 144 fun result after =>
      AddsGeneric old exempt start context builtin shape [firstMember, secondMember, thirdMember]
        result after ∧ after.instances = builder.instances := by
  refine Builds.andThen (makesFirst tabled.holds) 135 ?_ (Nat.le_refl _)
  rintro firstField one ⟨firstHeap, firstAdded, firstIs⟩
  refine Builds.andThen (makesSecond firstAdded.holds) 126 ?_ (Nat.le_refl _)
  rintro secondField two ⟨secondHeap, secondAdded, secondIs⟩
  refine Builds.andThen (makesThird secondAdded.holds) 117 ?_ (Nat.le_refl _)
  rintro thirdField three ⟨thirdHeap, thirdAdded, thirdIs⟩
  have added := (firstAdded.trans secondAdded).trans thirdAdded
  have are : FieldsAre thirdHeap 0 [firstMember, secondMember, thirdMember]
      [firstField, secondField, thirdField] :=
    .cons ((secondAdded.trans thirdAdded).kept.grows.fieldIs firstIs)
      (.cons (thirdAdded.kept.grows.fieldIs secondIs) (.cons thirdIs .nil))
  refine Builds.andThen (builds_setGeneric (tabled.added added) since (kept.trans added.kept) free
    (added.kept.hasText hasText) (added.kept.hasType stored) are (Nat.le_refl 3) ?_)
    0 ?_ (show 112 ≤ 117 by omega)
  · intro member inMembers type same
    obtain ⟨cell, cellStored⟩ := present member inMembers type same
    exact ⟨cell, added.kept _ _ cellStored⟩
  · rintro _ after ⟨larger, afterTabled, afterKept, instances, is⟩
    exact Builds.pure ⟨⟨larger, id, afterTabled, afterKept, free, rfl, is⟩,
      instances.trans added.instances⟩

theorem makesField_field {type : Option TypeId} {order : Nat} (short : textCost name ≤ 9) :
    MakesField (field name type order) { name := name, type := type } order := by
  intro heap builder holds
  exact (builds_plainField holds name type order).imp (fun _ _ => id) short

theorem makesField_wrapperField {type : Option TypeId} {order : Nat} {tag : UInt8}
    (short : textCost name ≤ 9) :
    MakesField (wrapperField name type order tag)
      { name := name, type := type, activation := tag, choice := tag } order := by
  intro heap builder holds
  exact (builds_wrapperField holds name type order tag).imp (fun _ _ => id) short

theorem builds_addArray (tabled : Tabled old exempt heap builder) (since : old.Extends heap)
    (pointer : Concrete heap (context.builtin .pointer))
    (size : Concrete heap (context.builtin .size)) :
    Builds (addArray context) builder 256 fun result after =>
      AddsGeneric old exempt heap context .array .array context.arrayMembers result after ∧
        after.instances = builder.instances := by
  refine Builds.andThen (builds_builtinType tabled.holds .array .array genericFlags)
    144 ?_ (by decide)
  rintro id middle ⟨free, larger, stored, added, hasName, hasType⟩
  have sizes := Stores.of_concrete (size.grows added.kept.grows)
  refine (builds_threeFields (tabled.added added) since added.kept free hasName hasType
    (makesField_field (by decide)) (makesField_field (by decide)) (makesField_field (by decide))
    (List.forall_mem_cons.mpr ⟨.of_concrete (pointer.grows added.kept.grows),
      List.forall_mem_cons.mpr ⟨sizes, List.forall_mem_singleton.mpr sizes⟩⟩)).imp ?_
    (Nat.le_refl _)
  rintro result after ⟨adds, instances⟩
  exact ⟨adds, instances.trans added.instances⟩

theorem builds_addOption (tabled : Tabled old exempt heap builder) (since : old.Extends heap)
    (tag : Concrete heap (context.builtin .tag)) (unit : Concrete heap (context.builtin .unit)) :
    Builds (addOption context) builder 256 fun result after =>
      AddsGeneric old exempt heap context .option .variant (context.optionMembers none) result
        after ∧ after.instances = builder.instances := by
  refine Builds.andThen (builds_builtinType tabled.holds .option .variant genericFlags)
    144 ?_ (by decide)
  rintro id middle ⟨free, larger, stored, added, hasName, hasType⟩
  refine (builds_threeFields (tabled.added added) since added.kept free hasName hasType
    (makesField_field (by decide)) (makesField_wrapperField (by decide))
    (makesField_wrapperField (by decide))
    (List.forall_mem_cons.mpr ⟨.of_concrete (tag.grows added.kept.grows),
      List.forall_mem_cons.mpr ⟨.of_concrete (unit.grows added.kept.grows),
        List.forall_mem_singleton.mpr .none⟩⟩)).imp ?_ (Nat.le_refl _)
  rintro result after ⟨adds, instances⟩
  exact ⟨adds, instances.trans added.instances⟩

theorem builds_addResult (tabled : Tabled old exempt heap builder) (since : old.Extends heap)
    (tag : Concrete heap (context.builtin .tag))
    (string : Concrete heap (context.builtin .string)) :
    Builds (addResult context) builder 256 fun result after =>
      AddsGeneric old exempt heap context .result .variant (context.resultMembers none) result
        after ∧ after.instances = builder.instances := by
  refine Builds.andThen (builds_builtinType tabled.holds .result .variant genericFlags)
    144 ?_ (by decide)
  rintro id middle ⟨free, larger, stored, added, hasName, hasType⟩
  refine (builds_threeFields (tabled.added added) since added.kept free hasName hasType
    (makesField_field (by decide)) (makesField_wrapperField (by decide))
    (makesField_wrapperField (by decide))
    (List.forall_mem_cons.mpr ⟨.of_concrete (tag.grows added.kept.grows),
      List.forall_mem_cons.mpr ⟨.none, List.forall_mem_singleton.mpr
        (.of_concrete (string.grows added.kept.grows))⟩⟩)).imp ?_ (Nat.le_refl _)
  rintro result after ⟨adds, instances⟩
  exact ⟨adds, instances.trans added.instances⟩

/-- Members without a parameter and without generic types are the same in
every instance. -/
theorem bound_eq_of_concrete {instances : Instances} {argument : TypeId} {bound : List Member}
    (allBound : List.Forall₂ (BindsMember heap instances argument) members bound)
    (concrete : forall member, member ∈ members -> exists type, member.type = some type ∧
      Concrete heap type) : bound = members := by
  induction allBound with
  | nil => rfl
  | @cons member boundMember rest boundRest binds _ ih =>
      obtain ⟨type, sameType, isConcrete⟩ := concrete member List.mem_cons_self
      obtain ⟨id, binds, same⟩ := binds
      rw [sameType] at binds
      rw [ih fun other later => concrete other (List.mem_cons_of_mem _ later), same,
        binds.of_concrete isConcrete, ← sameType]

/-- An instance has the shape of its generic type and its members, bound. -/
theorem IsInstance.bound {instances : Instances} {generic argument : TypeId}
    {declaration : Declaration} (is : IsInstance heap instances generic argument id)
    (declares : Declares heap generic declaration) :
    exists bound, List.Forall₂ (BindsMember heap instances argument) declaration.members bound ∧
      Declares heap id ⟨declaration.shape, some generic, some argument, false, false, bound⟩ := by
  obtain ⟨other, bound, otherDeclares, _, allBound, instanceDeclares, _⟩ := is
  cases declares_inj declares otherDeclares
  exact ⟨bound, allBound, instanceDeclares⟩

theorem flags_insert_builtin (flags : TypeFlags) :
    (flags.insert TypeFlags.builtin).contains TypeFlags.builtin = true ∧
    (flags.insert TypeFlags.builtin).contains TypeFlags.generic =
      flags.contains TypeFlags.generic ∧
    (flags.insert TypeFlags.builtin).contains TypeFlags.storedByReference =
      flags.contains TypeFlags.storedByReference := by
  obtain ⟨bits⟩ := flags
  change BitVec 5 at bits
  revert bits
  decide

/-- The array of characters is made from the generic array. -/
theorem builds_charArray (tabled : Tabled old [] heap builder)
    (array : IsGenericType old heap (context.builtin .array) .array "Array" context.arrayMembers)
    (pointer : Concrete heap (context.builtin .pointer))
    (size : Concrete heap (context.builtin .size)) (char : Named heap (context.builtin .char) "char")
    (missing : builder.instances.lookup context.textKey = none) :
    Builds (instantiate (context.builtin .array) (context.builtin .char)) builder
      (instanceCost ("char" : String).utf8ByteSize 2) fun id after => exists larger,
        Instantiated old [] heap builder larger after ∧ heap id.offset.toNat = none ∧
        AddsFor (context.builtin .char) builder after ∧ Flagged larger id FlagSet.empty ∧
        Declares larger id ⟨.array, some (context.builtin .array), some (context.builtin .char),
          false, false, context.arrayMembers⟩ := by
  have concrete : forall member, member ∈ context.arrayMembers -> exists type,
      member.type = some type ∧ Concrete heap type :=
    List.forall_mem_cons.mpr ⟨⟨_, rfl, pointer⟩, List.forall_mem_cons.mpr ⟨⟨_, rfl, size⟩,
      List.forall_mem_singleton.mpr ⟨_, rfl, size⟩⟩⟩
  have ready : Ready old heap 2 (context.builtin .array) := by
    refine array.ready (by decide) (List.cons_ne_nil _ _) (Nat.le_refl 3) ?_
    intro member inMembers type same
    obtain ⟨other, otherSame, isConcrete⟩ := concrete member inMembers
    cases same.symm.trans otherSame
    exact Ready.of_concrete isConcrete
  have isGeneric : IsGeneric heap (context.builtin .array) := by
    obtain ⟨type, _, _, stored, _, is, _⟩ := array
    exact ⟨type, stored, is.generic⟩
  have isNew : old (context.builtin .array).offset.toNat = none := by
    obtain ⟨_, _, new, _⟩ := array
    exact new
  refine Run.imp ((builds_instantiate (by decide) tabled char ready).both
    run_instantiate_addsFor) ?_ fun _ _ ends => ends.1
  rintro id after ⟨⟨⟨larger, instantiated, binds⟩, room⟩, addsFor⟩
  refine ⟨?_, room⟩
  have entered := binds.of_isGeneric (isGeneric.grows instantiated.kept.grows)
  have free : heap id.offset.toNat = none := by
    cases instantiated.fresh _ _ entered with
    | inl earlier => cases missing.symm.trans earlier
    | inr free => exact free
  have is := instantiated.tabled.complete _ _ _ isNew entered nofun
  obtain ⟨bound, allBound, declares⟩ := is.bound (instantiated.kept.grows.declares array.declares)
  have sameMembers : bound = context.arrayMembers := by
    refine bound_eq_of_concrete allBound ?_
    intro member inMembers
    obtain ⟨type, sameType, isConcrete⟩ := concrete member inMembers
    exact ⟨type, sameType, isConcrete.grows instantiated.kept.grows⟩
  subst sameMembers
  refine ⟨larger, instantiated, free, addsFor, ?_, declares⟩
  -- the marks of a generic type, apart from those of generic builtins, are none
  obtain ⟨genericType, type, _, _, genericStored, _, _, stored, _, flags⟩ := is.labelled
  obtain ⟨arrayType, _, _, arrayStored, _, _, _, _, arrayFlags⟩ :=
    array.grows instantiated.kept.grows
  cases hasType_inj genericStored arrayStored
  rw [arrayFlags] at flags
  exact ⟨type, stored, flags.trans (by decide)⟩

theorem builds_addString (tabled : Tabled old [] heap builder)
    (array : IsGenericType old heap (context.builtin .array) .array "Array" context.arrayMembers)
    (pointer : Concrete heap (context.builtin .pointer))
    (size : Concrete heap (context.builtin .size)) (char : Named heap (context.builtin .char) "char")
    (missing : builder.instances.lookup (context.textKey) = none) :
    Builds (addString context) builder 704 fun result after => exists larger id,
      Tabled old [context.textKey] larger after ∧ heap.Extends larger ∧
      heap id.offset.toNat = none ∧ result = context.setBuiltin .string id ∧
      Named larger id "String" ∧ Flagged larger id TypeFlags.builtin ∧
      Declares larger id ⟨.array, some (context.builtin .array),
        some (context.builtin .char), true, false, context.arrayMembers⟩ := by
  refine Builds.andThen (builds_charArray tabled array pointer size char missing) 8 ?_ (by decide)
  rintro id made ⟨madeHeap, instantiated, free, addsFor, flagged, declares⟩
  refine Builds.andThen (builds_storeText instantiated.tabled.holds (Builtin.name .string))
    0 ?_ (by decide)
  rintro name named ⟨nameHeap, nameAdded, hasName⟩
  obtain ⟨type, fields, stored, hasFields, typeIs⟩ := nameAdded.kept.grows.declares declares
  have unmarked : type.flags = FlagSet.empty := by
    obtain ⟨flaggedType, flaggedStored, same⟩ := flagged.extends nameAdded.kept
    cases hasType_inj stored flaggedStored
    exact same
  have tabledNamed := (instantiated.tabled.added nameAdded).weaken
    (List.nil_subset [context.textKey])
  have storable := nameAdded.holds.storable _ _ stored
  refine Builds.andThen (builds_updateType nameAdded.holds
    (fun type => { type with name := name, flags := type.flags.insert TypeFlags.builtin }) stored
    ⟨storable.prototype, storable.argument⟩) 0 ?_ (Nat.le_refl _)
  rintro changed after ⟨_, instances, held⟩
  have flags := flags_insert_builtin type.flags
  have kept := without_extends_set nameHeap id.offset.toNat (.type
    { type with name := name, flags := type.flags.insert TypeFlags.builtin })
  have newStored : HasType (nameHeap.set id.offset.toNat (.type
      { type with name := name, flags := type.flags.insert TypeFlags.builtin })) id
      { type with name := name, flags := type.flags.insert TypeFlags.builtin } := set_same _ _ _
  have plain : type.isGeneric = false := typeIs.generic
  have allKept : heap.Extends (nameHeap.set id.offset.toNat (.type
      { type with name := name, flags := type.flags.insert TypeFlags.builtin })) :=
    (instantiated.kept.trans nameAdded.kept).set _ free
  refine Builds.pure ⟨_, id, ⟨tabled.since.trans allKept, held, ?_, ?_, ?_⟩, allKept, free, rfl,
    ⟨_, newStored, kept.hasText (hasText_without stored hasName)⟩, ⟨_, newStored, ?_⟩, _, fields,
    newStored,
    kept.hasFields (hasFields_without stored hasFields), typeIs.shape, typeIs.prototype,
    typeIs.argument, flags.1, flags.2.1.trans plain, ?_, ?_⟩
  · rw [instances]
    refine tabledNamed.complete.change tabledNamed.known stored (fun generic => ?_) newStored
      flags.2.1 kept ?_ ?_
    · cases plain.symm.trans generic
    · intro generic argument prototype hasArgument
      cases prototype.symm.trans typeIs.prototype
      cases hasArgument.symm.trans typeIs.argument
      exact List.mem_cons_self
    · -- the new type is the argument of no entry
      intro generic other new found _
      rw [nameAdded.instances] at found
      rcases addsFor _ _ found with earlier | same
      · obtain ⟨_, _, _, _, _, _, ⟨_, stored, _⟩, _⟩ :=
          (tabled.complete _ _ _ new earlier nofun).labelled
        cases free.symm.trans stored
      · obtain ⟨_, stored, _⟩ := char
        change heap _ = some _ at stored
        rw [← show id = context.builtin .char from same, free] at stored
        cases stored
  · rw [instances]
    exact tabledNamed.known.change stored (fun generic => by cases plain.symm.trans generic)
      newStored kept
  · rw [instances]
    exact tabledNamed.new
  · change type.flags.insert TypeFlags.builtin = TypeFlags.builtin
    rw [unmarked]
    decide
  · intro byReference
    have declared := typeIs.byReference (flags.2.2.symm.trans byReference)
    cases typeIs.argument.symm.trans declared.argument
  · exact kept.grows.fieldsAre (fieldsAre_without stored typeIs.members)

theorem builds_addMap (tabled : Tabled old exempt heap builder)
    (array : IsGenericType old heap (context.builtin .array) .array "Array" context.arrayMembers)
    (ready : Ready old heap 2 (context.builtin .array))
    (hash : Named heap (context.builtin .hash) "hash")
    (string : Named heap (context.builtin .string) "String") :
    Builds (addMap context) builder 2048 fun result after => exists keys strings,
      AddsGeneric old exempt heap context .map .map
        (Context.mapMembers keys (context.builtin .array) strings) result after ∧
      Continues builder.instances after.instances ∧
      after.instances.lookup (context.builtin .array, context.builtin .hash) = some keys ∧
      after.instances.lookup (context.builtin .array, context.builtin .string) = some strings := by
  have isGeneric : IsGeneric heap (context.builtin .array) := by
    obtain ⟨type, _, _, stored, _, is, _⟩ := array
    exact ⟨type, stored, is.generic⟩
  refine Builds.andThen (builds_builtinType tabled.holds .map .map genericFlags)
    1600 ?_ (by decide)
  rintro id first ⟨free, firstHeap, stored, firstAdded, hasName, hasType⟩
  have firstGrows := firstAdded.kept.grows
  refine Builds.andThen (builds_instantiate (by decide) (tabled.added firstAdded)
    (hash.grows firstGrows) (ready.grows firstGrows)) 900 ?_ (by decide)
  rintro keys second ⟨secondHeap, secondMade, keysBinds⟩
  have secondGrows := firstGrows.trans secondMade.kept.grows
  have keysEntered := keysBinds.of_isGeneric (isGeneric.grows secondGrows)
  refine Builds.andThen (builds_instantiate (by decide) secondMade.tabled
    (string.grows secondGrows) (ready.grows secondGrows)) 144 ?_ (by decide)
  rintro strings third ⟨thirdHeap, thirdMade, stringsBinds⟩
  have thirdGrows := secondGrows.trans thirdMade.kept.grows
  have stringsEntered := stringsBinds.of_isGeneric (isGeneric.grows thirdGrows)
  have keysEnteredLater := thirdMade.continues _ _ keysEntered
  have later := secondMade.kept.trans thirdMade.kept
  refine (builds_threeFields thirdMade.tabled tabled.since (firstAdded.kept.trans later) free
    (later.hasText hasName) (later.hasType hasType) (makesField_field (by decide))
    (makesField_field (by decide)) (makesField_field (by decide)) ?_).imp ?_ (Nat.le_refl _)
  · obtain ⟨arrayType, arrayStored, _⟩ := isGeneric.grows thirdGrows
    refine List.forall_mem_cons.mpr ⟨?_, List.forall_mem_cons.mpr ⟨?_,
      List.forall_mem_singleton.mpr ?_⟩⟩
    · rintro _ ⟨rfl⟩
      exact (thirdMade.tabled.known _ _ _ keysEnteredLater).2
    · rintro _ ⟨rfl⟩
      exact ⟨_, arrayStored⟩
    · rintro _ ⟨rfl⟩
      exact (thirdMade.tabled.known _ _ _ stringsEntered).2
  · rintro result after ⟨adds, instances⟩
    refine ⟨keys, strings, adds, ?_, ?_, ?_⟩
    · rw [instances]
      have continues := secondMade.continues.trans thirdMade.continues
      rw [firstAdded.instances] at continues
      exact continues
    · rw [instances]
      exact keysEnteredLater
    · rw [instances]
      exact stringsEntered

end GenericTypes

/-! ### Contexts -/

/-- The builtins that are scalars. -/
def scalarBuiltins : List Builtin :=
  [.integer, .number, .boolean, .char, .pointer, .size, .hash, .tag, .unit]

theorem map_fst_scalarSizes (target : Target) :
    (scalarSizes target).map Prod.fst = scalarBuiltins := rfl

theorem scalarsCost_scalarSizes (target : Target) : scalarsCost (scalarSizes target) ≤ 512 := by
  cases target <;> decide

/-- The builtins of a context are scalars where they are meant to be. -/
def AreScalars (heap : Heap) (target : Target) (context : Context) : Prop :=
  forall builtin size, (builtin, size) ∈ scalarSizes target ->
    IsScalar heap (context.builtin builtin) builtin.name size

/-- The scalars, the generic array and the text type of a context are what they
are meant to be. -/
structure Basics (old heap : Heap) (target : Target) (context : Context) : Prop where
  scalars : AreScalars heap target context
  array : IsGenericType old heap (context.builtin .array) .array "Array" context.arrayMembers
  stringNamed : Named heap (context.builtin .string) "String"
  stringFlags : Flagged heap (context.builtin .string) TypeFlags.builtin
  string : Declares heap (context.builtin .string) ⟨.array, some (context.builtin .array),
    some (context.builtin .char), true, false, context.arrayMembers⟩

/-- Every builtin of a context is what it is meant to be. -/
structure Founded (old heap : Heap) (instances : Instances) (target : Target)
    (context : Context) : Prop where
  made : Made old heap Builtin.all context
  basics : Basics old heap target context
  option : IsGenericType old heap (context.builtin .option) .variant "Option"
    (context.optionMembers none)
  result : IsGenericType old heap (context.builtin .result) .variant "Result"
    (context.resultMembers none)
  map : exists keys strings,
    instances.lookup (context.builtin .array, context.builtin .hash) = some keys ∧
    instances.lookup (context.builtin .array, context.builtin .string) = some strings ∧
    IsGenericType old heap (context.builtin .map) .map "Map"
      (Context.mapMembers keys (context.builtin .array) strings)

/-- Different builtins have different types. -/
theorem Founded.builtin_inj {old heap : Heap} {instances : Instances} {target : Target}
    {context : Context} (founded : Founded old heap instances target context)
    {first second : Builtin} (same : context.builtin first = context.builtin second) :
    first = second :=
  founded.made.distinct first second first.mem_all second.mem_all same

/-- The room that a context may take. -/
def contextCost : Nat := 8192

section NewContext

variable {old heap larger : Heap} {context : Context} {builder : Builder}
  {exempt : List (TypeId × TypeId)}

/-- Another generic builtin is made. -/
theorem Made.addGeneric {made : List Builtin} (earlier : Made old heap made context)
    (since : old.Extends heap) {builtin : Builtin} {shape : Shape} {members : List Member}
    {result : Context} {after : Builder}
    (adds : AddsGeneric old exempt heap context builtin shape members result after)
    (isNew : builtin ∉ made) :
    exists larger, Tabled old exempt larger after ∧ heap.Extends larger ∧
      Made old larger (builtin :: made) result ∧
      (forall other, other ≠ builtin -> result.builtin other = context.builtin other) ∧
      IsGenericType old larger (result.builtin builtin) shape builtin.name members := by
  obtain ⟨larger, id, tabled, kept, free, same, is⟩ := adds
  subst same
  obtain ⟨type, stored, isBuiltin⟩ := is.isBuiltin
  refine ⟨larger, tabled, kept, earlier.add since kept builtin isNew free stored isBuiltin, ?_, ?_⟩
  · intro other different
    rw [Context.builtin_setBuiltin, if_neg different]
  · rw [Context.builtin_setBuiltin, if_pos rfl]
    exact is

theorem IsScalar.concrete {id : TypeId} {name : String} {size : Nat}
    (scalar : IsScalar heap id name size) : Concrete heap id := by
  obtain ⟨stored, hasType, _⟩ := scalar
  refine ⟨_, hasType, ?_⟩
  change FlagSet.contains TypeFlags.builtin TypeFlags.generic = false
  decide

theorem IsScalar.named {id : TypeId} {name : String} {size : Nat}
    (scalar : IsScalar heap id name size) : Named heap id name := by
  obtain ⟨stored, hasType, hasText⟩ := scalar
  exact ⟨_, hasType, hasText⟩

theorem builds_addPrototypes {made : List Builtin} (tabled : Tabled old exempt heap builder)
    (earlier : Made old heap made context) (structNew : Builtin.structPrototype ∉ made)
    (variantNew : Builtin.variantPrototype ∉ made) :
    Builds (addPrototypes context) builder 128 fun result after => exists larger,
      Added heap builder larger after ∧
      Made old larger (.variantPrototype :: .structPrototype :: made) result ∧
      forall other, other ≠ .structPrototype -> other ≠ .variantPrototype ->
        result.builtin other = context.builtin other := by
  refine Builds.andThen (builds_builtinType tabled.holds .structPrototype .struct
    TypeFlags.builtin) 64 ?_ (by decide)
  rintro struct middle ⟨structFree, structHeap, structName, structAdded, _, structStored⟩
  have structMade := earlier.add tabled.since structAdded.kept .structPrototype structNew
    structFree structStored
    (show FlagSet.contains TypeFlags.builtin TypeFlags.builtin = true by decide)
  refine Builds.andThen (builds_builtinType structAdded.holds .variantPrototype .variant
    TypeFlags.builtin) 0 ?_ (by decide)
  rintro variant after ⟨variantFree, variantHeap, variantName, variantAdded, _, variantStored⟩
  have variantMade := structMade.add (tabled.since.trans structAdded.kept) variantAdded.kept
    .variantPrototype (by
      intro member
      cases List.mem_cons.mp member with
      | inl same => cases same
      | inr inMade => exact variantNew inMade) variantFree variantStored
    (show FlagSet.contains TypeFlags.builtin TypeFlags.builtin = true by decide)
  refine Builds.pure ⟨variantHeap, structAdded.trans variantAdded, variantMade, ?_⟩
  intro other notStruct notVariant
  rw [Context.builtin_setBuiltin, if_neg notVariant, Context.builtin_setBuiltin, if_neg notStruct]

/-- A new table has an entry of the new array type for no argument. -/
theorem Known.missing {instances : Instances} (known : Known heap instances)
    {generic argument : TypeId} (new : heap generic.offset.toNat = none) :
    instances.lookup (generic, argument) = none := by
  cases found : instances.lookup (generic, argument) with
  | none => rfl
  | some id =>
      obtain ⟨⟨type, stored, _⟩, _⟩ := known generic argument id found
      cases new.symm.trans stored

theorem Declares.concrete {id : TypeId} {declaration : Declaration}
    (declares : Declares heap id declaration) (plain : declaration.generic = false) :
    Concrete heap id := by
  obtain ⟨type, _, stored, _, is⟩ := declares
  exact ⟨type, stored, is.generic.trans plain⟩

theorem AreScalars.scalar {target : Target} (scalars : AreScalars heap target context)
    (builtin : Builtin) (isScalar : builtin ∈ scalarBuiltins) :
    exists size, IsScalar heap (context.builtin builtin) builtin.name size := by
  rw [← map_fst_scalarSizes target] at isScalar
  obtain ⟨⟨found, size⟩, member, rfl⟩ := List.mem_map.mp isScalar
  exact ⟨size, scalars found size member⟩

theorem AreScalars.concrete {target : Target} (scalars : AreScalars heap target context)
    (builtin : Builtin) (isScalar : builtin ∈ scalarBuiltins) :
    Concrete heap (context.builtin builtin) := by
  obtain ⟨size, scalar⟩ := scalars.scalar builtin isScalar
  exact scalar.concrete

theorem AreScalars.named {target : Target} (scalars : AreScalars heap target context)
    (builtin : Builtin) (isScalar : builtin ∈ scalarBuiltins) :
    Named heap (context.builtin builtin) builtin.name := by
  obtain ⟨size, scalar⟩ := scalars.scalar builtin isScalar
  exact scalar.named

/-- Scalars stay scalars when other builtins are made. -/
theorem AreScalars.keep {target : Target} {later : Context}
    (scalars : AreScalars heap target context) (kept : heap.Extends larger)
    (same : forall builtin, builtin ∈ scalarBuiltins ->
      later.builtin builtin = context.builtin builtin) : AreScalars larger target later := by
  intro builtin size member
  have isScalar : builtin ∈ (scalarSizes target).map Prod.fst := List.mem_map_of_mem member
  rw [same builtin isScalar]
  exact (scalars builtin size member).extends kept

/-- Basic builtins stay what they are when other builtins are made. -/
theorem Basics.keep {target : Target} {later : Context} (basics : Basics old heap target context)
    (kept : heap.Extends larger)
    (same : forall builtin, builtin ∈ Builtin.array :: .string :: scalarBuiltins ->
      later.builtin builtin = context.builtin builtin) : Basics old larger target later := by
  have members : later.arrayMembers = context.arrayMembers := by
    unfold Context.arrayMembers
    rw [same .pointer (by decide), same .size (by decide)]
  refine ⟨basics.scalars.keep kept fun builtin isScalar =>
    same builtin (List.mem_cons_of_mem _ (List.mem_cons_of_mem _ isScalar)), ?_, ?_, ?_, ?_⟩
  · rw [same .array (by decide), members]
    exact basics.array.grows kept.grows
  · rw [same .string (by decide)]
    exact basics.stringNamed.grows kept.grows
  · rw [same .string (by decide)]
    exact basics.stringFlags.extends kept
  · rw [same .array (by decide), same .string (by decide), same .char (by decide), members]
    exact kept.grows.declares basics.string

/-- The array type can be instantiated. -/
theorem Basics.ready {target : Target} (basics : Basics old heap target context) :
    Ready old heap 2 (context.builtin .array) := by
  refine basics.array.ready (by decide) (List.cons_ne_nil _ _) (Nat.le_refl 3) ?_
  have pointer := basics.scalars.concrete .pointer (by decide)
  have size := basics.scalars.concrete .size (by decide)
  refine List.forall_mem_cons.mpr ⟨?_, List.forall_mem_cons.mpr ⟨?_,
    List.forall_mem_singleton.mpr ?_⟩⟩
  · rintro _ ⟨rfl⟩
    exact Ready.of_concrete pointer
  · rintro _ ⟨rfl⟩
    exact Ready.of_concrete size
  · rintro _ ⟨rfl⟩
    exact Ready.of_concrete size

/-- The builtins made before the generic wrappers. -/
def basicBuiltins : List Builtin :=
  .string :: .array :: scalarBuiltins.reverse

/-- The basic builtins are made first. -/
theorem builds_basics {Next : Type} (target : Target) (holds : heap.Holds builder.arena)
    (known : Known heap builder.instances) {next : Context -> BuildM Next} (remaining : Nat)
    {good : Next -> Builder -> Prop}
    (continued : forall context larger after, Tabled heap [context.textKey] larger after ->
      Made heap larger basicBuiltins context -> Basics heap larger target context ->
      Builds (next context) after remaining good) :
    Builds (do
        let context ← addScalars (scalarSizes target) Context.empty
        let context ← addArray context
        let context ← addString context
        next context) builder (1472 + remaining) good := by
  have start : Tabled heap [] heap builder := by
    refine ⟨Extends.refl heap, holds, ?_, known, ?_⟩
    · intro generic argument id new found
      cases (known.missing new).symm.trans found
    · intro generic argument id new found
      cases (known.missing new).symm.trans found
  have different : ((scalarSizes target).map Prod.fst ++ []).Nodup := by
    rw [map_fst_scalarSizes]
    decide
  refine Builds.andThen ((builds_addScalars holds start.since
    (Made.nil heap heap Context.empty) different).imp (fun _ _ => id)
    (scalarsCost_scalarSizes target)) (960 + remaining) ?_ (by omega)
  rintro scalars one ⟨oneHeap, oneAdded, oneMade, -, areScalars⟩
  have areScalars : AreScalars oneHeap target scalars := areScalars
  have oneTabled := start.added oneAdded
  rw [map_fst_scalarSizes, List.append_nil] at oneMade
  refine Builds.andThen (builds_addArray oneTabled oneTabled.since
    (areScalars.concrete .pointer (by decide)) (areScalars.concrete .size (by decide)))
    (704 + remaining) ?_ (by omega)
  rintro arrayed two ⟨twoAdds, twoInstances⟩
  obtain ⟨twoHeap, twoTabled, twoKept, twoMade, twoSame, array⟩ :=
    oneMade.addGeneric oneTabled.since twoAdds (by decide)
  have twoScalars : AreScalars twoHeap target arrayed := areScalars.keep twoKept
    fun builtin isScalar => twoSame builtin (by rintro rfl; revert isScalar; decide)
  have members : arrayed.arrayMembers = scalars.arrayMembers := by
    unfold Context.arrayMembers
    rw [twoSame .pointer (by decide), twoSame .size (by decide)]
  rw [← members] at array
  have missing : two.instances.lookup arrayed.textKey = none := by
    rw [twoInstances, oneAdded.instances]
    exact known.missing (twoMade.new .array (by decide))
  refine Builds.andThen (builds_addString twoTabled array
    (twoScalars.concrete .pointer (by decide)) (twoScalars.concrete .size (by decide))
    (twoScalars.named .char (by decide)) missing) remaining ?_ (Nat.le_refl _)
  rintro texted three
    ⟨threeHeap, id, threeTabled, threeKept, free, rfl, named, flagged, declares⟩
  have same (builtin : Builtin) (apart : builtin ≠ .string) :
      (arrayed.setBuiltin .string id).builtin builtin = arrayed.builtin builtin := by
    rw [Context.builtin_setBuiltin, if_neg apart]
  have self : (arrayed.setBuiltin .string id).builtin .string = id := by
    rw [Context.builtin_setBuiltin, if_pos rfl]
  have sameMembers : (arrayed.setBuiltin .string id).arrayMembers = arrayed.arrayMembers := by
    unfold Context.arrayMembers
    rw [same .pointer (by decide), same .size (by decide)]
  have sameKey : (arrayed.setBuiltin .string id).textKey = arrayed.textKey := by
    unfold Context.textKey
    rw [same .array (by decide), same .char (by decide)]
  refine continued _ threeHeap three (sameKey ▸ threeTabled) ?_ ⟨?_, ?_, ?_, ?_, ?_⟩
  · obtain ⟨type, _, stored, _, is⟩ := declares
    exact twoMade.add twoTabled.since threeKept .string (by decide) free stored is.builtin
  · exact twoScalars.keep threeKept fun builtin isScalar =>
      same builtin (by rintro rfl; revert isScalar; decide)
  · rw [same .array (by decide), sameMembers]
    exact array.grows threeKept.grows
  · rw [self]
    exact named
  · rw [self]
    exact flagged
  · rw [self, same .array (by decide), same .char (by decide), sameMembers]
    exact declares

/-- Making a context leaves all of its builtins made. -/
theorem builds_newContext (target : Target) (holds : heap.Holds builder.arena)
    (known : Known heap builder.instances) :
    Builds (newContext target) builder contextCost fun context after => exists larger,
      Tabled heap [context.textKey] larger after ∧
      Founded heap larger after.instances target context := by
  refine (builds_basics target holds known 6720 ?_).imp (fun _ _ => id) (Nat.le_refl _)
  intro basic first firstBuilder tabled made basics
  refine Builds.andThen (builds_addOption tabled tabled.since
    (basics.scalars.concrete .tag (by decide)) (basics.scalars.concrete .unit (by decide)))
    6464 ?_ (Nat.le_refl _)
  rintro optioned secondBuilder ⟨secondAdds, -⟩
  obtain ⟨second, secondTabled, secondKept, secondMade, secondSame, option⟩ :=
    made.addGeneric tabled.since secondAdds (by decide)
  have secondBasics := basics.keep secondKept fun builtin isBasic =>
    secondSame builtin (by rintro rfl; revert isBasic; decide)
  have textKey : optioned.textKey = basic.textKey := by
    unfold Context.textKey
    rw [secondSame .array (by decide), secondSame .char (by decide)]
  refine Builds.andThen (builds_addResult secondTabled secondTabled.since
    (secondBasics.scalars.concrete .tag (by decide))
    (Declares.concrete secondBasics.string rfl)) 6208 ?_ (Nat.le_refl _)
  rintro resulted thirdBuilder ⟨thirdAdds, -⟩
  obtain ⟨third, thirdTabled, thirdKept, thirdMade, thirdSame, result⟩ :=
    secondMade.addGeneric secondTabled.since thirdAdds (by decide)
  have thirdBasics := secondBasics.keep thirdKept fun builtin isBasic =>
    thirdSame builtin (by rintro rfl; revert isBasic; decide)
  refine Builds.andThen (builds_addMap thirdTabled thirdBasics.array thirdBasics.ready
    (thirdBasics.scalars.named .hash (by decide)) thirdBasics.stringNamed) 4160 ?_ (Nat.le_refl _)
  rintro mapped fourthBuilder ⟨keys, strings, fourthAdds, -, keysEntered, stringsEntered⟩
  obtain ⟨fourth, fourthTabled, fourthKept, fourthMade, fourthSame, map⟩ :=
    thirdMade.addGeneric thirdTabled.since fourthAdds (by decide)
  have fourthBasics := thirdBasics.keep fourthKept fun builtin isBasic =>
    fourthSame builtin (by rintro rfl; revert isBasic; decide)
  refine (builds_addPrototypes fourthTabled fourthMade (by decide) (by decide)).imp ?_ (by decide)
  rintro context after ⟨larger, added, allMade, fifthSame⟩
  have fromThird (builtin : Builtin) (notMap : builtin ≠ .map)
      (notStruct : builtin ≠ .structPrototype) (notVariant : builtin ≠ .variantPrototype) :
      context.builtin builtin = resulted.builtin builtin :=
    (fifthSame builtin notStruct notVariant).trans (fourthSame builtin notMap)
  have fromSecond (builtin : Builtin) (notResult : builtin ≠ .result) (notMap : builtin ≠ .map)
      (notStruct : builtin ≠ .structPrototype) (notVariant : builtin ≠ .variantPrototype) :
      context.builtin builtin = optioned.builtin builtin :=
    (fromThird builtin notMap notStruct notVariant).trans (thirdSame builtin notResult)
  have optionMembers : context.optionMembers none = basic.optionMembers none := by
    unfold Context.optionMembers Context.tagMember
    rw [fromSecond .tag nofun nofun nofun nofun, fromSecond .unit nofun nofun nofun nofun,
      secondSame .tag nofun, secondSame .unit nofun]
  have resultMembers : context.resultMembers none = optioned.resultMembers none := by
    unfold Context.resultMembers Context.tagMember
    rw [fromSecond .tag nofun nofun nofun nofun, fromSecond .string nofun nofun nofun nofun]
  have thirdArray := fromThird .array nofun nofun nofun
  have finalKey : context.textKey = basic.textKey := by
    unfold Context.textKey
    rw [fromSecond .array nofun nofun nofun nofun, fromSecond .char nofun nofun nofun nofun,
      secondSame .array nofun, secondSame .char nofun]
  refine ⟨larger, ?_, ?_, ?_, ?_, ?_, keys, strings, ?_, ?_, ?_⟩
  · rw [finalKey]
    exact fourthTabled.added added
  · refine allMade.of_subset fun builtin _ => ?_
    revert builtin
    decide
  · refine fourthBasics.keep added.kept fun builtin isBasic => fifthSame builtin ?_ ?_
    · rintro rfl
      revert isBasic
      decide
    · rintro rfl
      revert isBasic
      decide
  · rw [fromSecond .option nofun nofun nofun nofun, optionMembers]
    exact option.grows ((thirdKept.trans fourthKept).trans added.kept).grows
  · rw [fromThird .result nofun nofun nofun, resultMembers]
    exact result.grows (fourthKept.trans added.kept).grows
  · rw [added.instances, thirdArray, fromThird .hash nofun nofun nofun]
    exact keysEntered
  · rw [added.instances, thirdArray, fromThird .string nofun nofun nofun]
    exact stringsEntered
  · rw [fifthSame .map nofun nofun, thirdArray]
    exact map.grows added.kept.grows

end NewContext

/-! ### Later heaps -/

section Later

variable {old heap later : Heap} {instances laterInstances : Instances} {target : Target}
  {context : Context} {id : TypeId}

/-- A builtin or a type with an argument is not a declared type. -/
theorem ne_of_declared {other : TypeId} {type : TypeDef} {declaration : Declaration}
    (stored : HasType heap id type) (declared : type.IsDeclared)
    (declares : Declares heap other declaration)
    (apart : declaration.builtin = true ∨ declaration.argument.isSome) : other ≠ id := by
  intro same
  subst same
  obtain ⟨otherType, fields, otherStored, _, is⟩ := declares
  cases hasType_inj stored otherStored
  cases apart with
  | inl builtin => cases declared.builtin.symm.trans (is.builtin.trans builtin)
  | inr argument =>
      rw [← is.argument, declared.argument] at argument
      cases argument

theorem IsScalar.grows {name : String} {size : Nat} (scalar : IsScalar heap id name size)
    (grows : Grows heap later) : IsScalar later id name size := by
  obtain ⟨stored, hasType, hasText⟩ := scalar
  refine ⟨stored, grows.hasType_of_not hasType ?_, grows.hasText hasText⟩
  intro declared
  cases (TypeDef.isBuiltin_scalar stored _).symm.trans declared.builtin

theorem Made.grows {made : List Builtin} (earlier : Made old heap made context)
    (grows : Grows heap later) : Made old later made context := by
  refine ⟨earlier.new, ?_, earlier.distinct⟩
  intro builtin inMade
  obtain ⟨type, stored, isBuiltin⟩ := earlier.stored builtin inMade
  refine ⟨type, grows.hasType_of_not stored ?_, isBuiltin⟩
  intro declared
  cases isBuiltin.symm.trans declared.builtin

theorem Founded.grows (founded : Founded old heap instances target context)
    (grows : Grows heap later) (continues : Continues instances laterInstances) :
    Founded old later laterInstances target context := by
  obtain ⟨made, ⟨scalars, array, stringNamed, stringFlags, string⟩, option, result, keys, strings,
    keysFound, stringsFound, map⟩ := founded
  exact ⟨made.grows grows,
    ⟨fun builtin size member => (scalars builtin size member).grows grows, array.grows grows,
      stringNamed.grows grows, stringFlags.grows grows (by decide), grows.declares string⟩,
    option.grows grows, result.grows grows, keys, strings, continues _ _ keysFound,
    continues _ _ stringsFound, map.grows grows⟩

variable {type : TypeDef} (stored : HasType heap id type) (declared : type.IsDeclared)
  (kept : (heap.without id.offset.toNat).Extends later)

include stored declared kept

/-- Builtins do not change when a declared type gets its fields. -/
theorem hasType_of_builtin {other : TypeId} {otherType : TypeDef}
    (otherStored : HasType heap other otherType) (isBuiltin : otherType.isBuiltin = true) :
    HasType later other otherType := by
  refine kept.hasType (hasType_without otherStored ?_)
  intro same
  subst same
  cases hasType_inj stored otherStored
  cases isBuiltin.symm.trans declared.builtin

theorem IsGenericType.change {generic : TypeId} {shape : Shape} {name : String}
    {members : List Member} (is : IsGenericType old heap generic shape name members) :
    IsGenericType old later generic shape name members := by
  obtain ⟨genericType, fields, new, genericStored, hasFields, is, are, hasText, flags⟩ := is
  have keptAre {order : Nat} {fields : List FieldDef} (are : FieldsAre heap order members fields) :=
    kept.grows.fieldsAre (fieldsAre_without stored are)
  exact ⟨genericType, fields, new,
    hasType_of_builtin stored declared kept genericStored is.builtin,
    kept.hasFields (hasFields_without stored hasFields),
    ⟨is.shape, is.prototype, is.argument, is.builtin, is.generic, is.byReference,
      keptAre is.members⟩, keptAre are, kept.hasText (hasText_without stored hasText), flags⟩

/-- A context is not affected when a declared type gets its fields. -/
theorem Founded.change (founded : Founded old heap instances target context) :
    Founded old later instances target context := by
  obtain ⟨made, ⟨scalars, array, ⟨stringType, stringStored, stringText⟩,
    ⟨flaggedType, flaggedStored, flags⟩, string⟩, option, result, keys, strings, keysFound,
    stringsFound, map⟩ := founded
  have apart := ne_of_declared stored declared string (Or.inl rfl)
  refine ⟨⟨made.new, ?_, made.distinct⟩, ⟨?_, ?_, ?_, ?_, ?_⟩, ?_, ?_, keys, strings, keysFound,
    stringsFound, ?_⟩
  · intro builtin inMade
    obtain ⟨builtinType, builtinStored, isBuiltin⟩ := made.stored builtin inMade
    exact ⟨builtinType, hasType_of_builtin stored declared kept builtinStored isBuiltin, isBuiltin⟩
  · intro builtin size member
    obtain ⟨name, hasType, hasText⟩ := scalars builtin size member
    exact ⟨name, hasType_of_builtin stored declared kept hasType (TypeDef.isBuiltin_scalar _ _),
      kept.hasText (hasText_without stored hasText)⟩
  · exact array.change stored declared kept
  · exact ⟨stringType, kept.hasType (hasType_without stringStored apart),
      kept.hasText (hasText_without stored stringText)⟩
  · exact ⟨flaggedType, kept.hasType (hasType_without flaggedStored apart), flags⟩
  · exact kept.grows.declares (declares_without stored string apart)
  · exact option.change stored declared kept
  · exact result.change stored declared kept
  · exact map.change stored declared kept

end Later

end Builder
end PackedJson
