import PackedJson.Proofs.Arena.Session
import PackedJson.Proofs.Schema.HashOrder

namespace PackedJson

/-!
Types that stay in order whatever is done with them.

`Stands` is what holds of a builder between any two operations, also when one
of them fails: the types stored have fields whose names are stored and hashed,
and they refer to types that are stored.  `Upholds` is what an operation leaves
as it is: texts and shapes, and the fields of structs up to their positions and
the order within different hashes.  A computation is followed with the heap of
each state it passes, to its end or to its failure.
-/

/-! ### Courses of computations -/

/-- How a state may lead to a later one, each with what is known of it. -/
structure Course (World State : Type) where
  Leads : World -> State -> World -> State -> Prop
  trans : forall {world later last : World} {state after final : State},
    Leads world state later after -> Leads later after last final -> Leads world state last final

namespace Course

variable {World State Failure Result Next : Type} {course : Course World State} {world : World}
  {state : State}

/-- A computation takes the course from a state on, also when it fails. -/
def Takes (course : Course World State) (step : EStateM Failure State Result) (world : World)
    (state : State) (good : Result -> World -> State -> Prop) : Prop :=
  Run step state
    (fun result after => exists later, course.Leads world state later after ∧
      good result later after)
    (fun _ after => exists later, course.Leads world state later after)

theorem Takes.imp {step : EStateM Failure State Result} {good weaker : Result -> World -> State -> Prop}
    (takes : course.Takes step world state good)
    (onGood : forall result later after, course.Leads world state later after ->
      good result later after -> weaker result later after) :
    course.Takes step world state weaker :=
  Run.imp takes
    (fun result after ⟨later, leads, holds⟩ => ⟨later, leads, onGood result later after leads holds⟩)
    (fun _ _ ends => ends)

theorem Takes.andThen {first : EStateM Failure State Result}
    {second : Result -> EStateM Failure State Next}
    {good : Result -> World -> State -> Prop} {nextGood : Next -> World -> State -> Prop}
    (takes : course.Takes first world state good)
    (continued : forall result later after, course.Leads world state later after ->
      good result later after -> course.Takes (second result) later after nextGood) :
    course.Takes (first >>= second) world state nextGood := by
  refine Run.andThen takes ?_ (fun _ _ ends => ends)
  rintro result after ⟨later, leads, holds⟩
  refine Run.imp (continued result later after leads holds) ?_ ?_
  · rintro next final ⟨last, further, nextHolds⟩
    exact ⟨last, course.trans leads further, nextHolds⟩
  · rintro failure final ⟨last, further⟩
    exact ⟨last, course.trans leads further⟩

theorem Takes.pure {result : Result} {good : Result -> World -> State -> Prop}
    (stays : course.Leads world state world state) (holds : good result world state) :
    course.Takes (pure result : EStateM Failure State Result) world state good :=
  run_pure.mpr ⟨world, stays, holds⟩

theorem Takes.throw {failure : Failure} {good : Result -> World -> State -> Prop}
    (stays : course.Leads world state world state) :
    course.Takes (throw failure : EStateM Failure State Result) world state good :=
  run_throw.mpr ⟨world, stays⟩

end Course

/-! ### What holds of a builder -/

theorem TypeId.toNat_inj {first second : TypeId} :
    first.offset.toNat = second.offset.toNat ↔ first = second := by
  obtain ⟨firstOffset⟩ := first
  obtain ⟨secondOffset⟩ := second
  rw [Offset.toNat_inj, TypeId.mk.injEq]

namespace Heap

/-- A type is stored. -/
def IsStored (heap : Heap) (id : TypeId) : Prop := exists type, HasType heap id type

/-- A type of some shape is stored. -/
def HasShape (heap : Heap) (id : TypeId) (shape : Shape) : Prop :=
  exists type, HasType heap id type ∧ type.shape = shape

theorem HasShape.isStored {heap : Heap} {id : TypeId} {shape : Shape}
    (hasShape : HasShape heap id shape) : IsStored heap id := by
  obtain ⟨type, stored, _⟩ := hasShape
  exact ⟨type, stored⟩

/-- The name of a field is stored and hashed, and its type is stored. -/
structure FieldStands (heap : Heap) (field : FieldDef) : Prop where
  name : exists name, HasText heap field.jsonName name ∧ field.hash = Checksum.nameHash name
  type : forall inner, field.type = some inner -> IsStored heap inner

/-- A type has its fields, and its argument is stored. -/
structure TypeStands (heap : Heap) (id : TypeId) (type : TypeDef) : Prop where
  fields : exists fields, HasFields heap id type fields ∧
    forall field, field ∈ fields -> FieldStands heap field
  argument : forall argument, type.argument = some argument -> IsStored heap argument

/-- The types of a builder are in order, and an instance has the shape of its
generic type. -/
structure Stands (heap : Heap) (builder : Builder) : Prop where
  holds : heap.Holds builder.arena
  types : forall id type, HasType heap id type -> TypeStands heap id type
  instances : forall generic argument id, ((generic, argument), id) ∈ builder.instances ->
    exists shape, HasShape heap generic shape ∧ HasShape heap id shape

/-! ### What an operation leaves as it is -/

/-- Texts stay, and types keep their shapes. -/
structure Keeps (heap later : Heap) : Prop where
  text : forall reference text, HasText heap reference text -> HasText later reference text
  shape : forall id shape, HasShape heap id shape -> HasShape later id shape

/-- The records of a struct and its fields after operations that do not give
it other fields. -/
structure Refiles (type : TypeDef) (fields : List FieldDef) (later : TypeDef)
    (laterFields : List FieldDef) : Prop where
  shape : later.shape = type.shape
  builtin : later.isBuiltin = type.isBuiltin
  generic : later.isGeneric = type.isGeneric
  runs : SameRuns fields laterFields
  filed : Filed type fields -> Filed later laterFields

/-- A type still has its fields. -/
def Continued (heap later : Heap) (id : TypeId) : Prop :=
  forall type fields, HasType heap id type -> HasFields heap id type fields ->
    exists laterType laterFields, HasType later id laterType ∧
      HasFields later id laterType laterFields ∧ Refiles type fields laterType laterFields

/-- Structs still have their fields, apart from those that may be changed. -/
structure Upholds (changed : TypeId -> Prop) (heap later : Heap) : Prop extends Keeps heap later where
  structs : forall id, ¬ changed id -> HasShape heap id .struct -> Continued heap later id

section Keeping

variable {heap later last : Heap} {changed : TypeId -> Prop}

theorem Keeps.refl (heap : Heap) : Keeps heap heap :=
  ⟨fun _ _ stored => stored, fun _ _ stored => stored⟩

theorem Keeps.trans (first : Keeps heap later) (second : Keeps later last) : Keeps heap last :=
  ⟨fun reference text stored => second.text reference text (first.text reference text stored),
    fun id shape stored => second.shape id shape (first.shape id shape stored)⟩

theorem Keeps.isStored (keeps : Keeps heap later) {id : TypeId} (stored : IsStored heap id) :
    IsStored later id := by
  obtain ⟨type, stored⟩ := stored
  exact (keeps.shape id type.shape ⟨type, stored, rfl⟩).isStored

theorem Keeps.fieldStands (keeps : Keeps heap later) {field : FieldDef}
    (stands : FieldStands heap field) : FieldStands later field := by
  obtain ⟨⟨name, hasText, hash⟩, type⟩ := stands
  exact ⟨⟨name, keeps.text _ _ hasText, hash⟩, fun inner isType => keeps.isStored (type inner isType)⟩

theorem Refiles.refl (type : TypeDef) (fields : List FieldDef) : Refiles type fields type fields :=
  ⟨rfl, rfl, rfl, .refl fields, id⟩

theorem Refiles.trans {type laterType lastType : TypeDef}
    {fields laterFields lastFields : List FieldDef}
    (first : Refiles type fields laterType laterFields)
    (second : Refiles laterType laterFields lastType lastFields) :
    Refiles type fields lastType lastFields :=
  ⟨second.shape.trans first.shape, second.builtin.trans first.builtin,
    second.generic.trans first.generic, first.runs.trans second.runs,
    fun filed => second.filed (first.filed filed)⟩

theorem Continued.refl (heap : Heap) (id : TypeId) : Continued heap heap id :=
  fun type fields stored hasFields => ⟨type, fields, stored, hasFields, .refl type fields⟩

theorem Continued.trans {id : TypeId} (first : Continued heap later id)
    (second : Continued later last id) : Continued heap last id := by
  intro type fields stored hasFields
  obtain ⟨laterType, laterFields, laterStored, laterHas, refiles⟩ := first type fields stored hasFields
  obtain ⟨lastType, lastFields, lastStored, lastHas, more⟩ :=
    second laterType laterFields laterStored laterHas
  exact ⟨lastType, lastFields, lastStored, lastHas, refiles.trans more⟩

theorem Upholds.refl (changed : TypeId -> Prop) (heap : Heap) : Upholds changed heap heap :=
  ⟨.refl heap, fun id _ _ => .refl heap id⟩

theorem Upholds.trans (first : Upholds changed heap later) (second : Upholds changed later last) :
    Upholds changed heap last :=
  ⟨first.toKeeps.trans second.toKeeps, fun id unchanged isStruct =>
    (first.structs id unchanged isStruct).trans
      (second.structs id unchanged (first.shape id .struct isStruct))⟩

end Keeping

/-! ### One cell -/

/-- A cell may stand at a position: it is new there, or of the sort of the old
one. -/
structure Fits (heap : Heap) (position : Nat) (cell : Cell) : Prop where
  sameSort : forall old, heap position = some old -> Cell.SameSort old cell
  shape : forall old type, heap position = some (.type old) -> cell = .type type ->
    type.shape = old.shape
  length : forall owner old records, heap position = some (.fields owner old) ->
    cell = .fields owner records -> records.length = old.length

section Cells

variable {heap : Heap} {position : Nat} {cell : Cell} {changed : TypeId -> Prop}

theorem Fits.of_free (free : heap position = none) : Fits heap position cell :=
  ⟨fun _ stored => (Option.some_ne_none _ (stored.symm.trans free)).elim,
    fun _ _ stored => (Option.some_ne_none _ (stored.symm.trans free)).elim,
    fun _ _ _ stored => (Option.some_ne_none _ (stored.symm.trans free)).elim⟩

theorem Fits.of_type {old type : TypeDef} (stored : heap position = some (.type old))
    (sameShape : type.shape = old.shape) : Fits heap position (.type type) := by
  refine ⟨fun other otherStored => ?_, fun other later otherStored same => ?_, nofun⟩
  · cases stored.symm.trans otherStored
    exact .type _ _
  · cases stored.symm.trans otherStored
    cases same
    exact sameShape

theorem Fits.of_fields {owner : TypeId} {old records : List FieldDef}
    (stored : heap position = some (.fields owner old)) (sameLength : records.length = old.length) :
    Fits heap position (.fields owner records) := by
  refine ⟨fun other otherStored => ?_, fun _ _ _ isType => ?_,
    fun otherOwner other later otherStored same => ?_⟩
  · cases stored.symm.trans otherStored
    exact .fields owner _ _
  · cases isType
  · cases stored.symm.trans otherStored
    cases same
    exact sameLength

theorem Fits.keeps (fits : Fits heap position cell) : Keeps heap (heap.set position cell) := by
  refine ⟨fun reference text hasText => ⟨hasText.1, fun nonempty => ?_⟩, ?_⟩
  · have stored := hasText.2 nonempty
    by_cases same : reference.offset.toNat = position
    · rw [same] at stored
      cases fits.sameSort _ stored
    · exact (set_other heap cell same).trans stored
  · rintro id shape ⟨type, stored, isShape⟩
    by_cases same : id.offset.toNat = position
    · have old : heap position = some (.type type) := same ▸ stored
      cases fits.sameSort _ old with
      | type _ later =>
          refine ⟨later, ?_, (fits.shape type later old rfl).trans isShape⟩
          unfold HasType
          rw [same]
          exact set_same heap position _
    · exact ⟨type, (set_other heap cell same).trans stored, isShape⟩

/-- The fields of a type are what they were, or the ones of the cell. -/
theorem Fits.hasFields (fits : Fits heap position cell) {id : TypeId} {type : TypeDef}
    {fields : List FieldDef} (hasFields : HasFields heap id type fields) :
    HasFields (heap.set position cell) id type fields ∨
      exists records, heap position = some (.fields id fields) ∧ cell = .fields id records ∧
        HasFields (heap.set position cell) id type records := by
  by_cases isEmpty : fields = []
  · exact Or.inl ⟨hasFields.1, fun nonempty => absurd isEmpty nonempty⟩
  · have stored := hasFields.2 isEmpty
    by_cases same : type.fields.toNat = position
    · rw [same] at stored
      cases fits.sameSort _ stored with
      | fields _ _ records =>
          refine Or.inr ⟨records, stored, rfl,
            hasFields.1.trans (fits.length id fields records stored rfl).symm, fun _ => ?_⟩
          rw [same]
          exact set_same heap position _
    · exact Or.inl ⟨hasFields.1, fun _ => (set_other heap cell same).trans stored⟩

theorem hasType_of_set {id : TypeId} {type : TypeDef}
    (stored : HasType (heap.set position cell) id type) :
    id.offset.toNat = position ∧ cell = .type type ∨
      id.offset.toNat ≠ position ∧ HasType heap id type := by
  by_cases same : id.offset.toNat = position
  · have isCell : heap.set position cell position = some (.type type) := same ▸ stored
    rw [set_same] at isCell
    exact Or.inl ⟨same, Option.some.inj isCell⟩
  · exact Or.inr ⟨same, (set_other heap cell same).symm.trans stored⟩

/-- A builder stays in order when one cell is new or replaced. -/
theorem Stands.set {builder after : Builder} (stands : Stands heap builder)
    (fits : Fits heap position cell) (holds : (heap.set position cell).Holds after.arena)
    (instances : after.instances = builder.instances)
    (typed : forall id type, id.offset.toNat = position -> cell = .type type ->
      TypeStands (heap.set position cell) id type)
    (named : forall owner records, cell = .fields owner records ->
      forall field, field ∈ records -> FieldStands heap field) :
    Stands (heap.set position cell) after := by
  have keeps := fits.keeps
  refine ⟨holds, fun id type stored => ?_, ?_⟩
  · rcases hasType_of_set stored with ⟨same, isCell⟩ | ⟨_, before⟩
    · exact typed id type same isCell
    · obtain ⟨⟨fields, hasFields, fieldsStand⟩, argument⟩ := stands.types id type before
      refine ⟨?_, fun inner isArgument => keeps.isStored (argument inner isArgument)⟩
      rcases fits.hasFields hasFields with same | ⟨records, _, isCell, laterHas⟩
      · exact ⟨fields, same, fun field member => keeps.fieldStands (fieldsStand field member)⟩
      · exact ⟨records, laterHas, fun field member =>
          keeps.fieldStands (named id records isCell field member)⟩
  · intro generic argument id member
    rw [instances] at member
    obtain ⟨shape, hasGeneric, hasInstance⟩ := stands.instances generic argument id member
    exact ⟨shape, keeps.shape _ _ hasGeneric, keeps.shape _ _ hasInstance⟩

/-- The records of a type that are not in the cell stay. -/
theorem Fits.untouched (fits : Fits heap position cell) {id : TypeId}
    (elsewhere : id.offset.toNat ≠ position)
    (unowned : forall old, heap position ≠ some (.fields id old)) :
    Layout.Untouched heap (heap.set position cell) id := by
  refine fun type stored => ⟨(set_other heap cell elsewhere).trans stored, fun fields hasFields => ?_⟩
  rcases fits.hasFields hasFields with same | ⟨_, before, _, _⟩
  · exact same
  · exact absurd before (unowned fields)

/-- Structs whose records are not in the cell still have their fields. -/
theorem Upholds.set (fits : Fits heap position cell)
    (structs : forall id, ¬ changed id -> HasShape heap id .struct ->
      (id.offset.toNat = position ∨
        exists old records, heap position = some (.fields id old) ∧ cell = .fields id records) ->
      Continued heap (heap.set position cell) id) :
    Upholds changed heap (heap.set position cell) := by
  refine ⟨fits.keeps, fun id unchanged isStruct => ?_⟩
  by_cases touched : id.offset.toNat = position ∨
      exists old records, heap position = some (.fields id old) ∧ cell = .fields id records
  · exact structs id unchanged isStruct touched
  · have kept : Layout.Untouched heap (heap.set position cell) id := by
      refine fits.untouched (fun same => touched (Or.inl same)) fun old before => ?_
      cases fits.sameSort _ before with
      | fields _ _ records => exact touched (Or.inr ⟨old, records, before, rfl⟩)
    intro type fields stored hasFields
    have still := kept type stored
    exact ⟨type, fields, still.1, still.2 fields hasFields, .refl type fields⟩

/-- A new cell leaves every struct as it is. -/
theorem Upholds.of_free (free : heap position = none) :
    Upholds changed heap (heap.set position cell) := by
  refine .set (.of_free free) fun id _ isStruct touched => ?_
  rcases touched with same | ⟨old, _, stored, _⟩
  · obtain ⟨type, stored, _⟩ := isStruct
    rw [HasType, same] at stored
    exact (Option.some_ne_none _ (stored.symm.trans free)).elim
  · exact (Option.some_ne_none _ (stored.symm.trans free)).elim

end Cells

end Heap
end PackedJson
