import PackedJson.Proofs.Schema.Arranging

namespace PackedJson

open Heap Builder

/-!
Laying types out again.

Types that are laid out are a fixed point of the layout.  Whatever order they
are visited in, each of them is found to take the room that it takes already,
its fields are placed where they are and stored in the order in which they are
stored, and the bytes that are written are those that are there.  That no type
contains itself inline is what keeps the second run from failing.
-/

/-! ### Writing what is there -/

section Writing

variable {heap : Heap} {builder : Builder} {id : TypeId} {type : TypeDef} {fields : List FieldDef}

/-- A part of a cell is written over itself. -/
theorem write_eq {arena : Arena} (holds : heap.Holds arena) {position : Nat} {cell : Cell}
    (stored : heap position = some cell) {offset : Offset} {source : ByteArray}
    (nonempty : 0 < source.size) {first last : List UInt8}
    (isPart : cell.bytes = first ++ (source.data.toList ++ last))
    (place : offset.toNat = position + first.length) :
    Arena.write offset source arena = .ok () arena := by
  have sourceSize : source.data.toList.length = source.size := rfl
  have size : cell.size = first.length + (source.size + last.length) := by
    unfold Cell.size
    rw [isPart, List.length_append, List.length_append, sourceSize]
  have run := Arena.run_write offset source holds.writable (holds.within _ _ stored) (by omega)
    (by omega) (by omega)
  obtain ⟨_, after, ends⟩ := run.exists_ok
  have same := Arena.load_part ((holds.load _ _ stored).trans isPart)
  rw [← place] at same
  rw [ends, (run.of_ok ends).eq_of_load same]

theorem onArena_eq {Result : Type} {step : ArenaM Result} {result : Result}
    (ends : step builder.arena = .ok result builder.arena) :
    onArena step builder = .ok result builder := by
  obtain ⟨arena, instances⟩ := builder
  simp only [onArena, ends]

theorem writeType_eq (holds : heap.Holds builder.arena) (stored : HasType heap id type) :
    writeType id type builder = .ok () builder := by
  have sourceSize : (Record.toBytes type).size = 40 := Record.size_toBytes type
  have isPart : (Cell.type type).bytes = [] ++ ((Record.toBytes type).data.toList ++ []) := by
    rw [List.nil_append, List.append_nil, Cell.bytes]
  exact onArena_eq (write_eq holds stored (by omega) isPart rfl)

/-- The records of some fields of a cell are written, behind others. -/
theorem writeFieldsAt_eq (holds : heap.Holds builder.arena) {position : Nat} {owner : TypeId}
    (done fields : List FieldDef) (stored : heap position = some (.fields owner (done ++ fields))) :
    writeFieldsAt (Offset.ofNat (position + 36 * done.length)) fields builder = .ok () builder := by
  induction fields generalizing done with
  | nil => rfl
  | cons field rest ih =>
      have inUse := (holds.within _ _ stored).2.1
      have space := holds.used_lt
      have size := Cell.size_fields owner (done ++ field :: rest)
      rw [List.length_append, List.length_cons] at size
      have toNat : (Offset.ofNat (position + 36 * done.length)).toNat =
          position + 36 * done.length := Offset.toNat_ofNat (by omega)
      have sourceSize : (Record.toBytes field).size = 36 := Record.size_toBytes field
      have length : (Cell.fields owner done).bytes.length = 36 * done.length := Cell.size_fields owner done
      have write : onArena (Record.write (Offset.ofNat (position + 36 * done.length)) field) builder =
          .ok () builder :=
        onArena_eq (write_eq holds stored (by omega) (bytes_fields_append owner done (field :: rest))
          (by rw [toNat, length]))
      have next := ih (done ++ [field]) (by rw [List.append_assoc]; exact stored)
      have place : Offset.ofNat ((Offset.ofNat (position + 36 * done.length)).toNat +
          Schema.fieldSize) = Offset.ofNat (position + 36 * (done ++ [field]).length) := by
        rw [toNat, List.length_append]
        rfl
      rw [← place] at next
      unfold writeFieldsAt
      simp only [bind, EStateM.bind, write]
      exact next

theorem writeFields_eq (holds : heap.Holds builder.arena) (hasFields : HasFields heap id type fields) :
    writeFields type fields builder = .ok () builder := by
  by_cases isEmpty : fields = []
  · rw [isEmpty]
    rfl
  · have write := writeFieldsAt_eq holds [] fields (hasFields.2 isEmpty)
    rw [List.length_nil, Nat.mul_zero, Nat.add_zero, Offset.ofNat_toNat] at write
    exact write

end Writing

namespace Layout

/-! ### States -/

/-- All types of a plan are laid out, and none of them contains itself inline. -/
structure Plan.Finished (plan : Plan) (arena : Arena) : Prop where
  holds : plan.start.Holds arena
  layout : IsLayout plan.start plan.target plan.types
  alternatives : forall id declaration, plan.types id -> Declares plan.start id declaration ->
    declaration.shape = .variant -> 2 ≤ declaration.members.length
  acyclic : forall id, plan.types id -> ¬ Relation.TransGen plan.Inlines id id

/-- A state in which types are laid out again, while some types are busy. -/
structure Resting (plan : Plan) (builder : Builder) (busy : List TypeId) (state : State) : Prop where
  builder : state.builder = builder
  inProgress : state.inProgress = busy
  pending : forall id, id ∈ state.pending -> plan.types id

/-- A step has an answer that does not depend on the state, and changes nothing. -/
def Again {Result : Type} (plan : Plan) (builder : Builder) (busy : List TypeId)
    (step : LayoutM Result) (result : Result) : Prop :=
  forall state, Resting plan builder busy state ->
    Run step state (fun answer after => answer = result ∧ Resting plan builder busy after)
      (fun _ _ => False)

section Steps

variable {Result Next : Type} {plan : Plan} {builder : Builder} {busy : List TypeId}
  {step : LayoutM Result} {result : Result} {next : Result -> LayoutM Next} {last : Next}
  {id : TypeId}

theorem again_pure : Again plan builder busy (pure result) result :=
  fun _ resting => run_pure.mpr ⟨rfl, resting⟩

theorem Again.andThen (first : Again plan builder busy step result)
    (second : Again plan builder busy (next result) last) :
    Again plan builder busy (step >>= next) last := by
  intro state resting
  refine Run.andThen (first state resting) ?_ (fun _ _ impossible => impossible)
  rintro _ middle ⟨rfl, still⟩
  exact second middle still

theorem again_onBuilder {step : BuildM Result} (ends : step builder = .ok result builder) :
    Again plan builder busy (onBuilder step) result := by
  rintro ⟨held, done, inProgress, pending⟩ ⟨same, isBusy, areTypes⟩
  change held = builder at same
  subst same
  have stays : onBuilder step ⟨held, done, inProgress, pending⟩ =
      .ok result ⟨held, done, inProgress, pending⟩ := by
    simp only [onBuilder, ends]
  exact (run_of_ok stays).mpr ⟨rfl, rfl, isBusy, areTypes⟩

theorem again_query {question : Schema -> Except SchemaError Result}
    (answer : question ⟨builder.arena⟩ = .ok result) :
    Again plan builder busy (query question) result := by
  refine again_onBuilder ?_
  unfold Builder.query
  rw [answer]

theorem again_checkSize {type : TypeDef} {value : Nat} (small : value < 2 ^ 32) :
    Again plan builder busy (checkSize type value) value := by
  unfold checkSize
  rw [if_pos small]
  exact again_pure

theorem again_isDone {next : Bool -> LayoutM Next}
    (either : forall known, Again plan builder busy (next known) last) :
    Again plan builder busy (isDone id >>= next) last :=
  fun state resting => either _ state resting

theorem again_isInProgress : Again plan builder busy (isInProgress id) (busy.contains id) :=
  fun _ resting => ⟨congrArg (List.contains · id) resting.inProgress, resting⟩

theorem again_postpone (isType : plan.types id) : Again plan builder busy (postpone id) () :=
  fun _ resting => ⟨rfl, resting.builder, resting.inProgress,
    List.forall_mem_cons.mpr ⟨isType, resting.pending⟩⟩

/-- A type is busy while it is laid out, and what is found is written. -/
theorem again_between {write : Result -> LayoutM Unit}
    (inside : Again plan builder (id :: busy) step result)
    (writes : Again plan builder (id :: busy) (write result) ()) :
    Again plan builder busy (do
      start id
      let found ← step
      write found
      finish id
      return found) result := by
  intro state resting
  refine run_start.mpr (Run.andThen (inside _ ⟨resting.builder,
    congrArg (id :: ·) resting.inProgress, resting.pending⟩) ?_ (fun _ _ impossible => impossible))
  rintro _ middle ⟨rfl, still⟩
  refine Run.andThen (writes middle still) ?_ (fun _ _ impossible => impossible)
  rintro _ after ⟨_, last⟩
  refine run_finish.mpr (run_pure.mpr ⟨rfl, last.builder, ?_, last.pending⟩)
  rw [last.inProgress, List.erase_cons_head]

/-- A run starts while no type is busy. -/
theorem Again.run_eq (again : Again plan builder [] step result) : run step builder = .ok result builder := by
  have all := again ⟨builder, [], [], []⟩ ⟨rfl, rfl, nofun⟩
  obtain ⟨_, after, ends⟩ := all.exists_ok
  obtain ⟨rfl, resting⟩ := all.of_ok ends
  unfold run
  rw [ends]
  exact congrArg _ resting.builder

end Steps

/-- Different types of a plan are busy, at least some number of them. -/
structure AreBusy (plan : Plan) (depth : Nat) (busy : List TypeId) : Prop where
  types : forall id, id ∈ busy -> plan.types id
  distinct : busy.Nodup
  deep : depth ≤ busy.length

/-- A function finds types as they are, inside of at least some number of others. -/
def Repeats (plan : Plan) (builder : Builder) (depth : Nat) (arrange : TypeId -> LayoutM TypeDef) :
    Prop :=
  forall busy id type, AreBusy plan depth busy -> plan.types id -> Nested plan busy id ->
    HasType plan.start id type -> Again plan builder busy (arrange id) type

/-! ### Variables -/

/-- A field that is placed where it is stays as it is. -/
theorem placed_eq {field : FieldDef} {place : Nat} (same : field.offset.toNat = place) :
    { field with offset := UInt32.ofNat place } = field := by
  rw [← same, UInt32.ofNat_toNat]

section Fields

variable {plan : Plan} {builder : Builder} {depth : Nat} {arrange : TypeId -> LayoutM TypeDef}
  {busy : List TypeId} {fields : List FieldDef} {slots : List Variable}
  (repeats : Repeats plan builder depth arrange) (finished : plan.Finished builder.arena)
  (isBusy : AreBusy plan depth busy)

include repeats finished isBusy

theorem again_variableWith {id : TypeId} (isType : plan.types id)
    (nested : NestedInline plan busy id) {field : FieldDef} (isField : field.type = some id)
    {slot : Variable} (takes : HasVariable plan.start plan.target plan.types field slot) :
    Again plan builder busy (variableWith arrange plan.target id) slot := by
  obtain ⟨_, type, same, stored, rfl, _⟩ := takes
  cases isField.symm.trans same
  unfold variableWith
  refine (again_query (finished.holds.type stored)).andThen ?_
  split
  next byReference =>
    have pointer : Again plan builder busy
        (pure ⟨plan.target.pointerWidth, plan.target.pointerWidth⟩)
        (Variable.ofType plan.target type) := by
      rw [Variable.ofType, if_pos byReference]
      exact again_pure
    refine again_isDone fun known => again_isInProgress.andThen ?_
    split
    · exact (again_postpone isType).andThen pointer
    · exact pointer
  next inline =>
    refine (repeats busy id type isBusy isType
      (nested type stored (Bool.eq_false_iff.mpr inline)) stored).andThen ?_
    rw [Variable.ofType, if_neg inline]
    exact again_pure

/-- Fields that are placed where they are stay as they are. -/
theorem again_placeFields (owner : TypeDef) (areTyped : AreTyped plan busy fields)
    (takes : List.Forall₂ (HasVariable plan.start plan.target plan.types) fields slots)
    {position : Nat}
    (places : fields.map (fun field => field.offset.toNat) = sequencePlaces slots position)
    (small : sequenceEnd slots position < 2 ^ 32) (align : Nat) :
    Again plan builder busy (placeFields (variableWith arrange plan.target) owner fields position align)
      (fields, sequenceEnd slots position, greatestAlign slots align) := by
  induction takes generalizing position align with
  | nil => exact again_pure
  | @cons field slot rest others takes _ ih =>
      obtain ⟨⟨id, isField, isType, nested⟩, othersTyped⟩ := List.forall_mem_cons.mp areTyped
      obtain ⟨place, otherPlaces⟩ := List.cons.inj places
      have atMost : alignUp position slot.align + slot.size ≤
          sequenceEnd others (alignUp position slot.align + slot.size) := le_sequenceEnd _ _
      change sequenceEnd others (alignUp position slot.align + slot.size) < 2 ^ 32 at small
      unfold placeFields
      refine (again_query (fieldType_of owner isField)).andThen ?_
      refine (again_variableWith repeats finished isBusy isType nested isField takes).andThen ?_
      refine (again_checkSize (by omega)).andThen ((again_checkSize (by omega)).andThen ?_)
      refine (ih othersTyped otherPlaces small (max align slot.align)).andThen ?_
      simp only [placed_eq place]
      exact again_pure

theorem again_greatest (owner : TypeDef) (areTyped : AreTyped plan busy fields)
    (takes : List.Forall₂ (HasVariable plan.start plan.target plan.types) fields slots)
    (bound : Variable) :
    Again plan builder busy (greatest (variableWith arrange plan.target) owner fields bound)
      ⟨greatestSize slots bound.size, greatestAlign slots bound.align⟩ := by
  induction takes generalizing bound with
  | nil => exact again_pure
  | cons takes _ ih =>
      obtain ⟨⟨id, isField, isType, nested⟩, othersTyped⟩ := List.forall_mem_cons.mp areTyped
      unfold greatest
      refine (again_query (fieldType_of owner isField)).andThen ?_
      refine (again_variableWith repeats finished isBusy isType nested isField takes).andThen ?_
      exact ih othersTyped _

end Fields

/-! ### Shapes -/

/-- What the sizes of a type say is entered again. -/
theorem withSize_same {target : Target} {type : TypeDef} {align : Nat}
    (sizes : HasSizes target type align) : withSize target type type.size.toNat align = type := by
  have same {size slot align : UInt32} (sameSize : size = type.size) (sameSlot : slot = type.slot)
      (sameAlign : align = type.align) :
      { type with size := size, slot := slot, align := align } = type := by
    rw [sameSize, sameSlot, sameAlign]
  unfold HasSizes at sizes
  unfold withSize
  split
  next byReference =>
    rw [if_pos byReference] at sizes
    exact same UInt32.ofNat_toNat (sizes.1 ▸ UInt32.ofNat_toNat) (sizes.2 ▸ UInt32.ofNat_toNat)
  next inline =>
    rw [if_neg inline] at sizes
    exact same UInt32.ofNat_toNat (sizes.1 ▸ UInt32.ofNat_toNat) (sizes.2 ▸ UInt32.ofNat_toNat)

section Shapes

variable {plan : Plan} {builder : Builder} {depth : Nat} {arrange : TypeId -> LayoutM TypeDef}
  {busy : List TypeId} {id : TypeId} {type : TypeDef} {fields : List FieldDef}
  {slots : List Variable} {align : Nat}

/-- A type that is laid out and neither generic nor a scalar. -/
structure Arranged (plan : Plan) (id : TypeId) (type : TypeDef) (fields : List FieldDef)
    (slots : List Variable) (align : Nat) : Prop where
  stored : HasType plan.start id type
  hasFields : HasFields plan.start id type fields
  is : IsArranged plan.start plan.target plan.types type fields slots align
  composite : type.isBuiltin = true -> type.fieldCount ≠ 0

theorem Arranged.exactly (arranged : Arranged plan id type fields slots align) :
    type.size.toNat = (exactRoom type.shape slots).size ∧
      (Sorted.sortBy FieldDef.orderKey fields).map (fun field => field.offset.toNat) =
        exactPlaces type.shape slots ∧ align = greatestAlign slots 1 := by
  have notScalar : ¬ (fields = [] ∧ type.isBuiltin = true) := by
    rintro ⟨noFields, isBuiltin⟩
    refine arranged.composite isBuiltin (UInt32.toNat_inj.mp ?_)
    rw [arranged.hasFields.1, noFields]
    rfl
  obtain ⟨size, places⟩ := arranged.is.exactly.resolve_left notScalar
  exact ⟨size, places, arranged.is.strictest.resolve_left notScalar⟩

/-- The argument of a type is put off or left alone. -/
theorem again_postponeArgument {argument : Option TypeId}
    (areTypes : forall inner, argument = some inner -> plan.types inner) :
    Again plan builder busy (postponeArgument argument) () := by
  unfold postponeArgument
  cases argument with
  | none => exact again_pure
  | some inner =>
      refine again_isDone fun known => ?_
      split
      · exact again_pure
      · exact again_postpone (areTypes inner rfl)

section Run

variable (repeats : Repeats plan builder depth arrange) (finished : plan.Finished builder.arena)
  (isBusy : AreBusy plan depth (id :: busy)) (arranged : Arranged plan id type fields slots align)
  (areTyped : AreTyped plan (id :: busy) (Sorted.sortBy FieldDef.orderKey fields))

include repeats finished isBusy arranged areTyped

theorem again_arrangeInSequence (notVariant : type.shape ≠ .variant) {byHash : Bool}
    (isStruct : byHash = true ↔ type.shape = .struct) :
    Again plan builder (id :: busy) (arrangeInSequence arrange plan.target type byHash) type := by
  obtain ⟨size, places, strictest⟩ := arranged.exactly
  rw [exactRoom_of_ne notVariant] at size
  rw [exactPlaces_of_ne notVariant] at places
  have small := type.size.toNat_lt
  have raised := le_alignUp_of_any (sequenceEnd slots 0) (greatestAlign slots 1)
  change type.size.toNat = alignUp (sequenceEnd slots 0) (greatestAlign slots 1) at size
  have filed := arranged.is.filed
  unfold arrangeInSequence
  refine (again_query (finished.holds.fieldsInOrder arranged.hasFields)).andThen ?_
  refine (again_placeFields repeats finished isBusy type areTyped arranged.is.takes places (by omega)
    1).andThen ?_
  refine (again_checkSize (by omega)).andThen ?_
  rw [← size, ← strictest, withSize_same arranged.is.sizes]
  cases byHash with
  | true =>
      have shape := isStruct.mp rfl
      rw [shape] at filed
      change fields = Sorted.sortBy (fun field => field.hash.toNat)
        (Sorted.sortBy FieldDef.orderKey fields) at filed
      have sorted := Sorted.pairwise_sortBy (fun field : FieldDef => field.hash.toNat)
        (Sorted.sortBy FieldDef.orderKey fields)
      rw [← filed] at sorted
      have mark : hasEqualNeighbours fields = type.flags.contains TypeFlags.hasHashCollisions :=
        Bool.eq_iff_iff.mpr ((hasEqualNeighbours_iff sorted).trans (arranged.is.mark shape).symm)
      simp only [if_true]
      rw [← filed, mark, set_contains_self]
      exact (again_onBuilder (writeFields_eq finished.holds arranged.hasFields)).andThen again_pure
  | false =>
      rw [storageOrder_of_ne fun shape => Bool.noConfusion (isStruct.mpr shape)] at filed
      simp only [Bool.false_eq_true, if_false]
      rw [← filed]
      exact (again_onBuilder (writeFields_eq finished.holds arranged.hasFields)).andThen again_pure

theorem again_arrangeVariant (isVariant : type.shape = .variant) (several : 2 ≤ fields.length) :
    Again plan builder (id :: busy) (arrangeVariant arrange plan.target type) type := by
  obtain ⟨size, places, strictest⟩ := arranged.exactly
  have small := type.size.toNat_lt
  have sizes := withSize_same arranged.is.sizes
  have filed := arranged.is.filed
  have takes := arranged.is.takes
  rw [isVariant] at size places
  rw [storageOrder_of_ne fun isStruct => Shape.noConfusion (isVariant.symm.trans isStruct)] at filed
  rw [← filed] at takes places areTyped
  obtain ⟨tag, first, others, rfl⟩ := exists_tagged several
  unfold arrangeVariant
  refine (again_query (finished.holds.fieldsInOrder arranged.hasFields)).andThen ?_
  rw [show Sorted.sortBy (fun field => field.order.toNat) (tag :: first :: others) =
    tag :: first :: others from filed.symm]
  cases takes with
  | @cons _ tagSlot _ rest tagTakes othersTake =>
      obtain ⟨⟨tagId, isTag, tagIsType, tagNested⟩, othersTyped⟩ := List.forall_mem_cons.mp areTyped
      obtain ⟨tagPlace, otherPlaces⟩ := List.cons.inj places
      have stays (field : FieldDef) (isOther : field ∈ first :: others) :
          field.offset.toNat = alignUp tagSlot.size (greatestAlign rest 1) := by
        have isPlace := List.mem_map_of_mem (f := fun field : FieldDef => field.offset.toNat) isOther
        rw [otherPlaces] at isPlace
        obtain ⟨_, _, same⟩ := List.mem_map.mp isPlace
        exact same.symm
      have isAlign : align = max tagSlot.align (greatestAlign rest 1) :=
        strictest.trans (align_exactRoom .variant (tagSlot :: rest)).symm
      change type.size.toNat = alignUp (alignUp tagSlot.size (greatestAlign rest 1) +
        greatestSize rest 0) (max tagSlot.align (greatestAlign rest 1)) at size
      have raised := le_alignUp_of_any (alignUp tagSlot.size (greatestAlign rest 1) +
        greatestSize rest 0) (max tagSlot.align (greatestAlign rest 1))
      refine (again_query (fieldType_of type isTag)).andThen ?_
      refine (again_variableWith repeats finished isBusy tagIsType tagNested isTag tagTakes).andThen ?_
      refine (again_greatest repeats finished isBusy type othersTyped othersTake ⟨0, 1⟩).andThen ?_
      dsimp only
      refine (again_checkSize (by omega)).andThen ((again_checkSize (by omega)).andThen
        ((again_checkSize (by omega)).andThen ?_))
      rw [List.map_congr_left fun field isOther => placed_eq (stays field isOther), List.map_id',
        ← size, ← isAlign, sizes, show (0 : UInt32) = UInt32.ofNat 0 from rfl, placed_eq tagPlace]
      exact (again_onBuilder (writeFields_eq finished.holds arranged.hasFields)).andThen again_pure

theorem again_arrangeShape (argument : forall inner, type.argument = some inner -> plan.types inner)
    (several : type.shape = .variant -> 2 ≤ fields.length) :
    Again plan builder (id :: busy) (arrangeShape arrange plan.target type) type := by
  have apart (notVariant : type.shape ≠ .variant) (notStruct : type.shape ≠ .struct) :
      Again plan builder (id :: busy) (do
        let arranged ← arrangeInSequence arrange plan.target type false
        postponeArgument type.argument
        return arranged) type := by
    refine (again_arrangeInSequence repeats finished isBusy arranged areTyped notVariant ?_).andThen
      ((again_postponeArgument argument).andThen again_pure)
    exact ⟨nofun, fun isStruct => absurd isStruct notStruct⟩
  unfold arrangeShape
  cases shape : type.shape with
  | struct =>
      exact again_arrangeInSequence repeats finished isBusy arranged areTyped (by rw [shape]; nofun)
        ⟨fun _ => shape, fun _ => rfl⟩
  | variant =>
      exact again_arrangeVariant repeats finished isBusy arranged areTyped shape (several shape)
  | array => exact apart (by rw [shape]; nofun) (by rw [shape]; nofun)
  | map => exact apart (by rw [shape]; nofun) (by rw [shape]; nofun)

end Run

/-- What a finished type refers to is finished, too. -/
theorem Plan.Finished.exists_arranged {arena : Arena} (finished : plan.Finished arena)
    (isType : plan.types id) (stored : HasType plan.start id type)
    (composite : type.isBuiltin = true -> type.fieldCount ≠ 0) :
    exists fields slots align, Arranged plan id type fields slots align ∧
      (forall inner, type.argument = some inner -> plan.types inner) ∧
      (type.shape = .variant -> 2 ≤ fields.length) ∧
      forall busy, Nested plan busy id ->
        AreTyped plan (id :: busy) (Sorted.sortBy FieldDef.orderKey fields) := by
  obtain ⟨_, fields, slots, align, otherStored, hasFields, is⟩ := finished.layout.laidOut id isType
  cases hasType_inj stored otherStored
  obtain ⟨declaration, declares, closed⟩ := finished.layout.declared id isType
  have ⟨_, declaredFields, declaredStored, declaredHas, said⟩ := declares
  cases hasType_inj stored declaredStored
  cases hasFields_inj hasFields declaredHas
  refine ⟨fields, slots, align, ⟨stored, hasFields, is, composite⟩, ?_, ?_, ?_⟩
  · intro inner isArgument
    refine closed inner (List.mem_append_right _ (Option.mem_toList.mpr ?_))
    exact said.argument.symm.trans isArgument
  · intro isVariant
    rw [← Sorted.length_sortBy FieldDef.orderKey fields, said.members.length]
    exact finished.alternatives id declaration isType declares (said.shape.symm.trans isVariant)
  · intro busy nested field isOne
    obtain ⟨index, bound, rfl⟩ := List.getElem_of_mem isOne
    have pairs := List.forall₂_iff_get.mp is.takes
    obtain ⟨inner, _, isField, _⟩ := pairs.2 index bound (pairs.1 ▸ bound)
    have isInner : inner ∈ declaration.members.filterMap Member.type := by
      rw [← said.members.types_eq]
      exact List.mem_filterMap.mpr ⟨_, isOne, isField⟩
    exact ⟨inner, isField, closed inner (List.mem_append_left _ isInner),
      nestedInline_of_member declares nested isInner⟩

end Shapes

/-! ### Types -/

section Types

variable {plan : Plan} {builder : Builder} (finished : plan.Finished builder.arena)

include finished

theorem Plan.Finished.exists_type {id : TypeId} (isType : plan.types id) :
    exists type, HasType plan.start id type := by
  obtain ⟨type, _, _, _, stored, _⟩ := finished.layout.laidOut id isType
  exact ⟨type, stored⟩

/-- Types are found as they are. -/
theorem repeats_within (levels depth : Nat) (enough : Offset.spaceSize ≤ depth + levels) :
    Repeats plan builder depth (arrangeWithin plan.target levels) := by
  induction levels generalizing depth with
  | zero =>
      -- There are not as many types as offsets.
      intro busy id type isBusy _ _ _
      have few := length_le_used finished.holds isBusy.distinct fun other member =>
        finished.exists_type (isBusy.types other member)
      have deep := isBusy.deep
      have bound := finished.holds.used_lt
      omega
  | succ levels ih =>
      intro busy id type isBusy isType nested stored
      -- A type inside of itself would be a cycle.
      have fresh : id ∉ busy := fun member => finished.acyclic id isType (nested id member)
      have ends : Again plan builder busy (finish id) () := fun state resting =>
        ⟨rfl, resting.builder, (List.erase_of_not_mem (resting.inProgress ▸ fresh)).trans
          resting.inProgress, resting.pending⟩
      unfold arrangeWithin
      refine (again_query (finished.holds.type stored)).andThen (again_isDone fun known => ?_)
      -- Done or not, the type is answered as it is stored.
      split
      · exact again_pure
      split
      · exact ends.andThen again_pure
      next notScalar =>
        refine again_isInProgress.andThen ?_
        rw [if_neg (fun isBusy => fresh (List.contains_iff_mem.mp isBusy))]
        have composite : type.isBuiltin = true -> type.fieldCount ≠ 0 := by
          intro isBuiltin none
          refine notScalar ?_
          rw [isBuiltin, none]
          exact Bool.or_true _
        obtain ⟨fields, slots, align, arranged, argument, several, areTyped⟩ :=
          finished.exists_arranged isType stored composite
        have busier : AreBusy plan (depth + 1) (id :: busy) :=
          ⟨List.forall_mem_cons.mpr ⟨isType, isBusy.types⟩, List.nodup_cons.mpr ⟨fresh, isBusy.distinct⟩,
            Nat.succ_le_succ isBusy.deep⟩
        exact again_between (again_arrangeShape (ih (depth + 1) (by omega)) finished busier arranged
          (areTyped busy nested) argument several) (again_onBuilder (writeType_eq finished.holds stored))

theorem again_arrangeType {id : TypeId} {type : TypeDef} (isType : plan.types id)
    (stored : HasType plan.start id type) :
    Again plan builder [] (arrangeType plan.target id) type :=
  repeats_within finished Offset.spaceSize 0 (Nat.le_of_eq (Nat.zero_add _).symm) [] id type
    ⟨nofun, List.nodup_nil, Nat.zero_le _⟩ isType nofun stored

/-- What is put off is finished, too. -/
theorem again_drain (steps : Nat) : Again plan builder [] (drain plan.target steps) () := by
  induction steps with
  | zero => exact again_pure
  | succ steps ih =>
      rintro ⟨held, done, inProgress, pending⟩ resting
      cases pending with
      | nil => exact ⟨rfl, resting⟩
      | cons id rest =>
          obtain ⟨isType, areTypes⟩ := List.forall_mem_cons.mp resting.pending
          obtain ⟨type, stored⟩ := finished.exists_type isType
          exact ((again_arrangeType finished isType stored).andThen ih)
            ⟨held, done, inProgress, rest⟩ ⟨resting.builder, resting.inProgress, areTypes⟩

/-- A type that is finished is not changed by its layout. -/
theorem Plan.Finished.arrange_eq {id : TypeId} {type : TypeDef} (isType : plan.types id)
    (stored : HasType plan.start id type) : arrange plan.target id builder = .ok type builder :=
  (again_arrangeType finished isType stored).run_eq

/-- A context whose types are finished is not changed by its layout. -/
theorem Plan.Finished.arrangeContext_eq {context : Context} {root : TypeId}
    (isRoot : context.root = some root) (rootIsType : plan.types root)
    (textIsType : plan.types (context.builtin .string))
    (unitIsType : plan.types (context.builtin .unit)) :
    arrangeContext context plan.target builder = .ok () builder := by
  have first {id : TypeId} (isType : plan.types id) {next : LayoutM Unit}
      (others : Again plan builder [] next ()) :
      Again plan builder [] (arrangeType plan.target id >>= fun _ => next) () := by
    obtain ⟨type, stored⟩ := finished.exists_type isType
    exact (again_arrangeType finished isType stored).andThen others
  have rest : Again plan builder [] (drainAll plan.target) () := fun state resting =>
    again_drain finished _ state resting
  unfold arrangeContext
  rw [isRoot]
  exact (first rootIsType (first textIsType (first unitIsType rest))).run_eq

end Types

end Layout
end PackedJson
