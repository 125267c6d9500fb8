import PackedJson.Proofs.Schema.Upkeep

namespace PackedJson
namespace Builder

open Heap

/-!
Operations on types, whether they succeed or not.

An operation may change the types that it is called for, and those that it
adds.  Where the arena refuses it, what was done before is kept.
-/

/-- Operations that keep the types in order and change only some of them. -/
def upkeep (changed : TypeId -> Prop) : Course Heap Builder where
  Leads heap _ later after := Stands later after ∧ Upholds changed heap later
  trans := fun first second => ⟨second.1, first.2.trans second.2⟩

variable {Result Next : Type} {heap : Heap} {builder : Builder} {changed : TypeId -> Prop}

/-- An operation that is followed from a heap on. -/
abbrev Tends (changed : TypeId -> Prop) (step : BuildM Result) (heap : Heap) (builder : Builder)
    (good : Result -> Heap -> Prop) : Prop :=
  (upkeep changed).Takes step heap builder fun result later _ => good result later

theorem upkeep_refl (stands : Stands heap builder) :
    (upkeep changed).Leads heap builder heap builder :=
  ⟨stands, .refl changed heap⟩

theorem tends_pure (stands : Stands heap builder) {result : Result} {good : Result -> Heap -> Prop}
    (holds : good result heap) : Tends changed (pure result) heap builder good :=
  .pure (upkeep_refl stands) holds

/-- A question, and what is done with the answer. -/
theorem tends_ask (stands : Stands heap builder) {question : Schema -> Except SchemaError Result}
    {next : Result -> BuildM Next} {good : Next -> Heap -> Prop}
    (continued : forall result, question ⟨builder.arena⟩ = .ok result ->
      Tends changed (next result) heap builder good) :
    Tends changed (query question >>= next) heap builder good := by
  refine run_bind.mpr ?_
  unfold Run query
  cases answer : question ⟨builder.arena⟩ with
  | ok result => exact continued result answer
  | error failure => exact ⟨heap, upkeep_refl stands⟩

/-! ### New cells -/

/-- A new cell is stored, or nothing changes. -/
theorem tends_store (stands : Stands heap builder) (cell : Cell) {source : ByteArray}
    {alignment : Nat} (storable : cell.Storable) (positive : 0 < alignment)
    (supported : Arena.isAlignment alignment = true) (fits : source.size ≤ cell.size)
    (content : source.data.toList ++ List.replicate (cell.size - source.size) 0 = cell.bytes)
    (unowned : forall owner records, cell ≠ .fields owner records)
    (typed : forall id type, heap id.offset.toNat = none -> cell = .type type ->
      TypeStands (heap.set id.offset.toNat cell) id type) :
    Tends changed (onArena do
        let place ← Arena.alloc cell.size alignment
        Arena.write place source
        return place) heap builder
      (fun place later => heap.Extends later ∧ heap place.toNat = none ∧
        later = heap.set place.toNat cell) := by
  have stores := (run_alloc_write stands.holds cell source alignment storable positive supported fits
    content unowned).both (Arena.run_allocFilled stands.holds.writable alignment fits)
  have placed {place : Offset} {arena : Arena} (free : heap place.toNat = none)
      (holds : (heap.set place.toNat cell).Holds arena) :
      Stands (heap.set place.toNat cell) ⟨arena, builder.instances⟩ := by
    refine stands.set (.of_free free) holds rfl ?_ fun owner records same =>
      absurd same (unowned owner records)
    intro id type same isType
    rw [← same]
    exact typed id type (same ▸ free) isType
  obtain ⟨arena, instances⟩ := builder
  unfold Run at stores
  unfold Tends Course.Takes Run onArena
  simp only
  generalize (do
    let place ← Arena.alloc cell.size alignment
    Arena.write place source
    return place : ArenaM Offset) arena = ends at stores ⊢
  cases ends with
  | ok place after =>
      obtain ⟨⟨⟨free, holds⟩, _⟩, _⟩ := stores
      exact ⟨_, ⟨placed free holds, .of_free free⟩, (Extends.refl heap).set cell free, free, rfl⟩
  | error cause after =>
      obtain ⟨_, rfl⟩ := stores
      exact ⟨heap, upkeep_refl stands⟩

theorem tends_storeText (stands : Stands heap builder) (text : String) :
    Tends changed (storeText text) heap builder fun reference later =>
      heap.Extends later ∧ HasText later reference text := by
  unfold storeText
  split
  next isEmpty =>
    have same : text = "" := String.isEmpty_iff.mp isEmpty
    subst same
    exact tends_pure stands ⟨Extends.refl heap, hasText_empty heap⟩
  next nonempty =>
    have different : text ≠ "" := fun same => nonempty (String.isEmpty_iff.mpr same)
    have cellSize := Cell.size_text text
    have sourceSize : text.toUTF8.size = text.utf8ByteSize := rfl
    split
    next small =>
      have content : text.toUTF8.data.toList ++
          List.replicate ((Cell.text text).size - text.toUTF8.size) 0 = (Cell.text text).bytes := by
        rw [cellSize, sourceSize, Nat.add_sub_cancel_left]
        rfl
      have stores := @tends_store heap builder changed stands (.text text) text.toUTF8 1 different
        Nat.one_pos rfl (by omega) content nofun (by intro _ _ _ isType; cases isType)
      rw [cellSize] at stores
      refine Course.Takes.andThen stores ?_
      rintro place later after ⟨laterStands, _⟩ ⟨kept, _, rfl⟩
      refine tends_pure laterStands ⟨kept, ?_, fun _ => set_same heap _ _⟩
      simp only [UInt32.toNat_ofNat']
      exact Nat.mod_eq_of_lt small
    next large => exact .throw (upkeep_refl stands)

/-- A new type has no fields yet. -/
theorem tends_addType (stands : Stands heap builder) (type : TypeDef) (storable : type.Storable)
    (bare : type.fieldCount = 0)
    (argument : forall argument, type.argument = some argument -> IsStored heap argument) :
    Tends changed (addType type) heap builder fun id later =>
      heap.Extends later ∧ ¬ IsStored heap id ∧ HasType later id type := by
  have cellSize := Cell.size_type type
  have sourceSize := Record.size_toBytes type
  have content : (Record.toBytes type).data.toList ++
      List.replicate ((Cell.type type).size - (Record.toBytes type).size) 0 =
        (Cell.type type).bytes := by
    rw [cellSize, sourceSize]
    exact List.append_nil _
  have stores := @tends_store heap builder changed stands (.type type) (Record.toBytes type)
    Record.alignment storable (by decide) rfl (Nat.le_of_eq (sourceSize.trans cellSize.symm)) content
    nofun (by
      rintro id _ free ⟨rfl⟩
      have keeps := (@Fits.of_free _ _ (.type type) free).keeps
      exact ⟨⟨[], ⟨congrArg UInt32.toNat bare, fun nonempty => absurd rfl nonempty⟩, nofun⟩,
        fun inner isArgument => keeps.isStored (argument inner isArgument)⟩)
  rw [cellSize] at stores
  refine Course.Takes.andThen stores ?_
  rintro place later after ⟨laterStands, _⟩ ⟨kept, free, rfl⟩
  refine tends_pure laterStands ⟨kept, ?_, set_same heap _ _⟩
  rintro ⟨other, stored⟩
  cases free.symm.trans stored

theorem tends_newType (stands : Stands heap builder) (name : String) (shape : Shape) :
    Tends changed (newType name shape) heap builder fun id later =>
      ¬ IsStored heap id ∧ exists stored, HasType later id (TypeDef.ofShape stored shape) := by
  refine Course.Takes.andThen (tends_storeText stands name) ?_
  rintro stored later after ⟨laterStands, upholds⟩ _
  refine (tends_addType laterStands (TypeDef.ofShape stored shape)
    ⟨TypeId.storable_none, TypeId.storable_none⟩ rfl nofun).imp ?_
  rintro id last final _ ⟨_, isNew, isType⟩
  exact ⟨fun isStored => isNew (upholds.toKeeps.isStored isStored), stored, isType⟩

theorem tends_field (stands : Stands heap builder) (name : String) (type : Option TypeId)
    (order : Nat) :
    Tends changed (field name type order) heap builder fun field later =>
      HasText later field.jsonName name ∧ field.hash = Checksum.nameHash name ∧ field.type = type := by
  refine Course.Takes.andThen (tends_storeText stands name) ?_
  rintro stored later after ⟨laterStands, _⟩ ⟨_, hasText⟩
  exact tends_pure laterStands ⟨hasText, rfl, rfl⟩

/-! ### Records that change -/

section Records

variable {id : TypeId} {old type : TypeDef}

/-- The record of a type is replaced by one that is in order. -/
theorem run_writeType (stands : Stands heap builder) (stored : HasType heap id old)
    (storable : type.Storable) (sameShape : type.shape = old.shape)
    (typed : TypeStands (heap.set id.offset.toNat (.type type)) id type)
    (struct : ¬ changed id -> old.shape = .struct ->
      Continued heap (heap.set id.offset.toNat (.type type)) id) :
    Run (writeType id type) builder
      (fun _ after => Stands (heap.set id.offset.toNat (.type type)) after ∧
        Upholds changed heap (heap.set id.offset.toNat (.type type))) (fun _ _ => False) := by
  have fits := Fits.of_type stored sameShape
  refine Run.imp (builds_writeType stands.holds stored type storable) ?_
    (fun _ _ ends => Nat.not_lt_zero _ ends.2)
  rintro _ after ⟨⟨holds, instances⟩, _⟩
  refine ⟨stands.set fits holds instances ?_ nofun, .set fits ?_⟩
  · rintro other _ same ⟨rfl⟩
    cases TypeId.toNat_inj.mp same
    exact typed
  · rintro other unchanged ⟨otherType, otherStored, isStruct⟩ (same | ⟨_, _, _, isFields⟩)
    · cases TypeId.toNat_inj.mp same
      cases hasType_inj stored otherStored
      exact struct unchanged isStruct
    · cases isFields

theorem hasFields_set (stored : HasType heap id old) {fields : List FieldDef}
    (hasFields : HasFields heap id type fields) :
    HasFields (heap.set id.offset.toNat (.type type)) id type fields := by
  refine ⟨hasFields.1, fun nonempty => ?_⟩
  have present := hasFields.2 nonempty
  refine (set_other heap _ fun same => ?_).trans present
  rw [same] at present
  cases stored.symm.trans present

/-- The record of a type is replaced by one with the same fields. -/
theorem run_writeSame (stands : Stands heap builder) (stored : HasType heap id old)
    (storable : type.Storable) (sameShape : type.shape = old.shape)
    (sameFields : type.fields = old.fields ∧ type.fieldCount = old.fieldCount)
    (sameArgument : type.argument = old.argument)
    (refiles : ¬ changed id -> old.shape = .struct ->
      forall fields, HasFields heap id old fields -> Refiles old fields type fields) :
    Run (writeType id type) builder
      (fun _ after => Stands (heap.set id.offset.toNat (.type type)) after ∧
        Upholds changed heap (heap.set id.offset.toNat (.type type))) (fun _ _ => False) := by
  have keeps := (Fits.of_type stored sameShape).keeps
  have keptFields {fields : List FieldDef} (hasFields : HasFields heap id old fields) :
      HasFields (heap.set id.offset.toNat (.type type)) id type fields := by
    refine hasFields_set stored ⟨(congrArg UInt32.toNat sameFields.2).trans hasFields.1, ?_⟩
    rw [sameFields.1]
    exact hasFields.2
  refine run_writeType stands stored storable sameShape ⟨?_, ?_⟩ fun unchanged isStruct => ?_
  · obtain ⟨⟨fields, hasFields, fieldsStand⟩, _⟩ := stands.types id old stored
    exact ⟨fields, keptFields hasFields, fun field member =>
      keeps.fieldStands (fieldsStand field member)⟩
  · intro argument isArgument
    rw [sameArgument] at isArgument
    exact keeps.isStored ((stands.types id old stored).argument argument isArgument)
  · intro other fields otherStored hasFields
    cases hasType_inj stored otherStored
    exact ⟨type, fields, set_same heap _ _, keptFields hasFields,
      refiles unchanged isStruct fields hasFields⟩

/-- The field records of a type are replaced by as many others. -/
theorem run_writeRecords (stands : Stands heap builder) (stored : HasType heap id type)
    {fields records : List FieldDef} (hasFields : HasFields heap id type fields)
    (sameLength : records.length = fields.length)
    (recordsStand : forall field, field ∈ records -> FieldStands heap field)
    (refiles : ¬ changed id -> type.shape = .struct -> Refiles type fields type records)
    {written : TypeDef} (samePlace : written.fields = type.fields) :
    Run (writeFields written records) builder
      (fun _ after => exists later, Stands later after ∧ Upholds changed heap later ∧
        HasType later id type ∧ HasFields later id type records ∧
        forall other, other ≠ id -> Layout.Untouched heap later other) (fun _ _ => False) := by
  unfold writeFields
  rw [samePlace]
  by_cases isEmpty : fields = []
  · subst isEmpty
    cases List.length_eq_zero_iff.mp sameLength
    exact ⟨heap, stands, .refl changed heap, stored, hasFields, fun other _ => .refl heap other⟩
  · have present := hasFields.2 isEmpty
    have fits := Fits.of_fields present sameLength
    have storable (field : FieldDef) (member : field ∈ records) : field.Storable := by
      intro inner isType
      obtain ⟨innerType, innerStored⟩ := (recordsStand field member).type inner isType
      exact stands.holds.ne_null innerStored
    have writes := builds_writeFieldsAt [] records stands.holds present sameLength.symm storable
    rw [List.length_nil, Nat.mul_zero, Nat.add_zero, Offset.ofNat_toNat] at writes
    have elsewhere {other : TypeId} (isStored : IsStored heap other) :
        other.offset.toNat ≠ type.fields.toNat := by
      obtain ⟨otherType, otherStored⟩ := isStored
      intro same
      rw [HasType, same] at otherStored
      cases otherStored.symm.trans present
    have laterFields : HasFields (heap.set type.fields.toNat (.fields id records)) id type records :=
      ⟨hasFields.1.trans sameLength.symm, fun _ => set_same heap _ _⟩
    have laterStored : HasType (heap.set type.fields.toNat (.fields id records)) id type :=
      (set_other heap _ (elsewhere ⟨type, stored⟩)).trans stored
    refine Run.imp writes ?_ (fun _ _ ends => Nat.not_lt_zero _ ends.2)
    rintro _ after ⟨⟨instances, holds⟩, _⟩
    refine ⟨_, stands.set fits holds instances (fun _ _ _ isType => ?_) ?_, .set fits ?_,
      laterStored, laterFields, ?_⟩
    · cases isType
    · rintro _ _ ⟨rfl⟩
      exact recordsStand
    · rintro other unchanged ⟨otherType, otherStored, isStruct⟩ (same | ⟨_, _, before, isFields⟩)
      · exact absurd same (elsewhere ⟨otherType, otherStored⟩)
      · cases isFields
        intro beforeType beforeFields beforeStored beforeHas
        cases hasType_inj stored otherStored
        cases hasType_inj stored beforeStored
        cases hasFields_inj hasFields beforeHas
        exact ⟨type, records, laterStored, laterFields, refiles unchanged isStruct⟩
    · intro other different otherType otherStored
      refine fits.untouched (elsewhere ⟨otherType, otherStored⟩) (fun old before => ?_) otherType
        otherStored
      cases present.symm.trans before
      exact different rfl

/-- The record of a type is changed, not its shape, its fields and its
argument. -/
theorem tends_updateType (stands : Stands heap builder) (stored : HasType heap id old)
    (change : TypeDef -> TypeDef) (storable : (change old).Storable)
    (sameShape : (change old).shape = old.shape)
    (sameFields : (change old).fields = old.fields ∧ (change old).fieldCount = old.fieldCount)
    (sameArgument : (change old).argument = old.argument)
    (refiles : ¬ changed id -> old.shape = .struct ->
      forall fields, HasFields heap id old fields -> Refiles old fields (change old) fields) :
    Tends changed (updateType id change) heap builder fun result later =>
      result = change old ∧ later = heap.set id.offset.toNat (.type (change old)) := by
  refine tends_ask stands fun type isType => ?_
  cases (stands.holds.type stored).symm.trans isType
  refine run_bind.mpr ((run_writeSame stands stored storable sameShape sameFields sameArgument
    refiles).imp ?_ (fun _ _ impossible => impossible.elim))
  rintro _ after ⟨laterStands, upholds⟩
  exact run_pure.mpr ⟨_, ⟨laterStands, upholds⟩, rfl, rfl⟩

theorem fieldStands_blank (heap : Heap) : FieldStands heap blankField :=
  ⟨⟨"", hasText_empty heap, by decide +kernel⟩, nofun⟩

/-- Room for field records is made, or nothing changes. -/
theorem run_allocRecords (stands : Stands heap builder) (stored : HasType heap id type) {count : Nat}
    (positive : 0 < count) :
    Run (onArena (Arena.allocArray count Schema.fieldSize Record.alignment)) builder
      (fun place after => heap place.toNat = none ∧
        Stands (heap.set place.toNat (.fields id (List.replicate count blankField))) after)
      (fun _ after => after = builder) := by
  have unchanged := Arena.run_serve stands.holds.writable
    (.allocArray count Schema.fieldSize Record.alignment)
  have allocates := builds_allocFields stands.holds stored positive
  have blank (owner : TypeId) (records : List FieldDef)
      (same : Cell.fields id (List.replicate count blankField) = .fields owner records)
      (field : FieldDef) (member : field ∈ records) : FieldStands heap field := by
    cases same
    rw [List.eq_of_mem_replicate member]
    exact fieldStands_blank heap
  obtain ⟨arena, instances⟩ := builder
  change Run (Arena.allocArray count Schema.fieldSize Record.alignment) arena _ _ at unchanged
  unfold Run at unchanged
  unfold Builds Run onArena at allocates
  unfold Run onArena
  simp only at allocates ⊢
  generalize Arena.allocArray count Schema.fieldSize Record.alignment arena = ends at *
  cases ends with
  | ok place after =>
      obtain ⟨⟨⟨free, holds⟩, same⟩, _⟩ := allocates
      exact ⟨free, stands.set (.of_free free) holds same nofun blank⟩
  | error cause after =>
      simp only at unchanged ⊢
      rw [unchanged]

/-- The record of a type is made to refer to other field records. -/
theorem run_referTo (stands : Stands heap builder) (stored : HasType heap id type)
    (isChanged : changed id) (place : Offset) (count : UInt32) {records : List FieldDef}
    (hasFields : HasFields heap id { type with fields := place, fieldCount := count } records)
    (recordsStand : forall field, field ∈ records -> FieldStands heap field) :
    Run (updateType id fun type => { type with fields := place, fieldCount := count }) builder
      (fun result after => result = { type with fields := place, fieldCount := count } ∧
        Stands (heap.set id.offset.toNat (.type result)) after ∧
        Upholds changed heap (heap.set id.offset.toNat (.type result))) (fun _ _ => False) := by
  generalize isReferring : { type with fields := place, fieldCount := count } = referring at hasFields ⊢
  have storable := stands.holds.storable _ _ stored
  have keeps := (@Fits.of_type heap _ type referring stored (by rw [← isReferring])).keeps
  have writes := @run_writeType heap builder changed id type referring stands stored
    (by rw [← isReferring]; exact ⟨storable.prototype, storable.argument⟩)
    (by rw [← isReferring])
    ⟨⟨records, hasFields_set stored hasFields, fun field member =>
        keeps.fieldStands (recordsStand field member)⟩, fun argument isArgument => by
      rw [← isReferring] at isArgument
      exact keeps.isStored ((stands.types id type stored).argument argument isArgument)⟩
    (fun unchanged => absurd isChanged unchanged)
  have answers : query (fun schema => schema.type id) builder = .ok type builder := by
    unfold query
    simp only [stands.holds.type stored]
  refine run_bind.mpr ((run_of_ok answers).mpr ?_)
  simp only [isReferring]
  exact run_bind.mpr (writes.imp (fun _ after ends => run_pure.mpr ⟨rfl, ends⟩)
    (fun _ _ impossible => impossible))

/-- A type is given other fields, or nothing changes. -/
theorem run_setFields (stands : Stands heap builder) (stored : HasType heap id type)
    (isChanged : changed id) {fields : List FieldDef}
    (fieldsStand : forall field, field ∈ fields -> FieldStands heap field) :
    Run (setFields id fields) builder
      (fun result after => exists later, Stands later after ∧ Upholds changed heap later ∧
        HasType later id result ∧ HasFields later id result fields ∧
        exists place, result =
          { type with fields := place, fieldCount := UInt32.ofNat fields.length })
      (fun _ after => after = builder) := by
  unfold setFields
  cases fields with
  | nil =>
      have none : HasFields heap id { type with fields := Offset.null, fieldCount := 0 } [] :=
        ⟨rfl, fun nonempty => absurd rfl nonempty⟩
      refine run_bind.mpr (run_pure.mpr ?_)
      refine Run.andThen (run_referTo stands stored isChanged Offset.null 0 none nofun) ?_
        (fun _ _ impossible => impossible.elim)
      rintro _ after ⟨rfl, laterStands, upholds⟩
      exact ⟨_, laterStands, upholds, set_same heap _ _, hasFields_set stored none, _, rfl⟩
  | cons field rest =>
      refine Run.andThen (run_allocRecords stands stored (Nat.succ_pos rest.length)) ?_
        (fun _ _ same => same)
      rintro place middle ⟨free, roomStands⟩
      have keeps := (@Fits.of_free heap place.toNat
        (.fields id (List.replicate (field :: rest).length blankField)) free).keeps
      have apart : id.offset.toNat ≠ place.toNat := by
        intro same
        rw [HasType, same] at stored
        cases free.symm.trans stored
      have roomStored := (set_other heap
        (.fields id (List.replicate (field :: rest).length blankField)) apart).trans stored
      have blanks : HasFields (heap.set place.toNat
          (.fields id (List.replicate (field :: rest).length blankField))) id
          { type with fields := place, fieldCount := UInt32.ofNat (field :: rest).length }
          (List.replicate (field :: rest).length blankField) := by
        have inUse := (roomStands.holds.within _ _ (set_same heap place.toNat _)).2.1
        have space := roomStands.holds.used_lt
        rw [Cell.size_fields, List.length_replicate] at inUse
        have spaceSize : Offset.spaceSize = 2 ^ 32 := rfl
        refine ⟨?_, fun _ => set_same heap _ _⟩
        simp only [UInt32.toNat_ofNat', List.length_replicate]
        omega
      refine Run.andThen (run_referTo roomStands roomStored isChanged place _ blanks
        fun other member => by
          rw [List.eq_of_mem_replicate member]
          exact fieldStands_blank _) ?_
        (fun _ _ impossible => impossible.elim)
      rintro _ next ⟨rfl, nextStands, nextUpholds⟩
      refine Run.andThen (@run_writeRecords _ _ changed _ _ nextStands (set_same _ _ _) _ _
        (hasFields_set roomStored blanks) (List.length_replicate).symm ?_
        (fun unchanged => absurd isChanged unchanged) _ rfl) ?_
        (fun _ _ impossible => impossible.elim)
      · exact fun other member =>
          nextUpholds.toKeeps.fieldStands (keeps.fieldStands (fieldsStand other member))
      · rintro _ after ⟨later, laterStands, laterUpholds, laterStored, laterFields, _⟩
        exact ⟨later, laterStands, ((Upholds.of_free free).trans nextUpholds).trans laterUpholds,
          laterStored, laterFields, _, rfl⟩

theorem tends_setFields (stands : Stands heap builder) (stored : HasType heap id type)
    (isChanged : changed id) {fields : List FieldDef}
    (fieldsStand : forall field, field ∈ fields -> FieldStands heap field) :
    Tends changed (setFields id fields) heap builder fun _ later =>
      HasShape later id type.shape := by
  refine (run_setFields stands stored isChanged fieldsStand).imp ?_ ?_
  · rintro result after ⟨later, laterStands, upholds, laterStored, _, _, rfl⟩
    exact ⟨later, ⟨laterStands, upholds⟩, _, laterStored, rfl⟩
  · rintro _ _ rfl
    exact ⟨heap, upkeep_refl stands⟩

end Records

end Builder
end PackedJson
