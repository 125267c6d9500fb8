import PackedJson.Proofs.Packing.Variants

namespace PackedJson
namespace Packer

open Arena TextSchema Layout

/-!
Writing structs, and reading them back.

The walk over the fields of a struct follows the order of declaration.  The
variables of the fields are apart from one another, so that each of them is
still there in the end.  A field that the document leaves out stays empty, and
an empty variable of an option is read as absent.
-/

section Structs

variable {packer : Packer} {document : Json} {id inner : TypeId} {type : TypeDef} {align : UInt32}
  {place : Offset} {properties : List Property} {typed : List Typed} {term : Term} {path : Path}
  {write : Writer} {members : List (String × Json)} {state : PackState} {data : Arena}

/-- An empty variable of a type is read as absent. -/
def ReadsAbsent (packer : Packer) (id : TypeId) (type : TypeDef) : Prop :=
  forall place data, HasRoom data (variableOf place type) -> data.Zero (variableOf place type) ->
    packer.ReadsVariable id place .absent data

/-- A field is there for a property of an object with some members. -/
structure IsField (document : Json) (packer : Packer) (write : Writer) (path : Path)
    (members : List (String × Json)) (property : Property) (field : Typed) : Prop where
  name : packer.schema.text field.1.jsonName = .ok property.name
  required : field.1.isRequired = !property.term.optional
  type : exists inner, field.1.type = some inner ∧ packer.schema.type inner = .ok field.2 ∧
    (forall value, Json.lookup? property.name members = some value ->
      Writes document packer write inner property.term (path.child (.key property.name)) value) ∧
    (property.term.optional = true -> ReadsAbsent packer inner field.2)

/-- The variable of a field. -/
def fieldPlace (place : Offset) (field : Typed) : Offset := place.advance field.1.offset.toNat

/-- The variable of a field is read as a value. -/
def ReadsField (packer : Packer) (place : Offset) (field : Typed) (value : Value) (data : Arena) :
    Prop :=
  exists inner, field.1.type = some inner ∧
    packer.ReadsVariable inner (fieldPlace place field) value data

/-- A property of an object, as a part of a walk. -/
def fieldPart (packer : Packer) (place : Offset) (path : Path) (members : List (String × Json))
    (entry : Property × Typed) : Part :=
  ⟨variableOf (fieldPlace place entry.2) entry.2.2,
    .property packer.maxDepth path members entry.1,
    forall value, Json.lookup? entry.1.name members = some value -> value.WellFormed,
    packer.ReadsField place entry.2⟩

theorem fieldPlace_inside {field : Typed} (fits : field.Fits type.size.toNat)
    (room : HasRoom data (instanceOf place type)) :
    (fieldPlace place field).toNat = place.toNat + field.1.offset.toNat ∧
    (variableOf (fieldPlace place field) field.2).Inside (instanceOf place type) := by
  have stop := fits.2
  have position : (fieldPlace place field).toNat = place.toNat + field.1.offset.toNat :=
    room.toNat_advance (by simp only [instanceOf]; omega)
  refine ⟨position, ?_, ?_⟩
  · simp only [variableOf, instanceOf, position]
    omega
  · simp only [variableOf, instanceOf, position]
    omega

/-- A field that the document leaves out stays empty. -/
theorem gathers_absent {property : Property} {field : Typed}
    (isField : IsField document packer write path members property field)
    (missing : Json.lookup? property.name members = none)
    (room : HasRoom state.data (variableOf (fieldPlace place field) field.2)) :
    WritesPart document packer.maxDepth (fieldPart packer place path members (property, field))
      (fun first => packer.writeField write type place path members first field.1) state := by
  obtain ⟨inner, isType, _, _, absent⟩ := isField.type
  have steps (first : Option Violation) :
      packer.writeField write type place path members first field.1 =
        if property.term.optional = true then pure first
        else gather (raise (.missingField property.name) path) first := by
    unfold writeField
    rw [ask_ok isField.name, pure_bind]
    simp only [missing, isField.required]
    cases property.term.optional <;> rfl
  unfold WritesPart
  simp only [steps, fieldPart, Matter.property, missing]
  by_cases optional : property.term.optional = true
  · simp only [optional, if_true]
    refine gathers_settled (.settled _) fun zero _ later preserves => ?_
    exact ⟨inner, isType, absent optional _ _ (room.grown preserves.grown)
      (preserves.zero zero fun _ => Or.inl)⟩
  · simp only [optional]
    exact (fills_raise (.settled _)).gathers

/-- A member of the document goes to the variable of its field. -/
theorem writeField_eq {field : Typed} {name : String} {value : Json}
    (isName : packer.schema.text field.1.jsonName = .ok name)
    (found : Json.lookup? name members = some value) (isType : field.1.type = some inner)
    (fits : field.Fits type.size.toNat) (room : HasRoom data (instanceOf place type))
    (first : Option Violation) :
    packer.writeField write type place path members first field.1 =
      gather (packer.nested write inner (fieldPlace place field) path (.key name) value) first := by
  have stop := fits.2
  unfold writeField
  rw [ask_ok isName, pure_bind]
  simp only [found]
  rw [fieldType_eq isType, pure_bind, room.inside_eq (by simp only [instanceOf]; omega), pure_bind]
  rfl

/-- A member of the document is written into the variable of its field. -/
theorem gathers_present {property : Property} {field : Typed} {value : Json}
    (isField : IsField document packer write path members property field)
    (found : Json.lookup? property.name members = some value)
    (fits : field.Fits type.size.toNat) (whole : HasRoom state.data (instanceOf place type)) :
    WritesPart document packer.maxDepth (fieldPart packer place path members (property, field))
      (fun first => packer.writeField write type place path members first field.1) state := by
  obtain ⟨inner, isType, isFound, writes, _⟩ := isField.type
  have steps := @writeField_eq packer inner type place path write members state.data field
    property.name value isField.name found isType fits whole
  have room := whole.inside (fieldPlace_inside fits whole).2
  have writesPart := writesPart_nested (writes value found) isFound room
  unfold WritesPart at writesPart ⊢
  simp only [steps, fieldPart, Matter.property, found] at writesPart ⊢
  refine Gathers.mono writesPart (.refl _) fun meaning after _ isGood zero clean => ?_
  exact (isGood zero (clean value rfl)).imp fun later reads => ⟨inner, isType, reads⟩

/-- The fields of a struct, as the parts of a walk. -/
def fieldParts (packer : Packer) (place : Offset) (path : Path) (members : List (String × Json))
    (properties : List Property) (typed : List Typed) : List Part :=
  (properties.zip typed).map (fieldPart packer place path members)

theorem getElem_fieldParts {index : Nat} (inProperties : index < properties.length)
    (inTyped : index < typed.length)
    (inParts : index < (fieldParts packer place path members properties typed).length) :
    (fieldParts packer place path members properties typed)[index] =
      fieldPart packer place path members (properties[index], typed[index]) := by
  simp only [fieldParts, List.getElem_map, List.getElem_zip]

section Parts

variable (sameLength : properties.length = typed.length)

include sameLength

theorem length_fieldParts :
    (fieldParts packer place path members properties typed).length = typed.length := by
  simp only [fieldParts, List.length_map, List.length_zip, sameLength, Nat.min_self]

theorem matters_fieldParts :
    (fieldParts packer place path members properties typed).map Part.matter =
      properties.map (Matter.property packer.maxDepth path members) := by
  have firsts : (properties.zip typed).map Prod.fst = properties :=
    List.map_fst_zip (Nat.le_of_eq sameLength)
  conv_rhs => rw [← firsts]
  simp only [fieldParts, List.map_map]
  rfl

variable (room : HasRoom state.data (instanceOf place type))
  (fits : forall field, field ∈ typed -> field.Fits type.size.toNat)

include room fits

theorem areApart_fieldParts (apart : typed.Pairwise Typed.Apart) :
    AreApart (fieldParts packer place path members properties typed) state.data := by
  refine ⟨fun part member => ?_, List.pairwise_iff_getElem.mpr ?_⟩
  · obtain ⟨index, inParts, rfl⟩ := List.getElem_of_mem member
    have inTyped : index < typed.length := by rwa [length_fieldParts sameLength] at inParts
    rw [getElem_fieldParts (by omega) inTyped]
    have inside := (fieldPlace_inside (fits _ (List.getElem_mem inTyped)) room).2
    exact Nat.le_trans inside.2 room.end_le
  · intro first second inFirst inSecond before
    rw [length_fieldParts sameLength] at inFirst inSecond
    rw [getElem_fieldParts (by omega) inFirst, getElem_fieldParts (by omega) inSecond]
    have separate := List.pairwise_iff_getElem.mp apart first second inFirst inSecond before
    have isFirst := (fieldPlace_inside (fits _ (List.getElem_mem inFirst)) room).1
    have isSecond := (fieldPlace_inside (fits _ (List.getElem_mem inSecond)) room).1
    simp only [Typed.Apart, Extent.Apart, fieldPart, variableOf] at separate ⊢
    omega

theorem writes_fieldParts
    (fields : List.Forall₂ (IsField document packer write path members) properties typed) :
    List.Forall₂ (fun part field => forall middle : PackState, Grown state.data middle.data ->
      WritesPart document packer.maxDepth part
        (fun first => packer.writeField write type place path members first field) middle)
      (fieldParts packer place path members properties typed) (typed.map Prod.fst) := by
  refine List.forall₂_iff_get.mpr ⟨?_, fun index inParts inFields middle grown => ?_⟩
  · rw [length_fieldParts sameLength, List.length_map]
  · have inTyped : index < typed.length := by rwa [length_fieldParts sameLength] at inParts
    have inProperties : index < properties.length := by omega
    have isField := (List.forall₂_iff_get.mp fields).2 index inProperties inTyped
    have isFit := fits _ (List.getElem_mem inTyped)
    have whole := room.grown grown
    simp only [List.get_eq_getElem, List.getElem_map, getElem_fieldParts inProperties inTyped]
      at isField ⊢
    cases found : Json.lookup? properties[index].name members with
    | none => exact gathers_absent isField found (whole.inside (fieldPlace_inside isFit whole).2)
    | some value => exact gathers_present isField found isFit whole

end Parts

/-! ### Reading fields -/

theorem mapM_eq {Item Result Failure : Type} {read : Item -> Except Failure Result}
    {items : List Item} {results : List Result}
    (reads : List.Forall₂ (fun item result => read item = .ok result) items results) :
    items.mapM read = .ok results := by
  induction reads with
  | nil => rfl
  | cons isRead _ ih =>
      rw [List.mapM_cons, isRead, ih]
      rfl

/-- The variable of a field is read under its name. -/
theorem namedField_eq {property : Property} {field : Typed} {value : Value}
    (isField : IsField document packer write path members property field)
    (fits : field.Fits type.size.toNat) (room : HasRoom data (instanceOf place type))
    (reads : packer.ReadsField place field value data) :
    exists found, (packer.reader data).namedField ⟨id, type, place⟩ field.1 =
        .ok (property.name, found) ∧ Reads (packer.reader data) found value := by
  obtain ⟨inner, isType, found, isFound, isRead⟩ := reads
  have stop := fits.2
  have used := room.writable.used_lt
  have bound := room.end_le
  simp only [instanceOf] at bound
  refine ⟨found, ?_, isRead⟩
  have name := isField.name
  unfold Reader.namedField Reader.enter
  simp only [fieldPlace, reader, Reader.ofSchema, bind, Except.bind, name, fieldType_of type isType]
    at isFound ⊢
  rw [reader_inside (by simp only; omega)]
  simp only [isFound]
  rfl

/-- The fields of a struct are read where they were written. -/
theorem reads_struct (sound : packer.schema.IsSound packer.target type typed align)
    (shape : type.shape = .struct)
    (fields : List.Forall₂ (IsField document packer write path members) properties typed)
    (room : HasRoom data (instanceOf place type)) {values : List Value}
    (reads : List.Forall₂ (fun field value => packer.ReadsField place field value data) typed
      values) :
    packer.ReadsInstance id type place
      (.struct ((properties.map Property.name).zip values)) data := by
  have sameLength := fields.length_eq
  have valuesLength := reads.length_eq
  obtain ⟨found, count, areFound⟩ := @exists_list (String × Place)
    (fun index entry => exists (inTyped : index < typed.length) (inValues : index < values.length)
      (inProperties : index < properties.length),
      (packer.reader data).namedField ⟨id, type, place⟩ typed[index].1 = .ok entry ∧
      entry.1 = properties[index].name ∧ Reads (packer.reader data) entry.2 values[index])
    typed.length (fun index inTyped => by
      obtain ⟨entry, isEntry, isRead⟩ := @namedField_eq packer document id type place path write
        members data _ _ _ ((List.forall₂_iff_get.mp fields).2 index (by omega) inTyped)
        (sound.fits _ (List.getElem_mem inTyped)) room
        ((List.forall₂_iff_get.mp reads).2 index inTyped (by omega))
      exact ⟨_, inTyped, by omega, by omega, isEntry, rfl, isRead⟩)
  have areFields : (packer.reader data).fields ⟨id, type, place⟩ = .ok found := by
    have inOrder := sound.inOrder
    unfold Reader.fields
    rw [if_neg (not_not_intro shape)]
    simp only [reader, Reader.ofSchema, inOrder, bind, Except.bind]
    refine mapM_eq (List.forall₂_iff_get.mpr ⟨?_, fun index inFields inFound => ?_⟩)
    · rw [List.length_map, count]
    · obtain ⟨_, _, _, isEntry, _⟩ := areFound index inFound
      simp only [List.get_eq_getElem, List.getElem_map]
      exact isEntry
  refine .struct areFields ?_ (List.forall₂_iff_get.mpr ⟨?_, fun index inFound inFields => ?_⟩)
  · apply List.ext_getElem
    · simp only [List.length_map, List.length_zip]
      omega
    · intro index inFound inFields
      rw [List.length_map] at inFound
      obtain ⟨_, _, _, _, name, _⟩ := areFound index inFound
      simp only [List.getElem_map, List.getElem_zip, name]
  · simp only [List.length_map, List.length_zip]
    omega
  · rw [List.length_map] at inFound
    obtain ⟨_, _, _, _, _, isRead⟩ := areFound index inFound
    simp only [List.get_eq_getElem, List.getElem_map, List.getElem_zip]
    exact isRead

/-- A value is written as a struct. -/
theorem fills_struct (hasRole : HasRole document term (.struct properties))
    (sound : packer.schema.IsSound packer.target type typed align) (shape : type.shape = .struct)
    {value : Json} (fields : forall members, value = .object members ->
      List.Forall₂ (IsField document packer write path members) properties typed)
    (room : HasRoom state.data (instanceOf place type)) :
    FillsInstance document packer id type place term path value
      (packer.object write type place path value) state := by
  cases value with
  | object members =>
      have areFields := fields members rfl
      have sameLength := areFields.length_eq
      have judged (verdicts : List Verdict) := @Judges.struct document packer.maxDepth term path
        members properties verdicts hasRole
      have covers : Covers [instanceOf place type]
          ((fieldParts packer place path members properties typed).map Part.region) := by
        intro region member
        obtain ⟨part, isPart, rfl⟩ := List.mem_map.mp member
        obtain ⟨index, inParts, rfl⟩ := List.getElem_of_mem isPart
        have inTyped : index < typed.length := by rwa [length_fieldParts sameLength] at inParts
        rw [getElem_fieldParts (by omega) inTyped]
        exact ⟨_, List.mem_singleton_self _,
          (fieldPlace_inside (sound.fits _ (List.getElem_mem inTyped)) room).2⟩
      unfold object
      simp only [ask_ok sound.inOrder, pure_bind]
      refine Run.andThen (run_walk (.refl state.data) room.writable
        (areApart_fieldParts sameLength room sound.fits
          (sound.apart (by rw [shape]; exact Shape.noConfusion)))
        (writes_fieldParts sameLength room sound.fits areFields) none) ?_ ?_
      · rintro first after ⟨verdicts, gathered, written⟩
        rw [matters_fieldParts sameLength] at gathered
        refine fills_settle (gathered.mono covers) judged ?_
        rintro values rfl zero wellFormed later preserves
        obtain ⟨fresh, evolves⟩ := gathered.changes
        have grown := evolves.grown room.writable
        have partsLength : (fieldParts packer place path members properties typed).length =
            typed.length := length_fieldParts sameLength
        have valuesLength := written.length_eq
        rw [partsLength, List.length_map] at valuesLength
        refine reads_struct sound shape areFields ((room.grown grown).grown preserves.grown)
          (List.forall₂_iff_get.mpr ⟨valuesLength, fun index inTyped inValues => ?_⟩)
        have lasts := (List.forall₂_iff_get.mp written).2 index (by omega)
          (by rwa [List.length_map]) values[index]
        have inside := (fieldPlace_inside (sound.fits _ (List.getElem_mem inTyped)) room).2
        simp only [List.get_eq_getElem, getElem_fieldParts (by omega : index < properties.length)
          inTyped, List.getElem_map] at lasts
        refine lasts trivial (zero.inside inside) (fun value found => ?_) later
          (preserves.mono fun position since => since.mono inside (Nat.le_refl _) (Nat.le_refl _))
        cases wellFormed with
        | object _ areWellFormed => exact areWellFormed _ (Json.mem_of_lookup? found)
      · rintro failure after ⟨expected, fresh, evolves⟩
        refine ⟨⟨fresh, evolves.mono covers⟩, Or.inl (expected.mono fun decided part member => ?_)⟩
        refine decided.properties hasRole part.matter ?_
        rw [← matters_fieldParts sameLength]
        exact List.mem_map.mpr ⟨part, member, rfl⟩
  | _ => exact fills_complaint hasRole rfl

end Structs

end Packer
end PackedJson
