import PackedJson.Proofs.Packing.Slots
import PackedJson.Proofs.Packing.Structs

namespace PackedJson
namespace Packer

open Arena TextSchema Layout Heap Builder

/-!
The parallel arrays of a map, and the room for its members.

A map holds three arrays: the sorted hashes of its keys, its values and the
keys themselves.  The records of the arrays are apart from one another inside
the instance, and their elements follow in regions of their own.
-/

/-- One of the parallel arrays of a map: the part of the map, the type of the
array, its layout, and the type of its elements. -/
structure Column where
  part : Schema.MapPart
  array : TypeDef
  layout : Schema.ArrayLayout
  argument : TypeId
  element : TypeDef

namespace Column

/-- Where the record of an array is. -/
def record (column : Column) (place : Offset) : Offset := place.advance column.part.offset.toNat

/-- Two arrays have their records apart from one another. -/
def Apart (first second : Column) : Prop :=
  first.part.offset.toNat + first.array.size.toNat ≤ second.part.offset.toNat ∨
    second.part.offset.toNat + second.array.size.toNat ≤ first.part.offset.toNat

end Column

/-- A map has an array as one of its parts. -/
structure IsColumn (packer : Packer) (type : TypeDef) (column : Column) : Prop where
  found : packer.schema.type column.part.type = .ok column.array
  isArray : IsArray packer column.array column.layout
  inline : column.array.isStoredByReference = false
  argument : column.array.argument = some column.argument
  element : packer.schema.type column.argument = .ok column.element
  isAlign : IsAlign column.element.align.toNat
  fits : column.part.offset.toNat + column.array.size.toNat ≤ type.size.toNat

/-- A type is a map with some parallel arrays. -/
structure IsMap (packer : Packer) (type : TypeDef) (keys values strings : Column)
    (text : Schema.ArrayLayout) : Prop where
  shape : type.shape = .map
  isLayout : packer.schema.mapLayout type = .ok ⟨keys.part, values.part, strings.part⟩
  argument : type.argument = some values.argument
  isKeys : IsColumn packer type keys
  isValues : IsColumn packer type values
  isStrings : IsColumn packer type strings
  notValues : keys.Apart values
  notStrings : keys.Apart strings
  valuesApart : values.Apart strings
  hashes : keys.element.slot.toNat = 4
  isString : strings.argument = packer.context.builtin .string
  isText : IsText packer strings.element text

section Types

variable {packer : Packer} {heap : Heap} {document : Json} {promises : Promises}
  {settled : TypeId -> Prop} {id inner : TypeId} {type : TypeDef}

namespace Packs

variable (packs : Packs packer heap document promises settled)

include packs

/-- A settled type can be read, and its variables have an alignment. -/
theorem element (isSettled : settled id) :
    exists type, packer.schema.type id = .ok type ∧ IsAlign type.align.toNat := by
  obtain ⟨declaration, declares, _⟩ := packs.serving.layout.declared id isSettled
  obtain ⟨type, typed, align, shows⟩ := packs.shows isSettled declares
  refine ⟨type, shows.found, ?_⟩
  cases shows.sound.stored with
  | inl byReference => exact byReference.2.2 ▸ IsAlign.pointerWidth packer.target
  | inr inline => exact inline.2.2 ▸ shows.isAlign

/-- A settled array is stored in place. -/
theorem array (isSettled : settled id)
    (declares : Declares heap id ((Kind.array inner).declaration packer.context)) :
    exists type layout, packer.schema.type id = .ok type ∧ IsArray packer type layout ∧
      type.isStoredByReference = false ∧ type.slot = type.size ∧ type.argument = some inner := by
  obtain ⟨type, typed, align, shows⟩ := packs.shows isSettled declares
  obtain ⟨layout, isArray⟩ := shows.isArray packs rfl rfl
  cases shows.sound.stored with
  | inl byReference => cases (shows.byReference byReference.1).2
  | inr inline => exact ⟨type, layout, shows.found, isArray, inline.1, inline.2.1, shows.argument⟩

/-- The array that a field of a map is of. -/
theorem column {member : Member} {field : Typed} (has : HasMember packer member field)
    (isType : member.type = some id) (fits : field.Fits type.size.toNat) (isSettled : settled id)
    (declares : Declares heap id ((Kind.array inner).declaration packer.context)) :
    exists column, IsColumn packer type column ∧ column.part = ⟨field.1.offset, id⟩ ∧
      column.array.size = field.2.slot ∧ column.argument = inner := by
  obtain ⟨array, layout, found, isArray, inline, slot, argument⟩ := packs.array isSettled declares
  have innerSettled := packs.settled_argument isSettled declares rfl
  obtain ⟨element, isElement, isAlign⟩ := packs.element innerSettled
  obtain ⟨other, isOther, _, isField⟩ := has.type
  cases isType.symm.trans isOther
  have same : field.2 = array := Except.ok.inj (isField.symm.trans found)
  have stop := fits.2
  rw [same, slot] at stop
  exact ⟨⟨⟨field.1.offset, id⟩, array, layout, inner, element⟩,
    ⟨found, isArray, inline, argument, isElement, isAlign, stop⟩, rfl, by rw [same, slot], rfl⟩

end Packs

theorem Shows.isMap (packs : Packs packer heap document promises settled) {typed : List Typed}
    {align : UInt32} {value keys values strings : TypeId}
    (is : IsKind heap packer.target packer.context id (.map value keys values strings))
    (isSettled : settled id)
    (shows : Shows packer id ((Kind.map value keys values strings).declaration packer.context) type
      typed align) :
    exists keyColumn valueColumn stringColumn text,
      IsMap packer type keyColumn valueColumn stringColumn text ∧ valueColumn.argument = value := by
  have sound := shows.sound
  have shape : type.shape = .map := shows.shape
  obtain ⟨keysAre, valuesAre, stringsAre⟩ := is.details
  obtain ⟨keyField, valueField, stringField, rfl, isKey, isValue, isString⟩ :=
    forall₂_three shows.members
  obtain ⟨keyFits, others⟩ := List.forall_mem_cons.mp sound.fits
  obtain ⟨valueFits, last⟩ := List.forall_mem_cons.mp others
  have stringFits := List.forall_mem_singleton.mp last
  obtain ⟨keyApart, rest⟩ := List.pairwise_cons.mp
    (sound.apart (by rw [shape]; exact Shape.noConfusion))
  obtain ⟨valueApart, _⟩ := List.pairwise_cons.mp rest
  have notValues := keyApart valueField List.mem_cons_self
  have notStrings := keyApart stringField (List.mem_cons_of_mem _ List.mem_cons_self)
  have valuesApart := valueApart stringField List.mem_cons_self
  have settledPart {inner : TypeId} {name : String}
      (isMember : { name := name, type := some inner } ∈ Context.mapMembers keys values strings) :
      settled inner := packs.settled_member isSettled is.declares isMember rfl
  have keysSettled : settled keys := settledPart List.mem_cons_self
  have valuesSettled : settled values := settledPart (List.mem_cons_of_mem _ List.mem_cons_self)
  have stringsSettled : settled strings :=
    settledPart (List.mem_cons_of_mem _ (List.mem_cons_of_mem _ List.mem_cons_self))
  obtain ⟨keyColumn, isKeys, keyPart, keySize, keyArgument⟩ :=
    packs.column isKey rfl keyFits keysSettled keysAre
  obtain ⟨valueColumn, isValues, valuePart, valueSize, valueArgument⟩ :=
    packs.column isValue rfl valueFits valuesSettled valuesAre
  obtain ⟨stringColumn, isStrings, stringPart, stringSize, stringArgument⟩ :=
    packs.column isString rfl stringFits stringsSettled stringsAre
  have textSettled := packs.settled_argument stringsSettled stringsAre rfl
  obtain ⟨textType, text, isText⟩ := packs.text textSettled
  have isHash : keyColumn.element.slot.toNat = 4 := by
    have isScalar : (Builtin.hash, 4) ∈ scalarSizes packer.target := by simp [scalarSizes]
    obtain ⟨name, found⟩ := packs.scalar isScalar
    have isElement := isKeys.element
    rw [keyArgument] at isElement
    rw [Except.ok.inj (isElement.symm.trans found)]
    exact slot_scalar isScalar name
  have sameText : stringColumn.element = textType := by
    have isElement := isStrings.element
    rw [stringArgument] at isElement
    exact Except.ok.inj (isElement.symm.trans isText.found)
  refine ⟨keyColumn, valueColumn, stringColumn, text, ?_, valueArgument⟩
  refine ⟨shape, ?_, shows.argument.trans (congrArg some valueArgument.symm), isKeys, isValues,
    isStrings, ?_, ?_, ?_, isHash, stringArgument, sameText ▸ isText⟩
  · obtain ⟨_, isKeyType, keyType, _⟩ := isKey.type
    obtain ⟨_, isValueType, valueType, _⟩ := isValue.type
    obtain ⟨_, isStringType, stringType, _⟩ := isString.type
    cases isKeyType
    cases isValueType
    cases isStringType
    unfold Schema.mapLayout
    rw [sound.inOrder, shape, keyPart, valuePart, stringPart]
    simp only [List.map_cons, List.map_nil, bind, Except.bind, fieldType_of type keyType,
      fieldType_of type valueType, fieldType_of type stringType]
    rfl
  · simp only [Column.Apart, keyPart, valuePart, keySize, valueSize]
    exact notValues
  · simp only [Column.Apart, keyPart, stringPart, keySize, stringSize]
    exact notStrings
  · simp only [Column.Apart, valuePart, stringPart, valueSize, stringSize]
    exact valuesApart

end Types

/-! ### Making the arrays -/

section Storage

variable {packer : Packer} {type : TypeDef} {place storage : Offset}
  {length : Nat} {state before middle after : PackState} {column other : Column} {data : Arena}
  {owned fresh more : List Extent} {layout : Schema.ArrayLayout}

/-- The region of the record of an array. -/
theorem IsColumn.region (isColumn : IsColumn packer type column)
    (room : HasRoom data (instanceOf place type)) :
    instanceOf (column.record place) column.array =
      ⟨place.toNat + column.part.offset.toNat, column.array.size.toNat⟩ := by
  have fits := isColumn.fits
  have position : (column.record place).toNat = place.toNat + column.part.offset.toNat :=
    room.toNat_advance (by simp only [instanceOf]; omega)
  unfold instanceOf
  rw [position]

theorem IsColumn.inside (isColumn : IsColumn packer type column)
    (room : HasRoom data (instanceOf place type)) :
    (instanceOf (column.record place) column.array).Inside (instanceOf place type) := by
  have fits := isColumn.fits
  rw [isColumn.region room]
  exact ⟨Nat.le_add_right _ _, by simp only [instanceOf]; omega⟩

theorem IsColumn.room (isColumn : IsColumn packer type column)
    (room : HasRoom data (instanceOf place type)) :
    HasRoom data (instanceOf (column.record place) column.array) :=
  room.inside (isColumn.inside room)

theorem IsColumn.position (isColumn : IsColumn packer type column)
    (room : HasRoom data (instanceOf place type)) :
    Packer.inside place column.part.offset = pure (column.record place) := by
  have fits := isColumn.fits
  exact room.inside_eq (by simp only [instanceOf]; omega)

theorem IsColumn.apart (isColumn : IsColumn packer type column)
    (isOther : IsColumn packer type other) (apart : column.Apart other)
    (room : HasRoom data (instanceOf place type)) :
    (instanceOf (column.record place) column.array).Apart
      (instanceOf (other.record place) other.array) := by
  rw [isColumn.region room, isOther.region room]
  unfold Column.Apart at apart
  simp only [Extent.Apart]
  omega

/-- The record of an array outlasts changes elsewhere. -/
theorem HasParts.survives (has : HasParts packer layout place storage length middle.data)
    (isArray : IsArray packer type layout) (room : HasRoom middle.data (instanceOf place type))
    (moves : Moves owned middle more after)
    (apart : forall other, other ∈ owned -> (instanceOf place type).Apart other) :
    HasParts packer layout place storage length after.data :=
  has.preserved isArray room (moves.evolves.preserves_region room.writable room.end_le apart)
    fun _ has => has

/-- An array outlasts changes elsewhere. -/
theorem IsMade.survives {stride : Nat} {before : Arena}
    (made : IsMade packer layout place storage length stride before fresh middle.data)
    (isArray : IsArray packer type layout) (room : HasRoom middle.data (instanceOf place type))
    (moves : Moves owned middle more after)
    (recordApart : forall other, other ∈ owned -> (instanceOf place type).Apart other)
    (elementsApart : 0 < length -> forall other, other ∈ owned ->
      Extent.Apart ⟨storage.toNat, length * stride⟩ other) :
    IsMade packer layout place storage length stride before (more ++ fresh) after.data := by
  refine ⟨made.parts.survives isArray room moves recordApart, made.empty, fun positive => ?_⟩
  have has := made.elements positive
  have elements := moves.evolves.preserves_region room.writable has.room.end_le
    (elementsApart positive)
  exact ⟨List.mem_append_right _ has.member, has.behind, has.room.moved moves,
    elements.zero has.zero fun _ => id, has.present⟩

/-- An array that was made after an earlier time. -/
theorem IsMade.earlier {stride : Nat} {first before after : Arena}
    (made : IsMade packer layout place storage length stride before fresh after)
    (earlier : first.used ≤ before.used) (older : List Extent) :
    IsMade packer layout place storage length stride first (fresh ++ older) after := by
  refine ⟨made.parts, made.empty, fun positive => ?_⟩
  have has := made.elements positive
  exact ⟨List.mem_append_left _ has.member, Nat.le_trans earlier has.behind, has.room, has.zero,
    has.present⟩

/-- Hashes are stored one after another. -/
structure HasHashes (hashes : List UInt32) (start : Offset) (data : Arena) : Prop where
  present : start.isNull = false
  within : data.Within start.toNat (hashes.length * 4)
  load : data.load start.toNat (hashes.length * 4) =
    hashes.flatMap fun hash => LittleEndian.encode 4 hash.toNat

theorem HasHashes.preserved {hashes : List UInt32} {start : Offset} {later : Arena}
    {kept : Nat -> Prop} (has : HasHashes hashes start data) (preserves : Preserves kept data later)
    (isKept : forall position, Extent.Has ⟨start.toNat, hashes.length * 4⟩ position ->
      kept position) : HasHashes hashes start later :=
  ⟨has.present, preserves.grown.within _ _ has.within, (preserves.load isKept).trans has.load⟩

/-- The hashes of a map are written into its first array. -/
theorem does_writeHashes {keys : Offset} {element : TypeDef} (hashSize : element.slot.toNat = 4)
    {hashes : List UInt32} {start count : Nat} (fits : start + hashes.length ≤ count)
    (room : 0 < count -> HasRoom state.data (elementsOf keys count element)) :
    Does ((List.range' start hashes.length).map fun index => elementOf keys index element)
      (writeHashes keys hashes start) state fun _ _ after =>
        after.data.load (keys.toNat + start * 4) (hashes.length * 4) =
          hashes.flatMap fun hash => LittleEndian.encode 4 hash.toNat := by
  induction hashes generalizing start state with
  | nil => exact .pure rfl
  | cons hash rest ih =>
      rw [List.length_cons] at fits
      have inBounds : start < count := by omega
      have whole := room (by omega)
      have small := Nat.lt_of_lt_of_le hash.toNat_lt (by decide : 2 ^ 32 ≤ 256 ^ 4)
      have isElement : elementOf keys start element =
          ⟨(keys.advance (start * 4)).toNat, 4⟩ := by
        rw [← variableOf_element whole inBounds, hashSize, variableOf, hashSize]
      have within := (whole.inside (elementOf_inside keys element inBounds)).within
      rw [isElement] at within
      have place := element_position whole inBounds
      have position := toNat_element whole inBounds
      rw [hashSize] at place position
      rw [List.length_cons, List.range'_succ, List.map_cons]
      unfold writeHashes
      rw [place, pure_bind]
      refine (does_writeUnsigned whole.writable within (by simp only; omega) small).andThen ?_ ?_
      · rw [← isElement]
        exact .single List.mem_cons_self ⟨Nat.le_refl _, Nat.le_refl _⟩
      · intro _ fresh middle moves has
        have middleRoom := whole.moved moves
        refine ((ih (by omega) fun _ => middleRoom).imp ?_).covered
          (Covers.of_subset fun _ => List.mem_cons_of_mem _).append
        intro _ more after ends others
        -- The hashes behind this one are written elsewhere.
        have stays := has.survives ends.evolves middleRoom.writable fun other member => by
          obtain ⟨index, inRange, rfl⟩ := List.mem_map.mp member
          have behind := (List.mem_range'_1.mp inRange).1
          rw [← isElement]
          exact elementOf_apart keys element (by omega)
        have first := stays.load
        rw [position] at first
        have next : keys.toNat + start * 4 + 4 = keys.toNat + (start + 1) * 4 := by omega
        rw [List.flatMap_cons, Nat.succ_mul, Nat.add_comm (rest.length * 4) 4, load_add, first, next,
          others]

/-- The elements of an array lie behind what was in use before. -/
theorem apart_eachOf {region : Extent} {used count : Nat} {element : TypeDef}
    (inUse : region.start + region.length ≤ used) (behind : 0 < count -> used ≤ storage.toNat) :
    forall other, other ∈ eachOf storage count element -> region.Apart other := by
  intro other member
  obtain ⟨index, inRange, rfl⟩ := List.mem_map.mp member
  have bound := List.mem_range.mp inRange
  have start := behind (by omega)
  exact Or.inl (by simp only [elementOf]; omega)

/-- The hashes of a map are stored ahead of its values and keys. -/
structure HashesStored (hashes : List UInt32) (hashStorage values strings : Offset)
    (before after : Arena) : Prop where
  has : HasHashes hashes hashStorage after
  behind : before.used ≤ hashStorage.toNat
  beforeValues : hashStorage.toNat + hashes.length * 4 ≤ values.toNat
  beforeStrings : hashStorage.toNat + hashes.length * 4 ≤ strings.toNat

/-- The storage of a map was made for the members of some names. -/
structure IsStored (packer : Packer) (keys values strings : Column) (place : Offset)
    (names : List String) (storage : MapStorage) (hashStorage : Offset) (before : Arena)
    (fresh : List Extent) (after : Arena) : Prop where
  hashes : storage.hashes =
    (Sorted.sortBy UInt32.toNat (names.map Checksum.nameHash)).toArray
  valueStride : storage.valueStride = values.element.slot.toNat
  stringType : storage.stringType = strings.element
  keysParts : HasParts packer keys.layout (keys.record place) hashStorage names.length after
  hashesStored : 0 < names.length ->
    HashesStored (Sorted.sortBy UInt32.toNat (names.map Checksum.nameHash)) hashStorage storage.values
      storage.strings before after
  valuesMade : IsMade packer values.layout (values.record place) storage.values names.length
    values.element.slot.toNat before fresh after
  stringsMade : IsMade packer strings.layout (strings.record place) storage.strings names.length
    strings.element.slot.toNat before fresh after
  apart : 0 < names.length -> (elementsOf storage.strings names.length strings.element).Apart
    (elementsOf storage.values names.length values.element)

theorem does_mapStorage {keys values strings : Column} {text : Schema.ArrayLayout}
    (isMap : IsMap packer type keys values strings text)
    (room : HasRoom state.data (instanceOf place type)) (names : List String) :
    Does [instanceOf place type] (packer.mapStorage place values.argument
      ⟨keys.part, values.part, strings.part⟩ names) state fun storage fresh after =>
        exists hashStorage, IsStored packer keys values strings place names storage hashStorage
          state.data fresh after.data := by
  have isKeys := isMap.isKeys
  have isValues := isMap.isValues
  have isStrings := isMap.isStrings
  have end_ := room.end_le
  have covers {column : Column} (isColumn : IsColumn packer type column) (fresh : List Extent) :
      Covers (fresh ++ [instanceOf place type])
        [instanceOf (column.record place) column.array] :=
    (Covers.one (isColumn.inside room)).append
  have recordEnd {column : Column} (isColumn : IsColumn packer type column) :
      (instanceOf (column.record place) column.array).start +
        (instanceOf (column.record place) column.array).length ≤ state.data.used :=
    Nat.le_trans (isColumn.inside room).2 end_
  have apartFrom {column other : Column} (isColumn : IsColumn packer type column)
      (isOther : IsColumn packer type other) (apart : column.Apart other) :
      forall region, region ∈ [instanceOf (other.record place) other.array] ->
        (instanceOf (column.record place) column.array).Apart region := by
    intro region member
    cases List.mem_singleton.mp member
    exact isColumn.apart isOther apart room
  have behindRecord {column : Column} {start size : Nat} (isColumn : IsColumn packer type column)
      (behind : state.data.used ≤ start) :
      forall region, region ∈ [instanceOf (column.record place) column.array] ->
        Extent.Apart ⟨start, size⟩ region := by
    intro region member
    cases List.mem_singleton.mp member
    exact Or.inr (Nat.le_trans (recordEnd isColumn) behind)
  unfold mapStorage
  simp only [ask_ok isKeys.found, ask_ok isValues.found, ask_ok isStrings.found,
    isKeys.position room, isValues.position room, isStrings.position room,
    argument_eq isStrings.argument, ask_ok isStrings.element, ask_ok isValues.element, pure_bind]
  refine (does_arrayStorage isKeys.isArray (isKeys.room room) isKeys.argument isKeys.element
    isKeys.isAlign).andThen (covers isKeys []) ?_
  intro hashStorage keysFresh first keysMoves keysMade
  have firstRoom := room.moved keysMoves
  have firstUsed := (keysMoves.evolves.grown room.writable).used
  have count : (Sorted.sortBy UInt32.toNat (names.map Checksum.nameHash)).length = names.length := by
    rw [Sorted.length_sortBy, List.length_map]
  have areElements : (List.range' 0
      (Sorted.sortBy UInt32.toNat (names.map Checksum.nameHash)).length).map
        (fun index => elementOf hashStorage index keys.element) =
      eachOf hashStorage names.length keys.element := by
    rw [count, ← List.range_eq_range']
    rfl
  have writes := does_writeHashes isMap.hashes (Nat.le_of_eq ((Nat.zero_add _).trans count))
    fun positive => (keysMade.elements positive).room
  rw [areElements] at writes
  refine writes.andThen (covers_eachOf fun positive => (keysMade.elements positive).member) ?_
  intro _ hashesFresh second hashesMoves hashesAre
  have secondRoom := firstRoom.moved hashesMoves
  have secondUsed := (hashesMoves.evolves.grown firstRoom.writable).used
  refine (does_arrayStorage isValues.isArray (isValues.room secondRoom) isValues.argument
    isValues.element isValues.isAlign).andThen (covers isValues _).append ?_
  intro valueStorage valuesFresh third valuesMoves valuesMade
  have thirdRoom := secondRoom.moved valuesMoves
  have thirdUsed := (valuesMoves.evolves.grown secondRoom.writable).used
  refine (does_arrayStorage isStrings.isArray (isStrings.room thirdRoom) isStrings.argument
    isStrings.element isStrings.isAlign).andThen ((covers isStrings _).append).append ?_
  intro stringStorage stringsFresh after stringsMoves stringsMade
  refine .pure ⟨hashStorage, rfl, rfl, rfl, ?_, fun positive => ?_, ?_, ?_, fun positive => ?_⟩
  · have written := keysMade.parts.survives isKeys.isArray (isKeys.room firstRoom) hashesMoves
      (apart_eachOf (recordEnd isKeys) fun positive => (keysMade.elements positive).behind)
    exact (written.survives isKeys.isArray (isKeys.room secondRoom) valuesMoves
      (apartFrom isKeys isValues isMap.notValues)).survives isKeys.isArray (isKeys.room thirdRoom)
        stringsMoves (apartFrom isKeys isStrings isMap.notStrings)
  · have made := keysMade.elements positive
    have hashesEnd := made.room.end_le
    have width : names.length * keys.element.slot.toNat = names.length * 4 := by rw [isMap.hashes]
    simp only [width] at hashesEnd
    have hashesRoom : HasRoom second.data ⟨hashStorage.toNat, names.length * 4⟩ :=
      width ▸ made.room.moved hashesMoves
    have stored : HasHashes (Sorted.sortBy UInt32.toNat (names.map Checksum.nameHash)) hashStorage
        second.data := by
      refine ⟨made.present, ?_, ?_⟩
      · rw [count]
        exact hashesRoom.within
      · rw [Nat.zero_mul, Nat.add_zero] at hashesAre
        exact hashesAre
    have inUse := hashesRoom.end_le
    have survives := (valuesMoves.evolves.preserves_region secondRoom.writable inUse
      (behindRecord isValues made.behind)).trans (stringsMoves.evolves.preserves_region
        thirdRoom.writable (Nat.le_trans inUse thirdUsed) (behindRecord isStrings made.behind))
    have valuesBehind := (valuesMade.elements positive).behind
    have stringsBehind := (stringsMade.elements positive).behind
    simp only at inUse
    refine ⟨stored.preserved survives fun _ has => ?_, made.behind, ?_, ?_⟩
    · rw [count] at has
      exact has
    · rw [count]
      exact Nat.le_trans inUse valuesBehind
    · rw [count]
      exact Nat.le_trans inUse (Nat.le_trans thirdUsed stringsBehind)
  · have survives := valuesMade.survives isValues.isArray (isValues.room thirdRoom) stringsMoves
      (apartFrom isValues isStrings isMap.valuesApart) fun positive => behindRecord isStrings
        (by have behind := (valuesMade.elements positive).behind; omega)
    simp only [List.nil_append, List.append_assoc]
    rw [← List.append_assoc]
    exact survives.earlier (by omega) _
  · simp only [List.nil_append, List.append_assoc]
    exact stringsMade.earlier (by omega) _
  · have stop := (valuesMade.elements positive).room.end_le
    have behind := (stringsMade.elements positive).behind
    exact Or.inr (Nat.le_trans stop behind)

end Storage

end Packer
end PackedJson
