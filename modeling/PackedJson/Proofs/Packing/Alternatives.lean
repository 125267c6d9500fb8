import PackedJson.Proofs.Packing.Arrays

namespace PackedJson
namespace Packer

open Arena TextSchema Layout

/-!
Writing values with alternatives, and reading them back.

A tag of one byte is at the start, and all alternatives are at one place behind
it.  What an alternative takes is apart from the tag, so that neither is lost
when the other one is written.
-/

/-- A type has a tag and some alternatives behind it. -/
structure IsTagged (packer : Packer) (type : TypeDef) (tag : Typed) (alternatives : List Typed)
    (payload : Nat) : Prop where
  shape : type.shape = .variant
  inOrder : packer.schema.fieldsInOrder type = .ok (tag.1 :: alternatives.map Prod.fst)
  atStart : tag.1.offset = 0
  tagType : exists inner, tag.1.type = some inner ∧ packer.schema.type inner = .ok tag.2
  tagSize : tag.2.size.toNat = 1
  tagFits : 1 ≤ type.size.toNat
  behind : 1 ≤ payload
  fits : forall alternative, alternative ∈ alternatives ->
    alternative.1.offset.toNat = payload ∧
    payload + alternative.2.slot.toNat ≤ type.size.toNat

section Tagged

variable {packer : Packer} {heap : Heap} {document : Json} {promises : Promises}
  {settled : TypeId -> Prop} {id inner : TypeId} {type : TypeDef} {tag : Typed}
  {alternatives : List Typed} {payload : Nat} {place : Offset} {state : PackState} {data : Arena}

theorem Shows.isTagged (packs : Packs packer heap document promises settled)
    {declaration : Declaration} {typed : List Typed} {align : UInt32}
    (shows : Shows packer id declaration type typed align) (shape : declaration.shape = .variant)
    {members : List Member}
    (isMembers : declaration.members = packer.context.tagMember :: members) :
    exists tag alternatives payload, typed = tag :: alternatives ∧
      IsTagged packer type tag alternatives payload ∧
      List.Forall₂ (HasMember packer) members alternatives := by
  have has := shows.members
  rw [isMembers] at has
  cases has with
  | @cons _ tag _ alternatives isTag areAlternatives =>
      have sound := shows.sound
      have isVariant : type.shape = .variant := shows.shape.trans shape
      obtain ⟨atStart, payload, behind, areBehind⟩ := sound.tagged isVariant
      have isScalar : (Builtin.tag, 1) ∈ Builder.scalarSizes packer.target := by
        simp [Builder.scalarSizes]
      obtain ⟨name, isTagType⟩ := isTag.scalar packs rfl isScalar
      have slot := isTag.slot packs rfl isScalar
      obtain ⟨tagFits, alternativesFit⟩ := List.forall_mem_cons.mp sound.fits
      obtain ⟨tagInner, _, isInner, found⟩ := isTag.type
      refine ⟨tag, alternatives, payload, rfl, ⟨isVariant, sound.inOrder, atStart,
        ⟨tagInner, isInner, found⟩, ?_, ?_, by omega, fun alternative member => ?_⟩,
        areAlternatives⟩
      · rw [isTagType]
        rfl
      · have stop := tagFits.2
        omega
      · have fits := (alternativesFit alternative member).2
        have same := (areBehind alternative member).1
        exact ⟨same, same ▸ fits⟩

/-- The region of a tag. -/
def tagOf (place : Offset) : Extent := ⟨place.toNat, 1⟩

theorem IsTagged.tag_inside (isTagged : IsTagged packer type tag alternatives payload)
    (place : Offset) : (tagOf place).Inside (instanceOf place type) :=
  ⟨Nat.le_refl _, Nat.add_le_add_left isTagged.tagFits _⟩

theorem IsTagged.payload_inside (isTagged : IsTagged packer type tag alternatives payload)
    {alternative : Typed} (member : alternative ∈ alternatives)
    (room : HasRoom data (instanceOf place type)) :
    variableOf (place.advance payload) alternative.2 =
      ⟨place.toNat + payload, alternative.2.slot.toNat⟩ ∧
    (variableOf (place.advance payload) alternative.2).Inside (instanceOf place type) ∧
    (tagOf place).Apart (variableOf (place.advance payload) alternative.2) := by
  have fits := (isTagged.fits alternative member).2
  have behind := isTagged.behind
  have position : (place.advance payload).toNat = place.toNat + payload :=
    room.toNat_advance (by simp only [instanceOf]; omega)
  have same : variableOf (place.advance payload) alternative.2 =
      ⟨place.toNat + payload, alternative.2.slot.toNat⟩ := by
    unfold variableOf
    rw [position]
  rw [same]
  refine ⟨rfl, ⟨Nat.le_add_right _ _, ?_⟩, Or.inl ?_⟩
  · simp only [instanceOf]
    omega
  · simp only [tagOf]
    omega

theorem advance_zero (place : Offset) : place.advance 0 = place := place.ofNat_toNat

theorem fieldType_eq {owner : TypeDef} {field : FieldDef} (isType : field.type = some inner) :
    ask (packer.schema.fieldType owner field) = pure inner :=
  ask_ok (fieldType_of owner isType)

/-- A tag is a number of one byte at the start. -/
theorem IsTagged.writeTag_eq (isTagged : IsTagged packer type tag alternatives payload)
    (room : HasRoom data (instanceOf place type)) (value : UInt8) :
    packer.writeTag place type tag.1 value = writeUnsigned place 1 value.toNat := by
  obtain ⟨tagInner, isInner, found⟩ := isTagged.tagType
  unfold writeTag
  rw [fieldType_eq isInner, pure_bind, ask_ok found, pure_bind, isTagged.atStart,
    isTagged.tagSize, room.inside_eq (Nat.le_add_right _ _), pure_bind]
  exact congrArg (writeUnsigned · 1 value.toNat) (advance_zero place)

/-- A tag is written. -/
theorem does_writeTag (isTagged : IsTagged packer type tag alternatives payload)
    (room : HasRoom state.data (instanceOf place type)) (value : UInt8) :
    Does [tagOf place] (packer.writeTag place type tag.1 value) state
      fun _ _ after => after.data.HasNumber place 1 value.toNat := by
  rw [isTagged.writeTag_eq room]
  exact does_writeUnsigned room.writable (room.inside (isTagged.tag_inside place)).within
    (by decide) (Nat.lt_of_lt_of_le value.toNat_lt (by decide))

theorem tag_eq {value : Nat} (has : data.HasNumber place 1 value) (writable : data.Writable) :
    (packer.reader data).tag ⟨id, type, place⟩ = .ok value :=
  Reader.readUnsigned_of_hasNumber has writable

/-- The alternative that a test selects is the variable at the place of all
alternatives. -/
theorem alternative_eq (isTagged : IsTagged packer type tag alternatives payload)
    (room : HasRoom data (instanceOf place type)) {alternative : Typed} {member : Member}
    (isOne : alternative ∈ alternatives) (has : HasMember packer member alternative)
    (isType : member.type = some inner) {selects : FieldDef -> Bool}
    (selected : (alternatives.map Prod.fst).find? selects = some alternative.1) {found : Place}
    (isFound : (packer.reader data).variableAt inner (place.advance payload) = .ok found)
    (value : Nat) :
    (packer.reader data).alternative ⟨id, type, place⟩ value selects = .ok (member.name, found) := by
  have fits := isTagged.fits alternative isOne
  have used := room.writable.used_lt
  have bound := room.end_le
  simp only [instanceOf] at bound
  obtain ⟨other, isOther, isField, _⟩ := has.type
  cases isType.symm.trans isOther
  have name := has.name
  unfold Reader.alternative Reader.namedField Reader.enter
  simp only [reader, Reader.ofSchema, isTagged.inOrder, bind, Except.bind, List.drop_succ_cons,
    List.drop_zero, selected, name, fieldType_of type isField] at isFound ⊢
  rw [reader_inside (by simp only; omega)]
  simp only [fits.1, isFound]
  rfl

end Tagged

/-! ### Alternatives behind a tag -/

section Behind

variable {packer : Packer} {document : Json} {id inner : TypeId} {type : TypeDef} {tag : Typed}
  {alternatives : List Typed} {payload : Nat} {place : Offset} {state : PackState}
  {term innerTerm : Term} {path : Path} {value : Json} {same : Writer}

/-- What is read of a value with a tag depends on the tag and on the value. -/
theorem lasts_tagged {alternative : TypeDef} {raw : Nat} {middle after : PackState}
    {reads whole : Arena -> Prop} (room : HasRoom state.data (instanceOf place type))
    (isTag : (tagOf place).Inside (instanceOf place type))
    (isPayload : (variableOf (place.advance payload) alternative).Inside (instanceOf place type))
    (apart : (tagOf place).Apart (variableOf (place.advance payload) alternative))
    {fresh : List Extent} (moves : Moves [tagOf place] state fresh middle)
    (tagged : middle.data.HasNumber place 1 raw)
    (changes : Changes [variableOf (place.advance payload) alternative] middle after)
    (lasts : Lasts (Since (variableOf (place.advance payload) alternative) middle.data.used
      after.data.used) after.data reads)
    (combined : forall later, HasRoom later (instanceOf place type) -> later.HasNumber place 1 raw ->
      reads later -> whole later) :
    Lasts (Since (instanceOf place type) state.data.used after.data.used) after.data whole := by
  obtain ⟨more, evolves⟩ := changes
  have middleRoom := room.moved moves
  have earlier := (moves.evolves.grown room.writable).used
  have grown := evolves.grown middleRoom.writable
  have survives := tagged.survives evolves middleRoom.writable fun other member => by
    cases List.mem_singleton.mp member
    exact apart
  intro later preserves
  refine combined later ((middleRoom.grown grown).grown preserves.grown)
    (survives.preserved preserves fun position has => Or.inl
      ⟨Nat.le_trans isTag.1 has.1, Nat.lt_of_lt_of_le has.2 isTag.2⟩)
    (lasts later (preserves.mono fun position since =>
      since.mono isPayload earlier (Nat.le_refl _)))

/-- A tag and the alternative behind it are written. -/
theorem fills_tagged (tagged : IsTagged packer type tag alternatives payload)
    (room : HasRoom state.data (instanceOf place type)) {alternative : Typed}
    (isOne : alternative ∈ alternatives) (found : packer.schema.type inner = .ok alternative.2)
    (raw : UInt8) (wrap : Value -> Value)
    (decided : IsDecided document packer.maxDepth (.asked term path value) ->
      IsDecided document packer.maxDepth (.asked innerTerm path value))
    (judged : forall verdict, Judges document packer.maxDepth (.asked innerTerm path value) verdict ->
      Judges document packer.maxDepth (.asked term path value) (verdict.map wrap))
    (writes : Writes document packer same inner innerTerm path value)
    (reads : forall data meaning, HasRoom data (instanceOf place type) ->
      data.HasNumber place 1 raw.toNat ->
      packer.ReadsVariable inner (place.advance payload) meaning data ->
      packer.ReadsInstance id type place (wrap meaning) data) :
    FillsInstance document packer id type place term path value (do
      packer.writeTag place type tag.1 raw
      same inner (place.advance payload) path value) state := by
  have isTag := tagged.tag_inside place
  obtain ⟨region, isPayload, apart⟩ := tagged.payload_inside isOne room
  refine (does_writeTag tagged room raw).fills [variableOf (place.advance payload) alternative.2]
    wrap (.one isTag) decided judged ?_
  intro _ fresh middle moves has
  refine ⟨(Covers.one isPayload).append, ?_⟩
  refine (writes alternative.2 _ middle found ((room.moved moves).inside isPayload)).imp ?_
  intro more meaning after _ isGood changes zeroed wellFormed
  have payloadZero : middle.data.Zero (variableOf (place.advance payload) alternative.2) := by
    refine (moves.evolves.preserves_region room.writable (room.inside isPayload).end_le
      fun other member => ?_).zero (zeroed.inside isPayload) fun _ has => has
    cases List.mem_singleton.mp member
    exact apart.symm
  exact lasts_tagged room isTag isPayload apart moves has changes (isGood payloadZero wellFormed)
    fun later laterRoom isTagged => reads later meaning laterRoom isTagged

end Behind

/-! ### Wrappers -/

/-- A type is a wrapper with two alternatives, told apart by their tags. -/
structure IsWrapper (packer : Packer) (type : TypeDef) (generic : Builtin)
    (tag zero one : Typed) (payload : Nat) (first second : Member) : Prop where
  tagged : IsTagged packer type tag [zero, one] payload
  prototype : type.prototype = some (packer.context.builtin generic)
  zero : HasMember packer first zero
  one : HasMember packer second one
  zeroTag : first.activation = 0
  oneTag : second.activation = 1

section Wrappers

variable {packer : Packer} {heap : Heap} {document : Json} {promises : Promises}
  {settled : TypeId -> Prop} {id inner : TypeId} {type : TypeDef} {generic : Builtin}
  {tag zero one : Typed} {payload : Nat} {first second : Member} {place : Offset}
  {state : PackState} {data : Arena}

theorem Shows.isWrapper (packs : Packs packer heap document promises settled)
    {declaration : Declaration} {typed : List Typed} {align : UInt32}
    (shows : Shows packer id declaration type typed align) (shape : declaration.shape = .variant)
    (prototype : declaration.prototype = some (packer.context.builtin generic))
    (members : declaration.members = [packer.context.tagMember, first, second])
    (zeroTag : first.activation = 0) (oneTag : second.activation = 1) :
    exists tag zero one payload, IsWrapper packer type generic tag zero one payload first second := by
  obtain ⟨tag, alternatives, payload, _, isTagged, has⟩ := shows.isTagged packs shape members
  cases has with
  | cons isZero rest =>
      cases rest with
      | cons isOne rest =>
          cases rest
          exact ⟨tag, _, _, payload, isTagged, shows.prototype.trans prototype, isZero, isOne,
            zeroTag, oneTag⟩

variable (wrapper : IsWrapper packer type generic tag zero one payload first second)

include wrapper

theorem IsWrapper.wrapperFields_eq :
    packer.wrapperFields type = pure ⟨tag.1, zero.1, one.1⟩ := by
  have zeroTag := wrapper.zero.activation.trans wrapper.zeroTag
  have oneTag := wrapper.one.activation.trans wrapper.oneTag
  unfold wrapperFields
  rw [ask_ok wrapper.tagged.inOrder, pure_bind]
  simp [zeroTag, oneTag]

/-- The alternative that is selected by zero. -/
theorem IsWrapper.wrapper_zero (isType : first.type = some inner)
    (room : HasRoom data (instanceOf place type)) (tagged : data.HasNumber place 1 0)
    {found : Place}
    (isFound : (packer.reader data).variableAt inner (place.advance payload) = .ok found) :
    (packer.reader data).wrapper ⟨id, type, place⟩ generic = .ok (first.name, found) := by
  have zeroTag := wrapper.zero.activation.trans wrapper.zeroTag
  unfold Reader.wrapper
  simp only [bind, Except.bind]
  rw [if_neg (by simp [wrapper.prototype, reader, Context.is]), tag_eq tagged room.writable]
  exact alternative_eq wrapper.tagged room List.mem_cons_self wrapper.zero isType
    (by simp [zeroTag]) isFound 0

/-- The alternative that is selected by one. -/
theorem IsWrapper.wrapper_one (isType : second.type = some inner)
    (room : HasRoom data (instanceOf place type)) (tagged : data.HasNumber place 1 1)
    {found : Place}
    (isFound : (packer.reader data).variableAt inner (place.advance payload) = .ok found) :
    (packer.reader data).wrapper ⟨id, type, place⟩ generic = .ok (second.name, found) := by
  have zeroTag := wrapper.zero.activation.trans wrapper.zeroTag
  have oneTag := wrapper.one.activation.trans wrapper.oneTag
  unfold Reader.wrapper
  simp only [bind, Except.bind]
  rw [if_neg (by simp [wrapper.prototype, reader, Context.is]), tag_eq tagged room.writable]
  exact alternative_eq wrapper.tagged room (List.mem_cons_of_mem _ List.mem_cons_self) wrapper.one
    isType (by simp [zeroTag, oneTag]) isFound 1

/-- The position of the alternatives. -/
theorem IsWrapper.payload_eq (room : HasRoom data (instanceOf place type)) :
    inside place zero.1.offset = pure (place.advance payload) ∧
    inside place one.1.offset = pure (place.advance payload) := by
  have ofZero := wrapper.tagged.fits zero List.mem_cons_self
  have ofOne := wrapper.tagged.fits one (List.mem_cons_of_mem _ List.mem_cons_self)
  constructor
  · rw [room.inside_eq (by simp only [instanceOf]; omega), ofZero.1]
  · rw [room.inside_eq (by simp only [instanceOf]; omega), ofOne.1]

end Wrappers

theorem variableAt_inline {packer : Packer} {id : TypeId} {type : TypeDef} {place : Offset}
    {data : Arena} (found : packer.schema.type id = .ok type)
    (inline : type.isStoredByReference = false) :
    (packer.reader data).variableAt id place = .ok ⟨id, type, place⟩ := by
  unfold Reader.variableAt
  simp only [reader, Reader.ofSchema, found, bind, Except.bind, inline, Bool.false_eq_true,
    if_false]
  rfl

/-! ### Options -/

section Options

variable {packer : Packer} {heap : Heap} {document : Json} {promises : Promises}
  {settled : TypeId -> Prop} {id inner : TypeId} {type : TypeDef} {tag zero one : Typed}
  {payload : Nat} {place : Offset} {state : PackState} {data : Arena} {term innerTerm : Term}
  {path : Path} {value : Json} {same : Writer}

/-- A type is the option of another one. -/
abbrev IsOption (packer : Packer) (type : TypeDef) (inner : TypeId) (tag zero one : Typed)
    (payload : Nat) : Prop :=
  IsWrapper packer type .option tag zero one payload
    { name := "None", type := some (packer.context.builtin .unit) }
    { name := "Some", type := some inner, activation := 1, choice := 1 }

/-- An option whose tag is zero is absent. -/
theorem reads_absent (packs : Packs packer heap document promises settled)
    (option : IsOption packer type inner tag zero one payload)
    (room : HasRoom data (instanceOf place type)) (tagged : data.HasNumber place 1 0) :
    packer.ReadsInstance id type place .absent data := by
  have isScalar : (Builtin.unit, 0) ∈ Builder.scalarSizes packer.target := by
    simp [Builder.scalarSizes]
  obtain ⟨name, found⟩ := packs.scalar isScalar
  refine .absent ?_
  unfold Reader.option
  rw [option.wrapper_zero rfl room tagged
    (variableAt_inline found (Builder.TypeDef.isStoredByReference_scalar name _))]
  rfl

/-- An option whose tag is one holds the value at its place. -/
theorem reads_present (option : IsOption packer type inner tag zero one payload)
    (room : HasRoom data (instanceOf place type)) (tagged : data.HasNumber place 1 1)
    {meaning : Value} (reads : packer.ReadsVariable inner (place.advance payload) meaning data) :
    packer.ReadsInstance id type place (.present meaning) data := by
  obtain ⟨found, isFound, isRead⟩ := reads
  refine .present ?_ isRead
  unfold Reader.option
  rw [option.wrapper_one rfl room tagged isFound]
  rfl

theorem option_eq (isValue : value ≠ .null) : packer.option same type place path value = (do
    let fields ← packer.wrapperFields type
    packer.writeTag place type fields.tag fields.one.activation
    let id ← ask (packer.schema.fieldType type fields.one)
    same id (← inside place fields.one.offset) path value) := by
  cases value with
  | null => exact absurd rfl isValue
  | _ => rfl

/-- Null is written as an absent value. -/
theorem option_absent_eq (option : IsOption packer type inner tag zero one payload) :
    packer.option same type place path .null = packer.writeTag place type tag.1 0 := by
  have zeroTag := option.zero.activation
  unfold Packer.option
  rw [option.wrapperFields_eq, pure_bind]
  exact congrArg (packer.writeTag place type tag.1) zeroTag

/-- Any other value is written behind the tag of a present value. -/
theorem option_present_eq (option : IsOption packer type inner tag zero one payload)
    (room : HasRoom data (instanceOf place type)) (isValue : value ≠ .null) :
    packer.option same type place path value = (do
      packer.writeTag place type tag.1 1
      same inner (place.advance payload) path value) := by
  obtain ⟨alternative, isInner, isField, _⟩ := option.one.type
  cases isInner
  have oneTag := option.one.activation
  rw [option_eq isValue, option.wrapperFields_eq, pure_bind]
  simp only [fieldType_eq isField, (option.payload_eq room).2, pure_bind, oneTag]

/-- A value is written as an option. -/
theorem fills_option (packs : Packs packer heap document promises settled)
    (hasRole : HasRole document term (.option innerTerm))
    (option : IsOption packer type inner tag zero one payload)
    (writes : value ≠ .null -> Writes document packer same inner innerTerm path value)
    (room : HasRoom state.data (instanceOf place type)) :
    FillsInstance document packer id type place term path value
      (packer.option same type place path value) state := by
  have tagged := option.tagged
  have isTag := tagged.tag_inside place
  by_cases isNull : value = .null
  · subst isNull
    rw [option_absent_eq option]
    refine ((does_writeTag tagged room 0).covered (.one isTag)).fits .absent (.own hasRole rfl) ?_
    intro fresh after moves has _ _ later preserves
    refine reads_absent packs option ((room.moved moves).grown preserves.grown)
      (has.preserved preserves fun position inTag => Or.inl
        ⟨inTag.1, Nat.lt_of_lt_of_le inTag.2 isTag.2⟩)
  · obtain ⟨alternative, isInner, _, found⟩ := option.one.type
    cases isInner
    have isOne : one ∈ [zero, one] := List.mem_cons_of_mem _ List.mem_cons_self
    rw [option_present_eq option room isNull]
    exact fills_tagged tagged room isOne found 1 .present (IsDecided.option hasRole isNull)
      (fun verdict => .option hasRole isNull) (writes isNull) fun data meaning dataRoom isTagged reads =>
        reads_present option dataRoom isTagged reads

end Options

/-! ### Results -/

section Results

variable {packer : Packer} {document : Json} {id inner : TypeId} {type : TypeDef}
  {tag zero one : Typed} {payload : Nat} {place : Offset} {state : PackState} {data : Arena}
  {term innerTerm : Term} {path : Path} {value : Json} {same : Writer}
  {layout : Schema.ArrayLayout} {violation : Violation}

/-- A type is the result of another one. -/
abbrev IsResult (packer : Packer) (type : TypeDef) (inner : TypeId) (tag zero one : Typed)
    (payload : Nat) : Prop :=
  IsWrapper packer type .result tag zero one payload
    { name := "Ok", type := some inner }
    { name := "Err", type := some (packer.context.builtin .string), activation := 1, choice := 1 }

/-- A result whose tag is zero holds the value at its place. -/
theorem reads_success (result : IsResult packer type inner tag zero one payload)
    (room : HasRoom data (instanceOf place type)) (tagged : data.HasNumber place 1 0)
    {meaning : Value} (reads : packer.ReadsVariable inner (place.advance payload) meaning data) :
    packer.ReadsInstance id type place (.success meaning) data := by
  obtain ⟨found, isFound, isRead⟩ := reads
  refine .success ?_ isRead
  unfold Reader.result
  rw [result.wrapper_zero rfl room tagged isFound]
  rfl

/-- Writing a result writes the payload and then the tag, or the violation that
the payload raised. -/
theorem IsResult.steps_eq (result : IsResult packer type inner tag zero one payload)
    (room : HasRoom data (instanceOf place type)) :
    packer.result same type place path value = (do
      match ← attempt (same inner (place.advance payload) path value) with
      | none => packer.writeTag place type tag.1 0
      | some violation => packer.capture type ⟨tag.1, zero.1, one.1⟩ place violation) := by
  obtain ⟨alternative, isInner, isField, found⟩ := result.zero.type
  cases isInner
  have zeroTag := result.zero.activation
  unfold Packer.result
  rw [result.wrapperFields_eq, pure_bind]
  simp only [fieldType_eq isField, (result.payload_eq room).1, pure_bind, zeroTag]
  all_goals rfl

variable (isText : IsText packer one.2 layout)

include isText

/-- A result whose tag is one holds the text of a violation. -/
theorem reads_failure (isBuiltin : packer.context.builtinOf? (packer.context.builtin .string) =
      some .string) (result : IsResult packer type inner tag zero one payload)
    (room : HasRoom data (instanceOf place type)) (tagged : data.HasNumber place 1 1)
    {message : String}
    (holds : packer.HoldsText layout (place.advance payload) message data) :
    packer.ReadsInstance id type place (.failure message) data := by
  have isOne : one ∈ [zero, one] := List.mem_cons_of_mem _ List.mem_cons_self
  obtain ⟨_, isPayload, _⟩ := result.tagged.payload_inside isOne room
  rw [isText.variableOf_eq] at isPayload
  refine .failure ?_
  unfold Reader.result
  rw [result.wrapper_one rfl room tagged (variableAt_inline isText.found isText.inline)]
  simp only [bind, Except.bind]
  rw [text_of_holdsText isText.isArray holds (room.inside isPayload) isBuiltin]
  rfl

omit isText in
/-- A violation is captured by clearing the payload and writing a tag and a text. -/
theorem IsResult.capture_eq (result : IsResult packer type inner tag zero one payload)
    (room : HasRoom data (instanceOf place type)) :
    packer.capture type ⟨tag.1, zero.1, one.1⟩ place violation = (do
      onData (Arena.zero (place.advance payload) (type.size.toNat - payload))
      packer.writeTag place type tag.1 1
      packer.writeText one.2 (place.advance payload) violation.message) := by
  obtain ⟨text, isType, isField, found⟩ := result.one.type
  cases isType
  have fits := result.tagged.fits one (List.mem_cons_of_mem _ List.mem_cons_self)
  have oneTag := result.one.activation
  unfold capture
  simp only [(result.payload_eq room).2, fieldType_eq isField, ask_ok found, pure_bind, fits.1,
    oneTag]

/-- The region of a result behind the start of its payload. -/
def restOf (place : Offset) (type : TypeDef) (payload : Nat) : Extent :=
  ⟨place.toNat + payload, type.size.toNat - payload⟩

/-- Behind the tag of a result there is room for a text. -/
theorem IsResult.payload_rest (result : IsResult packer type inner tag zero one payload)
    (room : HasRoom data (instanceOf place type)) :
    (⟨(place.advance payload).toNat, type.size.toNat - payload⟩ : Extent) =
        restOf place type payload ∧
      (restOf place type payload).Inside (instanceOf place type) ∧
      (tagOf place).Apart (restOf place type payload) ∧ 0 < type.size.toNat - payload := by
  have fits := (result.tagged.fits one (List.mem_cons_of_mem _ List.mem_cons_self)).2
  have behind := result.tagged.behind
  have positive := isText.positive
  rw [isText.slot] at fits
  have position : (place.advance payload).toNat = place.toNat + payload :=
    room.toNat_advance (by simp only [instanceOf]; omega)
  rw [position]
  exact ⟨rfl, ⟨Nat.le_add_right _ _, by simp only [instanceOf, restOf]; omega⟩,
    Or.inl (by simp only [tagOf, restOf]; omega), by omega⟩

/-- What is left of a captured violation: a tag, the words of a text and its
bytes, and zeros around the words, as far as some region goes. -/
structure IsCaptured (packer : Packer) (region : Extent) (payload : Nat)
    (layout : Schema.ArrayLayout) (place : Offset) (message : String) (before after : Arena) :
    Prop where
  tag : after.HasNumber place 1 1
  text : packer.WroteText layout (place.advance payload) message before after
  zeros : forall position, region.Has position ->
    (forall word, word ∈ packer.wordsOf layout (place.advance payload) -> word.Misses position) ->
    after.byteAt position = 0

omit isText in
/-- A captured violation stays as long as the bytes of the result do. -/
theorem IsCaptured.lasts {message : String} {before : Arena} {region : Extent}
    (captured : packer.IsCaptured region payload layout place message before data)
    (isText : IsText packer one.2 layout)
    (result : IsResult packer type inner tag zero one payload)
    (room : HasRoom data (instanceOf place type)) :
    Lasts (Since (instanceOf place type) before.used data.used) data fun later =>
      later.HasNumber place 1 1 ∧
        packer.HoldsText layout (place.advance payload) message later := by
  have isTag := result.tagged.tag_inside place
  have isOne : one ∈ [zero, one] := List.mem_cons_of_mem _ List.mem_cons_self
  obtain ⟨_, isPayload, _⟩ := result.tagged.payload_inside isOne room
  rw [isText.variableOf_eq] at isPayload
  intro later preserves
  refine ⟨captured.tag.preserved preserves fun position has => Or.inl
    ⟨Nat.le_trans isTag.1 has.1, Nat.lt_of_lt_of_le has.2 isTag.2⟩, ?_⟩
  exact captured.text.lasts isText.isArray (room.inside isPayload) later
    (preserves.mono fun position since => since.mono isPayload (Nat.le_refl _) (Nat.le_refl _))

/-- The text of a violation is written over what an attempt left. -/
theorem does_capture (result : IsResult packer type inner tag zero one payload)
    (room : HasRoom state.data (instanceOf place type)) :
    Does [tagOf place, restOf place type payload]
      (packer.capture type ⟨tag.1, zero.1, one.1⟩ place violation) state fun _ _ after =>
        packer.IsCaptured (restOf place type payload) payload layout place violation.message
          state.data after.data := by
  have tagged := result.tagged
  have isOne : one ∈ [zero, one] := List.mem_cons_of_mem _ List.mem_cons_self
  have isTag := tagged.tag_inside place
  obtain ⟨region, isPayload, apart⟩ := tagged.payload_inside isOne room
  obtain ⟨sameRest, rest, restApart, remaining⟩ := result.payload_rest isText room
  have restRoom := (room.inside rest).within
  rw [← sameRest] at restRoom
  have restCovers (fresh : List Extent) : Covers (fresh ++ [tagOf place, restOf place type payload])
      [restOf place type payload] := by
    refine Covers.append (.single ?_ ⟨Nat.le_refl _, Nat.le_refl _⟩)
    exact List.mem_cons_of_mem _ List.mem_cons_self
  have payloadInRest : (instanceOf (place.advance payload) one.2).Inside
      (restOf place type payload) := by
    have fits := (tagged.fits one isOne).2
    have behind := tagged.behind
    rw [← isText.variableOf_eq, region]
    exact ⟨Nat.le_refl _, by simp only [restOf]; omega⟩
  rw [result.capture_eq room]
  refine (does_zero room.writable restRoom remaining).andThen (sameRest ▸ restCovers []) ?_
  intro _ fresh zeroed moves isZero
  rw [sameRest] at isZero moves
  have zeroedRoom := room.moved moves
  refine (does_writeTag tagged zeroedRoom 1).andThen (Covers.append (.of_subset fun other member =>
    List.mem_singleton.mp member ▸ List.mem_cons_self)) ?_
  intro _ more middle moved has
  have middleRoom := zeroedRoom.moved moved
  rw [isText.variableOf_eq] at isPayload apart
  have stillZero : middle.data.Zero (restOf place type payload) :=
    (moved.evolves.preserves_region zeroedRoom.writable (zeroedRoom.inside rest).end_le
      fun other member => by
        cases List.mem_singleton.mp member
        exact restApart.symm).zero isZero fun _ has => has
  have wordsInside := isText.isArray.covers_words (place.advance payload)
  refine ((does_writeWords isText.isArray (middleRoom.inside isPayload)).imp ?_).covered
    (((restCovers fresh).append).trans ((Covers.one payloadInRest).trans wordsInside))
  intro _ last after ends wrote
  refine ⟨has.survives ends.evolves middleRoom.writable fun other member => ?_, ?_, ?_⟩
  · obtain ⟨_, isPart, inside⟩ := wordsInside other member
    cases List.mem_singleton.mp isPart
    exact apart.inside inside
  · obtain ⟨start, behind, wrote⟩ := wrote
    have earlier := Nat.le_trans (moves.evolves.grown room.writable).used
      (moved.evolves.grown zeroedRoom.writable).used
    exact ⟨start, Nat.le_trans earlier behind, wrote⟩
  · intro position inRest misses
    have inUse := Nat.lt_of_lt_of_le inRest.2 (middleRoom.inside rest).end_le
    exact (ends.evolves.byteAt_of_misses middleRoom.writable inUse misses).trans
      (stillZero position inRest)

/-- A value is written as a result. -/
theorem fills_result (isBuiltin : packer.context.builtinOf? (packer.context.builtin .string) =
      some .string) (hasRole : HasRole document term (.result innerTerm))
    (result : IsResult packer type inner tag zero one payload)
    (writes : Writes document packer same inner innerTerm path value)
    (room : HasRoom state.data (instanceOf place type)) :
    FillsInstance document packer id type place term path value
      (packer.result same type place path value) state := by
  have tagged := result.tagged
  have isTag := tagged.tag_inside place
  obtain ⟨region, isPayload, apart⟩ := tagged.payload_inside List.mem_cons_self room
  obtain ⟨alternative, isInner, -, found⟩ := result.zero.type
  cases isInner
  rw [result.steps_eq room]
  refine (writes zero.2 _ state found (room.inside isPayload)).attemptThen (.one isPayload)
    (IsDecided.result hasRole) ?_
  intro captured fresh middle moves attempted
  have middleRoom := room.moved moves
  have grown := moves.evolves.grown room.writable
  cases captured with
  | none =>
      obtain ⟨meaning, judges, isGood⟩ := attempted
      refine Fills.covered ?_ (Covers.one isTag).append
      refine (does_writeTag tagged middleRoom 0).fits (.success meaning) (.result hasRole judges) ?_
      intro more after moved has isZero wellFormed later preserves
      have payloadRoom := middleRoom.inside isPayload
      have tagInUse := (room.inside isTag).end_le
      have lasts := (isGood (isZero.inside isPayload) wellFormed).carry moved.evolves
        middleRoom.writable payloadRoom.end_le fun other member => by
          cases List.mem_singleton.mp member
          exact ⟨apart.symm, tagInUse⟩
      refine reads_success result ((middleRoom.moved moved).grown preserves.grown)
        (has.preserved preserves fun position inTag => Or.inl
          ⟨inTag.1, Nat.lt_of_lt_of_le inTag.2 isTag.2⟩)
        (lasts later (preserves.mono fun position since =>
          since.mono isPayload (Nat.le_refl _) (Nat.le_refl _)))
  | some violation =>
      obtain ⟨others, judges⟩ := attempted
      obtain ⟨_, rest, _, _⟩ := result.payload_rest isText room
      have covers : Covers [instanceOf place type] [tagOf place, restOf place type payload] := by
        intro region member
        refine ⟨_, List.mem_cons_self, ?_⟩
        simp only [List.mem_cons, List.not_mem_nil, or_false] at member
        rcases member with rfl | rfl
        · exact isTag
        · exact rest
      refine Fills.covered ?_ covers.append
      refine (does_capture isText result middleRoom).fits (.failure violation.message)
        (.result hasRole judges) ?_
      intro more after moved isCaptured _ _ later preserves
      have afterRoom := middleRoom.moved moved
      obtain ⟨isTagged, holds⟩ := isCaptured.lasts isText result afterRoom later
        (preserves.mono fun position since =>
          since.mono ⟨Nat.le_refl _, Nat.le_refl _⟩ grown.used (Nat.le_refl _))
      exact reads_failure isText isBuiltin result (afterRoom.grown preserves.grown) isTagged holds

end Results

end Packer
end PackedJson
