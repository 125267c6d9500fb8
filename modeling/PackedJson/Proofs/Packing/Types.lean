import PackedJson.Packing.Write
import PackedJson.Proofs.Packing.Walks
import PackedJson.Proofs.Schema.Soundness
import PackedJson.Proofs.TextSchema.Compiled

namespace PackedJson
namespace Packer

open TextSchema Heap Layout Builder

/-!
The types of a compiled text schema, as packing finds them.

A settled type shows its record and its fields, each with the type that it is
of.  What they say is what the declaration of the type says, and their
positions are sound.
-/

/-- A packer works with the types of a compiled text schema. -/
structure Packs (packer : Packer) (heap : Heap) (document : Json) (promises : Promises)
    (settled : TypeId -> Prop) : Prop where
  told : heap.ToldBy packer.schema
  serving : Serving heap packer.target packer.context document promises settled

/-- A field does what a member says, and is of some type. -/
structure HasMember (packer : Packer) (member : Member) (typed : Typed) : Prop where
  name : packer.schema.text typed.1.jsonName = .ok member.name
  type : exists inner, member.type = some inner ∧ typed.1.type = some inner ∧
    packer.schema.type inner = .ok typed.2
  flags : typed.1.flags = member.flags
  activation : typed.1.activation = member.activation
  choice : typed.1.choice = member.choice

/-- A type with some fields is what a declaration says. -/
structure Shows (packer : Packer) (id : TypeId) (declaration : Declaration) (type : TypeDef)
    (typed : List Typed) (align : UInt32) : Prop where
  found : packer.schema.type id = .ok type
  sound : packer.schema.IsSound packer.target type typed align
  isAlign : IsAlign align.toNat
  shape : type.shape = declaration.shape
  prototype : type.prototype = declaration.prototype
  argument : type.argument = declaration.argument
  byReference : type.isStoredByReference = true ->
    declaration.builtin = false ∧ declaration.argument = none
  members : List.Forall₂ (HasMember packer) declaration.members typed

section Types

variable {packer : Packer} {heap : Heap} {document : Json} {promises : Promises}
  {settled : TypeId -> Prop} {id : TypeId} {declaration : Declaration}

theorem fieldsAre_iff_getElem {members : List Member} {typed : List Typed}
    (are : FieldsAre heap 0 members (typed.map Prod.fst)) :
    members.length = typed.length ∧ forall index (inMembers : index < members.length)
      (inTyped : index < typed.length), (typed[index]).1.Is heap members[index] index := by
  have length := are.length
  rw [List.length_map] at length
  refine ⟨length.symm, fun index inMembers inTyped => ?_⟩
  have is := are.get inMembers (by rwa [List.length_map])
  rw [List.getElem_map, Nat.zero_add] at is
  exact is

namespace Packs

variable (packs : Packs packer heap document promises settled)

include packs

theorem shows (isSettled : settled id) (declares : Declares heap id declaration) :
    exists type typed align, Shows packer id declaration type typed align := by
  have told := packs.told
  obtain ⟨type, typed, align, found, sound, isAlign⟩ :=
    exists_isSound told packs.serving.layout isSettled
  obtain ⟨record, fields, stored, hasFields, is⟩ := declares
  cases found.symm.trans (told.type stored)
  have inOrder := sound.inOrder.symm.trans (told.fieldsInOrder hasFields)
  have members := is.members
  rw [← show typed.map Prod.fst = Sorted.sortBy FieldDef.orderKey fields from
    Except.ok.inj inOrder] at members
  obtain ⟨length, areMembers⟩ := fieldsAre_iff_getElem members
  refine ⟨type, typed, align, found, sound, isAlign, is.shape, is.prototype, is.argument, ?_, ?_⟩
  · intro byReference
    have declared := is.byReference byReference
    exact ⟨is.builtin.symm.trans declared.builtin, is.argument.symm.trans declared.argument⟩
  · refine List.forall₂_iff_get.mpr ⟨length, fun index inMembers inTyped => ?_⟩
    have field := areMembers index inMembers inTyped
    obtain ⟨inner, isInner, isType⟩ := sound.types _ (List.getElem_mem inTyped)
    have isField : typed[index].1.type = some inner := by
      unfold Schema.fieldType at isInner
      cases isType : typed[index].1.type with
      | none =>
          rw [isType] at isInner
          cases isInner
      | some other =>
          rw [isType] at isInner
          cases isInner
          rfl
    exact ⟨told.text field.name, ⟨inner, field.type.symm.trans isField, isField, isType⟩,
      field.flags, field.activation, field.choice⟩

/-- The parts of a settled type are settled. -/
theorem settled_of_mem (isSettled : settled id) (declares : Declares heap id declaration) :
    forall successor, successor ∈ declaration.successors -> settled successor := by
  obtain ⟨other, isDeclared, closed⟩ := packs.serving.layout.declared id isSettled
  cases declares_inj declares isDeclared
  exact closed

theorem settled_member (isSettled : settled id) (declares : Declares heap id declaration)
    {member : Member} (isMember : member ∈ declaration.members) {inner : TypeId}
    (isType : member.type = some inner) : settled inner :=
  packs.settled_of_mem isSettled declares inner
    (List.mem_append_left _ (List.mem_filterMap.mpr ⟨member, isMember, isType⟩))

theorem settled_argument (isSettled : settled id) (declares : Declares heap id declaration)
    {inner : TypeId} (isArgument : declaration.argument = some inner) : settled inner :=
  packs.settled_of_mem isSettled declares inner
    (List.mem_append_right _ (by rw [isArgument]; exact List.mem_singleton_self inner))

/-- A scalar of the context. -/
theorem scalar {builtin : Builtin} {size : Nat} (member : (builtin, size) ∈ scalarSizes packer.target) :
    exists name, packer.schema.type (packer.context.builtin builtin) =
      .ok (TypeDef.scalar name (UInt32.ofNat size)) := by
  obtain ⟨name, stored, _⟩ := packs.serving.scalars builtin size member
  exact ⟨name, packs.told.type stored⟩

/-! ### Builtins -/

theorem is_iff {first second : Builtin} :
    packer.context.is (packer.context.builtin first) second = true ↔ first = second := by
  unfold Context.is
  rw [beq_iff_eq]
  exact ⟨fun same => (packs.serving.distinct _ _ same).symm, fun same => by rw [same]⟩

theorem builtinOf?_builtin (builtin : Builtin) :
    packer.context.builtinOf? (packer.context.builtin builtin) = some builtin := by
  obtain ⟨type, stored, _⟩ := packs.serving.stored builtin
  have present : (packer.context.builtin builtin).offset.isNull = false := by
    apply Bool.eq_false_iff.mpr
    intro null
    exact packs.told.ne_null stored (Offset.isNull_eq_true_iff.mp null)
  unfold Context.builtinOf?
  rw [present]
  simp only [Bool.false_eq_true, if_false]
  cases found : Builtin.all.find? (fun other =>
      packer.context.is (packer.context.builtin builtin) other) with
  | none =>
      have isNot := List.find?_eq_none.mp found builtin builtin.mem_all
      exact absurd (packs.is_iff.mpr rfl) isNot
  | some other => rw [packs.is_iff.mp (List.find?_some found)]

theorem builtinOf?_of_declares (declares : Declares heap id declaration)
    (plain : declaration.builtin = false) : packer.context.builtinOf? id = none := by
  unfold Context.builtinOf?
  split
  · rfl
  · apply List.find?_eq_none.mpr
    intro builtin _ same
    obtain ⟨type, stored, isBuiltin⟩ := packs.serving.stored builtin
    obtain ⟨other, _, otherStored, _, is⟩ := declares
    have isSame : packer.context.builtin builtin = id := beq_iff_eq.mp same
    rw [isSame] at stored
    cases hasType_inj stored otherStored
    cases isBuiltin.symm.trans (is.builtin.trans plain)

theorem isInstance_eq {type : TypeDef} {builtin : Builtin}
    (prototype : type.prototype = some (packer.context.builtin builtin)) (generic : Builtin) :
    packer.isInstance type generic = decide (builtin = generic) := by
  unfold isInstance
  rw [prototype]
  exact Bool.eq_iff_iff.mpr (packs.is_iff.trans (decide_eq_true_iff).symm)

end Packs

/-! ### Parts of known types -/

theorem size_le_of_mem {target : Target} {builtin : Builtin} {size : Nat}
    (member : (builtin, size) ∈ scalarSizes target) : size ≤ 8 := by
  cases isSize_of_mem member with
  | inl zero => omega
  | inr isAlign => exact isAlign.le_eight

/-- A scalar takes as many bytes as it says. -/
theorem slot_scalar {target : Target} {builtin : Builtin} {size : Nat}
    (member : (builtin, size) ∈ scalarSizes target) (name : TextRef) :
    (TypeDef.scalar name (UInt32.ofNat size)).slot.toNat = size := by
  have small := size_le_of_mem member
  exact UInt32.toNat_ofNat_of_lt' (Nat.lt_of_le_of_lt small (by decide))

theorem HasMember.scalar (packs : Packs packer heap document promises settled) {member : Member}
    {typed : Typed} (has : HasMember packer member typed) {builtin : Builtin} {size : Nat}
    (isType : member.type = some (packer.context.builtin builtin))
    (isScalar : (builtin, size) ∈ scalarSizes packer.target) :
    exists name, typed.2 = TypeDef.scalar name (UInt32.ofNat size) := by
  obtain ⟨inner, isInner, _, found⟩ := has.type
  cases isType.symm.trans isInner
  obtain ⟨name, isFound⟩ := packs.scalar isScalar
  exact ⟨name, Except.ok.inj (found.symm.trans isFound)⟩

theorem HasMember.slot (packs : Packs packer heap document promises settled) {member : Member}
    {typed : Typed} (has : HasMember packer member typed) {builtin : Builtin} {size : Nat}
    (isType : member.type = some (packer.context.builtin builtin))
    (isScalar : (builtin, size) ∈ scalarSizes packer.target) : typed.2.slot.toNat = size := by
  obtain ⟨name, same⟩ := has.scalar packs isType isScalar
  rw [same]
  exact slot_scalar isScalar name

/-! ### Arrays -/

/-- The region of a pointer or a size inside an instance. -/
def wordAt (packer : Packer) (place : Offset) (delta : UInt32) : Arena.Extent :=
  ⟨place.toNat + delta.toNat, packer.target.pointerWidth⟩

/-- The region of an instance. -/
def instanceOf (place : Offset) (type : TypeDef) : Arena.Extent := ⟨place.toNat, type.size.toNat⟩

/-- A type is an array with some layout. -/
structure IsArray (packer : Packer) (type : TypeDef) (layout : Schema.ArrayLayout) : Prop where
  shape : type.shape = .array
  isLayout : packer.schema.arrayLayout type = .ok layout
  inside : forall place : Offset, (packer.wordAt place layout.pointer).Inside (instanceOf place type) ∧
    (packer.wordAt place layout.capacity).Inside (instanceOf place type) ∧
    (packer.wordAt place layout.length).Inside (instanceOf place type)
  apart : forall place : Offset,
    (packer.wordAt place layout.pointer).Apart (packer.wordAt place layout.capacity) ∧
    (packer.wordAt place layout.pointer).Apart (packer.wordAt place layout.length) ∧
    (packer.wordAt place layout.length).Apart (packer.wordAt place layout.capacity)

theorem Shows.isArray (packs : Packs packer heap document promises settled) {type : TypeDef}
    {typed : List Typed} {align : UInt32} (shows : Shows packer id declaration type typed align)
    (shape : declaration.shape = .array)
    (members : declaration.members = packer.context.arrayMembers) :
    exists layout, IsArray packer type layout := by
  have has := shows.members
  rw [members] at has
  obtain ⟨pointer, capacity, length, rfl, isPointer, isCapacity, isLength⟩ := forall₂_three has
  have sound := shows.sound
  have isArray : type.shape = .array := shows.shape.trans shape
  have pointerSlot : pointer.2.slot.toNat = packer.target.pointerWidth :=
    isPointer.slot packs rfl (by simp [scalarSizes])
  have capacitySlot : capacity.2.slot.toNat = packer.target.pointerWidth :=
    isCapacity.slot packs rfl (by simp [scalarSizes])
  have lengthSlot : length.2.slot.toNat = packer.target.pointerWidth :=
    isLength.slot packs rfl (by simp [scalarSizes])
  obtain ⟨pointerFits, others⟩ := List.forall_mem_cons.mp sound.fits
  obtain ⟨capacityFits, last⟩ := List.forall_mem_cons.mp others
  have lengthFits := List.forall_mem_singleton.mp last
  have apart := sound.apart (by rw [isArray]; decide)
  obtain ⟨pointerApart, rest⟩ := List.pairwise_cons.mp apart
  obtain ⟨capacityApart, _⟩ := List.pairwise_cons.mp rest
  have beforeCapacity := pointerApart capacity List.mem_cons_self
  have beforeLength := pointerApart length (List.mem_cons_of_mem _ List.mem_cons_self)
  have sizesApart := capacityApart length List.mem_cons_self
  unfold Typed.Apart at beforeCapacity beforeLength sizesApart
  refine ⟨⟨pointer.1.offset, capacity.1.offset, length.1.offset⟩, isArray, ?_, ?_, ?_⟩
  · unfold Schema.arrayLayout
    rw [sound.inOrder, isArray]
    rfl
  · intro place
    have pointerEnd := pointerFits.2
    have capacityEnd := capacityFits.2
    have lengthEnd := lengthFits.2
    simp only [wordAt, instanceOf, Arena.Extent.Inside]
    omega
  · intro place
    simp only [wordAt, Arena.Extent.Apart]
    omega

/-- The type of texts, which are stored in place. -/
structure IsText (packer : Packer) (type : TypeDef) (layout : Schema.ArrayLayout) : Prop where
  found : packer.schema.type (packer.context.builtin .string) = .ok type
  isArray : IsArray packer type layout
  inline : type.isStoredByReference = false
  slot : type.slot = type.size

theorem Packs.text (packs : Packs packer heap document promises settled)
    (isSettled : settled (packer.context.builtin .string)) :
    exists type layout, IsText packer type layout := by
  obtain ⟨type, typed, align, shows⟩ := packs.shows isSettled packs.serving.text
  obtain ⟨layout, isArray⟩ := shows.isArray packs rfl rfl
  cases shows.sound.stored with
  | inl byReference => cases (shows.byReference byReference.1).1
  | inr inline => exact ⟨type, layout, shows.found, isArray, inline.1, inline.2.1⟩

end Types

end Packer
end PackedJson
