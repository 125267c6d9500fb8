import Mathlib.Data.List.Perm.Basic
import PackedJson.Proofs.Schema.Arranging

namespace PackedJson

/-!
What the layout of a type guarantees, in terms of what a schema answers.

Positions, sizes and alignments are natural numbers here, so that no sum can
wrap around.
-/

/-- The types that can be reached from a type. -/
inductive Schema.Reaches (schema : Schema) (root : TypeId) : TypeId -> Prop where
  | root : Reaches schema root root
  | next {id successor : TypeId} {successors : List TypeId} : Reaches schema root id ->
      schema.successors id = .ok successors -> successor ∈ successors ->
      Reaches schema root successor

/-- A field is of a type. -/
def Schema.FieldOf (schema : Schema) (owner : TypeDef) (field : FieldDef) (type : TypeDef) : Prop :=
  exists id, schema.fieldType owner field = .ok id ∧ schema.type id = .ok type

namespace Layout

/-- A field together with the type that it is of. -/
abbrev Typed := FieldDef × TypeDef

/-- A variable at the position of a field is aligned, and lies inside of an
instance. -/
def Typed.Fits (typed : Typed) (size : Nat) : Prop :=
  typed.2.align.toNat ∣ typed.1.offset.toNat ∧
    typed.1.offset.toNat + typed.2.slot.toNat ≤ size

/-- Two variables have no byte in common. -/
def Typed.Apart (first second : Typed) : Prop :=
  first.1.offset.toNat + first.2.slot.toNat ≤ second.1.offset.toNat ∨
    second.1.offset.toNat + second.2.slot.toNat ≤ first.1.offset.toNat

/-- The tag of a variant is at the start, and all alternatives are at one place
behind it. -/
def Tagged : List Typed -> Prop
  | [] => False
  | tag :: alternatives => tag.1.offset = 0 ∧ exists place, tag.2.slot.toNat ≤ place ∧
      forall alternative, alternative ∈ alternatives -> alternative.1.offset.toNat = place ∧
        alternative.2.align.toNat ∣ place

/-- The variables of a type, whose instances have some alignment. -/
def HasVariables (target : Target) (type : TypeDef) (align : Nat) : Prop :=
  type.isStoredByReference = true ∧ type.slot.toNat = target.pointerWidth ∧
    type.align.toNat = target.pointerWidth ∨
  type.isStoredByReference = false ∧ type.slot = type.size ∧ type.align.toNat = align

end Layout

open Layout in
/-- The sizes and positions of a type fit together. -/
structure Schema.IsSound (schema : Schema) (target : Target) (type : TypeDef)
    (fields : List Typed) (align : UInt32) : Prop where
  inOrder : schema.fieldsInOrder type = .ok (fields.map Prod.fst)
  types : forall field, field ∈ fields -> schema.FieldOf type field.1 field.2
  instanceAlign : schema.instanceAlign type = .ok align
  multiple : align.toNat ∣ type.size.toNat
  stored : HasVariables target type align.toNat
  fits : forall field, field ∈ fields -> field.Fits type.size.toNat
  apart : type.shape ≠ .variant -> fields.Pairwise Typed.Apart
  tagged : type.shape = .variant -> Tagged fields

namespace Layout

open Heap

section Positions

variable {entries : List Entry} {position stop : Nat}

theorem InSequence.start_le (inSequence : InSequence entries position stop) : position ≤ stop := by
  induction entries generalizing position with
  | nil => exact inSequence
  | cons head rest ih =>
      obtain ⟨above, _, others⟩ := inSequence
      have after := ih others
      omega

theorem InSequence.bounds (inSequence : InSequence entries position stop) :
    forall entry, entry ∈ entries -> position ≤ entry.1.offset.toNat ∧
      entry.2.align ∣ entry.1.offset.toNat ∧ entry.1.offset.toNat + entry.2.size ≤ stop := by
  induction entries generalizing position with
  | nil => nofun
  | cons head rest ih =>
      obtain ⟨above, aligned, others⟩ := inSequence
      refine List.forall_mem_cons.mpr ⟨⟨above, aligned, others.start_le⟩, fun entry member => ?_⟩
      obtain ⟨after, entryAligned, below⟩ := ih others entry member
      exact ⟨by omega, entryAligned, below⟩

theorem InSequence.pairwise (inSequence : InSequence entries position stop) :
    entries.Pairwise fun first second =>
      first.1.offset.toNat + first.2.size ≤ second.1.offset.toNat := by
  induction entries generalizing position with
  | nil => exact List.Pairwise.nil
  | cons head rest ih =>
      obtain ⟨_, _, others⟩ := inSequence
      exact List.pairwise_cons.mpr ⟨fun entry member => (others.bounds entry member).1, ih others⟩

theorem greatestAlign_perm {slots others : List Variable} (perm : slots.Perm others) (least : Nat) :
    greatestAlign slots least = greatestAlign others least := by
  induction perm generalizing least with
  | nil => rfl
  | cons slot _ ih => exact ih _
  | swap first second rest =>
      change greatestAlign rest (max (max least second.align) first.align) =
        greatestAlign rest (max (max least first.align) second.align)
      rw [Nat.max_assoc, Nat.max_comm second.align, ← Nat.max_assoc]
  | trans _ _ first second => exact (first least).trans (second least)

end Positions

/-- The variable that a field of a type takes. -/
def Typed.entry (typed : Typed) : Entry :=
  (typed.1, ⟨typed.2.slot.toNat, typed.2.align.toNat⟩)

section Types

variable {heap : Heap} {schema : Schema} {target : Target} {settled : TypeId -> Prop} {id : TypeId}
  {type : TypeDef}

/-- The record of a type that is laid out says what its variables take. -/
theorem LaidOut.ofType (laidOut : LaidOut heap target settled id) (stored : HasType heap id type) :
    Variable.ofType target type = ⟨type.slot.toNat, type.align.toNat⟩ := by
  have isAlign := LaidOut.isAlign laidOut stored
  obtain ⟨other, fields, slots, align, otherStored, _, arranged⟩ := laidOut
  cases hasType_inj stored otherStored
  have sizes := arranged.sizes
  have positive := arranged.isAlign.pos
  unfold HasSizes at sizes
  unfold Variable.ofType
  split
  next byReference =>
    rw [if_pos byReference] at sizes
    rw [sizes.1, sizes.2]
  next inline =>
    rw [if_neg inline] at sizes
    have unit : (1 : UInt32).toNat = 1 := rfl
    rw [UInt32.toNat_max, sizes.2, unit, Nat.max_eq_left positive]

variable (told : heap.ToldBy schema) (layout : IsLayout heap target settled)

include told layout in
theorem typed_of_hasVariable {field : FieldDef} {slot : Variable} {inner : TypeId}
    (takes : HasVariable heap target settled field slot) (isField : field.type = some inner)
    (isSettled : settled inner) :
    exists innerType, (forall owner, schema.FieldOf owner field innerType) ∧
      slot = ⟨innerType.slot.toNat, innerType.align.toNat⟩ := by
  obtain ⟨found, innerType, isFound, stored, isSlot, _, _⟩ := takes
  cases isField.symm.trans isFound
  refine ⟨innerType, fun owner => ⟨inner, fieldType_of owner isField, told.type stored⟩, ?_⟩
  rw [isSlot, LaidOut.ofType (layout.laidOut inner isSettled) stored]

include told layout in
theorem exists_typed {fields : List FieldDef} {slots : List Variable}
    (takes : List.Forall₂ (HasVariable heap target settled) fields slots)
    (areSettled : forall field, field ∈ fields -> exists inner, field.type = some inner ∧
      settled inner) :
    exists typed : List Typed, typed.map Prod.fst = fields ∧
      fields.zip slots = typed.map Typed.entry ∧ slots = typed.map (fun one => one.entry.2) ∧
      forall one, one ∈ typed -> forall owner, schema.FieldOf owner one.1 one.2 := by
  induction takes with
  | nil => exact ⟨[], rfl, rfl, rfl, nofun⟩
  | @cons field slot rest others take _ ih =>
      obtain ⟨⟨inner, isField, isSettled⟩, othersSettled⟩ := List.forall_mem_cons.mp areSettled
      obtain ⟨innerType, fieldOf, isSlot⟩ :=
        typed_of_hasVariable told layout take isField isSettled
      obtain ⟨typed, sameFields, sameEntries, sameSlots, fieldsOf⟩ := ih othersSettled
      refine ⟨(field, innerType) :: typed, congrArg _ sameFields, ?_, ?_,
        List.forall_mem_cons.mpr ⟨fieldOf, fieldsOf⟩⟩
      · rw [List.zip_cons_cons, sameEntries, isSlot]
        rfl
      · rw [List.map_cons, ← sameSlots, isSlot]
        rfl

/-- The greatest alignment as a schema computes it. -/
theorem greatestAlign_eq {owner : TypeDef} {typed : List Typed}
    (fieldsOf : forall one, one ∈ typed -> schema.FieldOf owner one.1 one.2) (least : UInt32) :
    exists align, schema.greatestAlign owner (typed.map Prod.fst) least = .ok align ∧
      align.toNat = greatestAlign (typed.map fun one => one.entry.2) least.toNat := by
  induction typed generalizing least with
  | nil => exact ⟨least, rfl, rfl⟩
  | cons one rest ih =>
      obtain ⟨⟨inner, isField, isType⟩, others⟩ := List.forall_mem_cons.mp fieldsOf
      obtain ⟨align, isAlign, same⟩ := ih others (max least one.2.align)
      refine ⟨align, ?_, ?_⟩
      · rw [List.map_cons]
        unfold Schema.greatestAlign
        simp only [isField, isType, bind, Except.bind]
        exact isAlign
      · rw [same, UInt32.toNat_max]
        rfl

theorem placed_of_shape {shape : Shape} {entries : List Entry} {stop : Nat}
    (placed : Placed shape entries stop) (notVariant : shape ≠ .variant) :
    InSequence entries 0 stop := by
  cases shape with
  | variant => exact absurd rfl notVariant
  | _ => exact placed

theorem fits_of_placed {shape : Shape} {typed : List Typed} {stop : Nat}
    (placed : Placed shape (typed.map Typed.entry) stop) :
    forall one, one ∈ typed -> one.Fits stop := by
  by_cases isVariant : shape = .variant
  · subst isVariant
    cases typed with
    | nil => nofun
    | cons tag alternatives =>
        obtain ⟨atStart, below, place, _, others⟩ := placed
        have zero : tag.1.offset.toNat = 0 := atStart
        have fits : tag.2.slot.toNat ≤ stop := below
        refine List.forall_mem_cons.mpr ⟨⟨zero ▸ Nat.dvd_zero _, by omega⟩, fun one member => ?_⟩
        obtain ⟨same, aligned, inside⟩ := others one.entry (List.mem_map_of_mem member)
        have place : one.1.offset.toNat = place := same
        exact ⟨place ▸ aligned, place ▸ inside⟩
  · intro one member
    obtain ⟨_, aligned, inside⟩ :=
      (placed_of_shape placed isVariant).bounds one.entry (List.mem_map_of_mem member)
    exact ⟨aligned, inside⟩

theorem tagged_of_placed {typed : List Typed} {stop : Nat}
    (placed : Placed .variant (typed.map Typed.entry) stop) : Tagged typed := by
  cases typed with
  | nil => exact placed
  | cons tag alternatives =>
      obtain ⟨atStart, _, place, behind, others⟩ := placed
      refine ⟨UInt32.toNat_inj.mp atStart, place, behind, fun one member => ?_⟩
      obtain ⟨same, aligned, _⟩ := others one.entry (List.mem_map_of_mem member)
      exact ⟨same, aligned⟩

include layout in
/-- The types of the fields of a settled type are settled. -/
theorem settled_field (isSettled : settled id) (stored : HasType heap id type)
    {fields : List FieldDef} (hasFields : HasFields heap id type fields) {field : FieldDef}
    (member : field ∈ fields) {inner : TypeId} (isField : field.type = some inner) :
    settled inner := by
  obtain ⟨declaration, ⟨found, foundFields, foundStored, foundHas, is⟩, closed⟩ :=
    layout.declared id isSettled
  cases hasType_inj stored foundStored
  cases hasFields_inj hasFields foundHas
  have inOrder := (Sorted.sortBy_perm FieldDef.orderKey fields).mem_iff.mpr member
  obtain ⟨index, bound, rfl⟩ := List.getElem_of_mem inOrder
  have inMembers : index < declaration.members.length := is.members.length ▸ bound
  refine closed inner (List.mem_append_left _ (List.mem_filterMap.mpr
    ⟨_, List.getElem_mem inMembers, ?_⟩))
  exact (is.members.get inMembers bound).type.symm.trans isField

include told layout in
/-- The fields of a settled type, in any order, with the types that they are of. -/
theorem exists_typed_of_settled (isSettled : settled id) (stored : HasType heap id type)
    {fields some : List FieldDef} (hasFields : HasFields heap id type fields)
    (included : forall field, field ∈ some -> field ∈ fields) {slots : List Variable}
    (takes : List.Forall₂ (HasVariable heap target settled) some slots) :
    exists typed : List Typed, typed.map Prod.fst = some ∧
      some.zip slots = typed.map Typed.entry ∧ slots = typed.map (fun one => one.entry.2) ∧
      forall one, one ∈ typed -> forall owner, schema.FieldOf owner one.1 one.2 := by
  refine exists_typed told layout takes fun field member => ?_
  obtain ⟨index, bound, rfl⟩ := List.getElem_of_mem member
  have parts := List.forall₂_iff_get.mp takes
  have inSlots : index < slots.length := parts.1 ▸ bound
  obtain ⟨inner, _, isField, _⟩ := parts.2 index bound inSlots
  exact ⟨inner, isField, settled_field layout isSettled stored hasFields (included _ member) isField⟩

include told layout in
/-- A schema finds the alignment of instances, however variables are stored. -/
theorem exists_instanceAlign (isSettled : settled id) (stored : HasType heap id type)
    {fields : List FieldDef} (hasFields : HasFields heap id type fields) {slots : List Variable}
    {align : Nat} (arranged : IsArranged heap target settled type fields slots align) :
    exists answer, schema.instanceAlign type = .ok answer ∧ answer.toNat = align := by
  unfold Schema.instanceAlign
  split
  next byReference =>
    -- a schema looks at the fields in the order of their storage
    obtain ⟨inStorage, storedTakes, perm⟩ := List.perm_comp_forall₂
      (Sorted.sortBy_perm FieldDef.orderKey fields).symm arranged.takes
    obtain ⟨typed, sameStorage, _, sameStored, storedOf⟩ :=
      exists_typed_of_settled told layout isSettled stored hasFields (fun _ member => member)
        storedTakes
    obtain ⟨answer, isAnswer, same⟩ := greatestAlign_eq (fun one member =>
      storedOf one member type) 1
    refine ⟨answer, ?_, ?_⟩
    · rw [told.fields hasFields, ← sameStorage]
      exact isAnswer
    · obtain ⟨declaration, ⟨found, _, foundStored, _, is⟩, _⟩ := layout.declared id isSettled
      cases hasType_inj stored foundStored
      have declared := is.byReference byReference
      rw [same, ← sameStored, UInt32.toNat_one, greatestAlign_perm perm]
      refine (arranged.strictest.resolve_left ?_).symm
      rintro ⟨_, isBuiltin⟩
      cases isBuiltin.symm.trans declared.builtin
  next inline =>
    have sizes := arranged.sizes
    have positive := arranged.isAlign.pos
    unfold HasSizes at sizes
    rw [if_neg inline] at sizes
    refine ⟨max type.align 1, rfl, ?_⟩
    rw [UInt32.toNat_max, sizes.2, UInt32.toNat_one, Nat.max_eq_left positive]

include told layout in
/-- Types that are laid out are sound. -/
theorem exists_isSound (isSettled : settled id) :
    exists type typed align, schema.type id = .ok type ∧
      schema.IsSound target type typed align ∧ IsAlign align.toNat := by
  obtain ⟨type, fields, slots, align, stored, hasFields, arranged⟩ := layout.laidOut id isSettled
  obtain ⟨typed, sameFields, sameEntries, sameSlots, fieldsOf⟩ :=
    exists_typed_of_settled told layout isSettled stored hasFields
      (fun _ => (Sorted.sortBy_perm FieldDef.orderKey fields).mem_iff.mp) arranged.takes
  have placed := arranged.placed
  rw [sameEntries] at placed
  obtain ⟨answer, isAnswer, same⟩ :=
    exists_instanceAlign told layout isSettled stored hasFields arranged
  refine ⟨type, typed, answer, told.type stored, ⟨?_, fun one member => fieldsOf one member type,
    isAnswer, same ▸ arranged.multiple, ?_, fits_of_placed placed, fun notVariant => ?_,
    fun isVariant => tagged_of_placed (isVariant ▸ placed)⟩, same ▸ arranged.isAlign⟩
  · rw [sameFields]
    exact told.fieldsInOrder hasFields
  · have sizes := arranged.sizes
    unfold HasSizes at sizes
    split at sizes
    next byReference => exact Or.inl ⟨byReference, sizes⟩
    next inline =>
      exact Or.inr ⟨Bool.eq_false_iff.mpr inline, UInt32.toNat_inj.mp sizes.1, same ▸ sizes.2⟩
  · refine (List.pairwise_map.mp (placed_of_shape placed notVariant).pairwise).imp ?_
    exact fun before => Or.inl before

include told in
/-- What a type refers to, as a schema answers it. -/
theorem successors_eq {declaration : Declaration} (declares : Declares heap id declaration) :
    schema.successors id = .ok declaration.successors := by
  obtain ⟨type, fields, stored, hasFields, is⟩ := declares
  unfold Schema.successors Declaration.successors
  rw [told.type stored]
  change (do
    let fields ← schema.fieldsInOrder type
    return fields.filterMap FieldDef.type ++ type.argument.toList : Except SchemaError _) = _
  rw [told.fieldsInOrder hasFields, is.argument, ← is.members.types_eq]
  rfl

include told layout in
/-- No type that can be reached from a settled one is left out. -/
theorem settled_of_reaches {root : TypeId} (rootSettled : settled root)
    (reaches : schema.Reaches root id) : settled id := by
  induction reaches with
  | root => exact rootSettled
  | next _ answer member ih =>
      obtain ⟨declaration, declares, closed⟩ := layout.declared _ ih
      rw [successors_eq told declares] at answer
      cases answer
      exact closed _ member

end Types

end Layout
end PackedJson
