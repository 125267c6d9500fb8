import PackedJson.Proofs.TextSchema.Assembly
import PackedJson.Proofs.TextSchema.Spanning

namespace PackedJson

open Heap Layout

/-!
The types of a target, as the draft of the text schema tells them.

What is found for a reference says what the outline of the reference says, and
it is laid out exactly as the draft has it: instances take the room that
follows from the exact sizes of the parts, and fields are at the places that
follow from them.
-/

namespace TextSchema

/-! ### Marks of types that are laid out -/

/-- The hashes of the names of parts. -/
def Outline.hashes (outline : Outline) : List UInt32 :=
  outline.parts.map fun part => Checksum.nameHash part.name

/-- The marks of a type that is laid out. -/
def Outline.settledFlags (outline : Outline) : TypeFlags :=
  match outline.shape with
  | .struct => outline.flags.set TypeFlags.hasHashCollisions (decide ¬ outline.hashes.Nodup)
  | _ => outline.flags

/-- Marks of a struct that was laid out tell whether hashes are equal. -/
theorem Outline.Marks.eq_settledFlags {outline : Outline} {flags : TypeFlags}
    (marks : outline.Marks flags)
    (told : outline.shape = .struct ->
      (flags.contains TypeFlags.hasHashCollisions = true ↔ ¬ outline.hashes.Nodup)) :
    flags = outline.settledFlags := by
  unfold settledFlags
  cases shape : outline.shape with
  | struct =>
      have mark : flags.contains TypeFlags.hasHashCollisions = decide ¬ outline.hashes.Nodup := by
        rw [Bool.eq_iff_iff, told shape, decide_eq_true_iff]
      rcases marks with same | ⟨_, present, same⟩
      · rw [← same, ← mark, set_contains_self flags]
      · rw [same] at mark ⊢
        rw [← mark, contains_set_self outline.flags present]
  | _ =>
      rcases marks with same | ⟨isStruct, _⟩
      · exact same
      · cases shape.symm.trans isStruct

/-- The names of members are those of the parts. -/
theorem Site.hashes_of_parts {site : Site} {parts : List Part} {members : List Member}
    (finds : List.Forall₂ site.FindsPart parts members) :
    members.map (fun member => Checksum.nameHash member.name) =
      parts.map fun part => Checksum.nameHash part.name := by
  induction finds with
  | nil => rfl
  | cons found _ ih =>
      obtain ⟨id, _, rfl⟩ := found
      exact congrArg _ ih

/-! ### What is found for references -/

/-- A field does what a part says, of a type that is found for that of the part. -/
structure ShowsPart (heap : Heap) (site : Site) (settled : TypeId -> Prop) (part : Part)
    (field : FieldDef) : Prop where
  name : HasText heap field.jsonName part.name
  companion : HasText heap field.companionName part.companion
  hash : field.hash = Checksum.nameHash part.name
  activation : field.activation = part.activation
  choice : field.choice = part.choice
  type : exists inner, field.type = some inner ∧ site.Finds part.type inner ∧ settled inner

/-- A stored type is what the draft says of a reference. -/
structure IsEmbodied (draft : Draft) (heap : Heap) (context : Context) (site : Site)
    (settled : TypeId -> Prop) (ref : Ref) (id : TypeId) (type : TypeDef) (fields : List FieldDef) :
    Prop where
  stored : HasType heap id type
  hasFields : HasFields heap id type fields
  name : HasText heap type.name (draft.nameOf ref)
  shape : type.shape = (draft.outline ref).shape
  prototype : type.prototype = (draft.outline ref).prototype.map context.builtin
  builtin : type.isBuiltin = (draft.outline ref).builtin
  flags : type.flags = (draft.outline ref).settledFlags
  byReference : type.isStoredByReference = draft.isByReference ref
  argument : Option.Rel (fun inner innerId => site.Finds inner innerId ∧ settled innerId)
    (draft.outline ref).argument type.argument
  parts : List.Forall₂ (ShowsPart heap site settled) (draft.outline ref).parts
    (Sorted.sortBy FieldDef.orderKey fields)

/-- Marks that a layout sets do not tell how variables are stored. -/
theorem Outline.Marks.contains_byReference {outline : Outline} {flags : TypeFlags}
    (marks : outline.Marks flags) : flags.contains TypeFlags.storedByReference =
      outline.flags.contains TypeFlags.storedByReference := by
  obtain rfl | ⟨_, present, rfl⟩ := marks
  · rfl
  · exact (contains_set_collisions _ present).2.2

namespace Embodies

variable {draft : Draft} {root ref : Ref} {heap : Heap} {schema : Schema} {target : Target}
  {context : Context} {site : Site} {settled : TypeId -> Prop} {id : TypeId} {type : TypeDef}
  {fields : List FieldDef} {sizeOf : Ref -> Variable}
  (embodies : Embodies draft root heap target context site settled)

include embodies

/-- What is found for a reference, once it is laid out. -/
theorem exists_type (finds : site.Finds ref id) (isSettled : settled id) :
    exists type fields argument members, HasType heap id type ∧ HasFields heap id type fields ∧
      type.flags = (draft.outline ref).settledFlags ∧
      Option.Rel site.Finds (draft.outline ref).argument argument ∧
      List.Forall₂ site.FindsPart (draft.outline ref).parts members ∧
      type.Is heap ⟨(draft.outline ref).shape,
        (draft.outline ref).prototype.map site.context.builtin, argument,
        (draft.outline ref).builtin, false, members⟩ fields := by
  obtain ⟨flags, marks, ⟨type, stored, sameFlags⟩, argument, members, isArgument, found, declares⟩ :=
    embodies.outlined ref id finds
  obtain ⟨declared, fields, declaredStored, hasFields, is⟩ := declares
  cases hasType_inj stored declaredStored
  obtain ⟨laidType, laidFields, slots, align, laidStored, hasLaidFields, arranged⟩ :=
    embodies.layout.laidOut id isSettled
  cases hasType_inj stored laidStored
  cases hasFields_inj hasFields hasLaidFields
  refine ⟨type, fields, argument, members, stored, hasFields, ?_, isArgument, found, is⟩
  have partsFound : List.Forall₂ site.FindsPart (draft.outline ref).parts members := found
  have isFlags : type.flags = flags := sameFlags
  have shape : type.shape = (draft.outline ref).shape := is.shape
  have hashes : (fields.map FieldDef.hash).Perm (draft.outline ref).hashes := by
    rw [Outline.hashes, ← Site.hashes_of_parts partsFound, ← is.members.hashes_eq]
    exact ((Sorted.sortBy_perm FieldDef.orderKey fields).map FieldDef.hash).symm
  rw [isFlags]
  refine marks.eq_settledFlags fun isStruct => ?_
  have mark := arranged.mark (shape.trans isStruct)
  rwa [isFlags, hashes.nodup_iff] at mark

/-- Variables of a type are pointers if the draft says so. -/
theorem isByReference_eq (finds : site.Finds ref id) (stored : HasType heap id type) :
    type.isStoredByReference = draft.isByReference ref := by
  obtain ⟨flags, marks, ⟨_, flaggedStored, same⟩, _⟩ := embodies.outlined ref id finds
  cases hasType_inj stored flaggedStored
  rw [draft.isByReference_eq, ← marks.contains_byReference]
  exact congrArg (FlagSet.contains · TypeFlags.storedByReference) same

/-- What a settled type refers to is settled. -/
theorem settled_of_successor (isSettled : settled id) {declaration : Declaration}
    (declares : Declares heap id declaration) {successor : TypeId}
    (member : successor ∈ declaration.successors) : settled successor := by
  obtain ⟨own, ownDeclares, closed⟩ := embodies.layout.declared id isSettled
  cases declares_inj declares ownDeclares
  exact closed successor member

/-- What is found for a reference is what the draft says of it. -/
theorem exists_isEmbodied (finds : site.Finds ref id) (isSettled : settled id) :
    exists type fields, IsEmbodied draft heap context site settled ref id type fields := by
  obtain ⟨type, fields, argument, members, stored, hasFields, flags, isArgument, found, is⟩ :=
    embodies.exists_type finds isSettled
  have closed (successor : TypeId) :=
    @settled_of_successor _ _ _ _ _ _ _ _ embodies isSettled _ ⟨type, fields, stored, hasFields, is⟩ successor
  have areParts := List.forall₂_iff_get.mp found
  obtain ⟨named, namedStored, name⟩ := embodies.named ref id finds
  cases hasType_inj stored namedStored
  refine ⟨type, fields, stored, hasFields, name, is.shape, ?_, is.builtin, flags,
    embodies.isByReference_eq finds stored, ?_, ?_⟩
  · rw [is.prototype]
    exact congrArg (fun builtins => Option.map builtins _)
      (funext fun builtin => (embodies.builtins builtin).symm)
  · rw [is.argument]
    dsimp only at closed ⊢
    cases outlineArgument : (draft.outline ref).argument with
    | none =>
        rw [outlineArgument] at isArgument
        cases isArgument
        exact .none
    | some inner =>
        rw [outlineArgument] at isArgument
        cases isArgument with
        | some innerFinds =>
            exact .some ⟨innerFinds, closed _ (List.mem_append_right _ (List.mem_singleton_self _))⟩
  · have sameLength : (Sorted.sortBy FieldDef.orderKey fields).length = members.length :=
      is.members.length
    refine List.forall₂_iff_get.mpr ⟨areParts.1.trans sameLength.symm, fun index inParts inFields => ?_⟩
    have inMembers : index < members.length := by omega
    have field := is.members.get inMembers inFields
    obtain ⟨inner, innerFinds, isMember⟩ := areParts.2 index inParts inMembers
    simp only [List.get_eq_getElem] at isMember innerFinds ⊢
    have isType : members[index].type = some inner := congrArg Member.type isMember
    have text := field.name
    have companion := field.companion
    rw [isMember] at text companion
    refine ⟨text, companion, ?_, field.activation.trans (congrArg Member.activation isMember),
      field.choice.trans (congrArg Member.choice isMember), inner, field.type.trans isType, innerFinds,
      closed _ (List.mem_append_left _ ?_)⟩
    · exact field.hash.trans (congrArg (fun member => Checksum.nameHash member.name) isMember)
    · exact List.mem_filterMap.mpr ⟨_, List.getElem_mem inMembers, isType⟩

/-- The argument of an instance is found, and is what the draft says of it. -/
theorem exists_argument {generic : Builtin} {argument : Ref}
    (is : IsEmbodied draft heap context site settled (.applied generic argument) id type fields) :
    exists argumentId argumentType argumentFields, type.argument = some argumentId ∧
      site.Finds argument argumentId ∧ settled argumentId ∧
      IsEmbodied draft heap context site settled argument argumentId argumentType argumentFields := by
  have outlined : (draft.outline (.applied generic argument)).argument = some argument := by
    cases generic <;> rfl
  have isArgument := is.argument
  rw [outlined] at isArgument
  generalize type.argument = found at isArgument
  cases isArgument with
  | @some _ argumentId related =>
      obtain ⟨argumentType, argumentFields, argumentIs⟩ :=
        embodies.exists_isEmbodied related.1 related.2
      exact ⟨argumentId, argumentType, argumentFields, rfl, related.1, related.2, argumentIs⟩

/-- What can be reached in the draft is found, among what can be reached from the
root. -/
theorem exists_reached {arena : Arena} (holds : heap.Holds arena)
    (reached : draft.Reaches root ref) : exists rootId id, context.root = some rootId ∧
      Schema.Reaches ⟨arena⟩ rootId id ∧ site.Finds ref id ∧ settled id := by
  obtain ⟨rootId, isRoot, finds, rootSettled⟩ := embodies.root
  obtain ⟨id, found, reaches⟩ := exists_reaches holds
    (fun ref id found => (embodies.outlined ref id found).imp fun _ is => is.2) finds reached
  exact ⟨rootId, id, isRoot, reaches, found,
    settled_of_reaches holds.told embodies.layout rootSettled reaches⟩

/-- What can be reached in the draft is found, and settled. -/
theorem exists_settled {arena : Arena} (holds : heap.Holds arena)
    (reached : draft.Reaches root ref) : exists id, site.Finds ref id ∧ settled id := by
  obtain ⟨_, id, _, _, found⟩ := embodies.exists_reached holds reached
  exact ⟨id, found⟩

/-- Instances of what is settled have an alignment. -/
theorem exists_instanceAlign (told : heap.ToldBy schema) (isSettled : settled id)
    (stored : HasType heap id type) : exists align, schema.instanceAlign type = .ok align := by
  obtain ⟨found, fields, slots, align, foundStored, hasFields, arranged⟩ :=
    embodies.layout.laidOut id isSettled
  cases hasType_inj stored foundStored
  obtain ⟨answer, isAnswer, _⟩ :=
    Layout.exists_instanceAlign told embodies.layout isSettled stored hasFields arranged
  exact ⟨answer, isAnswer⟩

/-! ### Builtins -/

/-- Two builtins of the context are the same only by name. -/
theorem is_builtin_eq (first second : Builtin) :
    context.is (context.builtin first) second = decide (first = second) := by
  unfold Context.is
  rw [Bool.eq_iff_iff, beq_iff_eq, decide_eq_true_iff]
  exact ⟨fun same => (embodies.different _ _ same).symm, fun same => by rw [same]⟩

/-- Builtins are known as such, and no other types are. -/
theorem builtinOf?_eq (told : heap.ToldBy schema) (finds : site.Finds ref id)
    (stored : HasType heap id type) :
    context.builtinOf? id = match ref with
      | .builtin builtin => some builtin
      | _ => none := by
  have present : id.offset.isNull = false := by
    apply Bool.eq_false_iff.mpr
    exact fun null => told.ne_null stored (Offset.isNull_eq_true_iff.mp null)
  have isBuiltin {builtin : Builtin} (same : context.is id builtin = true) : ref = .builtin builtin := by
    unfold Context.is at same
    rw [beq_iff_eq, embodies.builtins] at same
    exact embodies.apart ref builtin (same ▸ finds)
  unfold Context.builtinOf?
  rw [present]
  simp only [Bool.false_eq_true, if_false]
  cases found : Builtin.all.find? (fun builtin => context.is id builtin) with
  | some builtin =>
      cases isBuiltin (List.find?_some found)
      rfl
  | none =>
      cases ref with
      | builtin builtin =>
          have isNot := List.find?_eq_none.mp found builtin builtin.mem_all
          have same : context.builtin builtin = id :=
            (embodies.builtins builtin).trans (Option.some.inj finds.2)
          exact absurd (by rw [← same, embodies.is_builtin_eq, decide_eq_true rfl]) isNot
      | _ => rfl

/-! ### Places -/

/-- The variables of the fields of a type are those of the parts. -/
theorem slots_eq (exact : draft.Exact target sizeOf)
    (is : IsEmbodied draft heap context site settled ref id type fields)
    {slots : List Variable} (takes : List.Forall₂ (HasVariable heap target settled)
      (Sorted.sortBy FieldDef.orderKey fields) slots) :
    slots = (draft.outline ref).parts.map fun part => sizeOf part.type := by
  have arePairs := List.forall₂_iff_get.mp takes
  have areParts := List.forall₂_iff_get.mp is.parts
  have first := arePairs.1
  have second := areParts.1
  refine List.ext_getElem (by rw [List.length_map]; omega) fun index inSlots inParts => ?_
  rw [List.length_map] at inParts
  have inFields : index < (Sorted.sortBy FieldDef.orderKey fields).length := by omega
  obtain ⟨inner, innerType, isField, innerStored, isSlot, _⟩ := arePairs.2 index inFields inSlots
  obtain ⟨found, isFound, innerFinds, innerSettled⟩ := (areParts.2 index inParts inFields).type
  cases isField.symm.trans isFound
  simp only [List.get_eq_getElem] at isSlot innerFinds
  rw [List.getElem_map, isSlot]
  exact embodies.exactly sizeOf exact _ inner innerType innerFinds innerSettled innerStored

/-- The record of a type says what its variables take. -/
theorem variable_eq (exact : draft.Exact target sizeOf) (finds : site.Finds ref id)
    (isSettled : settled id) (stored : HasType heap id type) :
    (⟨type.slot.toNat, type.align.toNat⟩ : Variable) = sizeOf ref :=
  (LaidOut.ofType (embodies.layout.laidOut id isSettled) stored).symm.trans
    (embodies.exactly sizeOf exact ref id type finds isSettled stored)

/-- Declared types are not among the builtins. -/
theorem builtin_declared {index : Nat} (finds : site.Finds (.declared index) id) :
    (draft.outline (.declared index)).builtin = false := by
  rw [Draft.outline_of_some (List.getElem?_eq_getElem (embodies.bound index id finds))]
  rfl

/-- Builtins are stored inline. -/
theorem inline_of_builtin (finds : site.Finds ref id)
    (isBuiltin : (draft.outline ref).builtin = true) : draft.isByReference ref = false := by
  cases ref with
  | declared index => cases (embodies.builtin_declared finds).symm.trans isBuiltin
  | _ => rfl

/-- Types are laid out as the draft says. -/
theorem exists_room (told : heap.ToldBy schema) (exact : draft.Exact target sizeOf)
    (finds : site.Finds ref id) (isSettled : settled id)
    (is : IsEmbodied draft heap context site settled ref id type fields) :
    exists align, schema.instanceAlign type = .ok align ∧
      (⟨type.size.toNat, align.toNat⟩ : Variable) = draft.room target sizeOf ref ∧
      (Sorted.sortBy FieldDef.orderKey fields).map (fun field => field.offset.toNat) =
        exactPlaces (draft.outline ref).shape
          ((draft.outline ref).parts.map fun part => sizeOf part.type) := by
  obtain ⟨found, foundFields, slots, align, foundStored, foundHas, arranged⟩ :=
    embodies.layout.laidOut id isSettled
  cases hasType_inj is.stored foundStored
  cases hasFields_inj is.hasFields foundHas
  obtain ⟨answer, isAnswer, same⟩ :=
    Layout.exists_instanceAlign told embodies.layout isSettled is.stored is.hasFields arranged
  refine ⟨answer, isAnswer, ?_⟩
  have sameSlots := embodies.slots_eq exact is arranged.takes
  by_cases isScalar : fields = [] ∧ type.isBuiltin = true
  -- A scalar has no fields, and its variables are its instances.
  · obtain ⟨rfl, isBuiltin⟩ := isScalar
    have inline := embodies.inline_of_builtin finds (is.builtin.symm.trans isBuiltin)
    have notPointer : ¬ type.isStoredByReference = true := by
      rw [is.byReference, inline]
      exact Bool.false_ne_true
    have sizes := arranged.sizes
    unfold HasSizes at sizes
    rw [if_neg notPointer] at sizes
    have room := exact ref
    rw [inline, if_neg Bool.false_ne_true] at room
    have noParts := List.forall₂_nil_right_iff.mp is.parts
    refine ⟨?_, ?_⟩
    · rw [← room, ← embodies.variable_eq exact finds isSettled is.stored, sizes.1, sizes.2, same]
    · rw [noParts]
      cases (draft.outline ref).shape <;> rfl
  · have sameAlign := arranged.strictest.resolve_left isScalar
    obtain ⟨sameSize, places⟩ := arranged.exactly.resolve_left isScalar
    have composite (isBuiltin : (draft.outline ref).builtin = true) :
        (draft.outline ref).parts ≠ [] := by
      intro noParts
      have parts := is.parts
      rw [noParts, List.forall₂_nil_left_iff] at parts
      refine isScalar ⟨List.length_eq_zero_iff.mp ?_, is.builtin.trans isBuiltin⟩
      rw [← Sorted.length_sortBy FieldDef.orderKey fields, parts, List.length_nil]
    refine ⟨?_, ?_⟩
    · rw [Draft.room_of_parts _ _ composite, ← sameSlots, ← is.shape, sameSize, same, sameAlign,
        ← align_exactRoom type.shape]
    · rw [places, ← sameSlots, is.shape]

/-- What is found for what can be reached in the draft takes no more room than
the root spans. -/
theorem size_le (told : heap.ToldBy schema) (finds : site.Finds ref id) (isSettled : settled id)
    (stored : HasType heap id type) (reached : draft.Reaches root ref) {bound : Nat}
    (spans : draft.Spans root bound) : type.size.toNat ≤ bound := by
  obtain ⟨found, fields, is⟩ := embodies.exists_isEmbodied finds isSettled
  cases hasType_inj stored is.stored
  obtain ⟨sizeOf, exact⟩ := embodies.complete.exists_exact target
  obtain ⟨_, _, sameRoom, _⟩ := embodies.exists_room told exact finds isSettled is
  have size := spans.2 draft (.refl draft) target sizeOf (embodies.complete.measures exact) ref
    reached
  rwa [← sameRoom] at size

/-- What can be reached in the draft is found in the schema, and takes no more
room than the root spans. -/
theorem exists_reachedType {arena : Arena} (holds : heap.Holds arena)
    (reached : draft.Reaches root ref) {bound : Nat} (spans : draft.Spans root bound) :
    exists rootId id type fields, Schema.root ⟨arena⟩ context = .ok rootId ∧
      Schema.Reaches ⟨arena⟩ rootId id ∧ Schema.type ⟨arena⟩ id = .ok type ∧
      IsEmbodied draft heap context site settled ref id type fields ∧ type.size.toNat ≤ bound := by
  obtain ⟨rootId, id, isRoot, reaches, finds, isSettled⟩ := embodies.exists_reached holds reached
  obtain ⟨type, fields, is⟩ := embodies.exists_isEmbodied finds isSettled
  refine ⟨rootId, id, type, fields, ?_, reaches, holds.told.type is.stored, is,
    embodies.size_le holds.told finds isSettled is.stored reached spans⟩
  unfold Schema.root
  rw [isRoot]

/-- What can be reached from the root takes no more room than the root spans. -/
theorem size_le_of_reaches {arena : Arena} (holds : heap.Holds arena) {rootId : TypeId}
    (isRoot : Schema.root ⟨arena⟩ context = .ok rootId)
    (reaches : Schema.Reaches ⟨arena⟩ rootId id) (found : Schema.type ⟨arena⟩ id = .ok type)
    {bound : Nat} (spans : draft.Spans root bound) : type.size.toNat ≤ bound := by
  obtain ⟨compiled, isCompiled, rootFinds, rootSettled⟩ := embodies.root
  unfold Schema.root at isRoot
  rw [isCompiled] at isRoot
  cases isRoot
  obtain ⟨ref, reached, finds⟩ := TextSchema.exists_reached holds
    (fun ref id finds => (embodies.outlined ref id finds).imp fun _ is => is.2) rootFinds reaches
  have isSettled := settled_of_reaches holds.told embodies.layout rootSettled reaches
  obtain ⟨other, fields, is⟩ := embodies.exists_isEmbodied finds isSettled
  cases found.symm.trans (holds.told.type is.stored)
  exact embodies.size_le holds.told finds isSettled is.stored reached spans

end Embodies

end TextSchema
end PackedJson
