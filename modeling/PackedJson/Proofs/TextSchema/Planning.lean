import Mathlib.Order.WellFounded
import PackedJson.Proofs.Schema.Soundness
import PackedJson.Proofs.TextSchema.Compiled
import PackedJson.Proofs.TextSchema.Sizing

namespace PackedJson
namespace TextSchema

open Heap Builder Layout

/-!
Laying out what was drafted.

The types of a target that have been compiled can be laid out, unless one of
them is too large: by their outlines they refer to one another only, and as
the draft has no type that contains itself inline, neither has the heap.
-/

/-! ### What outlines refer to -/

section Outlines

variable {draft : Draft} {ref : Ref}

/-- Builtins refer to builtins. -/
theorem builtin_of_successor {builtin : Builtin} {successor : Ref}
    (member : successor ∈ (builtinOutline builtin).successors) :
    exists other, successor = .builtin other := by
  cases builtin with
  | string =>
      have isPart : successor ∈
        [Ref.builtin .pointer, .builtin .size, .builtin .size, .builtin .char] := member
      simp only [List.mem_cons, List.not_mem_nil, or_false] at isPart
      rcases isPart with rfl | rfl | rfl | rfl <;> exact ⟨_, rfl⟩
  | _ => cases member

/-- The argument of an instance that is no array and no map is the type of one
of its parts. -/
theorem argument_mem_parts {argument : Ref} (isArgument : (draft.outline ref).argument = some argument)
    (shape : (draft.outline ref).shape = .struct ∨ (draft.outline ref).shape = .variant) :
    argument ∈ (draft.outline ref).parts.map Part.type := by
  cases ref with
  | builtin builtin =>
      cases builtin with
      | string => rcases shape with isShape | isShape <;> cases isShape
      | _ => cases isArgument
  | declared index =>
      cases found : draft.sketches[index]? with
      | none =>
          rw [Draft.outline_of_none found] at isArgument
          cases isArgument
      | some sketch =>
          rw [Draft.outline_of_some found] at isArgument
          cases isArgument
  | applied generic inner =>
      cases generic with
      | option =>
          cases isArgument
          exact List.mem_cons_of_mem _ (List.mem_cons_of_mem _ List.mem_cons_self)
      | result =>
          cases isArgument
          exact List.mem_cons_of_mem _ List.mem_cons_self
      | _ => rcases shape with isShape | isShape <;> cases isShape

/-- Variants have a tag and alternatives. -/
theorem two_le_parts {root : Ref} (complete : draft.Complete root)
    (isVariant : (draft.outline ref).shape = .variant) : 2 ≤ (draft.outline ref).parts.length := by
  cases ref with
  | builtin builtin => cases builtin <;> cases isVariant
  | declared index =>
      by_cases bound : index < draft.sketches.length
      · obtain ⟨sketch, parts, isSketch, hasParts, tagged, _⟩ := complete.settles index bound
        rw [Draft.outline_of_some isSketch] at isVariant ⊢
        obtain ⟨first, others, rfl⟩ := tagged isVariant
        rw [Sketch.outline, hasParts]
        exact Nat.le_add_left 2 others.length
      · rw [Draft.outline_of_none (List.getElem?_eq_none (Nat.le_of_not_lt bound))] at isVariant
        cases isVariant
  | applied generic argument =>
      cases generic with
      | option => exact Nat.le_succ 2
      | result => exact Nat.le_succ 2
      | _ => cases isVariant

/-- Only scalars are builtins without parts. -/
theorem scalar_of_outline (isBuiltin : (draft.outline ref).builtin = true)
    (noParts : (draft.outline ref).parts = []) (proper : ref.Proper)
    (known : forall index, ref = .declared index -> index < draft.sketches.length) :
    exists builtin, ref = .builtin builtin ∧ builtin ∈ scalarBuiltins := by
  cases ref with
  | builtin builtin =>
      cases List.mem_cons.mp (show builtin ∈ Builtin.string :: scalarBuiltins from proper) with
      | inl isString =>
          cases isString
          cases noParts
      | inr isScalar => exact ⟨builtin, rfl, isScalar⟩
  | declared index =>
      rw [Draft.outline_of_some (List.getElem?_eq_getElem (known index rfl))] at isBuiltin
      cases isBuiltin
  | applied generic argument =>
      cases generic <;> cases isBuiltin

end Outlines

/-- The types that members have are found for the types of the parts. -/
theorem Site.types_of_parts {site : Site} {parts : List Part} {members : List Member}
    (finds : List.Forall₂ site.FindsPart parts members) :
    List.Forall₂ site.Finds (parts.map Part.type) (members.filterMap Member.type) := by
  induction finds with
  | nil => exact .nil
  | cons found _ ih =>
      obtain ⟨id, isFound, rfl⟩ := found
      exact .cons isFound ih

/-- What a type refers to is found for what its outline refers to. -/
theorem IsOutlined.successors {heap : Heap} {site : Site} {id : TypeId} {outline : Outline}
    (is : IsOutlined heap site id outline) : exists declaration, Declares heap id declaration ∧
      List.Forall₂ site.Finds outline.successors declaration.successors := by
  obtain ⟨_, argument, members, isArgument, finds, declares⟩ := is
  refine ⟨_, declares, List.rel_append (Site.types_of_parts finds) ?_⟩
  generalize outline.argument = wanted at isArgument
  cases isArgument with
  | none => exact .nil
  | some found => exact .cons found .nil

/-- What can be reached from a stored type is found for what can be reached in
the draft. -/
theorem exists_reached {draft : Draft} {heap : Heap} {arena : Arena} {site : Site} {root : Ref}
    {rootId id : TypeId} (holds : heap.Holds arena)
    (outlined : forall ref id, site.Finds ref id ->
      exists flags, IsOutlined heap site id ((draft.outline ref).withFlags flags))
    (finds : site.Finds root rootId) (reaches : Schema.Reaches ⟨arena⟩ rootId id) :
    exists ref, draft.Reaches root ref ∧ site.Finds ref id := by
  induction reaches with
  | root => exact ⟨root, .root, finds⟩
  | next _ known member ih =>
      obtain ⟨ref, reached, found⟩ := ih
      obtain ⟨flags, is⟩ := outlined ref _ found
      obtain ⟨declaration, declares, related⟩ := is.successors
      cases (successors_eq holds.told declares).symm.trans known
      obtain ⟨index, bound, rfl⟩ := List.getElem_of_mem member
      have parts := List.forall₂_iff_get.mp related
      have inRefs : index < (draft.outline ref).successors.length :=
        parts.1.symm ▸ bound
      exact ⟨_, reached.next (List.get_mem _ ⟨index, inRefs⟩), parts.2 index inRefs bound⟩

/-- What can be reached in the draft is found among what can be reached from a
stored type. -/
theorem exists_reaches {draft : Draft} {heap : Heap} {arena : Arena} {site : Site}
    {root ref : Ref} {rootId : TypeId} (holds : heap.Holds arena)
    (outlined : forall ref id, site.Finds ref id ->
      exists flags, IsOutlined heap site id ((draft.outline ref).withFlags flags))
    (finds : site.Finds root rootId) (reached : draft.Reaches root ref) :
    exists id, site.Finds ref id ∧ Schema.Reaches ⟨arena⟩ rootId id := by
  induction reached with
  | root => exact ⟨rootId, finds, .root⟩
  | next _ member ih =>
      obtain ⟨id, found, reaches⟩ := ih
      obtain ⟨flags, is⟩ := outlined _ id found
      obtain ⟨declaration, declares, related⟩ := is.successors
      obtain ⟨index, bound, rfl⟩ := List.getElem_of_mem member
      have parts := List.forall₂_iff_get.mp related
      have inTypes : index < declaration.successors.length := parts.1 ▸ bound
      exact ⟨_, parts.2 index bound inTypes,
        reaches.next (successors_eq holds.told declares) (List.get_mem _ ⟨index, inTypes⟩)⟩

/-! ### The plan of a target -/

/-- What a type contains inline is found for what the outline of the type contains inline. -/
theorem IsOutlined.inlines {draft : Draft} (plan : Plan) {site : Site} {ref : Ref} {flags : TypeFlags}
    {outer inner : TypeId}
    (outlined : IsOutlined plan.start site outer ((draft.outline ref).withFlags flags))
    (byReference : forall part id type, site.Finds part id -> HasType plan.start id type ->
      type.isStoredByReference = draft.isByReference part)
    (inlines : plan.Inlines outer inner) : exists part, site.Finds part inner ∧ draft.Inlines part ref := by
  obtain ⟨declaration, type, declares, member, stored, unmarked⟩ := inlines
  obtain ⟨_, argument, members, _, found, ownDeclares⟩ := outlined
  cases declares_inj declares ownDeclares
  obtain ⟨index, bound, rfl⟩ := List.getElem_of_mem member
  have parts := List.forall₂_iff_get.mp (Site.types_of_parts found)
  have inParts : index < ((draft.outline ref).parts.map Part.type).length := parts.1 ▸ bound
  have partFinds := parts.2 index inParts bound
  exact ⟨_, partFinds, List.get_mem _ _, (byReference _ _ _ partFinds stored).symm.trans unmarked⟩

/-- A relation that only follows what is contained inline has no cycles. -/
theorem Draft.Complete.irreflexive {draft : Draft} {root : Ref} {site : Site}
    (complete : draft.Complete root)
    (distinct : forall ref other id, site.Finds ref id -> site.Finds other id -> ref = other)
    {relation : TypeId -> TypeId -> Prop}
    (steps : forall ref outer inner, site.Finds ref outer -> relation outer inner ->
      exists part, site.Finds part inner ∧ draft.Inlines part ref) {ref : Ref} {id : TypeId}
    (finds : site.Finds ref id) : ¬ Relation.TransGen relation id id := by
  intro cycle
  have path {inner : TypeId} (path : Relation.TransGen relation id inner) :
      exists part, site.Finds part inner ∧ Relation.TransGen draft.Inlines part ref := by
    induction path with
    | single related =>
        obtain ⟨part, found, inline⟩ := steps ref _ _ finds related
        exact ⟨part, found, .single inline⟩
    | tail _ related ih =>
        obtain ⟨middle, middleFound, before⟩ := ih
        obtain ⟨part, found, inline⟩ := steps middle _ _ middleFound related
        exact ⟨part, found, .head inline before⟩
  obtain ⟨part, found, loop⟩ := path cycle
  rw [distinct part ref id found finds] at loop
  exact complete.wellFounded.transGen.irrefl.irrefl ref loop

section Plans

variable {setting : Setting} {draft : Draft} {ids : List TypeId} {heap : Heap} {state : State}
  {root : Ref} {rootId : TypeId}

/-- The types of a target that are to be laid out: what can be reached from
the root, and builtins. -/
def targetPlan (setting : Setting) (ids : List TypeId) (heap : Heap) (state : State)
    (rootId : TypeId) : Plan where
  old := setting.old
  start := heap
  target := setting.target
  types id := exists ref, (siteOf setting ids state).Finds ref id ∧
    (Schema.Reaches ⟨state.builder.arena⟩ rootId id ∨ exists builtin, ref = .builtin builtin)

variable (realizes : Realizes setting draft ids heap state)

include realizes

/-- What a type that is to be laid out refers to is to be laid out, too. -/
theorem Realizes.types_successor {id : TypeId} {declaration : Declaration} {successor : TypeId}
    (isType : (targetPlan setting ids heap state rootId).types id)
    (declares : Declares heap id declaration) (member : successor ∈ declaration.successors) :
    (targetPlan setting ids heap state rootId).types successor := by
  obtain ⟨ref, finds, reached⟩ := isType
  obtain ⟨own, ownDeclares, related⟩ := (realizes.isOutlined finds).successors
  cases declares_inj declares ownDeclares
  obtain ⟨index, bound, rfl⟩ := List.getElem_of_mem member
  have parts := List.forall₂_iff_get.mp related
  have inRefs : index < (draft.outline ref).successors.length := parts.1 ▸ bound
  refine ⟨_, parts.2 index inRefs bound, ?_⟩
  cases reached with
  | inl reaches =>
      exact .inl (.next reaches (successors_eq realizes.tabled.holds.told declares) member)
  | inr isBuiltin =>
      obtain ⟨builtin, rfl⟩ := isBuiltin
      exact .inr (builtin_of_successor (List.get_mem _ _))

theorem Realizes.plan_sound (complete : draft.Complete root) {id : TypeId}
    (isType : (targetPlan setting ids heap state rootId).types id) : exists declaration,
      Declares heap id declaration ∧
      (targetPlan setting ids heap state rootId).Sound declaration := by
  have closed {declaration : Declaration} (declares : Declares heap id declaration)
      {successor : TypeId} (member : successor ∈ declaration.successors) :=
    realizes.types_successor isType declares member
  obtain ⟨ref, finds, _⟩ := isType
  obtain ⟨_, argument, members, isArgument, found, declares⟩ := realizes.isOutlined finds
  have types := Site.types_of_parts found
  refine ⟨_, declares, rfl, ?_, ?_, ?_, ?_⟩
  · intro member inMembers
    obtain ⟨index, bound, rfl⟩ := List.getElem_of_mem inMembers
    have parts := List.forall₂_iff_get.mp found
    have inParts : index < (draft.outline ref).parts.length := parts.1 ▸ bound
    obtain ⟨type, _, isMember⟩ := parts.2 index inParts bound
    have isType : members[index].type = some type := congrArg Member.type isMember
    refine ⟨type, isType, closed declares (List.mem_append_left _ ?_)⟩
    exact List.mem_filterMap.mpr ⟨_, inMembers, isType⟩
  · rintro type same
    refine closed declares (List.mem_append_right _ ?_)
    rw [same]
    exact List.mem_singleton_self type
  · rintro type same shape
    cases same
    cases outlineArgument : (draft.outline ref).argument with
    | none =>
        rw [outlineArgument] at isArgument
        cases isArgument
    | some argumentRef =>
        rw [outlineArgument] at isArgument
        cases isArgument with
        | some argumentFinds =>
            have member := argument_mem_parts outlineArgument shape
            obtain ⟨index, bound, same⟩ := List.getElem_of_mem member
            have parts := List.forall₂_iff_get.mp types
            have inTypes : index < (members.filterMap Member.type).length := parts.1 ▸ bound
            have indexFinds := parts.2 index bound inTypes
            simp only [List.get_eq_getElem, same] at indexFinds
            have sameType := Option.some.inj (indexFinds.2.symm.trans argumentFinds.2)
            have inMembers := List.getElem_mem inTypes
            rw [sameType] at inMembers
            exact List.mem_filterMap.mp inMembers
  · intro isVariant
    change 2 ≤ members.length
    rw [← found.length_eq]
    exact two_le_parts complete isVariant

/-- What is found is declared only under numbers that types have. -/
theorem Realizes.bound {index : Nat} {id : TypeId}
    (finds : (siteOf setting ids state).Finds (.declared index) id) :
    index < draft.sketches.length := by
  obtain ⟨bound, _⟩ := List.getElem?_eq_some_iff.mp finds.2
  exact realizes.length ▸ bound

/-- The types of a target can be laid out. -/
theorem Realizes.plan_closed (complete : draft.Complete root) {arena : Arena}
    (holds : setting.old.Holds arena) : (targetPlan setting ids heap state rootId).Closed := by
  refine ⟨fun id isType => realizes.plan_sound complete isType, ?_, ?_,
    fun position owner records => holds.owned position owner records⟩
  · rintro id declaration ⟨ref, finds, _⟩ declares isBuiltin noMembers
    obtain ⟨_, argument, members, _, found, ownDeclares⟩ := realizes.isOutlined finds
    cases declares_inj declares ownDeclares
    change members = [] at noMembers
    subst noMembers
    have noParts : (draft.outline ref).parts = [] := List.length_eq_zero_iff.mp found.length_eq
    obtain ⟨builtin, rfl, isScalar⟩ := scalar_of_outline isBuiltin noParts finds.1
      fun index same => realizes.bound (same ▸ finds)
    obtain ⟨_, ⟨⟩⟩ := finds
    rw [← map_fst_scalarSizes setting.target] at isScalar
    obtain ⟨⟨builtin, size⟩, member, rfl⟩ := List.mem_map.mp isScalar
    obtain ⟨name, stored, _⟩ := realizes.founded.basics.scalars builtin size member
    exact ⟨name, size, isSize_of_mem member, stored⟩
  · rintro id ⟨ref, finds, _⟩
    exact realizes.new finds

/-- Variables of a type are pointers if the draft says so. -/
theorem Realizes.isByReference_eq {ref : Ref} {id : TypeId} {type : TypeDef}
    (finds : (siteOf setting ids state).Finds ref id) (stored : HasType heap id type) :
    type.isStoredByReference = draft.isByReference ref := by
  obtain ⟨⟨flagged, flaggedStored, flags⟩, _⟩ := realizes.isOutlined finds
  cases hasType_inj stored flaggedStored
  rw [draft.isByReference_eq, ← flags]
  rfl

/-- What a type contains inline is found for what its reference contains inline. -/
theorem Realizes.inlines {ref : Ref} {outer inner : TypeId}
    (finds : (siteOf setting ids state).Finds ref outer)
    (inlines : (targetPlan setting ids heap state rootId).Inlines outer inner) :
    exists part, (siteOf setting ids state).Finds part inner ∧ draft.Inlines part ref :=
  (realizes.isOutlined finds).inlines _ (fun _ _ _ => realizes.isByReference_eq) inlines

/-- No type contains itself inline. -/
theorem Realizes.not_inlines_self (complete : draft.Complete root) {id : TypeId}
    (isType : (targetPlan setting ids heap state rootId).types id) :
    ¬ Relation.TransGen (targetPlan setting ids heap state rootId).Inlines id id := by
  obtain ⟨ref, finds, _⟩ := isType
  exact complete.irreflexive (fun _ _ _ => realizes.finds_inj)
    (fun _ _ _ found inlines => realizes.inlines found inlines) finds

/-! ### Exact sizes -/

/-- Exact sizes of the types of a target, from those of a draft. -/
def Sizes (setting : Setting) (ids : List TypeId) (state : State) (sizeOf : Ref -> Variable)
    (slotOf : TypeId -> Variable) : Prop :=
  forall ref id, (siteOf setting ids state).Finds ref id -> slotOf id = sizeOf ref

/-- Sizes of references are sizes of types, as no two references lead to one type. -/
theorem Realizes.exists_sizes (sizeOf : Ref -> Variable) :
    exists slotOf, Sizes setting ids state sizeOf slotOf := by
  classical
  refine ⟨fun id => if found : exists ref, (siteOf setting ids state).Finds ref id then
    sizeOf found.choose else ⟨0, 1⟩, fun ref id finds => ?_⟩
  have found : exists ref, (siteOf setting ids state).Finds ref id := ⟨ref, finds⟩
  refine (dif_pos found).trans (congrArg sizeOf ?_)
  exact realizes.finds_inj found.choose_spec finds

omit realizes in
/-- The variables of members are those of parts. -/
theorem Sizes.map_eq {sizeOf : Ref -> Variable} {slotOf : TypeId -> Variable}
    (sizes : Sizes setting ids state sizeOf slotOf) {parts : List Part} {members : List Member}
    (found : List.Forall₂ (siteOf setting ids state).FindsPart parts members) :
    (members.filterMap Member.type).map slotOf = parts.map fun part => sizeOf part.type := by
  induction found with
  | nil => rfl
  | cons finds _ ih =>
      obtain ⟨id, isFound, rfl⟩ := finds
      exact congrArg₂ List.cons (sizes _ id isFound) ih

omit realizes in
theorem ofType_scalar {target : Target} {builtin : Builtin} {size : Nat}
    (member : (builtin, size) ∈ scalarSizes target) (name : TextRef) :
    Variable.ofType target (TypeDef.scalar name (UInt32.ofNat size)) =
      scalarVariable target builtin := by
  have inline : ¬ (TypeDef.scalar name (UInt32.ofNat size)).isStoredByReference = true := by
    change ¬ FlagSet.contains TypeFlags.builtin TypeFlags.storedByReference = true
    decide
  refine (if_neg inline).trans ?_
  change (⟨(UInt32.ofNat size).toNat,
    (max (if UInt32.ofNat size = 0 then 1 else UInt32.ofNat size) 1).toNat⟩ : Variable) = _
  simp only [scalarSizes, List.mem_cons, List.not_mem_nil, or_false, Prod.mk.injEq] at member
  rcases member with ⟨rfl, rfl⟩ | ⟨rfl, rfl⟩ | ⟨rfl, rfl⟩ | ⟨rfl, rfl⟩ | ⟨rfl, rfl⟩ | ⟨rfl, rfl⟩ |
    ⟨rfl, rfl⟩ | ⟨rfl, rfl⟩ | ⟨rfl, rfl⟩ <;> cases target <;> decide

/-- Instances of a type take the room that the draft says. -/
theorem Realizes.exactInstance_eq {sizeOf : Ref -> Variable} {slotOf : TypeId -> Variable}
    (sizes : Sizes setting ids state sizeOf slotOf) {ref : Ref} {id : TypeId} {type : TypeDef}
    {declaration : Declaration} (finds : (siteOf setting ids state).Finds ref id)
    (stored : HasType heap id type) (declares : Declares heap id declaration) :
    exactInstance setting.target slotOf type declaration =
      draft.room setting.target sizeOf ref := by
  obtain ⟨_, argument, members, _, found, ownDeclares⟩ := realizes.isOutlined finds
  cases declares_inj declares ownDeclares
  obtain ⟨other, fields, otherStored, hasFields, is⟩ := declares
  cases hasType_inj stored otherStored
  have count : type.fieldCount.toNat = (draft.outline ref).parts.length := by
    have sameLength : fields.length = members.length := by
      rw [← is.members.length, Sorted.length_sortBy]
    rw [hasFields.1, sameLength, found.length_eq]
  by_cases isScalar : (draft.outline ref).builtin = true ∧ (draft.outline ref).parts = []
  · obtain ⟨isBuiltin, noParts⟩ := isScalar
    obtain ⟨builtin, rfl, inScalars⟩ := scalar_of_outline isBuiltin noParts finds.1
      fun index same => realizes.bound (same ▸ finds)
    obtain ⟨_, ⟨⟩⟩ := finds
    rw [← map_fst_scalarSizes setting.target] at inScalars
    obtain ⟨⟨builtin, size⟩, member, rfl⟩ := List.mem_map.mp inScalars
    obtain ⟨name, scalarStored, _⟩ := realizes.founded.basics.scalars builtin size member
    cases hasType_inj stored scalarStored
    have room : draft.room setting.target sizeOf (.builtin builtin) =
        scalarVariable setting.target builtin := by
      cases builtin with
      | string => cases noParts
      | _ => rfl
    rw [room]
    have noFields : ((TypeDef.scalar name (UInt32.ofNat size)).isBuiltin &&
        (TypeDef.scalar name (UInt32.ofNat size)).fieldCount == 0) = true := by
      rw [TypeDef.isBuiltin_scalar]
      rfl
    exact (if_pos noFields).trans (ofType_scalar member name)
  · have composite : (draft.outline ref).builtin = true -> (draft.outline ref).parts ≠ [] :=
      fun isBuiltin noParts => isScalar ⟨isBuiltin, noParts⟩
    rw [Draft.room_of_parts _ _ composite, ← sizes.map_eq found]
    refine if_neg fun noFields => ?_
    rw [Bool.and_eq_true, beq_iff_eq] at noFields
    obtain ⟨isBuiltin, noFields⟩ := noFields
    rw [noFields] at count
    exact composite (is.builtin.symm.trans isBuiltin) (List.length_eq_zero_iff.mp count.symm)

/-- Exact sizes of a draft are exact sizes of the types of a target. -/
theorem Realizes.exact {sizeOf : Ref -> Variable} {slotOf : TypeId -> Variable}
    (sizes : Sizes setting ids state sizeOf slotOf) (exact : draft.Exact setting.target sizeOf) :
    (targetPlan setting ids heap state rootId).Exact slotOf := by
  rintro id type declaration ⟨ref, finds, _⟩ stored declares
  change slotOf id = if type.isStoredByReference = true then
    ⟨setting.target.pointerWidth, setting.target.pointerWidth⟩
    else exactInstance setting.target slotOf type declaration
  rw [sizes ref id finds, exact ref, realizes.isByReference_eq finds stored,
    realizes.exactInstance_eq sizes finds stored declares]

end Plans

end TextSchema
end PackedJson
