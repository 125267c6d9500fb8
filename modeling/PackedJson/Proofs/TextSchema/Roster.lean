import PackedJson.Proofs.Schema.Reaching
import PackedJson.Proofs.TextSchema.Embodiment
import PackedJson.TextSchema.Companion

namespace PackedJson

open Heap Builder Layout

/-!
The types that are listed for the targets.

One list of references tells the types of both targets, in the order in which
they are listed, and in whatever arena they are stored.  The declared types
among them are those whose prototype says so, and none of them is left out of a
listing.
-/

/-- All items are read if each of them is. -/
theorem Listing.mapM_eq_ok {Failure Item Result : Type} {read : Item -> Except Failure Result}
    {items : List Item} {results : List Result}
    (each : List.Forall₂ (fun item result => read item = .ok result) items results) :
    items.mapM read = .ok results := by
  induction each with
  | nil => exact List.mapM_nil
  | cons isRead _ ih =>
      rw [List.mapM_cons, isRead, ih]
      rfl

namespace TextSchema

/-- The number of a declared type. -/
def Ref.declaredIndex? : Ref -> Option Nat
  | .declared index => some index
  | _ => none

theorem Ref.declaredIndex?_eq_some {ref : Ref} {index : Nat} :
    ref.declaredIndex? = some index ↔ ref = .declared index := by
  cases ref with
  | declared other => exact ⟨fun same => congrArg declared (Option.some.inj same),
      fun same => congrArg some (declared.inj same)⟩
  | _ => exact ⟨nofun, nofun⟩

/-- The numbers of the declared types among some types. -/
def declaredIn (refs : List Ref) : List Nat := refs.filterMap Ref.declaredIndex?

theorem mem_declaredIn {refs : List Ref} {index : Nat} :
    index ∈ declaredIn refs ↔ .declared index ∈ refs := by
  unfold declaredIn
  rw [List.mem_filterMap]
  simp only [Ref.declaredIndex?_eq_some]
  exact ⟨fun ⟨_, member, same⟩ => same ▸ member, fun member => ⟨_, member, rfl⟩⟩

/-- Whether a type is listed.  Scalars are not. -/
def Draft.isListed (draft : Draft) (ref : Ref) : Bool :=
  !((draft.outline ref).builtin && (draft.outline ref).parts.isEmpty)

/-- An entry of a list of types is what is found for a reference. -/
structure Lists (draft : Draft) (heap : Heap) (context : Context) (site : Site)
    (settled : TypeId -> Prop) (ref : Ref) (entry : TypeId × TypeDef) : Prop where
  finds : site.Finds ref entry.1
  isSettled : settled entry.1
  embodied : exists fields, IsEmbodied draft heap context site settled ref entry.1 entry.2 fields

theorem exists_of_mem_left {First Second : Type} {related : First -> Second -> Prop}
    {firsts : List First} {seconds : List Second} (each : List.Forall₂ related firsts seconds)
    {first : First} (member : first ∈ firsts) :
    exists second, second ∈ seconds ∧ related first second := by
  induction each with
  | nil => cases member
  | @cons _ second _ _ isRelated _ ih =>
      cases List.mem_cons.mp member with
      | inl same => exact ⟨second, List.mem_cons_self, same ▸ isRelated⟩
      | inr later =>
          obtain ⟨found, inTail, foundRelated⟩ := ih later
          exact ⟨found, List.mem_cons_of_mem _ inTail, foundRelated⟩

/-- Entries are kept if their references have an answer. -/
theorem forall₂_filterMap {First Second Result : Type} {related : First -> Second -> Prop}
    {keeps : Second -> Bool} {answer : First -> Option Result} {firsts : List First}
    {seconds : List Second} (each : List.Forall₂ related firsts seconds)
    (agrees : forall first second, related first second -> keeps second = (answer first).isSome) :
    List.Forall₂ (fun result second => exists first, answer first = some result ∧ related first second)
      (firsts.filterMap answer) (seconds.filter keeps) := by
  induction each with
  | nil => exact .nil
  | @cons first second _ _ isRelated _ ih =>
      rw [List.filterMap_cons, List.filter_cons, agrees first second isRelated]
      cases known : answer first with
      | none => exact ih
      | some result => exact .cons ⟨first, known, isRelated⟩ ih

section Listings

variable {draft : Draft} {root ref : Ref} {heap : Heap} {arena : Arena} {target other : Target}
  {context otherContext : Context} {site otherSite : Site} {settled otherSettled : TypeId -> Prop}
  {rootId otherRootId id : TypeId} {type : TypeDef} {fields : List FieldDef}

section Entries

variable (embodies : Embodies draft root heap target context site settled)

include embodies

/-- Declared types are known by their prototypes. -/
theorem Embodies.isDeclared_eq (finds : site.Finds ref id)
    (is : IsEmbodied draft heap context site settled ref id type fields) :
    Companion.isDeclared context type = ref.declaredIndex?.isSome := by
  have prototype {builtin : Builtin} (outlined : (draft.outline ref).prototype = some builtin) :
      Companion.isDeclared context type = (decide (builtin = .structPrototype) ||
        decide (builtin = .variantPrototype)) := by
    unfold Companion.isDeclared
    rw [is.prototype, outlined, ← embodies.is_builtin_eq, ← embodies.is_builtin_eq]
    rfl
  have none (outlined : (draft.outline ref).prototype = none) :
      Companion.isDeclared context type = false := by
    unfold Companion.isDeclared
    rw [is.prototype, outlined]
    rfl
  cases ref with
  | builtin builtin =>
      cases builtin with
      | string => exact prototype rfl
      | _ => exact none rfl
  | declared index =>
      have isSketch := List.getElem?_eq_getElem (embodies.bound index id finds)
      have outlined : (draft.outline (.declared index)).prototype =
          some (prototypeOf (draft.outline (.declared index)).shape) := by
        rw [Draft.outline_of_some isSketch]
        rfl
      rw [prototype outlined]
      cases (draft.outline (.declared index)).shape <;> rfl
  | applied generic argument =>
      have isGeneric := finds.1.1
      simp only [genericBuiltins, List.mem_cons, List.not_mem_nil, or_false] at isGeneric
      rcases isGeneric with rfl | rfl | rfl | rfl <;> exact prototype rfl

/-- Declared types are listed. -/
theorem Embodies.declared_of_lists {shown : List Ref} {types : List (TypeId × TypeDef)}
    (lists : List.Forall₂ (Lists draft heap context site settled) shown types) :
    List.Forall₂ (fun index => Lists draft heap context site settled (.declared index))
      (declaredIn shown) (types.filter fun entry => Companion.isDeclared context entry.2) := by
  refine (forall₂_filterMap lists fun ref entry listed => ?_).imp ?_
  · obtain ⟨fields, is⟩ := listed.embodied
    exact embodies.isDeclared_eq listed.finds is
  · rintro index entry ⟨ref, isIndex, listed⟩
    exact Ref.declaredIndex?_eq_some.mp isIndex ▸ listed

/-- No declared type is left out of a listing. -/
theorem Embodies.declaredIn_filter {refs : List Ref} {ids : List TypeId}
    (finds : List.Forall₂ site.Finds refs ids) :
    declaredIn (refs.filter draft.isListed) = declaredIn refs := by
  induction finds with
  | nil => rfl
  | @cons ref _ _ _ found _ ih =>
      unfold declaredIn at ih ⊢
      rw [List.filter_cons]
      cases ref with
      | declared index =>
          have listed : draft.isListed (.declared index) = true := by
            unfold Draft.isListed
            rw [embodies.builtin_declared found]
            rfl
          rw [if_pos listed, List.filterMap_cons, List.filterMap_cons, ih]
      | _ => split <;> exact ih

/-- What is found for references are entries of a list of types. -/
theorem Embodies.exists_entries (holds : heap.Holds arena) {refs : List Ref} {ids : List TypeId}
    (finds : List.Forall₂ site.Finds refs ids) (areSettled : forall id, id ∈ ids -> settled id) :
    exists entries, ids.mapM (fun id => return (id, ← Schema.type ⟨arena⟩ id)) = .ok entries ∧
      entries.map Prod.fst = ids ∧ List.Forall₂ (Lists draft heap context site settled) refs entries := by
  induction finds with
  | nil => exact ⟨[], List.mapM_nil, rfl, .nil⟩
  | @cons ref id _ _ found _ ih =>
      obtain ⟨headSettled, restSettled⟩ := List.forall_mem_cons.mp areSettled
      obtain ⟨entries, areStored, sameIds, listed⟩ := ih restSettled
      obtain ⟨type, fields, is⟩ := embodies.exists_isEmbodied found headSettled
      refine ⟨(id, type) :: entries, ?_, congrArg (id :: ·) sameIds,
        .cons ⟨found, headSettled, fields, is⟩ listed⟩
      rw [List.mapM_cons, holds.type is.stored, areStored]
      rfl

omit embodies in
/-- A type is listed if its reference is. -/
theorem IsEmbodied.isListed_eq (is : IsEmbodied draft heap context site settled ref id type fields) :
    (!(type.isBuiltin && type.fieldCount == 0)) = draft.isListed ref := by
  have count : type.fieldCount.toNat = (draft.outline ref).parts.length := by
    rw [is.hasFields.1, is.parts.length_eq, Sorted.length_sortBy]
  unfold Draft.isListed
  rw [is.builtin]
  refine congrArg (fun none => !((draft.outline ref).builtin && none)) (Bool.eq_iff_iff.mpr ?_)
  rw [beq_iff_eq, List.isEmpty_iff_length_eq_zero, ← count, ← UInt32.toNat_inj]
  rfl

/-- What is found for references is listed, apart from scalars. -/
theorem Embodies.exists_lists (holds : heap.Holds arena) (isSettled : settled rootId)
    {refs : List Ref} {ids : List TypeId} (reachable : Schema.reachable ⟨arena⟩ rootId = .ok ids)
    (finds : List.Forall₂ site.Finds refs ids) :
    exists types, Listing.listedTypes ⟨arena⟩ rootId = .ok types ∧
      List.Forall₂ (Lists draft heap context site settled) (refs.filter draft.isListed) types ∧
      (types.map Prod.fst).Nodup := by
  obtain ⟨_, sameList, once, mem⟩ := embodies.layout.exists_reachable holds isSettled
  cases reachable.symm.trans sameList
  obtain ⟨entries, areStored, sameIds, lists⟩ := embodies.exists_entries holds finds fun id member =>
    settled_of_reaches holds.told embodies.layout isSettled ((mem id).mp member)
  refine ⟨entries.filter fun entry => !(entry.2.isBuiltin && entry.2.fieldCount == 0), ?_, ?_,
    (sameIds ▸ once).sublist (List.filter_sublist.map Prod.fst)⟩
  · unfold Listing.listedTypes
    rw [reachable]
    change (ids.mapM (fun id => return (id, ← Schema.type ⟨arena⟩ id)) >>= _) = Except.ok _
    rw [areStored]
    rfl
  · refine List.rel_filter (fun ref entry listed => ?_) lists
    obtain ⟨fields, is⟩ := listed.embodied
    exact Bool.eq_iff_iff.mp is.isListed_eq.symm

end Entries

/-! ### Twins -/

/-- Two types are found for one reference, which can be reached. -/
def Twins (draft : Draft) (root : Ref) (site otherSite : Site) (id otherId : TypeId) : Prop :=
  exists ref, draft.Reaches root ref ∧ site.Finds ref id ∧ otherSite.Finds ref otherId

/-- What outlines refer to is found for both targets. -/
theorem twins_of_finds {refs : List Ref} {ids others : List TypeId}
    (reached : forall ref, ref ∈ refs -> draft.Reaches root ref)
    (finds : List.Forall₂ site.Finds refs ids) (otherFinds : List.Forall₂ otherSite.Finds refs others) :
    List.Forall₂ (Twins draft root site otherSite) ids others := by
  induction finds generalizing others with
  | nil =>
      cases otherFinds
      exact .nil
  | cons found _ ih =>
      cases otherFinds with
      | cons otherFound rest =>
          obtain ⟨headReached, restReached⟩ := List.forall_mem_cons.mp reached
          exact .cons ⟨_, headReached, found, otherFound⟩ (ih restReached rest)

/-- Twins refer to twins, and have no others, also if they are in different arenas. -/
theorem pairs_twins {otherHeap : Heap} {otherArena : Arena}
    (first : Embodies draft root heap target context site settled) (holds : heap.Holds arena)
    (second : Embodies draft root otherHeap other otherContext otherSite otherSettled)
    (otherHolds : otherHeap.Holds otherArena) :
    Schema.Pairs ⟨arena⟩ ⟨otherArena⟩ (Twins draft root site otherSite) := by
  constructor
  · rintro id otherId next otherNext ⟨ref, _, finds, otherFinds⟩ ⟨nextRef, _, nextFinds, otherNextFinds⟩
    constructor
    · rintro rfl
      cases first.distinct ref nextRef id finds nextFinds
      exact Option.some.inj (otherFinds.2.symm.trans otherNextFinds.2)
    · rintro rfl
      cases second.distinct ref nextRef otherId otherFinds otherNextFinds
      exact Option.some.inj (finds.2.symm.trans nextFinds.2)
  · rintro id otherId ⟨ref, reached, finds, otherFinds⟩
    obtain ⟨flags, _, is⟩ := first.outlined ref id finds
    obtain ⟨otherFlags, _, otherIs⟩ := second.outlined ref otherId otherFinds
    obtain ⟨declaration, declares, related⟩ := is.successors
    obtain ⟨otherDeclaration, otherDeclares, otherRelated⟩ := otherIs.successors
    exact ⟨_, _, Layout.successors_eq holds.told declares,
      Layout.successors_eq otherHolds.told otherDeclares,
      twins_of_finds (fun successor member => reached.next member) related otherRelated⟩

/-- Types that have twins are found for references. -/
theorem exists_refs_of_twins {ids others : List TypeId}
    (twins : List.Forall₂ (Twins draft root site otherSite) ids others) :
    exists refs, (forall ref, ref ∈ refs -> draft.Reaches root ref) ∧
      List.Forall₂ site.Finds refs ids := by
  induction twins with
  | nil => exact ⟨[], nofun, .nil⟩
  | cons isTwin _ ih =>
      obtain ⟨ref, reached, found, _⟩ := isTwin
      obtain ⟨refs, areReached, finds⟩ := ih
      exact ⟨ref :: refs, List.forall_mem_cons.mpr ⟨reached, areReached⟩, .cons found finds⟩

/-- The twins of what is found for some references are found for them, too. -/
theorem finds_of_twins {refs : List Ref} {ids others : List TypeId}
    (distinct : forall ref other id, site.Finds ref id -> site.Finds other id -> ref = other)
    (finds : List.Forall₂ site.Finds refs ids)
    (twins : List.Forall₂ (Twins draft root site otherSite) ids others) :
    List.Forall₂ otherSite.Finds refs others := by
  induction finds generalizing others with
  | nil =>
      cases twins
      exact .nil
  | cons found _ ih =>
      cases twins with
      | cons isTwin rest =>
          obtain ⟨ref, _, sameFound, otherFound⟩ := isTwin
          exact .cons (distinct _ _ _ sameFound found ▸ otherFound) (ih rest)

/-- What is listed for one target.  The references are those of all types that
can be reached, in their order. -/
structure IsRoster (draft : Draft) (root : Ref) (heap : Heap) (arena : Arena) (target : Target)
    (context : Context) (refs : List Ref) (site : Site) (settled : TypeId -> Prop)
    (rootId : TypeId) (types : List (TypeId × TypeDef)) : Prop where
  embodies : Embodies draft root heap target context site settled
  isRoot : Schema.root ⟨arena⟩ context = .ok rootId
  finds : site.Finds root rootId
  isSettled : settled rootId
  listed : Listing.listedTypes ⟨arena⟩ rootId = .ok types
  lists : List.Forall₂ (Lists draft heap context site settled) (refs.filter draft.isListed) types
  once : (types.map Prod.fst).Nodup
  reached : forall ref, ref ∈ refs ↔ draft.Reaches root ref
  declared : declaredIn (refs.filter draft.isListed) = declaredIn refs

namespace IsRoster

variable {refs : List Ref} {types : List (TypeId × TypeDef)}
  (roster : IsRoster draft root heap arena target context refs site settled rootId types)

include roster

theorem mem_indices (index : Nat) : index ∈ declaredIn refs ↔ draft.Reaches root (.declared index) :=
  mem_declaredIn.trans (roster.reached _)

theorem reached_of_shown (ref : Ref) (member : ref ∈ refs.filter draft.isListed) :
    draft.Reaches root ref :=
  (roster.reached ref).mp (List.mem_of_mem_filter member)

/-- The declared types are those that are listed as such. -/
theorem listed_declared :
    List.Forall₂ (fun index => Lists draft heap context site settled (.declared index))
      (declaredIn refs) (types.filter fun entry => Companion.isDeclared context entry.2) :=
  roster.declared ▸ roster.embodies.declared_of_lists roster.lists

end IsRoster

theorem Embodies.exists_root (embodies : Embodies draft root heap target context site settled)
    (arena : Arena) : exists rootId, context.root = some rootId ∧
      Schema.root ⟨arena⟩ context = .ok rootId ∧ site.Finds root rootId ∧ settled rootId := by
  obtain ⟨rootId, isRoot, finds, isSettled⟩ := embodies.root
  refine ⟨rootId, isRoot, ?_, finds, isSettled⟩
  unfold Schema.root
  rw [isRoot]

/-- The types that can be reached are told by references, each of which can be
reached in the draft, and all of which are there. -/
theorem Embodies.exists_refs (embodies : Embodies draft root heap target context site settled)
    (holds : heap.Holds arena) (finds : site.Finds root rootId) (isSettled : settled rootId) :
    exists refs ids, (forall ref, ref ∈ refs ↔ draft.Reaches root ref) ∧
      Schema.reachable ⟨arena⟩ rootId = .ok ids ∧ List.Forall₂ site.Finds refs ids := by
  obtain ⟨ids, _, listed, _, twins⟩ := embodies.layout.reachable_pairs holds isSettled embodies.layout
    holds isSettled (pairs_twins embodies holds embodies holds) ⟨root, .root, finds, finds⟩
  obtain ⟨_, sameList, _, mem⟩ := embodies.layout.exists_reachable holds isSettled
  cases listed.symm.trans sameList
  obtain ⟨refs, areReached, allFound⟩ := exists_refs_of_twins twins
  refine ⟨refs, ids, fun ref => ⟨areReached ref, fun reached => ?_⟩, listed, allFound⟩
  -- What is found for a reference is listed, and is found for no other one.
  obtain ⟨id, found, reaches⟩ := exists_reaches holds
    (fun ref id found => (embodies.outlined ref id found).imp fun _ is => is.2) finds reached
  obtain ⟨index, bound, same⟩ := List.getElem_of_mem ((mem id).mpr reaches)
  have pairs := List.forall₂_iff_get.mp allFound
  have inRefs : index < refs.length := pairs.1 ▸ bound
  have listedFinds := pairs.2 index inRefs bound
  simp only [List.get_eq_getElem, same] at listedFinds
  exact embodies.distinct ref _ id found listedFinds ▸ List.getElem_mem inRefs

/-- One list of references tells what is listed for all targets, wherever their
types are stored. -/
theorem Embodies.exists_rosters (first : Embodies draft root heap target context site settled)
    (holds : heap.Holds arena) : exists refs, forall {otherHeap : Heap} {otherArena : Arena}
      {other : Target} {otherContext : Context} {otherSite : Site} {otherSettled : TypeId -> Prop},
      Embodies draft root otherHeap other otherContext otherSite otherSettled ->
      otherHeap.Holds otherArena -> exists rootId types,
        IsRoster draft root otherHeap otherArena other otherContext refs otherSite otherSettled rootId
          types := by
  obtain ⟨rootId, _, _, finds, isSettled⟩ := first.exists_root arena
  obtain ⟨refs, ids, reached, listed, allFound⟩ := first.exists_refs holds finds isSettled
  refine ⟨refs, fun {_ otherArena _ _ _ _} second otherHolds => ?_⟩
  obtain ⟨otherRootId, _, answers, otherFinds, otherIsSettled⟩ := second.exists_root otherArena
  obtain ⟨_, others, sameList, otherListed, twins⟩ := first.layout.reachable_pairs holds isSettled
    second.layout otherHolds otherIsSettled (pairs_twins first holds second otherHolds)
    ⟨root, .root, finds, otherFinds⟩
  cases listed.symm.trans sameList
  have otherAllFound := finds_of_twins first.distinct allFound twins
  obtain ⟨types, areListed, lists, once⟩ :=
    second.exists_lists otherHolds otherIsSettled otherListed otherAllFound
  exact ⟨otherRootId, types, second, answers, otherFinds, otherIsSettled, areListed, lists, once,
    reached, second.declaredIn_filter otherAllFound⟩

end Listings

/-- What is listed for both targets of a container. -/
structure Rosters (draft : Draft) (root : Ref) (slice : String) (refs : List Ref) (heap : Heap)
    (container : Container) : Prop where
  holds : heap.Holds container.arena
  slices : forall target, HasText heap (container.context target).slice slice
  each : forall target, exists site settled rootId types, IsRoster draft root heap container.arena
    target (container.context target) refs site settled rootId types

end TextSchema
end PackedJson
