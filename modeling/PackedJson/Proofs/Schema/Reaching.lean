import PackedJson.Proofs.Schema.Traversal

namespace PackedJson

open Heap Layout

/-!
The list of the types that can be reached.

Where a heap with a layout is stored, every type that can be reached is
listed, since each of them can be decoded.  What the list consists of does not
depend on where types are stored.  If two types are paired only with each
other, and what they refer to is paired likewise, then the lists are paired,
too, even if the types are in different arenas.
-/

namespace Schema

section Pairs

variable {schema other : Schema} {paired : TypeId -> TypeId -> Prop}

/-- Types of two schemas are paired only with each other, and what two of them
refer to is paired in its order. -/
structure Pairs (schema other : Schema) (paired : TypeId -> TypeId -> Prop) : Prop where
  same : forall first second next another, paired first second -> paired next another ->
    (first = next ↔ second = another)
  successors : forall first second, paired first second -> exists firsts seconds,
    schema.successors first = .ok firsts ∧ other.successors second = .ok seconds ∧
    List.Forall₂ paired firsts seconds

/-- Paired lists have paired types. -/
theorem Pairs.contains (pairs : Pairs schema other paired) {first second : TypeId}
    (isPair : paired first second) {firsts seconds : List TypeId}
    (arePairs : List.Forall₂ paired firsts seconds) :
    firsts.contains first = seconds.contains second := by
  rw [Bool.eq_iff_iff, List.contains_iff_mem, List.contains_iff_mem]
  induction arePairs with
  | nil => exact ⟨nofun, nofun⟩
  | cons head _ ih =>
      rw [List.mem_cons, List.mem_cons]
      exact or_congr (pairs.same _ _ _ _ isPair head) ih

/-- Visits of paired types list paired types. -/
theorem Pairs.visit (pairs : Pairs schema other paired) {steps : Nat}
    {seen otherSeen pending otherPending : List TypeId}
    (arePairs : List.Forall₂ paired seen otherSeen)
    (pendingPairs : List.Forall₂ paired pending otherPending) :
    exists ids others, schema.visit steps seen pending = .ok ids ∧
      other.visit steps otherSeen otherPending = .ok others ∧ List.Forall₂ paired ids others := by
  have ends : List.Forall₂ paired seen.reverse otherSeen.reverse :=
    List.rel_reverse arePairs
  induction steps generalizing seen otherSeen pending otherPending with
  | zero =>
      refine ⟨_, _, ?_, ?_, ends⟩
      · cases pending <;> rfl
      · cases otherPending <;> rfl
  | succ steps ih =>
      cases pendingPairs with
      | nil => exact ⟨_, _, rfl, rfl, ends⟩
      | @cons first second rest others isPair restPairs =>
          have sameSeen := pairs.contains isPair arePairs
          unfold Schema.visit
          rw [sameSeen]
          split
          · exact ih arePairs restPairs ends
          · obtain ⟨firsts, seconds, known, otherKnown, nextPairs⟩ :=
              pairs.successors first second isPair
            simp only [known, otherKnown]
            have morePairs : List.Forall₂ paired (first :: seen) (second :: otherSeen) :=
              .cons isPair arePairs
            exact ih morePairs (List.rel_append nextPairs restPairs) (List.rel_reverse morePairs)

end Pairs

end Schema

/-! ### Stored types -/

namespace Heap

variable {heap : Heap} {arena : Arena} {target : Target} {settled : TypeId -> Prop} {root : TypeId}

/-- Where types are laid out, those that can be reached are listed, by every visit
that may take enough steps. -/
theorem IsLayout.exists_visited (layout : IsLayout heap target settled) (holds : heap.Holds arena)
    (rootSettled : settled root) : exists ids,
      (forall steps, Schema.visitBound ⟨arena⟩ ≤ steps ->
        Schema.visit ⟨arena⟩ steps [] [root] = .ok ids) ∧
      ids.Nodup ∧ forall id, id ∈ ids ↔ Schema.Reaches ⟨arena⟩ root id := by
  obtain ⟨rounds, few, traverses⟩ := Schema.exists_traverses_root ⟨arena⟩ root
  have answer (steps : Nat) (enough : Schema.visitBound ⟨arena⟩ ≤ steps) :
      Schema.visit ⟨arena⟩ steps [] [root] = Schema.reachable ⟨arena⟩ root :=
    traverses.visit_eq (Nat.le_trans few enough)
  cases listed : Schema.reachable ⟨arena⟩ root with
  | error failure =>
      obtain ⟨id, reaches, fails⟩ :=
        (traverses.reaches Schema.reaches_of_mem_root).2 failure listed
      obtain ⟨declaration, declares, _⟩ :=
        layout.declared id (settled_of_reaches holds.told layout rootSettled reaches)
      cases (successors_eq holds.told declares).symm.trans fails
  | ok ids =>
      rw [listed] at traverses
      have lists := traverses.lists List.nodup_nil nofun
      exact ⟨ids, fun steps enough => (answer steps enough).trans listed, lists.distinct, fun id =>
        ⟨Schema.reaches_of_reachable listed, fun reaches =>
          lists.mem_of_reflTransGen reaches.reflTransGen⟩⟩

/-- Where types are laid out, those that can be reached are listed. -/
theorem IsLayout.exists_reachable (layout : IsLayout heap target settled) (holds : heap.Holds arena)
    (rootSettled : settled root) : exists ids, Schema.reachable ⟨arena⟩ root = .ok ids ∧
      ids.Nodup ∧ forall id, id ∈ ids ↔ Schema.Reaches ⟨arena⟩ root id := by
  obtain ⟨ids, visited, listed⟩ := layout.exists_visited holds rootSettled
  exact ⟨ids, visited _ (Nat.le_refl _), listed⟩

/-- The types that can be reached from paired types are paired in their order,
also if they are in different arenas. -/
theorem IsLayout.reachable_pairs {otherHeap : Heap} {otherArena : Arena} {other : Target}
    {otherSettled : TypeId -> Prop} {otherRoot : TypeId} {paired : TypeId -> TypeId -> Prop}
    (layout : IsLayout heap target settled) (holds : heap.Holds arena) (rootSettled : settled root)
    (otherLayout : IsLayout otherHeap other otherSettled) (otherHolds : otherHeap.Holds otherArena)
    (otherRootSettled : otherSettled otherRoot) (pairs : Schema.Pairs ⟨arena⟩ ⟨otherArena⟩ paired)
    (isPair : paired root otherRoot) : exists ids others,
      Schema.reachable ⟨arena⟩ root = .ok ids ∧ Schema.reachable ⟨otherArena⟩ otherRoot = .ok others ∧
      List.Forall₂ paired ids others := by
  obtain ⟨ids, visited, _⟩ := layout.exists_visited holds rootSettled
  obtain ⟨others, otherVisited, _⟩ := otherLayout.exists_visited otherHolds otherRootSettled
  -- The visits may take different numbers of steps, and neither of them takes all of its own.
  let steps := max (Schema.visitBound ⟨arena⟩) (Schema.visitBound ⟨otherArena⟩)
  obtain ⟨found, otherFound, isFound, isOtherFound, arePairs⟩ :=
    @Schema.Pairs.visit _ _ _ pairs steps _ _ _ _ .nil (.cons isPair .nil)
  cases (visited steps (Nat.le_max_left _ _)).symm.trans isFound
  cases (otherVisited steps (Nat.le_max_right _ _)).symm.trans isOtherFound
  exact ⟨ids, others, visited _ (Nat.le_refl _), otherVisited _ (Nat.le_refl _), arePairs⟩

end Heap
end PackedJson
