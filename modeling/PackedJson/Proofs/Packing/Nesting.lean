import PackedJson.Proofs.Packing.Captures
import PackedJson.Proofs.Packing.Documents
import PackedJson.Proofs.Packing.Likeness

namespace PackedJson
namespace Packer

open Arena TextSchema Layout Heap Builder

/-!
How deep the instances nest that are written at one time.

The limit on the depth of documents is looked at only where a value inside
another one is written.  Options, results and variants write the value itself
once more, as an instance of another type at the same depth, and nothing is
looked at there.  The types of a compiled text schema bound this: an option is
one of a result, or of a type without a wrapper, and what a variant selects is
no variant, so that at most four instances are written at one depth.

A guarded packer counts.  It knows the depths of all instances that are being
written, opens no fifth one at a depth and none beyond the limit, and does
whatever one likes instead.  With a compiled text schema it does the same as
the packer, so that there never is anything to guard against.
-/

/-! ### Guards -/

/-- One more instance may be written at a depth: it is within the limit, and no four instances of
those that are being written are there. -/
def MayOpen (packer : Packer) (depths : List Nat) (depth : Nat) : Prop :=
  depth ≤ packer.maxDepth ∧ depths.count depth < 4

instance (packer : Packer) (depths : List Nat) (depth : Nat) :
    Decidable (packer.MayOpen depths depth) :=
  inferInstanceAs (Decidable (_ ∧ _))

/-- Write a value while instances are being written at some depths, with a bound on the number of
those that may still be opened inside each other.  What may not be opened is left to another
writer. -/
def guarded (packer : Packer) (beyond : Writer) : Nat -> List Nat -> Writer
  | 0, _ => beyond
  | openings + 1, depths => fun id place path value =>
      if packer.MayOpen depths path.depth then
        let write := guarded packer beyond openings (path.depth :: depths)
        packer.writeVariable write write id place path value
      else beyond id place path value

/-- Pack a document with guards.  The instance of the document is one of the four at its depth. -/
def packGuarded (packer : Packer) (beyond : Writer) (id : TypeId) (value : Json) : PackM Offset := do
  modify fun state => { state with violations := [] }
  let type ← ask (packer.schema.type id)
  let place ← packer.allocInstance type
  let write := packer.guarded beyond (4 * (packer.maxDepth + 1) - 1) [Path.root.depth]
  packer.writeInstance write write id type place Path.root value
  return place

theorem guarded_eq {packer : Packer} {beyond : Writer} {openings : Nat} {depths : List Nat}
    {id : TypeId} {place : Offset} {path : Path} {value : Json}
    (mayOpen : packer.MayOpen depths path.depth) :
    packer.guarded beyond (openings + 1) depths id place path value =
      packer.writeVariable (packer.guarded beyond openings (path.depth :: depths))
        (packer.guarded beyond openings (path.depth :: depths)) id place path value :=
  if_pos mayOpen

section Nesting

variable {packer : Packer} {heap : Heap} {document : Json} {promises : Promises}
  {settled : TypeId -> Prop} {role : Role} {path : Path} {value : Json}

/-! ### The guards are never met -/

/-- The instances that are being written at a depth, and what may still be opened, are enough for
a value that is handed on so many times there. -/
structure Suffices (packer : Packer) (openings : Nat) (depths : List Nat) (depth handoffs : Nat) :
    Prop where
  limit : depth ≤ packer.maxDepth
  few : depths.count depth + handoffs < 4
  outer : forall other, other ∈ depths -> other ≤ depth
  enough : 4 * (packer.maxDepth - depth) + handoffs < openings

section Suffices

variable {openings depth handoffs fewer : Nat} {depths : List Nat}

theorem Suffices.mayOpen (enough : packer.Suffices openings depths depth handoffs) :
    packer.MayOpen depths depth :=
  ⟨enough.limit, Nat.lt_of_le_of_lt (Nat.le_add_right _ _) enough.few⟩

/-- A value is handed on at its depth. -/
theorem Suffices.onward (enough : packer.Suffices (openings + 1) depths depth handoffs)
    (less : fewer < handoffs) : packer.Suffices openings (depth :: depths) depth fewer := by
  obtain ⟨limit, few, outer, enough⟩ := enough
  refine ⟨limit, ?_, List.forall_mem_cons.mpr ⟨Nat.le_refl _, outer⟩, by omega⟩
  rw [List.count_cons_self]
  omega

/-- Nothing is written yet one step further inside. -/
theorem Suffices.inside (enough : packer.Suffices (openings + 1) depths depth handoffs)
    (within : depth < packer.maxDepth) (few : fewer < 4) :
    packer.Suffices openings (depth :: depths) (depth + 1) fewer := by
  obtain ⟨_, _, outer, enough⟩ := enough
  have outermost : forall other, other ∈ depth :: depths -> other ≤ depth :=
    List.forall_mem_cons.mpr ⟨Nat.le_refl _, outer⟩
  have none : (depth :: depths).count (depth + 1) = 0 :=
    List.count_eq_zero.mpr fun member => Nat.not_succ_le_self _ (outermost _ member)
  exact ⟨within, by omega, fun other member => Nat.le_succ_of_le (outermost other member), by omega⟩

end Suffices

/-- As long as that many openings are enough, values are written with guards as they are without
them. -/
def GuardsIdle (packer : Packer) (heap : Heap) (document : Json) (promises : Promises)
    (settled : TypeId -> Prop) (beyond : Writer) (openings : Nat) : Prop :=
  forall ⦃levels steps : Nat⦄ ⦃earlier : List Handoff⦄ ⦃depths : List Nat⦄ ⦃id : TypeId⦄
    ⦃term : Term⦄ ⦃role : Role⦄ ⦃place : Offset⦄ ⦃path : Path⦄ ⦃value : Json⦄,
    settled id -> promises id term -> HasRole document term role -> value.height ≤ levels ->
    role.handoffs < steps -> AreEarlier packer heap earlier role.handoffs ->
    packer.Suffices openings depths path.depth role.handoffs ->
    packer.writeWrapped (packer.write levels) steps earlier id place path value =
      packer.guarded beyond openings depths id place path value

section Guards

variable {beyond : Writer} {openings levels : Nat} {depths : List Nat}

/-- An instance leaves enough openings for the values inside it. -/
theorem GuardsIdle.agreeInside
    (idle : GuardsIdle packer heap document promises settled beyond openings)
    (packs : Packs packer heap document promises settled) (low : value.height ≤ levels)
    (enough : packer.Suffices (openings + 1) depths path.depth role.handoffs) :
    AgreeInside packer promises settled (fun _ part other => part = other) (packer.write levels)
      (packer.guarded beyond openings (path.depth :: depths)) path value value := by
  rintro inner innerTerm segment part _ place innerSettled promised rfl lower _ within
  obtain ⟨levels, rfl⟩ := Nat.exists_eq_succ_of_ne_zero (by omega : levels ≠ 0)
  obtain ⟨innerRole, _, hasInner, _⟩ := packs.serving.serves inner innerTerm promised
  have depth : (path.child segment).depth = path.depth + 1 := by
    simp only [Path.depth, Path.child, List.length_append, List.length_singleton]
  refine idle innerSettled promised hasInner (by omega) (handoffs_lt_limit innerRole) nofun ?_
  rw [depth]
  exact enough.inside within innerRole.handoffs_lt_four

/-- One more opening lets one more instance be written. -/
theorem GuardsIdle.succ (idle : GuardsIdle packer heap document promises settled beyond openings)
    (packs : Packs packer heap document promises settled) :
    GuardsIdle packer heap document promises settled beyond (openings + 1) := by
  intro levels steps earlier depths id term role place path value isSettled promised hasRole low many
    areEarlier enough
  obtain ⟨fewer, rfl⟩ := Nat.exists_eq_succ_of_ne_zero (Nat.ne_zero_of_lt many)
  obtain ⟨_, kind, isRole, serves, is⟩ := packs.serving.serves id term promised
  cases hasRole_inj hasRole isRole
  have handoffs := packs.handoffsOf_eq serves
  funext state
  rw [writeWrapped_eq (areEarlier.isNew is.declares handoffs), guarded_eq enough.mayOpen]
  refine congrFun (packs.writeVariable_congr (isLikeness_eq document promises settled) isSettled
    promised hasRole rfl ?_ (idle.agreeInside packs low enough)) state
  intro inner innerTerm innerRole innerPlace innerSettled innerPromised hasInner less _
  exact idle innerSettled innerPromised hasInner low (by omega)
    (areEarlier.next is.declares handoffs less) (enough.onward less)

theorem Packs.guardsIdle (packs : Packs packer heap document promises settled) (beyond : Writer)
    (openings : Nat) : GuardsIdle packer heap document promises settled beyond openings := by
  induction openings with
  | zero =>
      intro _ _ _ _ _ _ _ _ _ _ _ _ _ _ _ _ enough
      exact absurd enough.enough (Nat.not_lt_zero _)
  | succ openings ih => exact ih.succ packs

/-- A document is packed with guards as it is without them. -/
theorem Packs.packGuarded_eq (packs : Packs packer heap document promises settled)
    (beyond : Writer) {root : TypeId} (isSettled : settled root)
    (promised : promises root ⟨document, false, false⟩) (value : Json) :
    packer.packGuarded beyond root value = packer.pack root value := by
  obtain ⟨role, kind, hasRole, serves, is⟩ := packs.serving.serves root _ promised
  obtain ⟨type, typed, align, shows⟩ := packs.shows isSettled is.declares
  have few := role.handoffs_lt_four
  have enough : packer.Suffices (4 * (packer.maxDepth + 1) - 1 + 1) [] Path.root.depth
      role.handoffs := by
    have top : Path.root.depth = 0 := rfl
    exact ⟨by omega, by rw [List.count_nil]; omega, nofun, by omega⟩
  have idle := packs.guardsIdle beyond (4 * (packer.maxDepth + 1) - 1)
  have onward : AgreeOnward document promises settled (fun _ part other => part = other)
      (packer.writeWrapped (packer.write value.height) handoffLimit [])
      (packer.guarded beyond (4 * (packer.maxDepth + 1) - 1) [Path.root.depth])
      role.handoffs Path.root value value :=
    fun inner innerTerm innerRole innerPlace innerSettled innerPromised hasInner less _ =>
      idle innerSettled innerPromised hasInner (Nat.le_refl _) (handoffs_lt_limit innerRole) nofun
        (enough.onward less)
  have instances (place : Offset) := @Packs.writeInstance_congr _ _ _ _ _ _ _ _ _ _ place _ value _
    _ _ _ _ packs (isLikeness_eq document promises settled) isSettled promised hasRole shows.found
    rfl onward (idle.agreeInside packs (Nat.le_refl _) enough)
  unfold packGuarded pack
  simp only [ask_ok shows.found, pure_bind, instances]

end Guards

end Nesting

/-! ### Compiled text schemas -/

/-- Packing with a compiled text schema enters no path that is longer than the limit, and has four
instances at most open at a depth, so that `4 * (maxDepth + 1)` are open inside each other at most:
whatever else were done instead would not be noticed.  Nor is the descent ever cut off. -/
theorem nesting_of_pack {document : Json} {options : CompileOptions} {container : Container}
    (accepted : compile document options = .ok container) {target : Target}
    {pointerBase maxDepth : Nat} {root : TypeId}
    (isRoot : container.schema.root (container.context target) = .ok root) :
    (forall beyond value,
      (container.packer target pointerBase maxDepth).packGuarded beyond root value =
        (container.packer target pointerBase maxDepth).pack root value) ∧
    forall value state after, value.WellFormed -> state.data.Writable ->
      (container.packer target pointerBase maxDepth).pack root value state ≠
        .error (.fault .endlessDescent) after := by
  refine ⟨fun beyond value => ?_, fun value state after wellFormed writable fails => ?_⟩
  · obtain ⟨heap, promises, settled, holds, serving⟩ := isCompiled_of_compile accepted target
    have packs : Packs (container.packer target pointerBase maxDepth) heap document promises
        settled := ⟨holds.told, serving⟩
    obtain ⟨compiled, isCompiled, promised, isSettled⟩ := serving.root
    unfold Schema.root at isRoot
    rw [isCompiled] at isRoot
    cases isRoot
    exact packs.packGuarded_eq beyond isSettled promised value
  · have refused := (run_pack_of_compile accepted isRoot wellFormed writable).of_error fails
    rcases refused.cause with expected | ⟨_, _, impossible, _⟩
    · exact expected.elim
    · cases impossible

/-- A text in place of an integer that may fail is packed with eight instances at most. -/
theorem nesting_of_pack_fallible : exists container root data,
    compile fallibleSchema {} = .ok container ∧
    container.schema.root (container.context .wasm32) = .ok root ∧ Arena.owned {} = .ok data ∧
    let value := Json.object [("n", .string "x")]
    let packer := container.packer .wasm32 0 1
    (forall beyond, packer.packGuarded beyond root value = packer.pack root value) ∧
    forall after, packer.pack root value ⟨data, []⟩ ≠ .error (.fault .endlessDescent) after := by
  obtain ⟨container, root, _, _, accepted, isRoot, _⟩ := exists_fallibleContainer .wasm32
  obtain ⟨data, isFresh, writable, _⟩ := exists_freshArena
  have wellFormed : (Json.object [("n", .string "x")]).WellFormed :=
    .object (by decide) fun member isMember => by
      cases List.mem_singleton.mp isMember
      exact .string _
  obtain ⟨same, ends⟩ := @nesting_of_pack _ _ _ accepted .wasm32 0 1 _ isRoot
  exact ⟨container, root, data, accepted, isRoot, isFresh, fun beyond => same beyond _,
    fun after => ends _ _ after wellFormed writable⟩

end Packer
end PackedJson
