import PackedJson.Proofs.Packing.Captures
import PackedJson.Proofs.Schema.Rearranging

namespace PackedJson
namespace TextSchema

open Heap Builder Layout

/-!
Layouts of compiled text schemas are final.

When a text schema has been compiled, all types that its root leads to are
laid out, also those that only pointers lead to.  Laying them out again, one
by one or all types of a context at once, succeeds and changes no byte.
-/

/-- The types of a target, as they are after their layout. -/
def finishedPlan (heap : Heap) (target : Target) (settled : TypeId -> Prop) : Plan :=
  ⟨Heap.empty, heap, target, settled⟩

namespace Embodies

variable {draft : Draft} {root : Ref} {heap : Heap} {target : Target} {context : Context}
  {site : Site} {settled : TypeId -> Prop}

/-- The types of a target are laid out, and none of them contains itself inline. -/
theorem finished (embodies : Embodies draft root heap target context site settled) {arena : Arena}
    (holds : heap.Holds arena) : (finishedPlan heap target settled).Finished arena := by
  refine ⟨holds, embodies.layout, fun id declaration isSettled declares isVariant => ?_,
    fun id isSettled => ?_⟩
  · obtain ⟨ref, finds⟩ := embodies.found id isSettled
    obtain ⟨_, _, _, _, members, _, found, ownDeclares⟩ := embodies.outlined ref id finds
    cases declares_inj declares ownDeclares
    exact found.length_eq ▸ two_le_parts embodies.complete isVariant
  · obtain ⟨ref, finds⟩ := embodies.found id isSettled
    refine embodies.complete.irreflexive embodies.distinct (fun ref outer inner found inlines => ?_) finds
    obtain ⟨_, _, outlined⟩ := embodies.outlined ref outer found
    exact outlined.inlines (finishedPlan heap target settled) (fun _ _ _ => embodies.isByReference_eq) inlines

end Embodies

section Accepted

variable {document : Json} {options : CompileOptions} {container : Container}

/-- The types of a compiled text schema are laid out for good.  Laying out a context again, with
whatever table of instances, succeeds and leaves the arena as it is; so does laying out any of the
types that its root leads to, which are answered as they are stored. -/
theorem arrange_of_compile (accepted : compile document options = .ok container) (target : Target)
    (instances : Instances) :
    Layout.arrangeContext (container.context target) target ⟨container.arena, instances⟩ =
        .ok () ⟨container.arena, instances⟩ ∧
      exists root, container.schema.root (container.context target) = .ok root ∧
        forall id, container.schema.Reaches root id -> exists type,
          container.schema.type id = .ok type ∧
          Layout.arrange target id ⟨container.arena, instances⟩ =
            .ok type ⟨container.arena, instances⟩ := by
  obtain ⟨_, drafted, _, _, heap, holds, embodied⟩ := bodies_of_compile accepted
  obtain ⟨_, site, settled, embodies⟩ := embodied target
  have told : heap.ToldBy container.schema := holds.told
  obtain ⟨root, isRoot, _, rootSettled⟩ := embodies.root
  have finished : (finishedPlan heap target settled).Finished
      (Builder.mk container.arena instances).arena := embodies.finished holds
  refine ⟨finished.arrangeContext_eq isRoot rootSettled embodies.text embodies.unit, root, ?_,
    fun id reaches => ?_⟩
  · unfold Schema.root
    rw [isRoot]
  · have isSettled := settled_of_reaches told embodies.layout rootSettled reaches
    obtain ⟨type, _, _, _, stored, _⟩ := embodies.layout.laidOut id isSettled
    exact ⟨type, told.type stored, finished.arrange_eq isSettled stored⟩

/-- An object whose integer may fail is laid out for good, and so is the result that it contains. -/
theorem arrange_of_compile_fallible : exists container root id type,
    compile Packer.fallibleSchema {} = .ok container ∧
    container.schema.root (container.context .native) = .ok root ∧
    container.schema.Reaches root id ∧
    type.prototype = some ((container.context .native).builtin .result) ∧
    Layout.arrangeContext (container.context .native) .native ⟨container.arena, []⟩ =
      .ok () ⟨container.arena, []⟩ ∧
    Layout.arrange .native id ⟨container.arena, []⟩ = .ok type ⟨container.arena, []⟩ := by
  obtain ⟨container, root, id, type, accepted, isRoot, reaches, found, isResult, _⟩ :=
    Packer.exists_fallibleContainer .native
  obtain ⟨all, _, sameRoot, each⟩ := arrange_of_compile accepted .native []
  cases isRoot.symm.trans sameRoot
  obtain ⟨_, again, arranged⟩ := each id reaches
  cases found.symm.trans again
  exact ⟨container, root, id, type, accepted, isRoot, reaches, isResult, all, arranged⟩

end Accepted

end TextSchema
end PackedJson
