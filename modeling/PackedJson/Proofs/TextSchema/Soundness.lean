import PackedJson.Proofs.Schema.Soundness
import PackedJson.Proofs.TextSchema.Acceptance

namespace PackedJson
namespace TextSchema

/-!
Compiled text schemas are laid out soundly.
-/

/-- Every type that can be reached from the root of a compiled text schema can
be read, refers to types that can be read, and is laid out soundly. -/
theorem layout_sound {document : Json} {options : CompileOptions} {container : Container}
    (accepted : compile document options = .ok container) (target : Target) :
    exists root, container.schema.root (container.context target) = .ok root ∧
      forall id, container.schema.Reaches root id ->
        exists type fields align successors, container.schema.type id = .ok type ∧
          container.schema.successors id = .ok successors ∧
          container.schema.IsSound target type fields align := by
  obtain ⟨heap, promises, settled, holds, serving⟩ := isCompiled_of_compile accepted target
  obtain ⟨root, isRoot, _, rootSettled⟩ := serving.root
  refine ⟨root, ?_, fun id reaches => ?_⟩
  · unfold Schema.root
    rw [isRoot]
  · have isSettled := Layout.settled_of_reaches holds.told serving.layout rootSettled reaches
    obtain ⟨declaration, declares, _⟩ := serving.layout.declared id isSettled
    obtain ⟨type, fields, align, stored, sound, _⟩ :=
      Layout.exists_isSound holds.told serving.layout isSettled
    exact ⟨type, fields, align, _, stored, Layout.successors_eq holds.told declares, sound⟩

/-- The schema of integers is laid out for a host. -/
theorem layout_sound_integer : exists container, compile (namedSchema "integer") {} = .ok container ∧
    exists root, container.schema.root (container.context .native) = .ok root ∧
      forall id, container.schema.Reaches root id ->
        exists type fields align successors, container.schema.type id = .ok type ∧
          container.schema.successors id = .ok successors ∧
          container.schema.IsSound .native type fields align := by
  obtain ⟨container, accepted, _⟩ := exists_integerContainer
  exact ⟨container, accepted, layout_sound accepted .native⟩

end TextSchema
end PackedJson
