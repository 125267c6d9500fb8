import PackedJson.Proofs.TextSchema.Failures
import PackedJson.Proofs.TextSchema.Spanning

namespace PackedJson
namespace TextSchema

open Heap Builder

/-!
Text schemas that are accepted.

A text schema without flaws is compiled whenever its arena has room for what
its draft accounts for, once for each target, and none of its types is too
large.
-/

/-- A drafted text schema is compiled where there is room for its types and
they do not span too much. -/
theorem exists_compiled {document : Json} {options : CompileOptions} {slice : Option String}
    {builder : Builder} (isSlice : sliceOf document = .ok slice)
    (isBuilder : Builder.ofConfig options.arena = .ok builder) {drafted : Drafted Ref}
    (drafts : draftTarget document options.rootName slice Draft.empty = .ok drafted)
    (room : 2 * drafted.cost ≤ builder.arena.spare) {bound : Nat}
    (spans : drafted.draft.Spans drafted.result bound) (small : bound < 2 ^ 32) :
    exists container, compile document options = .ok container ∧
      Bodies drafted.draft drafted.result (slice.getD "") container.context container.arena := by
  have ends := ends_compile isSlice isBuilder
  cases compiles : compile document options with
  | ok container =>
      rw [compiles] at ends
      obtain ⟨same, again, bodies⟩ := ends
      cases drafts.symm.trans again
      exact ⟨container, rfl, bodies⟩
  | error failure =>
      rw [compiles] at ends
      cases failure with
      | invalid pointer flaw => cases drafts.symm.trans ends
      | outOfMemory cause => exact absurd (ends drafted drafts) (Nat.not_lt_of_le room)
      | schema cause =>
          obtain ⟨target, context, state, _, same, setting, ids, heap, rootId, again, _, _,
            assembled, stops⟩ := ends
          cases drafts.symm.trans again
          obtain ⟨ref, _, _, _, reached, _, _, _, _, _, large⟩ := assembled.exists_oversized stops
          obtain ⟨sizeOf, exact⟩ := assembled.complete.exists_exact setting.target
          have size := spans.2 drafted.draft (.refl _) setting.target sizeOf
            (assembled.complete.measures exact) ref reached
          exact absurd (large sizeOf exact) (Nat.not_le_of_lt (Nat.lt_of_le_of_lt size small))

theorem slice_of_compileTarget (document : Json) (rootName : String) (target : Target)
    (start : State) : Run (compileTarget document rootName none target) start
      (fun context _ => context.slice = TextRef.empty) (fun _ _ => True) := by
  have any {Result : Type} (step : CompileM Result) (state : State) :
      Run step state (fun _ _ => True) (fun _ _ => True) := by
    unfold Run
    cases step state <;> trivial
  unfold compileTarget
  refine Run.andThen (any _ _) ?_ (fun _ _ => id)
  intro _ _ _
  refine Run.andThen (any _ _) ?_ (fun _ _ => id)
  intro context _ _
  refine Run.andThen (any _ _) ?_ (fun _ _ => id)
  intro root middle _
  have noSlice : Run (build (storeSlice none)) middle (fun stored _ => stored = TextRef.empty)
      (fun _ _ => True) := rfl
  refine Run.andThen noSlice ?_ (fun _ _ => id)
  rintro _ _ rfl
  refine Run.andThen (any _ _) ?_ (fun _ _ => id)
  exact fun _ _ _ => rfl

/-- A text schema that does not mention a part of documents describes all of them. -/
theorem slice_of_compile {document : Json} {options : CompileOptions} {container : Container}
    (noSlice : sliceOf document = .ok none) (accepted : compile document options = .ok container)
    (target : Target) : (container.context target).slice = TextRef.empty := by
  obtain ⟨_, builder, _, steps⟩ := exists_steps accepted
  cases noSlice.symm.trans steps.isSlice
  have both : Run (compileTargets document options.rootName none) ⟨builder, [], [], []⟩
      (fun contexts _ => contexts.1.slice = TextRef.empty ∧ contexts.2.slice = TextRef.empty)
      (fun _ _ => True) := by
    refine Run.andThen (slice_of_compileTarget document options.rootName .wasm32 _) ?_ (fun _ _ => id)
    intro wasm middle isEmpty
    refine Run.andThen (slice_of_compileTarget document options.rootName .native middle) ?_
      (fun _ _ => id)
    exact fun native _ isEmptyToo => ⟨isEmpty, isEmptyToo⟩
  obtain ⟨isEmpty, isEmptyToo⟩ := both.of_ok steps.ends
  cases target with
  | wasm32 => exact isEmpty
  | native => exact isEmptyToo

/-- The text schema that names a type. -/
def namedSchema (name : String) : Json := .object [("type", .string name)]

/-- A text schema that describes integers is compiled where there is room for
the builtins and for its slice. -/
theorem exists_compiledInteger {document : Json} {options : CompileOptions} {slice : Option String}
    {builder : Builder} {cost : Nat} (isSlice : sliceOf document = .ok slice)
    (isBuilder : Builder.ofConfig options.arena = .ok builder)
    (drafts : draftTarget document options.rootName slice Draft.empty =
      .ok ⟨.builtin .integer, Draft.empty, cost⟩)
    (room : 2 * cost ≤ builder.arena.spare) :
    exists container, compile document options = .ok container ∧
      forall target, container.schema.root (container.context target) =
        .ok ((container.context target).builtin .integer) := by
  let drafted : Drafted Ref := ⟨.builtin .integer, Draft.empty, cost⟩
  obtain ⟨container, accepted, heap, holds, embodied⟩ := exists_compiled isSlice isBuilder drafts room
    (drafted.draft.spans_builtin .integer) (by decide)
  refine ⟨container, accepted, fun target => ?_⟩
  obtain ⟨_, site, settled, embodies⟩ := embodied target
  obtain ⟨root, isRoot, ⟨_, isInteger⟩, _⟩ := embodies.root
  unfold Schema.root
  rw [isRoot, embodies.builtins]
  exact congrArg Except.ok (Option.some.inj isInteger).symm

/-- By default there is room for the schema of integers. -/
theorem exists_integerContainer : exists container, compile (namedSchema "integer") {} = .ok container ∧
    forall target, container.schema.root (container.context target) =
      .ok ((container.context target).builtin .integer) := by
  obtain ⟨builder, isBuilder, spare⟩ : exists builder,
      Builder.ofConfig {} = .ok builder ∧ builder.arena.spare = 65535 := ⟨_, rfl, rfl⟩
  have drafts : draftTarget (namedSchema "integer") "Root" none Draft.empty =
      .ok ⟨.builtin .integer, Draft.empty, 8194⟩ := rfl
  have enough : 2 * 8194 ≤ builder.arena.spare := spare ▸ by decide
  exact @exists_compiledInteger (namedSchema "integer") {} none builder 8194 rfl isBuilder drafts
    enough

end TextSchema
end PackedJson
