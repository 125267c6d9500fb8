import PackedJson.Proofs.Packing.Integers
import PackedJson.Proofs.TextSchema.Belonging
import PackedJson.Proofs.TextSchema.Embodiment

namespace PackedJson
namespace Packer

open Arena TextSchema Heap Builder Layout

/-!
Captured violations.

Where a property may fail, its value is attempted.  If it commits violations,
the first of them is kept as a text, and nothing else is left of the attempt:
the variable holds a tag, the words of the text and zeros, the violations are
those from before, and no byte outside the variable has changed.
-/

/-- The layout of a type for values that may fail: a tag at its start, and one
place for the value and for the text of its violation. -/
structure IsFallible (packer : Packer) (type : TypeDef) (inner : TypeId) (payload : Nat)
    (layout : Schema.ArrayLayout) : Prop where
  argument : type.argument = some inner
  fields : exists tag success failure,
    packer.schema.fieldsInOrder type = .ok [tag, success, failure] ∧ tag.offset = 0 ∧
    success.type = some inner ∧ success.offset.toNat = payload ∧
    failure.type = some (packer.context.builtin .string) ∧ failure.offset.toNat = payload
  text : exists text, packer.schema.type (packer.context.builtin .string) = .ok text ∧
    packer.schema.arrayLayout text = .ok layout

/-- A value was handed on by options at most. -/
def ByOptions (packer : Packer) (root : TypeId) (earlier : List Handoff) : Prop :=
  forall handoff, handoff ∈ earlier -> exists type, packer.schema.Reaches root handoff.type ∧
    packer.schema.type handoff.type = .ok type ∧
    type.prototype = some (packer.context.builtin .option)

section Attempts

variable {packer : Packer} {heap : Heap} {document : Json} {promises : Promises}
  {settled : TypeId -> Prop} {id inner : TypeId} {type : TypeDef} {tag zero one : Typed}
  {payload levels : Nat} {place : Offset} {path : Path} {value : Json} {state : PackState}
  {term innerTerm : Term} {layout : Schema.ArrayLayout} {same : Writer} {first : Violation}
  {others : List Violation}

/-- The region of an instance behind its tag. -/
def behindTag (place : Offset) (type : TypeDef) : Extent :=
  ⟨place.toNat + 1, type.size.toNat - 1⟩

/-- In a variable that was empty there are zeros all around a captured violation. -/
theorem IsCaptured.behind_tag {message : String} {before after : Arena} {fresh : List Extent}
    (captured : packer.IsCaptured (restOf place type payload) payload layout place message before
      after) (room : HasRoom before (instanceOf place type))
    (zeroed : before.Zero (instanceOf place type))
    (evolves : Evolves [tagOf place, restOf place type payload] before fresh after) :
    packer.IsCaptured (behindTag place type) payload layout place message before after := by
  refine ⟨captured.tag, captured.text, fun position has misses => ?_⟩
  obtain ⟨behind, ahead⟩ := has
  simp only [behindTag] at behind ahead
  have inInstance : (instanceOf place type).Has position := by
    simp only [Extent.Has, instanceOf]
    omega
  rcases Nat.lt_or_ge position (place.toNat + payload) with inGap | inRest
  -- Nothing was written between the tag and the payload.
  · have inUse := Nat.lt_of_lt_of_le inInstance.2 room.end_le
    refine (evolves.byteAt_of_misses room.writable inUse fun region member => ?_).trans
      (zeroed position inInstance)
    simp only [List.mem_cons, List.not_mem_nil, or_false] at member
    rcases member with rfl | rfl
    · exact Or.inr behind
    · exact Or.inl inGap
  · refine captured.zeros position ⟨inRest, ?_⟩ misses
    simp only [restOf]
    omega

/-- The first violation of a value that may fail is captured. -/
theorem does_result_captured (isText : IsText packer one.2 layout)
    (result : IsResult packer type inner tag zero one payload)
    (writes : Writes document packer same inner innerTerm path value)
    (room : HasRoom state.data (instanceOf place type))
    (judges : Judges document packer.maxDepth (.asked innerTerm path value)
      (.violates first others)) :
    Does [tagOf place, restOf place type payload] (packer.result same type place path value) state
      fun _ _ after => packer.IsCaptured (restOf place type payload) payload layout place
        first.message state.data after.data := by
  have tagged := result.tagged
  obtain ⟨region, isPayload, _⟩ := tagged.payload_inside List.mem_cons_self room
  obtain ⟨alternative, isInner, -, found⟩ := result.zero.type
  cases isInner
  have covers : Covers [tagOf place, restOf place type payload]
      [variableOf (place.advance payload) zero.2] := by
    have fits := (tagged.fits zero List.mem_cons_self).2
    have behind := tagged.behind
    refine .single (List.mem_cons_of_mem _ List.mem_cons_self) ?_
    rw [region]
    exact ⟨Nat.le_refl _, by simp only [restOf]; omega⟩
  -- The verdict on the value leaves no other end of the attempt.
  have attempts : Does [variableOf (place.advance payload) zero.2]
      (attempt (same inner (place.advance payload) path value)) state
      fun captured _ _ => captured = some first := by
    refine Run.imp (writes zero.2 _ state found (room.inside isPayload)).attempt ?_
      fun _ _ refuses => refuses.mono fun _ => ⟨_, judges⟩
    rintro captured after ⟨fresh, moves, attempted⟩
    refine ⟨fresh, moves, ?_⟩
    cases captured with
    | none =>
        obtain ⟨_, fits, _⟩ := attempted
        cases judges_inj judges fits
    | some violation =>
        obtain ⟨_, violates⟩ := attempted
        cases judges_inj judges violates
        rfl
  rw [result.steps_eq room]
  refine attempts.andThen covers ?_
  rintro _ fresh middle moves rfl
  refine ((does_capture isText result (room.moved moves)).imp ?_).covered (Covers.refl _).append
  intro _ more after _ captured
  obtain ⟨start, behind, wrote⟩ := captured.text
  exact ⟨captured.tag, ⟨start, Nat.le_trans (moves.evolves.grown room.writable).used behind, wrote⟩,
    captured.zeros⟩

/-- The type of a value that may fail is written by an attempt, also when the
value was handed on to it. -/
theorem Packs.exists_result (packs : Packs packer heap document promises settled)
    (isSettled : settled id)
    (hasRole : HasRole document term (.result innerTerm)) (innerPromised : promises inner innerTerm)
    (is : IsKind heap packer.target packer.context id (.result inner))
    (found : packer.schema.type id = .ok type) :
    exists tag zero one payload layout, IsText packer one.2 layout ∧
      IsResult packer type inner tag zero one payload ∧ settled inner ∧
      forall {lower steps : Nat} {earlier : List Handoff} {value : Json} (place : Offset)
        (path : Path) (state : PackState), value.WellFormed -> value.height ≤ lower -> 2 < steps ->
        AreEarlier packer heap earlier 2 -> exists same,
          Writes document packer same inner innerTerm path value ∧
          packer.writeWrapped (packer.write lower) steps earlier id place path value state =
            packer.result same type place path value state := by
  have innerSettled := packs.settled_argument isSettled is.declares rfl
  obtain ⟨_, typed, align, shows⟩ := packs.shows isSettled is.declares
  cases found.symm.trans shows.found
  obtain ⟨innerRole, _, hasInner, _⟩ := packs.serving.serves _ _ innerPromised
  obtain ⟨tag, zero, one, payload, result⟩ := shows.isWrapper packs rfl rfl rfl rfl rfl
  obtain ⟨text, layout, isText⟩ := packs.text (packs.settled_member isSettled is.declares
    (List.mem_cons_of_mem _ (List.mem_cons_of_mem _ List.mem_cons_self)) rfl)
  obtain ⟨_, isString, _, isOne⟩ := result.one.type
  cases isString
  cases isText.found.symm.trans isOne
  refine ⟨tag, zero, one, payload, layout, isText, result, innerSettled, ?_⟩
  intro lower steps earlier value place path state wellFormed low enough areEarlier
  obtain ⟨fewer, rfl⟩ := Nat.exists_eq_succ_of_ne_zero (Nat.ne_zero_of_lt enough)
  have handoffs : handoffsOf packer.context ((Kind.result inner).declaration packer.context) = 2 :=
    packs.handoffsOf_eq (.result innerPromised)
  have less := handoffs_of_result hasRole hasInner
  have parts : WritesInside document packer promises settled (packer.write lower) value :=
    fun _ _ _ _ partSettled partPromised partWellFormed lesser =>
      packs.writes partSettled partPromised partWellFormed (by omega)
  refine ⟨_, packs.writes_wrapped innerSettled innerPromised hasInner wellFormed parts
    (by omega : innerRole.handoffs < fewer)
    (@AreEarlier.next packer heap id _ place earlier _ _ state.data.used areEarlier is.declares
      handoffs less), ?_⟩
  have instanceIs (same : Writer) : packer.writeInstance same (packer.write lower) id type place path
      value = packer.result same type place path value := by
    rw [packs.writeInstance_declared is.declares rfl shows rfl, if_neg (by decide), if_pos rfl]
  rw [writeWrapped_eq (@AreEarlier.isNew packer heap id _ place earlier _ _ areEarlier is.declares
    handoffs)]
  unfold writeVariable
  rw [ask_ok found, pure_bind, if_neg (Bool.not_eq_true _ ▸ (shows.inline rfl).1), instanceIs]

/-- The places of a result and of its alternatives. -/
theorem IsResult.isFallible (result : IsResult packer type inner tag zero one payload)
    (isText : IsText packer one.2 layout) (argument : type.argument = some inner) :
    IsFallible packer type inner payload layout := by
  obtain ⟨_, isZero, zeroType, _⟩ := result.zero.type
  cases isZero
  obtain ⟨_, isOne, oneType, _⟩ := result.one.type
  cases isOne
  have tagged := result.tagged
  have second : one ∈ [zero, one] := List.mem_cons_of_mem _ List.mem_cons_self
  exact ⟨argument, ⟨tag.1, zero.1, one.1, tagged.inOrder, tagged.atStart, zeroType,
    (tagged.fits zero List.mem_cons_self).1, oneType, (tagged.fits one second).1⟩,
    ⟨one.2, isText.found, isText.isArray.isLayout⟩⟩

/-- A value that cannot be written has a violation, the first of those that were noted. -/
theorem violates_of_error {write : Writer} {failed : PackState}
    (writes : Writes document packer write inner innerTerm path value)
    (found : packer.schema.type inner = .ok type)
    (room : HasRoom state.data (variableOf place type))
    (fails : write inner place path value state = .error (.violation first) failed) :
    exists others, failed.violations = state.violations ++ first :: others ∧
      Judges document packer.maxDepth (.asked innerTerm path value) (.violates first others) := by
  obtain ⟨_, expected | ⟨_, others, same, noted, judges⟩⟩ :=
    (writes type place state found room).of_error fails
  · exact expected.elim
  · cases same
    exact ⟨others, noted, judges⟩

/-- A value that options handed on was not handed on by a result. -/
theorem Packs.areEarlier_of_byOptions (packs : Packs packer heap document promises settled)
    {root : TypeId} (isRoot : packer.schema.root packer.context = .ok root)
    {earlier : List Handoff} (byOptions : ByOptions packer root earlier) :
    AreEarlier packer heap earlier 2 := by
  intro handoff member
  obtain ⟨type, reaches, found, isOption⟩ := byOptions handoff member
  obtain ⟨isSettled, _⟩ := packs.serving.belongs_of_reaches packs.told isRoot reaches
  obtain ⟨declaration, declares, _⟩ := packs.serving.layout.declared _ isSettled
  obtain ⟨_, _, _, shows⟩ := packs.shows isSettled declares
  cases found.symm.trans shows.found
  refine ⟨declaration, declares, ?_⟩
  unfold handoffsOf
  rw [if_pos (shows.prototype.symm.trans isOption)]
  decide

/-- In an empty variable nothing but the text of the first violation is left of an attempt. -/
theorem run_result_captured (isText : IsText packer one.2 layout)
    (result : IsResult packer type inner tag zero one payload)
    (writes : Writes document packer same inner innerTerm path value)
    (room : HasRoom state.data (instanceOf place type))
    (zeroed : state.data.Zero (instanceOf place type))
    (judges : Judges document packer.maxDepth (.asked innerTerm path value)
      (.violates first others)) :
    Run (packer.result same type place path value) state
      (fun _ after => after.violations = state.violations ∧
        Preserves (fun position => position < state.data.used ∧
          (instanceOf place type).Misses position) state.data after.data ∧
        IsCaptured packer (behindTag place type) payload layout place first.message state.data
          after.data)
      (fun failure _ => exists cause, failure = .outOfMemory cause) := by
  obtain ⟨_, rest, _, _⟩ := result.payload_rest isText room
  have isTag := result.tagged.tag_inside place
  refine Run.imp (does_result_captured isText result writes room judges) ?_ ?_
  · rintro _ after ⟨fresh, moves, captured⟩
    refine ⟨moves.violations, ?_, captured.behind_tag room zeroed moves.evolves⟩
    refine moves.evolves.preserves room.writable (fun position kept => kept.1) ?_
    intro position kept region member
    simp only [List.mem_cons, List.not_mem_nil, or_false] at member
    rcases member with rfl | rfl
    · exact kept.2.inside isTag
    · exact kept.2.inside rest
  · rintro failure _ ⟨expected, _⟩
    cases failure with
    | outOfMemory cause => exact ⟨cause, rfl⟩
    | schema cause =>
        cases cause with
        | noVariantCandidate => exact absurd trivial expected
        | _ => exact expected.elim
    | _ => exact expected.elim

end Attempts

/-! ### Failures of properties -/

section Properties

variable {text : Json} {options : CompileOptions} {container : Container} {target : Target}
  {pointerBase maxDepth : Nat} {root id : TypeId} {type : TypeDef}

end Properties

/-! ### A number that may fail -/

/-- The text schema of objects with an integer that may fail. -/
def fallibleSchema : Json := .object
  [("properties", .object
    [("n", .object [("type", .string "integer"), ("x-can-fail", .boolean true)])]),
    ("required", .array [.string "n"])]

/-- By default there is room for the schema, and the type of its integer is small. -/
theorem exists_fallibleContainer (target : Target) : exists container root id type,
    compile fallibleSchema {} = .ok container ∧
    container.schema.root (container.context target) = .ok root ∧
    container.schema.Reaches root id ∧ container.schema.type id = .ok type ∧
    type.prototype = some ((container.context target).builtin .result) ∧
    type.argument = some ((container.context target).builtin .integer) ∧
    type.size.toNat ≤ 200 := by
  obtain ⟨builder, isBuilder, spare⟩ : exists builder,
      Builder.ofConfig {} = .ok builder ∧ builder.arena.spare = 65535 := ⟨_, rfl, rfl⟩
  obtain ⟨⟨root, draft, cost⟩, sketch, part, drafts, isRoot, enough, found, parts, isResult⟩ :
      exists drafted sketch part,
        draftTarget fallibleSchema "Root" none Draft.empty = .ok drafted ∧
        drafted.result = .declared 0 ∧ 2 * drafted.cost ≤ 65535 ∧
        drafted.draft.sketches[0]? = some sketch ∧ sketch.parts = some [part] ∧
        part.type = .applied .result (.builtin .integer) :=
    ⟨_, _, _, rfl, rfl, by decide +kernel, rfl, rfl, rfl⟩
  cases isRoot
  have inner : draft.Spans part.type 100 := isResult ▸ (draft.spans_builtin .integer).result
  have spansParts : draft.SpansParts [part] 107 := ⟨100, 0, inner, trivial, Nat.le_refl _⟩
  have spans : draft.Spans (.declared 0) 115 := spansParts.declared found parts (Nat.le_refl _)
  obtain ⟨container, accepted, heap, holds, embodied⟩ := @exists_compiled fallibleSchema {} none
    builder rfl isBuilder _ drafts (spare ▸ enough) _ spans (by decide)
  obtain ⟨_, site, settled, embodies⟩ := embodied target
  have reached : draft.Reaches (.declared 0) (.applied .result (.builtin .integer)) := by
    refine .next .root ?_
    rw [Draft.outline_of_some found, Outline.successors, Sketch.outline, parts, ← isResult]
    exact List.mem_append_left _ List.mem_cons_self
  obtain ⟨root, id, type, fields, isRoot, reaches, found, is, size⟩ :=
    embodies.exists_reachedType holds reached spans
  obtain ⟨argument, _, _, isArgument, argumentFinds, _⟩ := embodies.exists_argument is
  refine ⟨container, root, id, type, accepted, isRoot, reaches, found, is.prototype, ?_,
    Nat.le_trans size (by decide)⟩
  rw [isArgument, embodies.builtins]
  exact argumentFinds.2.symm

end Packer
end PackedJson
