import Mathlib.Data.List.Perm.Subperm
import PackedJson.Proofs.Packing.Documents
import PackedJson.Proofs.TextSchema.Fitting
import PackedJson.Proofs.TextSchema.Spanning

namespace PackedJson
namespace TextSchema

open Builder

/-!
Documents and the text schemas that are inferred from them.

An inferred text schema has no flaws, and each of its types is used once.  So
its draft accounts for at least as much room as an instance takes, and it
compiles whenever its arena has twice that room.  The sample itself is then
packed, unless the destination is full, provided that no choice of the schema
has two alternatives for one kind of values.
-/

/-- Drafting ends well with what is good for the room it accounts for. -/
def Yields {Result : Type} (plan : DraftM Result) (draft : Draft)
    (good : Result -> Draft -> Nat -> Prop) : Prop :=
  exists drafted, plan draft = .ok drafted ∧ good drafted.result drafted.draft drafted.cost

section Combinators

variable {Result Next : Type} {plan : DraftM Result} {draft : Draft}
  {good : Result -> Draft -> Nat -> Prop}

theorem yields_of_ok {result : Result} {next : Draft} {cost : Nat}
    (ends : plan draft = .ok ⟨result, next, cost⟩) (isGood : good result next cost) :
    Yields plan draft good :=
  ⟨_, ends, isGood⟩

theorem Yields.andThen {rest : Result -> DraftM Next} {nextGood : Next -> Draft -> Nat -> Prop}
    (yields : Yields plan draft good)
    (continued : forall result next cost, good result next cost ->
      Yields (rest result) next fun last after more => nextGood last after (cost + more)) :
    Yields (plan >>= rest) draft nextGood := by
  obtain ⟨before, begins, isGood⟩ := yields
  obtain ⟨last, ends, lastGood⟩ := continued _ _ _ isGood
  exact ⟨_, DraftM.bind_of_ok begins ends, lastGood⟩

theorem Yields.imp {weaker : Result -> Draft -> Nat -> Prop} (yields : Yields plan draft good)
    (onGood : forall result next cost, good result next cost -> weaker result next cost) :
    Yields plan draft weaker := by
  obtain ⟨drafted, ends, isGood⟩ := yields
  exact ⟨drafted, ends, onGood _ _ _ isGood⟩

/-- What drafting ends well with is as all drafts of its kind are. -/
theorem Yields.also {shaped : Result -> Draft -> Prop} (yields : Yields plan draft good)
    (drafts : Drafts plan draft shaped) :
    Yields plan draft fun result next cost => good result next cost ∧ shaped result next := by
  obtain ⟨drafted, ends, isGood⟩ := yields
  exact ⟨drafted, ends, isGood, drafts drafted ends⟩

theorem yields_pure {result : Result} (isGood : good result draft 0) :
    Yields (pure result) draft good :=
  yields_of_ok rfl isGood

end Combinators

/-! ### Steps -/

section Steps

variable {draft : Draft} {ref : Ref} {bound : Nat}

/-- A type was drafted that spans what was accounted for. -/
def SpansCost (ref : Ref) (next : Draft) (cost : Nat) : Prop := next.Spans ref (cost + 24)

/-- An instance takes more room in the schema than an option or an array adds
to the room of instances. -/
theorem le_instanceCost (size : Nat) : 672 ≤ instanceCost size 2 := by
  unfold instanceCost instanceCost instanceCost
  omega

theorem yields_wrapped (spans : draft.Spans ref bound) {flags : FieldFlags}
    (noFailure : flags.contains FieldFlags.canFail = false) :
    Yields (draftWrapped ref flags) draft fun stored next cost =>
      draft = next ∧ draft.Spans stored (bound + cost) := by
  unfold draftWrapped
  rw [noFailure]
  have inner : Yields (pure ref) draft fun stored next cost =>
      stored = ref ∧ draft = next ∧ cost = 0 := yields_pure ⟨rfl, rfl, rfl⟩
  refine inner.andThen ?_
  rintro inner _ _ ⟨same, rfl, rfl⟩
  cases same
  split
  · exact yields_pure ⟨rfl, spans.mono (by omega)⟩
  · refine yields_of_ok rfl ⟨rfl, spans.option.mono ?_⟩
    have large := le_instanceCost (draft.nameOf ref).utf8ByteSize
    change bound + 76 ≤ bound + (0 + instanceCost _ 2)
    omega

theorem yields_companion (part : Part) (ident : String) (taken : List String) :
    Yields (draftCompanion part ident taken) draft fun answer next _ =>
      answer.1.type = part.type ∧ draft = next := by
  unfold draftCompanion
  dsimp only
  split
  · exact yields_pure ⟨rfl, rfl⟩
  · exact yields_of_ok rfl ⟨rfl, rfl⟩

/-- Parts were drafted that span what was accounted for, where each may use the
room of a field besides. -/
def SpansPartsCost (parts : List Part) (next : Draft) (cost : Nat) : Prop :=
  next.SpansParts parts (cost + 31 * parts.length)

theorem SpansCost.cons {part : Part} {parts : List Part} {next last : Draft} {cost more : Nat}
    (spans : SpansCost part.type next cost) (keeps : next.Keeps last)
    (others : SpansPartsCost parts last more) :
    SpansPartsCost (part :: parts) last (cost + more) := by
  refine ⟨_, _, keeps.spans spans, others, ?_⟩
  rw [List.length_cons]
  omega

end Steps

/-! ### Nodes -/

namespace Inferred

section Nodes

variable {draft : Draft} {drafter : NodeDrafter}

/-- A schema is drafted, with a type that spans what was accounted for. -/
def IsDrafted (drafter : NodeDrafter) (schema : Inferred) : Prop :=
  forall {draft : Draft} (pointer name : String), draft.Sound ->
    Yields (drafter schema.toJson pointer name none) draft SpansCost

/-- An inferred schema sets no marks. -/
theorem isSet_toJson (schema : Inferred) {flag : String} (unused : flag ∉ keywords) :
    isSet schema.toJson flag = false := by
  unfold isSet
  rw [member?_toJson schema unused]

theorem yields_property {schema : Inferred} (isDrafted : IsDrafted drafter schema)
    (sound : draft.Sound) (base owner name : String) (required taken : List String) :
    Yields (draftProperty drafter base owner required taken (name, schema.toJson)) draft
      fun answer => SpansCost answer.1.type := by
  unfold draftProperty
  refine (isDrafted _ _ sound).andThen ?_
  intro ref next cost spans
  have noFailure : FlagSet.contains ((FlagSet.empty.set FieldFlags.required
      (required.contains name)).set FieldFlags.canFail (isSet schema.toJson "x-can-fail"))
      FieldFlags.canFail = false :=
    (FieldFlags.contains_set _ _).2.trans (isSet_toJson schema (by decide))
  refine (yields_wrapped spans noFailure).andThen ?_
  rintro stored _ wrapCost ⟨rfl, wrapped⟩
  have room : Yields (draftRoom (textCost name)) next fun _ last _ => next = last :=
    yields_of_ok rfl rfl
  refine room.andThen ?_
  rintro _ _ nameCost rfl
  refine (yields_companion _ _ _).imp ?_
  rintro answer _ more ⟨sameType, rfl⟩
  unfold SpansCost
  rw [sameType]
  exact wrapped.mono (by omega)

theorem yields_properties (shapes : ShapesNodes drafter) {properties : List (String × Inferred)}
    (areDrafted : forall property, property ∈ properties -> IsDrafted drafter property.2)
    (sound : draft.Sound) (base owner : String) (required taken : List String) :
    Yields (draftProperties drafter base owner required (toMembers properties) taken) draft
      SpansPartsCost := by
  induction properties generalizing draft taken with
  | nil => exact yields_pure trivial
  | cons property rest ih =>
      obtain ⟨name, schema⟩ := property
      unfold toMembers draftProperties
      have first := yields_property (areDrafted _ List.mem_cons_self) sound base owner name required
        taken
      refine (first.also (drafts_property shapes sound base owner required taken _)).andThen ?_
      rintro answer next cost ⟨spans, nextSound, _, _⟩
      have others := ih (fun other member => areDrafted other (List.mem_cons_of_mem _ member))
        nextSound answer.2
      refine (others.also (drafts_properties shapes base owner required _ answer.2
        nextSound)).andThen ?_
      rintro parts last more ⟨spansParts, _, evolves, _⟩
      exact yields_pure (spans.cons evolves.keeps spansParts)

theorem yields_alternative {schema : Inferred} (isDrafted : IsDrafted drafter schema)
    (sound : draft.Sound) (pointer owner : String) (index : Nat) (taken : List String) :
    Yields (draftAlternative drafter pointer owner index taken schema.toJson) draft
      fun answer => SpansCost answer.1.type := by
  unfold draftAlternative
  refine (isDrafted _ _ sound).andThen ?_
  intro ref next cost spans
  have label : Yields (draftQuery fun draft => draft.nameOf ref) next fun _ last _ => next = last :=
    yields_of_ok rfl rfl
  refine label.andThen ?_
  rintro label _ queryCost rfl
  have room : Yields (draftRoom (textCost label)) next fun _ last _ => next = last :=
    yields_of_ok rfl rfl
  refine room.andThen ?_
  rintro _ _ labelCost rfl
  refine (yields_companion _ _ _).imp ?_
  rintro answer _ more ⟨sameType, rfl⟩
  unfold SpansCost
  rw [sameType]
  exact spans.mono (by omega)

theorem yields_alternatives (shapes : ShapesNodes drafter) {alternatives : List Inferred}
    (areDrafted : forall alternative, alternative ∈ alternatives -> IsDrafted drafter alternative)
    (sound : draft.Sound) (pointer owner : String) (index : Nat) (taken : List String) :
    Yields (draftAlternatives drafter pointer owner (toItems alternatives) index taken) draft
      SpansPartsCost := by
  induction alternatives generalizing draft index taken with
  | nil => exact yields_pure trivial
  | cons schema rest ih =>
      unfold toItems draftAlternatives
      have first := yields_alternative (areDrafted _ List.mem_cons_self) sound pointer owner index
        taken
      refine (first.also (drafts_alternative shapes sound pointer owner index taken _)).andThen ?_
      rintro answer next cost ⟨spans, nextSound, _, _⟩
      have others := ih (fun other member => areDrafted other (List.mem_cons_of_mem _ member))
        nextSound (index + 1) answer.2
      refine (others.also (drafts_alternatives shapes pointer owner _ (index + 1) answer.2
        nextSound)).andThen ?_
      rintro parts last more ⟨spansParts, ⟨_, evolves, _⟩, _⟩
      exact yields_pure (spans.cons evolves.keeps spansParts)

/-- A declared type is made before its parts are known. -/
theorem yields_opened {Next : Type} (sound : draft.Sound) (title : String) (shape : Shape)
    (node : Json) {plan : String -> Ref -> DraftM Next} {good : Next -> Draft -> Nat -> Prop}
    (yields : forall name next cost, Opens draft shape next -> typeCost ≤ cost ->
      Yields (plan name (.declared draft.sketches.length)) next fun result last more =>
        good result last (cost + more)) :
    Yields (do
      let name ← draftName title
      let ref ← draftDeclared name shape
      draftRegister none ref
      draftMark ref (nodeMarks node)
      plan name ref) draft good := by
  have isDefinition : forall reference, (none : Option String) = some reference ->
      reference ∈ draft.inProgress := nofun
  have opens : Drafts (do
      let name ← draftName title
      let ref ← draftDeclared name shape
      draftRegister none ref
      draftMark ref (nodeMarks node)
      return ()) draft fun _ next => Opens draft shape next :=
    drafts_opened sound title shape isDefinition node fun _ _ opens => drafts_pure opens
  let name := Text.Identifier.fresh draft.names title
  obtain ⟨last, ends, isGood⟩ := yields name _ (textCost name + typeCost) (opens _ rfl)
    (Nat.le_add_left _ _)
  refine yields_of_ok (DraftM.bind_of_ok rfl (DraftM.bind_of_ok rfl (DraftM.bind_of_ok rfl
    (DraftM.bind_of_ok rfl ends)))) ?_
  change good _ _ (0 + (textCost name + typeCost + (0 + (0 + last.cost))))
  simpa only [Nat.zero_add] using isGood

/-- A declared type spans the room of its parts once it has them. -/
theorem yields_closed {shape : Shape} {next last : Draft} (opens : Opens draft shape next)
    (evolves : next.Evolves last) {parts : List Part} {total : Nat}
    (spans : last.SpansParts parts total) :
    Yields (do
      draftParts (.declared draft.sketches.length) parts
      return Ref.declared draft.sketches.length) last
      fun ref closed cost => closed.Spans ref (total + 8) ∧ cost = fieldsCost parts.length := by
  obtain ⟨sketch, found, _, missing⟩ := opens.exists_missing evolves
  have keeps := Draft.Keeps.close found missing parts
  have closed : (last.change (.declared draft.sketches.length) fun sketch =>
      { sketch with parts := some parts }).sketches[draft.sketches.length]? =
        some { sketch with parts := some parts } := by
    rw [Draft.getElem?_change, if_pos rfl, found]
    rfl
  exact yields_of_ok rfl ⟨(keeps.spansParts spans).declared closed rfl (Nat.le_refl _), rfl⟩

theorem yields_array {items : Inferred} (isDrafted : IsDrafted drafter items) (sound : draft.Sound)
    (pointer title : String) :
    Yields (draftArray drafter (array items).toJson pointer title) draft SpansCost := by
  have described : (array items).toJson.member? "items" = some items.toJson := rfl
  unfold draftArray
  rw [described]
  refine (isDrafted _ _ sound).andThen ?_
  intro element next cost spans
  have large := le_instanceCost (next.nameOf element).utf8ByteSize
  refine yields_of_ok rfl ?_
  change next.Spans (.applied .array element) (cost + instanceCost _ 2 + 24)
  exact (spans.mono (by omega)).array (by omega)

/-- Alternatives for different kinds of values are few. -/
theorem length_le_of_kinds {alternatives : List Inferred}
    (noChoices : forall alternative, alternative ∈ alternatives ->
      forall inner, alternative ≠ oneOf inner)
    (kinds : (alternatives.map kind?).Nodup) : alternatives.length ≤ 255 := by
  let known : List (Option Json.Kind) := [some .null, some .boolean, some .integer, some .number,
    some .string, some .array, some .object]
  have areKnown : alternatives.map kind? ⊆ known := by
    intro kind member
    obtain ⟨alternative, isAlternative, rfl⟩ := List.mem_map.mp member
    cases alternative with
    | oneOf inner => exact absurd rfl (noChoices _ isAlternative inner)
    | _ => exact List.mem_of_elem_eq_true rfl
  have atMost := (List.Nodup.subperm kinds areKnown).length_le
  rw [List.length_map] at atMost
  exact Nat.le_trans atMost (by decide)

variable (shapes : ShapesNodes drafter)

include shapes

theorem yields_struct {properties : List (String × Inferred)} {required : List String}
    (areDrafted : forall property, property ∈ properties -> IsDrafted drafter property.2)
    (sound : draft.Sound) (pointer title : String) :
    Yields (draftStruct drafter (object properties required).toJson pointer title none) draft
      SpansCost := by
  refine yields_opened sound title .struct _ ?_
  intro name next openCost opens enough
  have requires : Yields (draftRequired (object properties required).toJson pointer) next
      fun _ last _ => next = last := by
    have stated : (object properties required).toJson.member? "required" =
        some (.array (required.map .string)) := rfl
    unfold draftRequired
    rw [stated]
    simp only [texts?_map]
    exact yields_pure rfl
  refine requires.andThen ?_
  rintro names _ requiredCost rfl
  have described : (object properties required).toJson.member? "properties" =
      some (.object (toMembers properties)) := rfl
  have describes : Yields (draftPropertyParts drafter (object properties required).toJson pointer
      name names) next SpansPartsCost := by
    unfold draftPropertyParts
    rw [described]
    exact yields_properties shapes areDrafted opens.sound _ name names []
  refine (describes.also (drafts_propertyParts shapes opens.sound _ pointer name names)).andThen ?_
  rintro parts last partsCost ⟨spans, _, evolves, _⟩
  refine (yields_closed opens evolves spans).imp ?_
  rintro ref closed cost ⟨closedSpans, rfl⟩
  refine closedSpans.mono ?_
  unfold fieldsCost
  omega

theorem yields_variant {alternatives : List Inferred} (some : alternatives ≠ [])
    (few : alternatives.length ≤ 255)
    (areDrafted : forall alternative, alternative ∈ alternatives -> IsDrafted drafter alternative)
    (sound : draft.Sound) (node : Json) (pointer title : String) :
    Yields (draftVariant drafter node (.array (toItems alternatives)) pointer title none) draft
      SpansCost := by
  have counted : ¬ ((toItems alternatives).isEmpty = true ∨ 255 < (toItems alternatives).length) := by
    rw [toItems_eq, List.length_map, List.isEmpty_map, List.isEmpty_iff]
    exact not_or.mpr ⟨some, Nat.not_lt_of_le few⟩
  unfold draftVariant
  dsimp only
  rw [if_neg counted]
  refine yields_opened sound title .variant node ?_
  intro name next openCost opens enough
  have room : Yields (draftRoom (textCost tagPart.name)) next fun _ last _ => next = last :=
    yields_of_ok rfl rfl
  refine room.andThen ?_
  rintro _ _ tagCost rfl
  refine ((yields_alternatives shapes areDrafted opens.sound pointer name 0 []).also
    (drafts_alternatives shapes pointer name _ 0 [] opens.sound)).andThen ?_
  rintro parts last partsCost ⟨spans, ⟨_, evolves, _⟩, _⟩
  have tagged : last.SpansParts (tagPart :: parts) (partsCost + 31 * parts.length + 31) :=
    ⟨24, _, last.spans_builtin .tag, spans, by omega⟩
  refine (yields_closed opens evolves tagged).imp ?_
  rintro ref closed cost ⟨closedSpans, rfl⟩
  refine closedSpans.mono ?_
  unfold fieldsCost
  rw [List.length_cons]
  omega

/-- A schema is drafted when the schemas inside it are. -/
theorem isDrafted_node (document : Json) {schema : Inferred} (formed : Formed schema)
    (clear : IsClear schema)
    (inside : forall inner : Inferred, inner.toJson.height < schema.toJson.height ->
      Formed inner -> IsClear inner -> IsDrafted drafter inner) :
    IsDrafted (draftNode drafter document) schema := by
  intro draft pointer name sound
  -- A schema that states its type is drafted as one of that type.
  have stated {typeName : String} (typed : schema.toJson.member? "type" = some (.string typeName)) :
      Yields (draftTypeName schema.toJson pointer) draft fun found next _ =>
        found = typeName ∧ draft = next := by
    unfold draftTypeName
    rw [typed]
    exact yields_pure ⟨rfl, rfl⟩
  cases schema with
  | array items =>
      cases formed with | array formed =>
      cases clear with | array clear =>
      have lower : items.toJson.height < (array items).toJson.height :=
        Json.height_lt_of_member? (rfl : (array items).toJson.member? "items" = _)
      change Yields (draftTypeName (array items).toJson pointer >>= fun typeName =>
        draftTyped drafter (array items).toJson pointer name none typeName) draft SpansCost
      refine (stated rfl).andThen ?_
      rintro _ _ cost ⟨rfl, rfl⟩
      exact (yields_array (inside items lower formed clear) sound pointer name).imp
        fun _ _ _ spans => spans.mono (by omega)
  | object properties required =>
      cases formed with | object _ formed _ =>
      cases clear with | object clear =>
      have described : (object properties required).toJson.member? "properties" =
          some (.object (toMembers properties)) := rfl
      have lower (property : String × Inferred) (member : property ∈ properties) :
          property.2.toJson.height < (object properties required).toJson.height := by
        have inMembers : (property.1, property.2.toJson) ∈ toMembers properties := by
          rw [toMembers_eq]
          exact List.mem_map_of_mem member
        exact Nat.lt_trans (Json.height_lt_of_member inMembers) (Json.height_lt_of_member? described)
      change Yields (draftTypeName (object properties required).toJson pointer >>= fun typeName =>
        draftTyped drafter (object properties required).toJson pointer name none typeName) draft
        SpansCost
      refine (stated rfl).andThen ?_
      rintro _ _ cost ⟨rfl, rfl⟩
      exact (yields_struct shapes (fun property member =>
        inside property.2 (lower property member) (formed property member) (clear property member))
        sound pointer name).imp fun _ _ _ spans => spans.mono (by omega)
  | oneOf alternatives =>
      cases formed with | oneOf some formed noChoices _ =>
      cases clear with | oneOf clear kinds =>
      have described : (oneOf alternatives).toJson.member? "oneOf" =
          Option.some (.array (toItems alternatives)) := rfl
      have lower (alternative : Inferred) (member : alternative ∈ alternatives) :
          alternative.toJson.height < (oneOf alternatives).toJson.height := by
        have inItems : alternative.toJson ∈ toItems alternatives := by
          rw [toItems_eq]
          exact List.mem_map_of_mem member
        exact Nat.lt_trans (Json.height_lt_of_item inItems) (Json.height_lt_of_member? described)
      exact yields_variant shapes some (length_le_of_kinds noChoices kinds)
        (fun alternative member => inside alternative (lower alternative member)
          (formed alternative member) (clear alternative member)) sound _ _ name
  | _ => exact yields_of_ok rfl (draft.spans_builtin _)

end Nodes

/-- Schemas are drafted within their height. -/
theorem isDrafted_within (document : Json) (levels : Nat) {schema : Inferred}
    (formed : Formed schema) (clear : IsClear schema) (enough : schema.toJson.height ≤ levels) :
    IsDrafted (draftWithin document levels) schema := by
  induction levels generalizing schema with
  | zero => exact absurd schema.toJson.height_pos (Nat.not_lt_of_le enough)
  | succ levels ih =>
      exact isDrafted_node (drafts_within document levels) document formed clear
        fun inner lower innerFormed innerClear => ih innerFormed innerClear (by omega)


/-- Room enough for the types that a schema gives to both targets. -/
def typeRoom (schema : Inferred) (rootName : String) : Nat :=
  match draftTarget schema.toJson rootName none Draft.empty with
  | .ok drafted => 2 * drafted.cost
  | .error _ => 0

section Compiled

variable {schema : Inferred} (formed : Formed schema) (clear : IsClear schema)

include formed clear

/-- A schema has a complete draft that accounts for the room of its types. -/
theorem yields_target (rootName : String) :
    Yields (draftTarget schema.toJson rootName none) Draft.empty fun root next cost =>
      next.Complete root ∧ next.Spans root cost := by
  have enough : schema.toJson.height ≤ nestingBound schema.toJson :=
    Nat.le_trans (Nat.le_succ _) (Nat.le_mul_of_pos_left _ (Nat.succ_pos _))
  have sound : Draft.empty.Sound := nofun
  have nodes := isDrafted_within schema.toJson _ formed clear enough "" rootName sound
  have completes : Drafts (draftWithin schema.toJson (nestingBound schema.toJson) schema.toJson ""
      rootName none) Draft.empty fun root next => next.Complete root :=
    fun _ ends => complete_of_draftDocument (ends : draftDocument _ _ = _)
  have begins : Yields (draftRoom contextCost) Draft.empty fun _ next cost =>
      Draft.empty = next ∧ 24 ≤ cost := yields_of_ok rfl ⟨rfl, by decide⟩
  unfold draftTarget
  refine begins.andThen ?_
  rintro _ _ contextRoom ⟨rfl, large⟩
  refine (nodes.also completes).andThen ?_
  rintro root next cost ⟨spans, complete⟩
  exact yields_of_ok rfl ⟨complete, spans.mono (by omega)⟩

/-- A schema compiles to types of its draft when there is room for them. -/
theorem exists_bodies {options : CompileOptions} {builder : Builder}
    (isBuilder : Builder.ofConfig options.arena = .ok builder)
    (room : schema.typeRoom options.rootName ≤ builder.arena.spare) :
    exists drafted container,
      draftTarget schema.toJson options.rootName none Draft.empty = .ok drafted ∧
      compile schema.toJson options = .ok container ∧
      Bodies drafted.draft drafted.result "" container.context container.arena := by
  obtain ⟨drafted, drafts, complete, spans⟩ := yields_target formed clear options.rootName
  have noSlice : sliceOf schema.toJson = .ok none := by
    unfold sliceOf
    rw [member?_toJson schema (by decide)]
  rw [typeRoom, drafts] at room
  change 2 * drafted.cost ≤ _ at room
  have small := Arena.spare_lt (starts_of_ofConfig isBuilder).holds.writable
  obtain ⟨container, accepted, bodies⟩ :=
    TextSchema.exists_compiled noSlice isBuilder drafts room spans (by omega)
  exact ⟨drafted, container, drafts, accepted, bodies⟩

/-- A schema compiles when there is room for its types. -/
theorem exists_compiled {options : CompileOptions} {builder : Builder}
    (isBuilder : Builder.ofConfig options.arena = .ok builder)
    (room : schema.typeRoom options.rootName ≤ builder.arena.spare) :
    exists container, compile schema.toJson options = .ok container ∧
      forall target, exists root, container.schema.root (container.context target) = .ok root := by
  obtain ⟨drafted, container, _, accepted, heap, _, embodied⟩ :=
    exists_bodies formed clear isBuilder room
  refine ⟨container, accepted, fun target => ?_⟩
  obtain ⟨_, site, settled, embodies⟩ := embodied target
  obtain ⟨root, isRoot, _⟩ := embodies.root
  refine ⟨root, ?_⟩
  unfold Schema.root
  rw [isRoot]

end Compiled

end Inferred
end TextSchema

namespace Packer

open TextSchema

/-- A sample is packed with the text schema that is inferred from it, unless
the destination is full. -/
theorem run_pack_of_infer {sample : Json} (wellFormed : sample.WellFormed)
    (signed : sample.IsSigned) (clear : (Inferred.ofSample sample).IsClear)
    {options : CompileOptions} {builder : Builder}
    (isBuilder : Builder.ofConfig options.arena = .ok builder)
    (room : (Inferred.ofSample sample).typeRoom options.rootName ≤ builder.arena.spare) :
    exists container, compile (infer sample) options = .ok container ∧
      forall target, exists root,
        container.schema.root (container.context target) = .ok root ∧
        forall {pointerBase maxDepth : Nat} {state : PackState},
          sample.height ≤ maxDepth + 1 -> state.data.Writable ->
          Run ((container.packer target pointerBase maxDepth).pack root sample) state
            (fun place after => exists meaning, IsPacked (infer sample)
              (container.packer target pointerBase maxDepth) root sample state.data place meaning
              after)
            (fun failure _ => exists cause, failure = .outOfMemory cause) := by
  obtain ⟨formed, accepts⟩ := Inferred.suits_sample wellFormed signed
  obtain ⟨container, accepted, roots⟩ := Inferred.exists_compiled formed clear isBuilder room
  refine ⟨container, accepted, fun target => ?_⟩
  obtain ⟨root, isRoot⟩ := roots target
  refine ⟨root, isRoot, fun {pointerBase maxDepth state} shallow writable => ?_⟩
  have inside : Path.root.depth + sample.height ≤ maxDepth + 1 := (Nat.zero_add _).symm ▸ shallow
  obtain ⟨meaning, judges⟩ : exists meaning, Judges (infer sample) maxDepth
      (.asked ⟨infer sample, false, false⟩ Path.root sample) (.fits meaning) :=
    Inferred.judges_of_accepts accepts formed clear signed Path.root inside
  refine (run_pack_of_compile accepted isRoot wellFormed writable).imp (fun _ _ packed => packed) ?_
  intro failure after refused
  rcases refused.cause with expected | ⟨first, others, _, _, violates⟩
  · unfold PackError.IsExpected at expected
    split at expected
    · exact ⟨_, rfl⟩
    · exact absurd ⟨_, judges⟩ expected
    · exact expected.elim
  · cases judges_inj judges violates

end Packer
end PackedJson
