import PackedJson.Proofs.Companion.Drafts
import PackedJson.Proofs.TextSchema.Roster

namespace PackedJson
namespace Companion

open TextSchema Heap Layout

/-!
What the generator writes.

The generator follows the stored types of one target.  As these are what a
draft says, it writes the expressions and the items of the draft, provided
that identifiers have been given to the declared types and to no others.
-/

/-- How deeply instances of generic builtins are nested in one another. -/
def depth : Ref -> Nat
  | .applied _ argument => depth argument + 1
  | _ => 0

/-- Identifiers of types agree with those of declared types of a draft. -/
structure Fits (draft : Draft) (root : Ref) (site : Site) (identOf : Nat -> String)
    (idents : List (TypeId × String)) : Prop where
  declared : forall index id, draft.Reaches root (.declared index) ->
    site.Finds (.declared index) id -> idents.lookup id = some (identOf index)
  others : forall ref id, site.Finds ref id -> (forall index, ref ≠ .declared index) ->
    idents.lookup id = none

section Expressions

variable {draft : Draft} {root ref : Ref} {heap : Heap} {arena : Arena} {target : Target}
  {context : Context} {site : Site} {settled : TypeId -> Prop} {identOf : Nat -> String}
  {idents : List (TypeId × String)} {id : TypeId} {type : TypeDef} {fields : List FieldDef}
  (embodies : Embodies draft root heap target context site settled) (holds : heap.Holds arena)
  (fits : Fits draft root site identOf idents)

theorem render_pointed (byReference : Bool) (expression : Expression) :
    (pointed byReference expression).render =
      if byReference then "*const " ++ expression.render else expression.render := by
  cases byReference <;> rfl

include embodies in
/-- The container of an instance is that of its generic builtin. -/
theorem containerName_eq {generic : Builtin} {argument : Ref}
    (isGeneric : generic ∈ Builder.genericBuiltins)
    (is : IsEmbodied draft heap context site settled (.applied generic argument) id type fields) :
    containerName ⟨⟨arena⟩, context, idents⟩ type = .ok (containerIdent generic) := by
  have prototype : type.prototype = some (context.builtin generic) := by
    rw [is.prototype]
    simp only [Builder.genericBuiltins, List.mem_cons, List.not_mem_nil, or_false] at isGeneric
    rcases isGeneric with rfl | rfl | rfl | rfl <;> rfl
  have isInstance (other : Builtin) : isInstance context type other = decide (generic = other) := by
    unfold isInstance
    rw [prototype]
    exact embodies.is_builtin_eq generic other
  unfold containerName
  rw [isInstance, isInstance, is.shape]
  simp only [Builder.genericBuiltins, List.mem_cons, List.not_mem_nil, or_false] at isGeneric
  rcases isGeneric with rfl | rfl | rfl | rfl <;> rfl

include embodies holds fits in
/-- The generator writes the expression of a type, if it looks deeply enough. -/
theorem instanceWithin_eq {levels : Nat} (enough : depth ref < levels)
    (reached : draft.Reaches root ref)
    (is : IsEmbodied draft heap context site settled ref id type fields)
    (finds : site.Finds ref id) :
    instanceWithin ⟨⟨arena⟩, context, idents⟩ levels id type =
      .ok (draft.expression identOf ref).render := by
  induction ref generalizing levels id type fields with
  | builtin builtin =>
      cases levels with
      | zero => cases enough
      | succ levels =>
          unfold instanceWithin
          rw [embodies.builtinOf?_eq holds.told finds is.stored]
          have proper := finds.1
          unfold Ref.Proper Builder.scalarBuiltins at proper
          simp only [List.mem_cons, List.not_mem_nil, or_false] at proper
          rcases proper with rfl | rfl | rfl | rfl | rfl | rfl | rfl | rfl | rfl | rfl <;> rfl
  | declared index =>
      cases levels with
      | zero => cases enough
      | succ levels =>
          unfold instanceWithin
          rw [embodies.builtinOf?_eq holds.told finds is.stored]
          dsimp only
          rw [fits.declared index id reached finds]
          rfl
  | applied generic argument ih =>
      cases levels with
      | zero => cases enough
      | succ levels =>
          obtain ⟨argumentId, argumentType, argumentFields, stored, argumentFinds, _, argumentIs⟩ :=
            embodies.exists_argument is
          have argumentReached : draft.Reaches root argument :=
            reached.next (List.mem_append_right _ (by cases generic <;> exact List.mem_singleton_self _))
          have inner := ih (Nat.lt_of_succ_lt_succ enough) argumentReached argumentIs argumentFinds
          unfold instanceWithin
          rw [embodies.builtinOf?_eq holds.told finds is.stored]
          dsimp only
          rw [fits.others _ id finds (fun _ same => by cases same), containerName_eq embodies finds.1.1 is]
          simp only [stored, bind, Except.bind]
          unfold variableExpression
          simp only [bind, Except.bind, holds.type argumentIs.stored, inner,
            argumentIs.byReference]
          rw [Draft.expression, Expression.render, render_pointed]
          rfl

include embodies in
/-- The types of a nested instance are as many as it is deep. -/
theorem exists_chain (finds : site.Finds ref id)
    (is : IsEmbodied draft heap context site settled ref id type fields) :
    exists ids : List TypeId, ids.length = depth ref + 1 ∧ ids.Nodup ∧ forall other, other ∈ ids ->
      exists inner otherType, depth inner ≤ depth ref ∧ site.Finds inner other ∧
        HasType heap other otherType := by
  induction ref generalizing id type fields with
  | applied generic argument ih =>
      obtain ⟨argumentId, _, _, _, argumentFinds, _, argumentIs⟩ := embodies.exists_argument is
      obtain ⟨ids, length, distinct, each⟩ := ih argumentFinds argumentIs
      refine ⟨id :: ids, congrArg (· + 1) length, List.nodup_cons.mpr ⟨fun member => ?_, distinct⟩,
        List.forall_mem_cons.mpr ⟨⟨_, type, Nat.le_refl _, finds, is.stored⟩, fun other member => ?_⟩⟩
      · obtain ⟨inner, _, shallow, innerFinds, _⟩ := each id member
        cases embodies.distinct _ _ id innerFinds finds
        exact absurd shallow (Nat.not_succ_le_self _)
      · obtain ⟨inner, otherType, shallow, innerFinds, stored⟩ := each other member
        exact ⟨inner, otherType, Nat.le_succ_of_le shallow, innerFinds, stored⟩
  | _ =>
      exact ⟨[id], rfl, List.nodup_singleton id,
        List.forall_mem_singleton.mpr ⟨_, type, Nat.le_refl _, finds, is.stored⟩⟩

include embodies holds fits in
/-- The generator writes the expression of every type. -/
theorem instanceExpression_eq (reached : draft.Reaches root ref)
    (is : IsEmbodied draft heap context site settled ref id type fields)
    (finds : site.Finds ref id) :
    instanceExpression ⟨⟨arena⟩, context, idents⟩ id type =
      .ok (draft.expression identOf ref).render := by
  obtain ⟨ids, length, distinct, each⟩ := exists_chain embodies finds is
  have few := length_le_used holds distinct fun other member => by
    obtain ⟨_, otherType, _, _, stored⟩ := each other member
    exact ⟨otherType, stored⟩
  exact instanceWithin_eq embodies holds fits (by dsimp only; omega) reached is finds

include embodies holds fits in
theorem variableExpression_eq (reached : draft.Reaches root ref) (finds : site.Finds ref id)
    (isSettled : settled id) :
    variableExpression ⟨⟨arena⟩, context, idents⟩
        (instanceExpression ⟨⟨arena⟩, context, idents⟩) id =
      .ok (draft.variableExpression identOf ref).render := by
  obtain ⟨type, fields, is⟩ := embodies.exists_isEmbodied finds isSettled
  unfold variableExpression
  simp only [bind, Except.bind, holds.type is.stored,
    instanceExpression_eq embodies holds fits reached is finds, is.byReference]
  rw [Draft.variableExpression, render_pointed]
  rfl

include embodies holds fits in
/-- A field is declared with the expression of its part. -/
theorem fieldExpression_eq {part : Part} {field : FieldDef} (owner : TypeDef)
    (reached : draft.Reaches root part.type) (shows : ShowsPart heap site settled part field) :
    fieldExpression ⟨⟨arena⟩, context, idents⟩ owner field =
      .ok (draft.variableExpression identOf part.type).render := by
  obtain ⟨inner, isField, finds, isSettled⟩ := shows.type
  unfold fieldExpression
  simp only [bind, Except.bind, fieldType_of owner isField]
  exact variableExpression_eq embodies holds fits reached finds isSettled

include embodies holds fits in
theorem structLine_eq {part : Part} {field : FieldDef} (owner : TypeDef)
    (reached : draft.Reaches root part.type) (shows : ShowsPart heap site settled part field) :
    structLine ⟨⟨arena⟩, context, idents⟩ owner field =
      .ok (fieldLine (part.companion, draft.variableExpression identOf part.type)) := by
  unfold structLine
  simp only [bind, Except.bind, fieldExpression_eq embodies holds fits owner reached shows,
    holds.text shows.companion]
  rfl

include embodies holds fits in
theorem enumLine_eq {part : Part} {field : FieldDef} (owner : TypeDef)
    (reached : draft.Reaches root part.type) (shows : ShowsPart heap site settled part field) :
    enumLine ⟨⟨arena⟩, context, idents⟩ owner field =
      .ok (draft.alternativeOf identOf part).line := by
  unfold enumLine
  simp only [bind, Except.bind, fieldExpression_eq embodies holds fits owner reached shows,
    holds.text shows.companion, shows.choice]
  rfl

/-- Lines are read off fields as they are made of parts. -/
theorem lines_eq {read : FieldDef -> Except SchemaError String} {lineOf : Part -> String}
    {parts : List Part} {some : List FieldDef}
    (shown : List.Forall₂ (ShowsPart heap site settled) parts some)
    (each : forall part, part ∈ parts -> forall field, ShowsPart heap site settled part field ->
      read field = .ok (lineOf part)) : some.mapM read = .ok (parts.map lineOf) := by
  refine Listing.mapM_eq_ok (List.forall₂_map_right_iff.mpr ?_)
  induction shown with
  | nil => exact .nil
  | cons shows _ ih =>
      obtain ⟨ofPart, ofOthers⟩ := List.forall_mem_cons.mp each
      exact .cons (ofPart _ shows) (ih ofOthers)

include embodies holds fits in
/-- The generator writes the item of a declared type. -/
theorem declaration_eq {index : Nat} (reached : draft.Reaches root (.declared index))
    (is : IsEmbodied draft heap context site settled (.declared index) id type fields) :
    declaration ⟨⟨arena⟩, context, idents⟩ type (identOf index) =
      .ok (draft.item identOf index).render := by
  have inOrder : Schema.fieldsInOrder ⟨arena⟩ type =
      .ok (Sorted.sortBy FieldDef.orderKey fields) := holds.fieldsInOrder is.hasFields
  have partReached (part : Part) (member : part ∈ (draft.outline (.declared index)).parts) :
      draft.Reaches root part.type :=
    reached.next (List.mem_append_left _ (List.mem_map_of_mem member))
  have shown := is.parts
  have heading (body : Body) : ({ ident := identOf index, body := body } : Item).heading =
      identOf index := rfl
  unfold declaration
  simp only [bind, Except.bind, inOrder, is.shape]
  unfold Draft.item Item.render
  rw [heading]
  by_cases isVariant : (draft.outline (.declared index)).shape = .variant
  · obtain ⟨first, others, same⟩ := embodies.complete.parts_of_variant isVariant
    rw [same] at shown partReached
    generalize Sorted.sortBy FieldDef.orderKey fields = ordered at shown
    cases shown with
    | @cons _ tag _ alternatives _ shown =>
        have lines : alternatives.mapM (enumLine ⟨⟨arena⟩, context, idents⟩ type) =
            .ok ((first :: others).map fun part => (draft.alternativeOf identOf part).line) :=
          lines_eq shown fun part member field shows => enumLine_eq embodies holds fits type
            (partReached part (List.mem_cons_of_mem _ member)) shows
        rw [Draft.body_of_variant isVariant same, isVariant]
        simp only [List.isEmpty_cons, Bool.false_eq_true, if_false, List.drop_succ_cons,
          List.drop_zero, lines, List.map_map]
        rfl
  · have lines : (Sorted.sortBy FieldDef.orderKey fields).mapM
          (structLine ⟨⟨arena⟩, context, idents⟩ type) =
        .ok ((draft.outline (.declared index)).parts.map fun part =>
          fieldLine (part.companion, draft.variableExpression identOf part.type)) :=
      lines_eq shown fun part member field shows =>
        structLine_eq embodies holds fits type (partReached part member) shows
    rw [Draft.body_of_ne isVariant]
    cases parts : (draft.outline (.declared index)).parts with
    | nil =>
        rw [parts] at shown
        generalize Sorted.sortBy FieldDef.orderKey fields = ordered at shown
        cases shown
        rfl
    | cons part others =>
        rw [parts] at shown lines
        generalize Sorted.sortBy FieldDef.orderKey fields = ordered at shown lines
        cases shown with
        | cons _ _ =>
            simp only [List.isEmpty_cons, Bool.false_eq_true, if_false, lines, List.map_cons,
              List.map_map]
            rfl

end Expressions

end Companion
end PackedJson
