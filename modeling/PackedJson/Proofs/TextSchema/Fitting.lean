import Mathlib.Data.Nat.Find
import PackedJson.Proofs.TextSchema.Inference

namespace PackedJson
namespace TextSchema

/-!
What is accepted by an inferred text schema fits it.

An inferred schema is a text schema without references, so that the role of
its values can be read off.  A value goes to the first alternative for its
form.  As long as no choice has two alternatives for one kind of values, that
is the alternative which accepts the value, and the verdict on the value is
that it fits.
-/

/-- Some alternative suits a value best when one suits it at all. -/
theorem exists_isChoice {roles : List Role} {value : Json} {role : Role} {rank : Nat}
    (member : role ∈ roles) (suits : role.suits? value = some rank) :
    exists place, IsChoice roles value place := by
  classical
  let Suits (rank place : Nat) : Prop :=
    exists role, roles[place]? = some role ∧ role.suits? value = some rank
  have ranked : exists rank place, Suits rank place := by
    obtain ⟨place, bound, rfl⟩ := List.getElem_of_mem member
    exact ⟨rank, place, _, List.getElem?_eq_getElem bound, suits⟩
  have placed := Nat.find_spec ranked
  obtain ⟨chosen, isChosen, best⟩ := Nat.find_spec placed
  refine ⟨Nat.find placed, chosen, Nat.find ranked, isChosen, best, ?_⟩
  intro other role otherRank isRole suits
  rcases Nat.lt_or_eq_of_le (Nat.find_min' ranked ⟨other, role, isRole, suits⟩) with less | same
  · exact .inl less
  · exact .inr ⟨same, Nat.find_min' placed ⟨role, isRole, same ▸ suits⟩⟩

end TextSchema

theorem Json.exists_lookup? {name : String} {members : List (String × Json)}
    (member : name ∈ members.map Prod.fst) : exists value, lookup? name members = some value := by
  induction members with
  | nil => cases member
  | cons head rest ih =>
      unfold lookup?
      split
      next => exact ⟨_, rfl⟩
      next different =>
        exact ih ((List.mem_cons.mp member).resolve_left fun same => different same.symm)

namespace TextSchema
namespace Inferred

/-! ### Roles -/

/-- What a schema asks of values, as a term of its own. -/
def term (schema : Inferred) : Term := ⟨schema.toJson, false, false⟩

/-- The property that is asked for under a name. -/
def propertyOf (required : List String) (property : String × Inferred) : Property :=
  ⟨property.1, property.2.toJson, false, !required.contains property.1⟩

/-- The role that a schema gives to values. -/
def role : Inferred -> Role
  | null => .null
  | boolean => .boolean
  | integer => .integer
  | number => .number
  | string => .string
  | array items => .array items.term
  | object properties required => .struct (properties.map (propertyOf required))
  | oneOf alternatives => .variant (alternatives.map term)

theorem toItems_eq (schemas : List Inferred) : toItems schemas = schemas.map toJson := by
  induction schemas with
  | nil => rw [toItems, List.map_nil]
  | cons schema rest ih => rw [toItems, ih, List.map_cons]

theorem toMembers_eq (properties : List (String × Inferred)) :
    toMembers properties = properties.map fun (name, schema) => (name, toJson schema) := by
  induction properties with
  | nil => rw [toMembers, List.map_nil]
  | cons property rest ih => rw [toMembers, ih, List.map_cons]

theorem texts?_map (names : List String) : texts? (names.map .string) = some names := by
  induction names with
  | nil => rfl
  | cons name rest ih =>
      rw [List.map_cons, texts?, ih]
      rfl

/-- The names that inferred schemas use. -/
def keywords : List String := ["type", "items", "properties", "required", "oneOf"]

/-- An inferred schema has no members but those. -/
theorem member?_toJson (schema : Inferred) {name : String} (unused : name ∉ keywords) :
    schema.toJson.member? name = none := by
  have different {keyword : String} (isKeyword : keyword ∈ keywords) : keyword ≠ name :=
    fun same => unused (same ▸ isKeyword)
  have notType : "type" ≠ name := different (by decide)
  have notItems : "items" ≠ name := different (by decide)
  have notProperties : "properties" ≠ name := different (by decide)
  have notRequired : "required" ≠ name := different (by decide)
  have notOneOf : "oneOf" ≠ name := different (by decide)
  cases schema <;> simp only [toJson, typed, Json.member?, Json.lookup?, notType, notItems,
    notProperties, notRequired, notOneOf, if_false]

theorem describes_toJson (document : Json) (schema : Inferred) :
    Describes document schema.toJson schema.role := by
  refine .stated (member?_toJson schema (by decide)) ?_
  have noChoice : (schema.toJson.member? "anyOf") = none := member?_toJson schema (by decide)
  unfold statedRole?
  rw [noChoice]
  cases schema with
  | object properties required =>
      have areRequired : requiredOf (object properties required).toJson = required := by
        have found : (object properties required).toJson.member? "required" =
            some (.array (required.map .string)) := rfl
        unfold requiredOf
        rw [found]
        simp only [texts?_map, Option.getD_some]
      have found : (object properties required).toJson.member? "properties" =
          some (.object (toMembers properties)) := rfl
      have areProperties : propertiesOf (object properties required).toJson =
          properties.map (propertyOf required) := by
        unfold propertiesOf
        rw [found, areRequired, toMembers_eq]
        simp only [List.map_map]
        refine List.map_congr_left fun property _ => ?_
        simp only [Function.comp_apply, propertyOf, isSet,
          member?_toJson property.2 (show "x-can-fail" ∉ keywords by decide)]
      rw [role, ← areProperties]
      rfl
  | oneOf alternatives =>
      change some (Role.variant ((toItems alternatives).map _)) = _
      rw [toItems_eq, List.map_map]
      rfl
  | _ => rfl

theorem hasRole_term (document : Json) (schema : Inferred) :
    HasRole document schema.term schema.role :=
  .node (describes_toJson document schema)

/-! ### Choices -/

/-- The kind of the values that a schema is for; a choice is for no kind of its
own. -/
def kind? : Inferred -> Option Json.Kind
  | null => some .null
  | boolean => some .boolean
  | integer => some .integer
  | number => some .number
  | string => some .string
  | array _ => some .array
  | object _ _ => some .object
  | oneOf _ => none

/-- No choice has two alternatives for one kind of values. -/
inductive IsClear : Inferred -> Prop where
  | null : IsClear null
  | boolean : IsClear boolean
  | integer : IsClear integer
  | number : IsClear number
  | string : IsClear string
  | array {items : Inferred} : IsClear items -> IsClear (array items)
  | object {properties : List (String × Inferred)} {required : List String} :
      (forall property, property ∈ properties -> IsClear property.2) ->
      IsClear (object properties required)
  | oneOf {alternatives : List Inferred} :
      (forall alternative, alternative ∈ alternatives -> IsClear alternative) ->
      (alternatives.map kind?).Nodup -> IsClear (oneOf alternatives)

/-- A schema accepts a value by itself: the verdict depends on no other one. -/
def FitsAlone (schema : Inferred) (value : Json) : Prop :=
  forall path, exists meaning, ownVerdict? schema.role path value = some (.fits meaning)

theorem fitsAlone_integer {number : Int} (small : number < 2 ^ 63) :
    FitsAlone integer (.number (.integer number)) :=
  fun _ => ⟨_, congrArg some (if_pos small)⟩

/-- What is accepted is suited, and the alternative that suits best is the one
that accepts the value, or it accepts the value by itself. -/
theorem chosen_of_accepts {accepting chosen : Inferred} {value : Json}
    (accepts : Accepts accepting value) (noChoice : forall inner, accepting ≠ .oneOf inner)
    (signed : value.IsSigned) (apart : accepting.kind? = chosen.kind? -> accepting = chosen) :
    exists rank, accepting.role.suits? value = some rank ∧
      forall other, chosen.role.suits? value = some other -> other ≤ rank ->
        accepting = chosen ∨ FitsAlone chosen value := by
  have integer {number : Int} (small : number < 2 ^ 63) {other : Nat}
      (suits : chosen.role.suits? (.number (.integer number)) = some other) :
      FitsAlone chosen (.number (.integer number)) := by
    cases chosen with
    | integer => exact fitsAlone_integer small
    | number => exact fun path => ⟨_, rfl⟩
    | _ => cases suits
  cases accepts with
  | null =>
      refine ⟨0, rfl, fun other suits _ => .inr ?_⟩
      cases chosen <;> first | exact fun path => ⟨_, rfl⟩ | cases suits
  | boolean =>
      refine ⟨0, rfl, fun other suits _ => .inr ?_⟩
      cases chosen <;> first | exact fun path => ⟨_, rfl⟩ | cases suits
  | string =>
      refine ⟨0, rfl, fun other suits _ => .inr ?_⟩
      cases chosen <;> first | exact fun path => ⟨_, rfl⟩ | cases suits
  | integer small => exact ⟨0, rfl, fun other suits _ => .inr (integer small suits)⟩
  | number value =>
      cases value with
      | integer number =>
          obtain ⟨⟩ := signed
          next small => exact ⟨1, rfl, fun other suits _ => .inr (integer small suits)⟩
      | float bits =>
          refine ⟨0, rfl, fun other suits least => .inr ?_⟩
          cases chosen with
          | number => exact fun path => ⟨_, rfl⟩
          | integer =>
              cases suits
              exact absurd least (by decide)
          | _ => cases suits
  | array =>
      refine ⟨0, rfl, fun other suits _ => .inl ?_⟩
      cases chosen <;> first | exact apart rfl | cases suits
  | object =>
      refine ⟨1, rfl, fun other suits _ => .inl ?_⟩
      cases chosen <;> first | exact apart rfl | cases suits
  | oneOf => exact absurd rfl (noChoice _)

/-! ### Verdicts -/

section Verdicts

variable {document : Json} {limit : Nat}

theorem judges_of_fitsAlone {schema : Inferred} {value : Json} (fits : FitsAlone schema value)
    (path : Path) : exists meaning, Judges document limit (.asked schema.term path value)
      (.fits meaning) := by
  obtain ⟨meaning, own⟩ := fits path
  exact ⟨meaning, .own (hasRole_term document schema) own⟩

/-- Parts that fit make a whole that fits. -/
theorem judges_parts {matters : List Matter} (whole : List Value -> Value)
    (fit : forall matter, matter ∈ matters ->
      exists meaning, Judges document limit matter (.fits meaning)) :
    exists verdicts meaning, List.Forall₂ (Judges document limit) matters verdicts ∧
      Verdict.combine whole verdicts = .fits meaning := by
  have judged : exists meanings : List Value,
      List.Forall₂ (Judges document limit) matters (meanings.map Verdict.fits) := by
    induction matters with
    | nil => exact ⟨[], .nil⟩
    | cons matter rest ih =>
        obtain ⟨meaning, judges⟩ := fit matter List.mem_cons_self
        obtain ⟨meanings, areJudged⟩ := ih fun other member => fit other (List.mem_cons_of_mem _ member)
        exact ⟨meaning :: meanings, .cons judges areJudged⟩
  obtain ⟨meanings, areJudged⟩ := judged
  refine ⟨_, whole ((meanings.map Verdict.fits).filterMap Verdict.value?), areJudged, ?_⟩
  have noViolations : (meanings.map Verdict.fits).flatMap Verdict.violations = [] := by
    simp [List.flatMap_map, Verdict.violations]
  unfold Verdict.combine
  rw [noViolations]

/-- A value inside another one fits if it is not too deep. -/
theorem judges_inner {term : Term} {path : Path} {value : Json} (segment : Segment)
    (shallow : path.depth + value.height < limit + 1)
    (fits : forall path, path.depth + value.height ≤ limit + 1 ->
      exists meaning, Judges document limit (.asked term path value) (.fits meaning)) :
    exists meaning, Judges document limit (.inner limit term path segment value)
      (.fits meaning) := by
  have positive := value.height_pos
  unfold Matter.inner
  rw [if_neg (by omega)]
  refine fits _ ?_
  have deeper : (path.child segment).depth = path.depth + 1 := List.length_append
  omega

/-- A value fits a property that is not required if it is null or fits the
schema of the property. -/
theorem judges_optional {schema : Inferred} {path : Path} {value : Json}
    (fits : value ≠ .null -> exists meaning,
      Judges document limit (.asked schema.term path value) (.fits meaning)) :
    exists meaning, Judges document limit (.asked ⟨schema.toJson, false, true⟩ path value)
      (.fits meaning) := by
  have hasRole : HasRole document ⟨schema.toJson, false, true⟩ (.option schema.term) :=
    .option schema.toJson false
  by_cases isNull : value = .null
  · subst isNull
    exact ⟨.absent, .own hasRole rfl⟩
  · obtain ⟨meaning, judges⟩ := fits isNull
    exact ⟨.present meaning, .option hasRole isNull judges⟩

/-- The alternative that a value goes to fits it when some alternative accepts
it. -/
theorem judges_choice {alternatives : List Inferred} {accepting : Inferred} {value : Json}
    {path : Path} (member : accepting ∈ alternatives) (accepts : Accepts accepting value)
    (noChoice : forall inner, accepting ≠ .oneOf inner) (signed : value.IsSigned)
    (kinds : (alternatives.map kind?).Nodup)
    (fits : exists meaning, Judges document limit (.asked accepting.term path value)
      (.fits meaning)) :
    exists meaning, Judges document limit (.asked (oneOf alternatives).term path value)
      (.fits meaning) := by
  have isRole (chosen : Inferred) (isChosen : chosen ∈ alternatives) :=
    chosen_of_accepts accepts noChoice signed (List.inj_on_of_nodup_map kinds member isChosen)
  obtain ⟨rank, suits, _⟩ := isRole accepting member
  obtain ⟨place, isChoice⟩ :=
    exists_isChoice (List.mem_map.mpr ⟨accepting, member, rfl⟩) suits
  have choice := isChoice
  obtain ⟨role, best, isBest, suitsBest, least⟩ := isChoice
  rw [List.getElem?_map] at isBest
  obtain ⟨chosen, isChosen, rfl⟩ := Option.map_eq_some_iff.mp isBest
  have inAlternatives := List.mem_of_getElem? isChosen
  have chosenFits : exists meaning, Judges document limit (.asked chosen.term path value)
      (.fits meaning) := by
    obtain ⟨otherRank, otherSuits, otherwise⟩ := isRole chosen inAlternatives
    cases suits.symm.trans otherSuits
    obtain ⟨index, bound, isAccepting⟩ := List.getElem_of_mem member
    have isOther : (alternatives.map role)[index]? = some accepting.role := by
      rw [List.getElem?_map, List.getElem?_eq_getElem bound, isAccepting]
      rfl
    have atMost : best ≤ rank := by
      have := least index accepting.role rank isOther suits
      omega
    rcases otherwise best suitsBest atMost with rfl | alone
    · exact fits
    · exact judges_of_fitsAlone alone path
  obtain ⟨meaning, judges⟩ := chosenFits
  have areRoles : List.Forall₂ (HasRole document) (alternatives.map term)
      (alternatives.map role) := by
    rw [List.forall₂_map_left_iff, List.forall₂_map_right_iff]
    exact List.forall₂_same.mpr fun schema _ => hasRole_term document schema
  have isTerm : (alternatives.map term)[place]? = some chosen.term := by
    rw [List.getElem?_map, isChosen]
    rfl
  exact ⟨.variant place meaning, .variant (hasRole_term document (.oneOf alternatives)) areRoles
    choice isTerm judges⟩

/-- What is accepted fits, if it is not too deep. -/
theorem judges_of_accepts {schema : Inferred} {value : Json} (accepts : Accepts schema value)
    (formed : Formed schema) (clear : IsClear schema) (signed : value.IsSigned) (path : Path)
    (shallow : path.depth + value.height ≤ limit + 1) :
    exists meaning, Judges document limit (.asked schema.term path value) (.fits meaning) := by
  induction accepts generalizing path with
  | null => exact judges_of_fitsAlone (fun path => ⟨_, rfl⟩) path
  | boolean => exact judges_of_fitsAlone (fun path => ⟨_, rfl⟩) path
  | integer small => exact judges_of_fitsAlone (fitsAlone_integer small) path
  | number => exact judges_of_fitsAlone (fun path => ⟨_, rfl⟩) path
  | string => exact judges_of_fitsAlone (fun path => ⟨_, rfl⟩) path
  | @array items values accepts ih =>
      cases formed with | array formed =>
      cases clear with | array clear =>
      cases signed with | array signed =>
      have fit : forall matter, matter ∈ Matter.items limit items.term path values 0 ->
          exists meaning, Judges document limit matter (.fits meaning) := by
        intro matter member
        obtain ⟨⟨value, index⟩, isValue, rfl⟩ := List.mem_map.mp member
        have inValues : value ∈ values := List.fst_mem_of_mem_zipIdx isValue
        have lower := Json.height_lt_of_item inValues
        exact judges_inner (.index index) (by omega) fun inner isShallow =>
          ih value inValues formed clear (signed value inValues) inner isShallow
      obtain ⟨verdicts, meaning, judged, combined⟩ := judges_parts .array fit
      exact ⟨meaning, combined ▸ .array (hasRole_term document (.array items)) judged⟩
  | @object properties required members known present accepts ih =>
      cases formed with | object distinct formed notRequired =>
      cases clear with | object clear =>
      cases signed with | object signed =>
      have fit : forall matter, matter ∈ (properties.map (propertyOf required)).map
          (Matter.property limit path members) ->
          exists meaning, Judges document limit matter (.fits meaning) := by
        intro matter member
        obtain ⟨_, isProperty, rfl⟩ := List.mem_map.mp member
        obtain ⟨⟨name, schema⟩, inProperties, rfl⟩ := List.mem_map.mp isProperty
        unfold Matter.property propertyOf
        simp only
        by_cases isRequired : name ∈ required
        · obtain ⟨value, found⟩ := Json.exists_lookup? (present name isRequired)
          have isMember := Json.mem_of_lookup? found
          have lower := Json.height_lt_of_member isMember
          simp only at lower
          rw [found, List.contains_iff_mem.mpr isRequired]
          exact judges_inner (.key name) (by omega) fun inner isShallow =>
            ih _ inProperties value found (fun _ => isRequired) (formed _ inProperties)
              (clear _ inProperties) (signed _ isMember) inner isShallow
        · have notContained : required.contains name = false :=
            Bool.eq_false_iff.mpr fun contained => isRequired (List.contains_iff_mem.mp contained)
          rw [notContained]
          cases found : Json.lookup? name members with
          | none => exact ⟨.absent, .settled _⟩
          | some value =>
              have isMember := Json.mem_of_lookup? found
              have lower := Json.height_lt_of_member isMember
              simp only at lower
              exact judges_inner (.key name) (by omega) fun inner isShallow =>
                judges_optional fun notNull => ih _ inProperties value found
                  (fun isNull => absurd isNull notNull) (formed _ inProperties)
                  (clear _ inProperties) (signed _ isMember) inner isShallow
      obtain ⟨verdicts, meaning, judged, combined⟩ := judges_parts
        (fun values => .struct
          (((properties.map (propertyOf required)).map Property.name).zip values)) fit
      exact ⟨meaning,
        combined ▸ .struct (hasRole_term document (.object properties required)) judged⟩
  | @oneOf alternatives alternative value member accepts ih =>
      cases formed with | oneOf some formed noChoices differ =>
      cases clear with | oneOf clear kinds =>
      exact judges_choice member accepts (noChoices _ member) signed kinds
        (ih (formed _ member) (clear _ member) signed path shallow)

end Verdicts

end Inferred
end TextSchema
end PackedJson
