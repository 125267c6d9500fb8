import Mathlib.Data.List.Nodup
import Mathlib.Data.List.Perm.Subperm
import PackedJson.Proofs.TextSchema.Verdicts
import PackedJson.TextSchema.Infer

namespace PackedJson

/-!
What inferred text schemas accept.

A schema accepts the values that one of its samples could have been.  Merging
two schemas gives one that accepts whatever either of them accepts, so that
the schema of an array accepts all of its items, and a sample is accepted by
what is inferred from it.

A choice accepts what one of its alternatives accepts.  Which alternative a
value goes to is another matter: it is decided by the form of the value alone.
-/

/-- All integers of a value have at most 64 binary digits, one of which is for
the sign. -/
inductive Json.IsSigned : Json -> Prop where
  | null : IsSigned .null
  | boolean (value : Bool) : IsSigned (.boolean value)
  | integer {value : Int} : value < 2 ^ 63 -> IsSigned (.number (.integer value))
  | float (bits : UInt64) : IsSigned (.number (.float bits))
  | string (text : String) : IsSigned (.string text)
  | array {items : List Json} : (forall item, item ∈ items -> IsSigned item) ->
      IsSigned (.array items)
  | object {members : List (String × Json)} :
      (forall member, member ∈ members -> IsSigned member.2) -> IsSigned (.object members)

namespace TextSchema
namespace Inferred

/-- A schema accepts a value.  Each member of an object is a property, and only
properties that are not required are missing or null. -/
inductive Accepts : Inferred -> Json -> Prop where
  | null : Accepts null .null
  | boolean (value : Bool) : Accepts boolean (.boolean value)
  | integer {value : Int} : value < 2 ^ 63 -> Accepts integer (.number (.integer value))
  | number (value : Json.Number) : Accepts number (.number value)
  | string (text : String) : Accepts string (.string text)
  | array {items : Inferred} {values : List Json} :
      (forall value, value ∈ values -> Accepts items value) ->
      Accepts (array items) (.array values)
  | object {properties : List (String × Inferred)} {required : List String}
      {members : List (String × Json)} :
      (forall member, member ∈ members -> member.1 ∈ properties.map Prod.fst) ->
      (forall name, name ∈ required -> name ∈ members.map Prod.fst) ->
      (forall property, property ∈ properties -> forall value,
        Json.lookup? property.1 members = some value ->
        (value = .null -> property.1 ∈ required) -> Accepts property.2 value) ->
      Accepts (object properties required) (.object members)
  | oneOf {alternatives : List Inferred} {alternative : Inferred} {value : Json} :
      alternative ∈ alternatives -> Accepts alternative value ->
      Accepts (oneOf alternatives) value

/-- What samples give rise to: properties have distinct names, a property that
was always null is not required, and the alternatives of a choice differ and
are no choices. -/
inductive Formed : Inferred -> Prop where
  | null : Formed null
  | boolean : Formed boolean
  | integer : Formed integer
  | number : Formed number
  | string : Formed string
  | array {items : Inferred} : Formed items -> Formed (array items)
  | object {properties : List (String × Inferred)} {required : List String} :
      (properties.map Prod.fst).Nodup ->
      (forall property, property ∈ properties -> Formed property.2) ->
      (forall name, (name, Inferred.null) ∈ properties -> name ∉ required) ->
      Formed (object properties required)
  | oneOf {alternatives : List Inferred} : alternatives ≠ [] ->
      (forall alternative, alternative ∈ alternatives -> Formed alternative) ->
      (forall alternative, alternative ∈ alternatives ->
        forall inner, alternative ≠ Inferred.oneOf inner) ->
      (alternatives.Pairwise fun first second => same first second = false) ->
      Formed (oneOf alternatives)

/-! ### Equal schemas -/

theorem mem_of_lookup? {name : String} {properties : List (String × Inferred)}
    {schema : Inferred} (found : lookup? name properties = some schema) :
    (name, schema) ∈ properties := by
  induction properties with
  | nil => cases found
  | cons property rest ih =>
      unfold lookup? at found
      split at found
      next same =>
        cases found
        exact same ▸ List.mem_cons_self
      next => exact List.mem_cons_of_mem _ (ih found)

theorem not_mem_of_lookup? {name : String} {properties : List (String × Inferred)}
    (missing : lookup? name properties = none) : name ∉ properties.map Prod.fst := by
  induction properties with
  | nil => exact List.not_mem_nil
  | cons property rest ih =>
      unfold lookup? at missing
      split at missing
      next => cases missing
      next different =>
        exact List.not_mem_cons_of_ne_of_not_mem (Ne.symm different) (ih missing)

theorem lookup?_of_sameProperties {first second : List (String × Inferred)}
    (areSame : sameProperties first second = true) {property : String × Inferred}
    (member : property ∈ first) :
    exists other, lookup? property.1 second = some other ∧ same property.2 other = true := by
  induction first with
  | nil => cases member
  | cons head rest ih =>
      unfold sameProperties at areSame
      rw [Bool.and_eq_true] at areSame
      cases List.mem_cons.mp member with
      | inr inRest => exact ih areSame.2 inRest
      | inl isHead =>
          subst isHead
          have found := areSame.1
          split at found
          next other isOther => exact ⟨other, isOther, found⟩
          next => cases found

theorem exists_same_of_sameList {first second : List Inferred}
    (areSame : sameList first second = true) {alternative : Inferred}
    (member : alternative ∈ second) :
    exists other, other ∈ first ∧ same other alternative = true := by
  induction first generalizing second with
  | nil =>
      cases second with
      | nil => cases member
      | cons => cases areSame
  | cons head rest ih =>
      cases second with
      | nil => cases areSame
      | cons other others =>
          unfold sameList at areSame
          rw [Bool.and_eq_true] at areSame
          cases List.mem_cons.mp member with
          | inl isOther => exact ⟨head, List.mem_cons_self, isOther ▸ areSame.1⟩
          | inr inOthers =>
              obtain ⟨found, inRest, isSame⟩ := ih areSame.2 inOthers
              exact ⟨found, List.mem_cons_of_mem _ inRest, isSame⟩

/-- Equal schemas have the same names. -/
theorem names_of_sameProperties {first second : List (String × Inferred)}
    (distinct : (first.map Prod.fst).Nodup) (length : first.length = second.length)
    (areSame : sameProperties first second = true) :
    forall name, name ∈ second.map Prod.fst -> name ∈ first.map Prod.fst := by
  have subset : first.map Prod.fst ⊆ second.map Prod.fst := by
    intro name member
    obtain ⟨property, isProperty, rfl⟩ := List.mem_map.mp member
    obtain ⟨other, found, _⟩ := lookup?_of_sameProperties areSame isProperty
    exact List.mem_map.mpr ⟨_, mem_of_lookup? found, rfl⟩
  have perm := (List.Nodup.subperm distinct subset).perm_of_length_le
    (Nat.le_of_eq (by rw [List.length_map, List.length_map, length]))
  exact fun name member => perm.mem_iff.mpr member

/-- Equal schemas accept the same values. -/
theorem accepts_of_same {first second : Inferred} {value : Json} (formed : Formed first)
    (isSame : same first second = true) (accepts : Accepts second value) : Accepts first value := by
  induction accepts generalizing first with
  | null =>
      cases first <;> simp only [same, Bool.false_eq_true] at isSame
      exact .null
  | boolean holds =>
      cases first <;> simp only [same, Bool.false_eq_true] at isSame
      exact .boolean holds
  | integer small =>
      cases first <;> simp only [same, Bool.false_eq_true] at isSame
      exact .integer small
  | number value =>
      cases first <;> simp only [same, Bool.false_eq_true] at isSame
      exact .number value
  | string text =>
      cases first <;> simp only [same, Bool.false_eq_true] at isSame
      exact .string text
  | array _ ih =>
      cases formed <;> simp only [same, Bool.false_eq_true] at isSame
      next formed => exact .array fun value member => ih value member formed isSame
  | @object properties required members known present _ ih =>
      cases formed <;> simp only [same, Bool.false_eq_true] at isSame
      next first firstRequired distinct formed _ =>
        simp only [Bool.and_eq_true, beq_iff_eq] at isSame
        obtain ⟨⟨length, areSame⟩, rfl⟩ := isSame
        refine .object (fun member isMember => ?_) present fun property isProperty value found
          isPresent => ?_
        · exact names_of_sameProperties distinct length areSame _ (known member isMember)
        · obtain ⟨other, isOther, isSame⟩ := lookup?_of_sameProperties areSame isProperty
          exact ih (property.1, other) (mem_of_lookup? isOther) value found isPresent
            (formed property isProperty) isSame
  | @oneOf alternatives alternative value member _ ih =>
      cases formed <;> simp only [same, Bool.false_eq_true] at isSame
      next others _ formed _ _ =>
        obtain ⟨other, isOther, isSame⟩ := exists_same_of_sameList isSame member
        exact .oneOf isOther (ih (formed other isOther) isSame)

/-! ### Merging -/

/-- A schema is formed and accepts what either of two others accepts. -/
structure IsJoin (first second whole : Inferred) : Prop where
  formed : Formed whole
  left : forall value, Accepts first value -> Accepts whole value
  right : forall value, Accepts second value -> Accepts whole value
  null : whole = .null -> first = .null ∧ second = .null

section Joins

variable {first second whole : Inferred}

theorem isJoin_same (formed : Formed first) (isSame : same first second = true) :
    IsJoin first second first := by
  refine ⟨formed, fun _ => id, fun _ => accepts_of_same formed isSame, fun isNull => ⟨isNull, ?_⟩⟩
  subst isNull
  cases second <;> simp only [same, Bool.false_eq_true] at isSame
  rfl

theorem isJoin_array (join : IsJoin first second whole) :
    IsJoin (array first) (array second) (array whole) := by
  refine ⟨.array join.formed, ?_, ?_, nofun⟩
  · rintro _ ⟨⟩
    next accepts => exact .array fun value member => join.left value (accepts value member)
  · rintro _ ⟨⟩
    next accepts => exact .array fun value member => join.right value (accepts value member)

theorem isJoin_numbers : IsJoin integer number number ∧ IsJoin number integer number := by
  have widens (value : Json) : Accepts integer value -> Accepts number value := by
    rintro ⟨⟩
    exact .number _
  exact ⟨⟨.number, widens, fun _ => id, nofun⟩, ⟨.number, fun _ => id, widens, nofun⟩⟩

/-! #### Choices -/

theorem Formed.alternatives (formed : Formed first) :
    (first.alternatives ≠ [] ∧ forall alternative, alternative ∈ first.alternatives ->
      Formed alternative ∧ forall inner, alternative ≠ .oneOf inner) := by
  have alone (notChoice : forall inner, first ≠ .oneOf inner) :
      [first] ≠ [] ∧ forall alternative, alternative ∈ [first] ->
        Formed alternative ∧ forall inner, alternative ≠ .oneOf inner :=
    ⟨nofun, fun alternative member => List.mem_singleton.mp member ▸ ⟨formed, notChoice⟩⟩
  cases formed with
  | oneOf some areFormed areNoChoices _ =>
      exact ⟨some, fun alternative member =>
        ⟨areFormed alternative member, areNoChoices alternative member⟩⟩
  | _ => exact alone nofun

theorem Accepts.alternative {value : Json} (accepts : Accepts first value) :
    exists alternative, alternative ∈ first.alternatives ∧ Accepts alternative value := by
  cases accepts with
  | oneOf member accepts => exact ⟨_, member, accepts⟩
  | null => exact ⟨_, List.mem_singleton_self _, .null⟩
  | boolean holds => exact ⟨_, List.mem_singleton_self _, .boolean holds⟩
  | integer small => exact ⟨_, List.mem_singleton_self _, .integer small⟩
  | number value => exact ⟨_, List.mem_singleton_self _, .number value⟩
  | string text => exact ⟨_, List.mem_singleton_self _, .string text⟩
  | array accepts => exact ⟨_, List.mem_singleton_self _, .array accepts⟩
  | object known present accepts => exact ⟨_, List.mem_singleton_self _, .object known present accepts⟩

theorem mem_unique {before rest : List Inferred} {schema : Inferred}
    (member : schema ∈ unique before rest) : schema ∈ before ∨ schema ∈ rest := by
  induction rest generalizing before with
  | nil => exact .inl member
  | cons head rest ih =>
      unfold unique at member
      split at member
      · exact (ih member).imp_right (List.mem_cons_of_mem _)
      · cases ih member with
        | inr inRest => exact .inr (List.mem_cons_of_mem _ inRest)
        | inl inBefore =>
            cases List.mem_append.mp inBefore with
            | inl inBefore => exact .inl inBefore
            | inr isHead => exact .inr (List.mem_singleton.mp isHead ▸ List.mem_cons_self)

theorem subset_unique (before rest : List Inferred) : before ⊆ unique before rest := by
  induction rest generalizing before with
  | nil => exact fun _ => id
  | cons head rest ih =>
      unfold unique
      split
      · exact ih before
      · exact fun schema member => ih _ (List.mem_append_left _ member)

/-- What is left out of a list equals something before it. -/
theorem exists_same_of_unique {before rest : List Inferred} {schema : Inferred}
    (member : schema ∈ rest) :
    exists other, other ∈ unique before rest ∧ (other = schema ∨ same other schema = true) := by
  induction rest generalizing before with
  | nil => cases member
  | cons head rest ih =>
      unfold unique
      split
      next isKnown =>
        cases List.mem_cons.mp member with
        | inr inRest => exact ih inRest
        | inl isHead =>
            obtain ⟨other, inBefore, isSame⟩ := List.any_eq_true.mp isKnown
            exact ⟨other, subset_unique before rest inBefore, .inr (isHead ▸ isSame)⟩
      next =>
        cases List.mem_cons.mp member with
        | inr inRest => exact ih inRest
        | inl isHead =>
            refine ⟨schema, subset_unique _ rest ?_, .inl rfl⟩
            exact List.mem_append_right _ (isHead ▸ List.mem_singleton_self _)

theorem pairwise_unique {before rest : List Inferred}
    (differ : before.Pairwise fun first second => same first second = false) :
    (unique before rest).Pairwise fun first second => same first second = false := by
  induction rest generalizing before with
  | nil => exact differ
  | cons head rest ih =>
      unfold unique
      split
      · exact ih differ
      next isNew =>
        refine ih (List.pairwise_append.mpr ⟨differ, List.pairwise_singleton _ _, ?_⟩)
        intro other inBefore _ isHead
        rw [List.mem_singleton.mp isHead, ← Bool.not_eq_true]
        exact fun isSame => isNew (List.any_eq_true.mpr ⟨other, inBefore, isSame⟩)

theorem isJoin_choice (firstFormed : Formed first) (secondFormed : Formed second) :
    IsJoin first second (choice first second) := by
  obtain ⟨some, areFirst⟩ := firstFormed.alternatives
  obtain ⟨_, areSecond⟩ := secondFormed.alternatives
  let both := first.alternatives ++ second.alternatives
  have areBoth {alternative : Inferred} (member : alternative ∈ unique [] both) :
      Formed alternative ∧ forall inner, alternative ≠ .oneOf inner :=
    (List.mem_append.mp ((mem_unique member).resolve_left List.not_mem_nil)).elim
      (areFirst alternative) (areSecond alternative)
  have accepts {alternative : Inferred} (member : alternative ∈ both) {value : Json}
      (accepted : Accepts alternative value) : Accepts (choice first second) value := by
    obtain ⟨other, inUnique, rfl | isSame⟩ := exists_same_of_unique member
    · exact .oneOf inUnique accepted
    · exact .oneOf inUnique (accepts_of_same (areBoth inUnique).1 isSame accepted)
  refine ⟨.oneOf ?_ (fun _ member => (areBoth member).1) (fun _ member => (areBoth member).2)
    (pairwise_unique .nil), ?_, ?_, nofun⟩
  · intro isEmpty
    obtain ⟨alternative, member⟩ := List.exists_mem_of_ne_nil _ some
    obtain ⟨other, inUnique, _⟩ := exists_same_of_unique (List.mem_append_left _ member)
    rw [isEmpty] at inUnique
    cases inUnique
  · intro value accepted
    obtain ⟨alternative, member, accepted⟩ := accepted.alternative
    exact accepts (List.mem_append_left _ member) accepted
  · intro value accepted
    obtain ⟨alternative, member, accepted⟩ := accepted.alternative
    exact accepts (List.mem_append_right _ member) accepted

/-! #### Objects -/

/-- The schema of a property, given what the other sample has for it. -/
def combined (schema : Inferred) : Option Inferred -> Inferred
  | none => schema
  | some other =>
      match schema, other with
      | .null, _ => other
      | _, .null => schema
      | _, _ => merge schema other

theorem mergeProperties_eq (first second : List (String × Inferred)) :
    mergeProperties first second =
      first.map fun (name, schema) => (name, combined schema (lookup? name second)) := by
  induction first with
  | nil => rw [mergeProperties, List.map_nil]
  | cons property rest ih =>
      rw [mergeProperties, ih]
      rfl

theorem combined_null (schema : Inferred) : combined schema (some .null) = schema := by
  cases schema <;> rfl

theorem combined_of_ne {schema other : Inferred} (isSchema : schema ≠ .null)
    (isOther : other ≠ .null) : combined schema (some other) = merge schema other := by
  cases schema <;> first | exact absurd rfl isSchema |
    (cases other <;> first | exact absurd rfl isOther | rfl)

/-- The schema of a property accepts what either sample has for it, unless that
is null. -/
structure Combines (schema : Inferred) (found : Option Inferred) : Prop where
  formed : Formed (combined schema found)
  null : combined schema found = .null -> schema = .null
  left : schema ≠ .null -> forall value, Accepts schema value ->
    Accepts (combined schema found) value
  right : forall other, found = some other -> other ≠ .null -> forall value,
    Accepts other value -> Accepts (combined schema found) value

theorem combines {schema : Inferred} {found : Option Inferred} (formed : Formed schema)
    (foundFormed : forall other, found = some other -> Formed other)
    (joins : forall other, Formed other -> IsJoin schema other (merge schema other)) :
    Combines schema found := by
  cases found with
  | none => exact ⟨formed, id, fun _ _ => id, nofun⟩
  | some other =>
      have otherFormed := foundFormed other rfl
      by_cases isNull : schema = .null
      · subst isNull
        exact ⟨otherFormed, fun _ => rfl, fun different => absurd rfl different,
          fun _ same _ _ => Option.some.inj same ▸ id⟩
      · by_cases otherNull : other = .null
        · subst otherNull
          have same := combined_null schema
          exact ⟨same.symm ▸ formed, fun _ => same.symm.trans ‹_›, fun _ _ => same.symm ▸ id,
            fun _ found different => absurd (Option.some.inj found).symm different⟩
        · have join := joins other otherFormed
          have same := combined_of_ne isNull otherNull
          refine ⟨same.symm ▸ join.formed, fun none => (join.null (same ▸ none)).1,
            fun _ value accepts => same.symm ▸ join.left value accepts, ?_⟩
          rintro _ ⟨⟩ _ value accepts
          exact same.symm ▸ join.right value accepts

/-- The properties of two objects. -/
def mergedProperties (first second : List (String × Inferred)) : List (String × Inferred) :=
  mergeProperties first second ++
    second.filter fun property => (lookup? property.1 first).isNone

/-- The names that two objects require. -/
def mergedRequired (first : List (String × Inferred)) (firstRequired secondRequired : List String) :
    List String :=
  (first.map Prod.fst).filter fun name =>
    firstRequired.contains name && secondRequired.contains name

theorem mem_mergedProperties {first second : List (String × Inferred)} {name : String}
    {whole : Inferred} : (name, whole) ∈ mergedProperties first second ↔
      (exists schema, (name, schema) ∈ first ∧ whole = combined schema (lookup? name second)) ∨
      (name, whole) ∈ second ∧ name ∉ first.map Prod.fst := by
  unfold mergedProperties
  rw [List.mem_append, mergeProperties_eq]
  refine or_congr ?_ ?_
  · constructor
    · intro member
      obtain ⟨⟨name, schema⟩, isFirst, ⟨⟩⟩ := List.mem_map.mp member
      exact ⟨schema, isFirst, rfl⟩
    · rintro ⟨schema, isFirst, rfl⟩
      exact List.mem_map.mpr ⟨_, isFirst, rfl⟩
  · rw [List.mem_filter, Option.isNone_iff_eq_none]
    refine and_congr_right fun _ => ⟨not_mem_of_lookup?, fun missing => ?_⟩
    cases found : lookup? name first with
    | none => rfl
    | some schema => exact absurd (List.mem_map.mpr ⟨_, mem_of_lookup? found, rfl⟩) missing

theorem names_mergedProperties (first second : List (String × Inferred)) :
    (mergedProperties first second).map Prod.fst = first.map Prod.fst ++
      (second.map Prod.fst).filter fun name => (lookup? name first).isNone := by
  unfold mergedProperties
  rw [List.map_append, mergeProperties_eq, List.map_map, List.filter_map]
  rfl

theorem mem_mergedRequired {first : List (String × Inferred)}
    {firstRequired secondRequired : List String} {name : String}
    (member : name ∈ mergedRequired first firstRequired secondRequired) :
    name ∈ first.map Prod.fst ∧ name ∈ firstRequired ∧ name ∈ secondRequired := by
  obtain ⟨isFirst, inBoth⟩ := List.mem_filter.mp member
  rw [Bool.and_eq_true, List.contains_iff_mem, List.contains_iff_mem] at inBoth
  exact ⟨isFirst, inBoth⟩

section Objects

variable {first second : List (String × Inferred)} {firstRequired secondRequired : List String}

theorem isJoin_object (firstFormed : Formed (object first firstRequired))
    (secondFormed : Formed (object second secondRequired))
    (joins : forall property, property ∈ first -> forall other, Formed other ->
      IsJoin property.2 other (merge property.2 other)) :
    IsJoin (object first firstRequired) (object second secondRequired)
      (object (mergedProperties first second)
        (mergedRequired first firstRequired secondRequired)) := by
  obtain ⟨⟩ := firstFormed
  obtain ⟨⟩ := secondFormed
  next distinct areFormed notRequired secondDistinct secondAreFormed secondNotRequired =>
  have combined {name : String} {schema : Inferred} (isFirst : (name, schema) ∈ first) :
      Combines schema (lookup? name second) :=
    combines (areFormed _ isFirst) (fun other found => secondAreFormed _ (mem_of_lookup? found))
      (joins _ isFirst)
  have isNamed {name : String} : name ∈ (mergedProperties first second).map Prod.fst ↔
      name ∈ first.map Prod.fst ∨ name ∈ second.map Prod.fst := by
    rw [names_mergedProperties, List.mem_append, List.mem_filter, Option.isNone_iff_eq_none]
    refine ⟨Or.imp_right And.left, fun either => ?_⟩
    cases found : lookup? name first with
    | none => exact either.imp_right fun isSecond => ⟨isSecond, rfl⟩
    | some schema => exact .inl (List.mem_map.mpr ⟨_, mem_of_lookup? found, rfl⟩)
  refine ⟨.object ?_ ?_ ?_, ?_, ?_, nofun⟩
  · rw [names_mergedProperties]
    refine List.nodup_append.mpr ⟨distinct, secondDistinct.filter _, ?_⟩
    rintro name isFirst _ isSecond rfl
    obtain ⟨_, missing⟩ := List.mem_filter.mp isSecond
    exact not_mem_of_lookup? (Option.isNone_iff_eq_none.mp missing) isFirst
  · rintro ⟨name, whole⟩ member
    obtain ⟨schema, isFirst, rfl⟩ | ⟨isSecond, _⟩ := mem_mergedProperties.mp member
    · exact (combined isFirst).formed
    · exact secondAreFormed _ isSecond
  · intro name member isRequired
    obtain ⟨inFirst, inRequired, _⟩ := mem_mergedRequired isRequired
    obtain ⟨schema, isFirst, same⟩ | ⟨_, missing⟩ := mem_mergedProperties.mp member
    · exact notRequired name ((combined isFirst).null same.symm ▸ isFirst) inRequired
    · exact missing inFirst
  · rintro _ ⟨⟩
    next known present accepts =>
    refine .object (fun member isMember => isNamed.mpr (.inl (known member isMember)))
      (fun name isRequired => present name (mem_mergedRequired isRequired).2.1) ?_
    rintro ⟨name, whole⟩ member value found isPresent
    have isKnown := known _ (Json.mem_of_lookup? found)
    obtain ⟨schema, isFirst, rfl⟩ | ⟨_, missing⟩ := mem_mergedProperties.mp member
    · have accepted := accepts _ isFirst value found fun isNull =>
        (mem_mergedRequired (isPresent isNull)).2.1
      refine (combined isFirst).left ?_ value accepted
      rintro rfl
      cases accepted
      exact notRequired name isFirst (mem_mergedRequired (isPresent rfl)).2.1
    · exact absurd isKnown missing
  · rintro _ ⟨⟩
    next known present accepts =>
    refine .object (fun member isMember => isNamed.mpr (.inr (known member isMember)))
      (fun name isRequired => present name (mem_mergedRequired isRequired).2.2) ?_
    rintro ⟨name, whole⟩ member value found isPresent
    have isKnown := known _ (Json.mem_of_lookup? found)
    obtain ⟨schema, isFirst, rfl⟩ | ⟨isSecond, _⟩ := mem_mergedProperties.mp member
    · cases isOther : lookup? name second with
      | none => exact absurd isKnown (not_mem_of_lookup? isOther)
      | some other =>
          have inSecond := mem_of_lookup? isOther
          have accepted := accepts _ inSecond value found fun isNull =>
            (mem_mergedRequired (isPresent isNull)).2.2
          refine isOther ▸ (combined isFirst).right other isOther ?_ value accepted
          rintro rfl
          cases accepted
          exact secondNotRequired name inSecond (mem_mergedRequired (isPresent rfl)).2.2
    · exact accepts _ isSecond value found fun isNull => (mem_mergedRequired (isPresent isNull)).2.2

end Objects

theorem isJoin_choose (firstFormed : Formed first) (secondFormed : Formed second) :
    IsJoin first second (if same first second then first else choice first second) := by
  split
  next isSame => exact isJoin_same firstFormed isSame
  next => exact isJoin_choice firstFormed secondFormed

/-- Merging joins schemas. -/
theorem isJoin_merge (firstFormed : Formed first) (secondFormed : Formed second) :
    IsJoin first second (merge first second) := by
  induction firstFormed generalizing second with
  | array formed ih =>
      have whole := secondFormed
      cases secondFormed with
      | array othersFormed =>
          unfold merge
          split
          next isSame => exact isJoin_same (.array formed) isSame
          next => exact isJoin_array (ih othersFormed)
      | _ => exact isJoin_choose (.array formed) whole
  | object distinct formed notRequired ih =>
      have first := Formed.object distinct formed notRequired
      have whole := secondFormed
      cases secondFormed with
      | object =>
          unfold merge
          split
          next isSame => exact isJoin_same first isSame
          next =>
            exact isJoin_object first whole fun property member other otherFormed =>
              ih property member otherFormed
      | _ => exact isJoin_choose first whole
  | oneOf some formed noChoices differ =>
      have whole := secondFormed
      cases secondFormed <;> exact isJoin_choose (.oneOf some formed noChoices differ) whole
  | integer =>
      have whole := secondFormed
      cases secondFormed with
      | number => exact isJoin_numbers.1
      | _ => exact isJoin_choose .integer whole
  | number =>
      have whole := secondFormed
      cases secondFormed with
      | integer => exact isJoin_numbers.2
      | _ => exact isJoin_choose .number whole
  | null =>
      have whole := secondFormed
      cases secondFormed <;> exact isJoin_choose .null whole
  | boolean =>
      have whole := secondFormed
      cases secondFormed <;> exact isJoin_choose .boolean whole
  | string =>
      have whole := secondFormed
      cases secondFormed <;> exact isJoin_choose .string whole

/-- The schema of some samples accepts what each of theirs accepts. -/
theorem accepts_foldl {schemas : List Inferred} (formed : Formed first)
    (areFormed : forall schema, schema ∈ schemas -> Formed schema) :
    Formed (schemas.foldl merge first) ∧ forall schema, schema = first ∨ schema ∈ schemas ->
      forall value, Accepts schema value -> Accepts (schemas.foldl merge first) value := by
  induction schemas generalizing first with
  | nil =>
      refine ⟨formed, fun schema member value accepts => ?_⟩
      exact (member.resolve_right List.not_mem_nil) ▸ accepts
  | cons second rest ih =>
      obtain ⟨secondFormed, restFormed⟩ := List.forall_mem_cons.mp areFormed
      have join := isJoin_merge formed secondFormed
      obtain ⟨wholeFormed, accepts⟩ := ih join.formed restFormed
      refine ⟨wholeFormed, fun schema member value accepted => ?_⟩
      rcases member with rfl | member
      · exact accepts _ (.inl rfl) value (join.left value accepted)
      · cases List.mem_cons.mp member with
        | inl isSecond =>
            exact accepts _ (.inl rfl) value (join.right value (isSecond ▸ accepted))
        | inr inRest => exact accepts schema (.inr inRest) value accepted

end Joins

/-! ### Samples -/

theorem ofItems_eq (items : List Json) : ofItems items = items.map ofSample := by
  induction items with
  | nil => rw [ofItems, List.map_nil]
  | cons item rest ih => rw [ofItems, ih, List.map_cons]

theorem ofMembers_eq (members : List (String × Json)) :
    ofMembers members = members.map fun (name, value) => (name, ofSample value) := by
  induction members with
  | nil => rw [ofMembers, List.map_nil]
  | cons member rest ih => rw [ofMembers, ih, List.map_cons]

theorem eq_null_of_ofSample {sample : Json} (isNull : ofSample sample = .null) : sample = .null := by
  cases sample with
  | null => rfl
  | number number => cases number <;> simp only [ofSample, reduceCtorEq] at isNull
  | _ => simp only [ofSample, reduceCtorEq] at isNull

theorem mem_presentNames {members : List (String × Json)} {name : String} :
    name ∈ presentNames members ↔ exists value, (name, value) ∈ members ∧ value ≠ .null := by
  unfold presentNames
  rw [List.mem_filterMap]
  constructor
  · rintro ⟨⟨key, value⟩, member, present⟩
    simp only at present
    split at present
    · cases present
    next different =>
      cases present
      exact ⟨value, member, different⟩
  · rintro ⟨value, member, present⟩
    refine ⟨(name, value), member, ?_⟩
    cases value <;> first | exact absurd rfl present | rfl

/-- What is inferred from a sample is formed and accepts it. -/
def Suits (sample : Json) : Prop :=
  Formed (ofSample sample) ∧ Accepts (ofSample sample) sample

theorem suits_array {items : List Json} (suits : forall item, item ∈ items -> Suits item) :
    Suits (.array items) := by
  unfold Suits
  rw [ofSample, ofItems_eq]
  cases items with
  | nil => exact ⟨.array .null, .array nofun⟩
  | cons item rest =>
      have areFormed : forall schema, schema ∈ rest.map ofSample -> Formed schema :=
        List.forall_mem_map.mpr fun other member => (suits other (List.mem_cons_of_mem _ member)).1
      obtain ⟨formed, accepts⟩ := accepts_foldl (suits item List.mem_cons_self).1 areFormed
      refine ⟨.array formed, .array fun value member => ?_⟩
      refine accepts (ofSample value) ?_ value (suits value member).2
      rcases List.mem_cons.mp member with rfl | inRest
      · exact .inl rfl
      · exact .inr (List.mem_map.mpr ⟨value, inRest, rfl⟩)

theorem suits_object {members : List (String × Json)} (distinct : (members.map Prod.fst).Nodup)
    (suits : forall member, member ∈ members -> Suits member.2) : Suits (.object members) := by
  unfold Suits
  rw [ofSample, ofMembers_eq]
  have names : (members.map fun (name, value) => (name, ofSample value)).map Prod.fst =
      members.map Prod.fst := by
    rw [List.map_map]
    rfl
  refine ⟨.object (names.symm ▸ distinct) ?_ ?_, .object ?_ ?_ ?_⟩
  · exact List.forall_mem_map.mpr fun member isMember => (suits member isMember).1
  · intro name member present
    obtain ⟨⟨key, value⟩, isMember, same⟩ := List.mem_map.mp member
    obtain ⟨rfl, isNull⟩ := Prod.mk.inj same
    obtain ⟨other, isOther, different⟩ := mem_presentNames.mp present
    have found := Json.lookup?_of_mem distinct isMember
    rw [Json.lookup?_of_mem distinct isOther, eq_null_of_ofSample isNull] at found
    exact different (Option.some.inj found)
  · intro member isMember
    rw [names]
    exact List.mem_map_of_mem isMember
  · intro name present
    obtain ⟨value, isMember, _⟩ := mem_presentNames.mp present
    exact List.mem_map.mpr ⟨_, isMember, rfl⟩
  · intro property isProperty value found _
    obtain ⟨⟨name, other⟩, isMember, rfl⟩ := List.mem_map.mp isProperty
    rw [Json.lookup?_of_mem distinct isMember] at found
    cases found
    exact (suits _ isMember).2

/-- A sample is accepted by what is inferred from it. -/
theorem suits_sample {sample : Json} (wellFormed : sample.WellFormed) (signed : sample.IsSigned) :
    Suits sample := by
  induction wellFormed with
  | null => exact ⟨.null, .null⟩
  | boolean value => exact ⟨.boolean, .boolean value⟩
  | integer =>
      obtain ⟨⟩ := signed
      next small => exact ⟨.integer, .integer small⟩
  | float bits => exact ⟨.number, .number _⟩
  | string text => exact ⟨.string, .string text⟩
  | array _ ih =>
      obtain ⟨⟩ := signed
      next areSigned => exact suits_array fun item member => ih item member (areSigned item member)
  | object distinct _ ih =>
      obtain ⟨⟩ := signed
      next areSigned =>
        exact suits_object distinct fun member isMember => ih member isMember (areSigned member isMember)

end Inferred
end TextSchema
end PackedJson
