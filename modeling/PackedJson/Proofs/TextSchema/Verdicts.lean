import PackedJson.Proofs.TextSchema.Meaning

namespace PackedJson
namespace TextSchema

/-!
Verdicts are unique, and violations lead to values.

The walk through a document is deterministic: a value has one role, and the
role decides which rule applies.  The path of a violation leads from the
document to the value that the violation speaks of.
-/

section Uniqueness

variable {document : Json} {limit : Nat} {term : Term} {path : Path} {value : Json}

/-- A value has at most one best alternative. -/
theorem isChoice_inj {roles : List Role} {first second : Nat}
    (firstChoice : IsChoice roles value first) (secondChoice : IsChoice roles value second) :
    first = second := by
  obtain ⟨firstRole, firstRank, isFirst, suitsFirst, firstBest⟩ := firstChoice
  obtain ⟨secondRole, secondRank, isSecond, suitsSecond, secondBest⟩ := secondChoice
  have before := firstBest second secondRole secondRank isSecond suitsSecond
  have behind := secondBest first firstRole firstRank isFirst suitsFirst
  omega

theorem roles_inj {alternatives : List Term} {first second : List Role}
    (firstRoles : List.Forall₂ (HasRole document) alternatives first)
    (secondRoles : List.Forall₂ (HasRole document) alternatives second) : first = second := by
  induction firstRoles generalizing second with
  | nil =>
      cases secondRoles
      rfl
  | cons isFirst _ ih =>
      cases secondRoles with
      | cons isSecond rest => rw [hasRole_inj isFirst isSecond, ih rest]

/-- A verdict that depends on no other one is the only one. -/
theorem eq_own {role : Role} {verdict own : Verdict} (hasRole : HasRole document term role)
    (isOwn : ownVerdict? role path value = some own)
    (judges : Judges document limit (.asked term path value) verdict) : verdict = own := by
  cases judges with
  | own otherRole isOther =>
      cases hasRole_inj hasRole otherRole
      exact Option.some.inj (isOther.symm.trans isOwn)
  | option otherRole notNull =>
      cases hasRole_inj hasRole otherRole
      cases value <;> first | exact absurd rfl notNull | cases isOwn
  | result otherRole =>
      cases hasRole_inj hasRole otherRole
      cases value <;> cases isOwn
  | array otherRole =>
      cases hasRole_inj hasRole otherRole
      cases isOwn
  | map otherRole =>
      cases hasRole_inj hasRole otherRole
      cases isOwn
  | struct otherRole =>
      cases hasRole_inj hasRole otherRole
      cases isOwn
  | variant otherRole =>
      cases hasRole_inj hasRole otherRole
      cases value <;> cases isOwn

/-- There is one verdict on a matter. -/
theorem judges_inj {matter : Matter} {first second : Verdict}
    (firstJudges : Judges document limit matter first)
    (secondJudges : Judges document limit matter second) : second = first := by
  refine @Judges.rec document limit
    (fun matter verdict _ => forall other, Judges document limit matter other -> other = verdict)
    (fun matters verdicts _ => forall others,
      List.Forall₂ (Judges document limit) matters others -> others = verdicts)
    ?settled ?own ?option ?result ?array ?map ?struct ?variant ?nil ?cons matter first firstJudges
    second secondJudges
  case settled =>
    intro verdict other judges
    cases judges
    rfl
  case own => exact fun hasRole isOwn other judges => eq_own hasRole isOwn judges
  case option =>
    intro term inner path value verdict hasRole notNull _ ih other judges
    cases judges with
    | own otherRole isOwn =>
        cases hasRole_inj hasRole otherRole
        cases value <;> first | exact absurd rfl notNull | cases isOwn
    | option otherRole _ innerJudges =>
        cases hasRole_inj hasRole otherRole
        rw [ih _ innerJudges]
    | _ otherRole => cases hasRole_inj hasRole otherRole
  case result =>
    intro term inner path value verdict hasRole _ ih other judges
    cases judges with
    | own otherRole isOwn =>
        cases hasRole_inj hasRole otherRole
        cases value <;> cases isOwn
    | result otherRole innerJudges =>
        cases hasRole_inj hasRole otherRole
        rw [ih _ innerJudges]
    | _ otherRole => cases hasRole_inj hasRole otherRole
  case array =>
    intro term element path items verdicts hasRole _ ih other judges
    cases judges with
    | own otherRole isOwn =>
        cases hasRole_inj hasRole otherRole
        cases isOwn
    | array otherRole areJudged =>
        cases hasRole_inj hasRole otherRole
        rw [ih _ areJudged]
    | _ otherRole => cases hasRole_inj hasRole otherRole
  case map =>
    intro term inner path members verdicts hasRole _ ih other judges
    cases judges with
    | own otherRole isOwn =>
        cases hasRole_inj hasRole otherRole
        cases isOwn
    | map otherRole areJudged =>
        cases hasRole_inj hasRole otherRole
        rw [ih _ areJudged]
    | _ otherRole => cases hasRole_inj hasRole otherRole
  case struct =>
    intro term path members properties verdicts hasRole _ ih other judges
    cases judges with
    | own otherRole isOwn =>
        cases hasRole_inj hasRole otherRole
        cases isOwn
    | struct otherRole areJudged =>
        cases hasRole_inj hasRole otherRole
        rw [ih _ areJudged]
    | _ otherRole => cases hasRole_inj hasRole otherRole
  case variant =>
    intro term chosen path value alternatives roles place verdict hasRole areRoles isChoice isChosen
      _ ih other judges
    cases judges with
    | own otherRole isOwn =>
        cases hasRole_inj hasRole otherRole
        cases value <;> cases isOwn
    | variant otherRole otherRoles otherChoice otherChosen innerJudges =>
        cases hasRole_inj hasRole otherRole
        cases roles_inj areRoles otherRoles
        cases isChoice_inj isChoice otherChoice
        cases isChosen.symm.trans otherChosen
        rw [ih _ innerJudges]
    | _ otherRole => cases hasRole_inj hasRole otherRole
  case nil =>
    intro others areJudged
    cases areJudged
    rfl
  case cons =>
    intro matter verdict matters verdicts _ _ ih restIh others areJudged
    cases areJudged with
    | cons judges rest => rw [ih _ judges, restIh _ rest]

/-! ### What is decided -/

/-- There is a verdict on a matter. -/
def IsDecided (document : Json) (limit : Nat) (matter : Matter) : Prop :=
  exists verdict, Judges document limit matter verdict

theorem IsDecided.of_judged {matters : List Matter} {verdicts : List Verdict}
    (areJudged : List.Forall₂ (Judges document limit) matters verdicts) :
    forall matter, matter ∈ matters -> IsDecided document limit matter := by
  intro matter member
  obtain ⟨index, bound, rfl⟩ := List.getElem_of_mem member
  have judges := List.forall₂_iff_get.mp areJudged
  exact ⟨_, judges.2 index bound (judges.1 ▸ bound)⟩

/-- What is inside an option is decided, unless it is absent. -/
theorem IsDecided.option {inner : Term} (hasRole : HasRole document term (.option inner))
    (notNull : value ≠ .null) (decided : IsDecided document limit (.asked term path value)) :
    IsDecided document limit (.asked inner path value) := by
  obtain ⟨verdict, judges⟩ := decided
  cases judges with
  | own otherRole isOwn =>
      cases hasRole_inj hasRole otherRole
      cases value <;> first | exact absurd rfl notNull | cases isOwn
  | option otherRole _ innerJudges =>
      cases hasRole_inj hasRole otherRole
      exact ⟨_, innerJudges⟩
  | _ otherRole => cases hasRole_inj hasRole otherRole

theorem IsDecided.result {inner : Term} (hasRole : HasRole document term (.result inner))
    (decided : IsDecided document limit (.asked term path value)) :
    IsDecided document limit (.asked inner path value) := by
  obtain ⟨verdict, judges⟩ := decided
  cases judges with
  | own otherRole isOwn =>
      cases hasRole_inj hasRole otherRole
      cases value <;> cases isOwn
  | result otherRole innerJudges =>
      cases hasRole_inj hasRole otherRole
      exact ⟨_, innerJudges⟩
  | _ otherRole => cases hasRole_inj hasRole otherRole

theorem IsDecided.items {element : Term} {items : List Json}
    (hasRole : HasRole document term (.array element))
    (decided : IsDecided document limit (.asked term path (.array items))) :
    forall matter, matter ∈ Matter.items limit element path items 0 ->
      IsDecided document limit matter := by
  obtain ⟨verdict, judges⟩ := decided
  cases judges with
  | own otherRole isOwn =>
      cases hasRole_inj hasRole otherRole
      cases isOwn
  | array otherRole areJudged =>
      cases hasRole_inj hasRole otherRole
      exact .of_judged areJudged
  | _ otherRole => cases hasRole_inj hasRole otherRole

theorem IsDecided.members {inner : Term} {members : List (String × Json)}
    (hasRole : HasRole document term (.map inner))
    (decided : IsDecided document limit (.asked term path (.object members))) :
    forall matter, matter ∈ Matter.members limit inner path members ->
      IsDecided document limit matter := by
  obtain ⟨verdict, judges⟩ := decided
  cases judges with
  | own otherRole isOwn =>
      cases hasRole_inj hasRole otherRole
      cases isOwn
  | map otherRole areJudged =>
      cases hasRole_inj hasRole otherRole
      exact .of_judged areJudged
  | _ otherRole => cases hasRole_inj hasRole otherRole

theorem IsDecided.properties {properties : List Property} {members : List (String × Json)}
    (hasRole : HasRole document term (.struct properties))
    (decided : IsDecided document limit (.asked term path (.object members))) :
    forall matter, matter ∈ properties.map (Matter.property limit path members) ->
      IsDecided document limit matter := by
  obtain ⟨verdict, judges⟩ := decided
  cases judges with
  | own otherRole isOwn =>
      cases hasRole_inj hasRole otherRole
      cases isOwn
  | struct otherRole areJudged =>
      cases hasRole_inj hasRole otherRole
      exact .of_judged areJudged
  | _ otherRole => cases hasRole_inj hasRole otherRole

/-- There is an alternative for what is decided. -/
theorem IsDecided.alternative {alternatives : List Term} {roles : List Role}
    (hasRole : HasRole document term (.variant alternatives))
    (areRoles : List.Forall₂ (HasRole document) alternatives roles)
    (decided : IsDecided document limit (.asked term path value)) :
    exists place chosen, IsChoice roles value place ∧ alternatives[place]? = some chosen ∧
      IsDecided document limit (.asked chosen path value) := by
  obtain ⟨verdict, judges⟩ := decided
  cases judges with
  | own otherRole isOwn =>
      cases hasRole_inj hasRole otherRole
      cases value <;> cases isOwn
  | variant otherRole otherRoles isChoice isChosen innerJudges =>
      cases hasRole_inj hasRole otherRole
      cases roles_inj areRoles otherRoles
      exact ⟨_, _, isChoice, isChosen, _, innerJudges⟩
  | _ otherRole => cases hasRole_inj hasRole otherRole

end Uniqueness

/-! ### Where violations are -/

/-- The value that a violation speaks of is of the kind that was found, lacks
the field, is the number out of range, or has parts that are too deep. -/
def IsFaulty : Complaint -> Json -> Prop
  | .typeMismatch _ found, value => value.kind = found
  | .missingField field, value => value.kind = .object ∧ value.member? field = none
  | .numberOutOfRange number _, value => value = .number (.integer number)
  | .tooDeep _, value => value.kind = .array ∨ value.kind = .object
  | .missingSlice, _ => False

/-- The path of a violation leads from a document to the value at fault. -/
def LeadsToFault (root : Json) (violation : Violation) : Prop :=
  exists value, Path.follow? violation.path.segments root = some value ∧
    IsFaulty violation.complaint value

/-- A matter concerns a value of a document. -/
def Concerns (root : Json) : Matter -> Prop
  | .asked _ path value => Path.follow? path.segments root = some value ∧ value.WellFormed
  | .settled verdict => forall violation, violation ∈ verdict.violations ->
      LeadsToFault root violation

section Faults

variable {document root value : Json} {limit : Nat} {term : Term} {path : Path}

theorem follow?_append (first second : List Segment) (value : Json) :
    Path.follow? (first ++ second) value = (Path.follow? first value).bind (Path.follow? second) := by
  induction first generalizing value with
  | nil => rfl
  | cons segment rest ih =>
      cases segment with
      | key name =>
          simp only [List.cons_append, Path.follow?, Option.bind_assoc]
          exact congrArg _ (funext fun inner => ih inner)
      | index position =>
          cases value with
          | array items =>
              simp only [List.cons_append, Path.follow?, Option.bind_assoc]
              exact congrArg _ (funext fun inner => ih inner)
          | _ => rfl

theorem follow?_child (leads : Path.follow? path.segments root = some value) (segment : Segment) :
    Path.follow? (path.child segment).segments root = Path.follow? [segment] value := by
  unfold Path.child
  simp only [follow?_append, leads, Option.bind_some]

/-- A violation of the value itself. -/
theorem leadsToFault_complaint {complaint : Complaint}
    (leads : Path.follow? path.segments root = some value) (isFaulty : IsFaulty complaint value) :
    forall violation, violation ∈ (Verdict.complaint complaint path).violations ->
      LeadsToFault root violation := by
  intro violation member
  cases List.mem_singleton.mp member
  exact ⟨value, leads, isFaulty⟩

/-- The verdict that a role gives by itself speaks of the value. -/
theorem leadsToFault_own {role : Role} {verdict : Verdict}
    (leads : Path.follow? path.segments root = some value)
    (isOwn : ownVerdict? role path value = some verdict) :
    forall violation, violation ∈ verdict.violations -> LeadsToFault root violation := by
  have mismatch (expected : Json.Kind) := @leadsToFault_complaint root value path
    (.typeMismatch (.value expected) value.kind) leads rfl
  unfold ownVerdict? at isOwn
  split at isOwn
  next number =>
    cases isOwn
    split
    · nofun
    · exact leadsToFault_complaint leads rfl
  all_goals first
    | (cases isOwn; exact mismatch _)
    | (cases isOwn; exact fun _ impossible => absurd impossible List.not_mem_nil)
    | cases isOwn

/-- A value inside a value is found by one more step, or it is too deep. -/
theorem concerns_inner {part : Json} {segment : Segment}
    (leads : Path.follow? path.segments root = some value)
    (isWhole : value.kind = .array ∨ value.kind = .object)
    (isPart : Path.follow? [segment] value = some part) (wellFormed : part.WellFormed) :
    Concerns root (.inner limit term path segment part) := by
  unfold Matter.inner
  split
  · exact leadsToFault_complaint leads isWhole
  · exact ⟨(follow?_child leads segment).trans isPart, wellFormed⟩

theorem concerns_items {items : List Json}
    (leads : Path.follow? path.segments root = some (.array items))
    (wellFormed : (Json.array items).WellFormed) :
    forall matter, matter ∈ Matter.items limit term path items 0 -> Concerns root matter := by
  intro matter member
  obtain ⟨⟨item, index⟩, isItem, rfl⟩ := List.mem_map.mp member
  have found := List.mem_zipIdx_iff_getElem?.mp isItem
  cases wellFormed with
  | array areWellFormed =>
      refine concerns_inner leads (Or.inl rfl) ?_ (areWellFormed item (List.mem_of_getElem? found))
      simp only [Path.follow?, found, Option.bind_some]

theorem concerns_members {members : List (String × Json)}
    (leads : Path.follow? path.segments root = some (.object members))
    (wellFormed : (Json.object members).WellFormed) :
    forall matter, matter ∈ Matter.members limit term path members -> Concerns root matter := by
  intro matter member
  obtain ⟨⟨name, part⟩, isMember, rfl⟩ := List.mem_map.mp member
  cases wellFormed with
  | object distinct areWellFormed =>
      refine concerns_inner leads (Or.inr rfl) ?_ (areWellFormed _ isMember)
      simp only [Path.follow?, Json.member?, Json.lookup?_of_mem distinct isMember,
        Option.bind_some]

theorem concerns_property {members : List (String × Json)} {property : Property}
    (leads : Path.follow? path.segments root = some (.object members))
    (wellFormed : (Json.object members).WellFormed) :
    Concerns root (.property limit path members property) := by
  unfold Matter.property
  cases found : Json.lookup? property.name members with
  | some part =>
      cases wellFormed with
      | object _ areWellFormed =>
          refine concerns_inner leads (Or.inr rfl) ?_ (areWellFormed _ (Json.mem_of_lookup? found))
          simp only [Path.follow?, Json.member?, found, Option.bind_some]
  | none =>
      simp only
      split
      · nofun
      · exact leadsToFault_complaint leads ⟨rfl, found⟩

theorem violations_combine (whole : List Value -> Value) (verdicts : List Verdict) :
    (Verdict.combine whole verdicts).violations = verdicts.flatMap Verdict.violations := by
  unfold Verdict.combine
  split
  next none => exact none.symm
  next some => exact some.symm

theorem violations_map (wrap : Value -> Value) (verdict : Verdict) :
    (verdict.map wrap).violations = verdict.violations := by
  cases verdict <;> rfl

/-- Every violation of a matter leads to the value at fault. -/
theorem leadsToFault_of_judges {matter : Matter} {verdict : Verdict}
    (judges : Judges document limit matter verdict) (concerns : Concerns root matter) :
    forall violation, violation ∈ verdict.violations -> LeadsToFault root violation := by
  refine @Judges.rec document limit
    (fun matter verdict _ => Concerns root matter -> forall violation,
      violation ∈ verdict.violations -> LeadsToFault root violation)
    (fun matters verdicts _ => (forall matter, matter ∈ matters -> Concerns root matter) ->
      forall violation, violation ∈ verdicts.flatMap Verdict.violations ->
        LeadsToFault root violation)
    ?settled ?own ?option ?result ?array ?map ?struct ?variant ?nil ?cons matter verdict judges
    concerns
  case settled => exact fun _ concerns => concerns
  case own => exact fun _ isOwn concerns => leadsToFault_own concerns.1 isOwn
  case option =>
    intro _ _ _ _ verdict _ _ _ ih concerns
    rw [violations_map]
    exact ih concerns
  case result =>
    intro _ _ _ _ verdict _ _ _ _
    cases verdict <;> nofun
  case array =>
    intro _ _ _ _ _ _ _ ih concerns
    rw [violations_combine]
    exact ih (concerns_items concerns.1 concerns.2)
  case map =>
    intro _ _ _ _ _ _ _ ih concerns
    rw [violations_combine]
    exact ih (concerns_members concerns.1 concerns.2)
  case struct =>
    intro _ _ _ _ _ _ _ ih concerns
    rw [violations_combine]
    refine ih (List.forall_mem_map.mpr fun property _ => ?_)
    exact concerns_property concerns.1 concerns.2
  case variant =>
    intro _ _ _ _ _ _ _ verdict _ _ _ _ _ ih concerns
    rw [violations_map]
    exact ih concerns
  case nil => nofun
  case cons =>
    intro _ _ _ _ _ _ ih restIh concerns violation member
    obtain ⟨isConcerned, others⟩ := List.forall_mem_cons.mp concerns
    rw [List.flatMap_cons, List.mem_append] at member
    exact member.elim (ih isConcerned violation) (restIh others violation)

end Faults

end TextSchema
end PackedJson
