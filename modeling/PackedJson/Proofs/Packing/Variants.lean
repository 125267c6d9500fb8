import PackedJson.Proofs.Packing.Alternatives

namespace PackedJson

/-!
Writing variants, and reading them back.

The form of a value decides which alternative takes it.  The choice is the one
that the text schema prescribes: the first alternative of those that suit the
value best.
-/

/-- The form of the values that a role takes as an alternative. -/
def TextSchema.Role.form? : Role -> Option Packer.Form
  | .integer => some .integer
  | .number => some .number
  | .boolean => some .boolean
  | .null => some .null
  | .string => some .string
  | .array _ => some .array
  | .map _ => some .map
  | .struct _ => some .object
  | .variant _ => none
  | .option _ => none
  | .result _ => none

namespace Packer

open Arena TextSchema Layout

/-- How well a role suits a value is the place of its form among those that
suit the value. -/
theorem suits?_eq (role : Role) (value : Json) :
    role.suits? value = role.form?.bind fun form =>
      (Form.suitable value).findIdx? fun other => other == form := by
  cases value with
  | number number => cases number <;> cases role <;> rfl
  | _ => cases role <;> rfl

section Choices

variable {fields : List FieldDef} {roles : List Role} {value : Json}

/-- An alternative that has a form, with its form. -/
def candidateOf? (entry : FieldDef × Role) : Option (Form × FieldDef) :=
  entry.2.form?.map fun form => (form, entry.1)

theorem candidateOf?_none {entry : FieldDef × Role} (isForm : entry.2.form? = none) :
    candidateOf? entry = none :=
  congrArg (Option.map _) isForm

theorem candidateOf?_some {entry : FieldDef × Role} {form : Form}
    (isForm : entry.2.form? = some form) : candidateOf? entry = some (form, entry.1) :=
  congrArg (Option.map _) isForm

/-- The alternatives that have a form. -/
def candidatesOf (fields : List FieldDef) (roles : List Role) : List (Form × FieldDef) :=
  (fields.zip roles).filterMap candidateOf?

/-- The first alternative of a form. -/
theorem find?_candidatesOf (fields : List FieldDef) (roles : List Role) (form : Form) :
    ((candidatesOf fields roles).find? fun candidate => candidate.1 == form).map Prod.snd =
      ((fields.zip roles).find? fun entry => entry.2.form? == some form).map Prod.fst := by
  unfold candidatesOf
  induction fields.zip roles with
  | nil => rfl
  | cons entry rest ih =>
      rw [List.find?_cons]
      cases isForm : entry.2.form? with
      | none =>
          rw [List.filterMap_cons_none (candidateOf?_none isForm), ih]
          rfl
      | some other =>
          have sameTest : (some other == some form) = (other == form) := rfl
          rw [List.filterMap_cons_some (candidateOf?_some isForm), List.find?_cons, sameTest]
          cases other == form with
          | true => rfl
          | false => exact ih

/-- The chosen alternative is the first of those that suit the value best. -/
theorem isChoice_of_choose {field : FieldDef} (length : fields.length = roles.length)
    (chosen : choose (candidatesOf fields roles) value = some field) :
    exists place, fields[place]? = some field ∧ IsChoice roles value place := by
  unfold choose at chosen
  simp only [find?_candidatesOf] at chosen
  obtain ⟨better, form, worse, suitable, found, unfound⟩ := List.findSome?_eq_some_iff.mp chosen
  obtain ⟨⟨_, role⟩, isFirst, rfl⟩ := Option.map_eq_some_iff.mp found
  obtain ⟨isForm, place, inBounds, isEntry, notBefore⟩ :=
    List.find?_eq_some_iff_getElem.mp isFirst
  have hasForm : role.form? = some form := beq_iff_eq.mp isForm
  have inFields : place < fields.length := by
    rw [List.length_zip] at inBounds
    omega
  have inRoles : place < roles.length := by omega
  rw [List.getElem_zip, Prod.mk.injEq] at isEntry
  obtain ⟨rfl, rfl⟩ := isEntry
  refine ⟨place, List.getElem?_eq_getElem inFields, roles[place], better.length,
    List.getElem?_eq_getElem inRoles, ?_, ?_⟩
  · have isNot : better.findIdx? (fun other => other == form) = none := by
      apply List.findIdx?_eq_none_iff.mpr
      intro other member
      refine beq_eq_false_iff_ne.mpr fun same => ?_
      rw [same] at member
      cases found.symm.trans (unfound form member)
    rw [suits?_eq, hasForm, Option.bind_some, suitable, List.findIdx?_append, isNot,
      List.findIdx?_cons, beq_self_eq_true, if_pos rfl]
    simp only [Option.none_or, Option.map_some, Nat.zero_add]
  · intro other role rank isRole suits
    obtain ⟨inOther, isOther⟩ := List.getElem?_eq_some_iff.mp isRole
    rw [suits?_eq] at suits
    obtain ⟨otherForm, isOtherForm, isRank⟩ := Option.bind_eq_some_iff.mp suits
    obtain ⟨inSuitable, isSame, _⟩ := List.findIdx?_eq_some_iff_getElem.mp isRank
    have isAt : (Form.suitable value)[rank] = otherForm := beq_iff_eq.mp isSame
    have otherInZip : other < (fields.zip roles).length := by
      rw [List.length_zip]
      omega
    have otherTest : ((fields.zip roles)[other]).2.form? = some otherForm := by
      rw [List.getElem_zip]
      exact isOther ▸ isOtherForm
    rcases Nat.lt_trichotomy rank better.length with before | same | behind
    · have member : otherForm ∈ better := by
        have isBetter : (Form.suitable value)[rank] = better[rank] := by
          simp only [suitable, List.getElem_append_left before]
        rw [← isAt, isBetter]
        exact List.getElem_mem before
      have nothing := Option.map_eq_none_iff.mp (unfound otherForm member)
      have isNot := List.find?_eq_none.mp nothing _ (List.getElem_mem otherInZip)
      exact absurd (beq_iff_eq.mpr otherTest) isNot
    · refine Or.inr ⟨same.symm, Nat.le_of_not_lt fun earlier => ?_⟩
      have isForm : otherForm = form := by
        rw [← isAt]
        simp only [suitable, same, List.getElem_append_right (Nat.le_refl _), Nat.sub_self,
          List.getElem_cons_zero]
      have isNot := notBefore other earlier
      rw [beq_iff_eq.mpr (otherTest.trans (congrArg some isForm))] at isNot
      cases isNot
    · exact Or.inl behind

/-- There is no choice when none is found. -/
theorem not_isChoice_of_choose (length : fields.length = roles.length)
    (chosen : choose (candidatesOf fields roles) value = none) (place : Nat) :
    ¬ IsChoice roles value place := by
  rintro ⟨role, rank, isRole, suits, _⟩
  obtain ⟨inRoles, rfl⟩ := List.getElem?_eq_some_iff.mp isRole
  rw [suits?_eq] at suits
  obtain ⟨form, isForm, isRank⟩ := Option.bind_eq_some_iff.mp suits
  obtain ⟨inSuitable, isSame, _⟩ := List.findIdx?_eq_some_iff_getElem.mp isRank
  have suitable : form ∈ Form.suitable value := beq_iff_eq.mp isSame ▸ List.getElem_mem inSuitable
  unfold choose at chosen
  simp only [find?_candidatesOf] at chosen
  have nothing := Option.map_eq_none_iff.mp (List.findSome?_eq_none_iff.mp chosen form suitable)
  have inZip : place < (fields.zip roles).length := by
    rw [List.length_zip]
    omega
  refine List.find?_eq_none.mp nothing _ (List.getElem_mem inZip) (beq_iff_eq.mpr ?_)
  rw [List.getElem_zip]
  exact isForm

end Choices

section Variants

variable {packer : Packer} {document : Json} {id : TypeId} {type : TypeDef} {tag : Typed}
  {alternatives : List Typed} {payload : Nat} {members : List Member} {terms : List Term}
  {roles : List Role} {place : Offset} {state : PackState} {term : Term} {path : Path}
  {value : Json} {same : Writer}

/-- A member is there for an alternative that a term describes.  Values are
handed on to alternatives that have a form. -/
structure IsAlternative (document : Json) (packer : Packer) (same : Writer) (path : Path)
    (value : Json) (member : Member) (term : Term) (role : Role) : Prop where
  hasRole : HasRole document term role
  type : exists inner, member.type = some inner ∧ packer.form? inner = pure role.form? ∧
    (role.form? ≠ none -> Writes document packer same inner term path value)

theorem candidates_eq
    (forms : List.Forall₂ (fun field role => exists inner, field.type = some inner ∧
      packer.form? inner = pure (Role.form? role)) fields roles) :
    packer.candidates type fields = pure (candidatesOf fields roles) := by
  induction forms with
  | nil => rfl
  | @cons field role fields roles isForm _ ih =>
      obtain ⟨inner, isType, found⟩ := isForm
      unfold candidates
      simp only [fieldType_eq isType, found, ih, pure_bind]
      unfold candidatesOf
      rw [List.zip_cons_cons]
      cases isRole : role.form? with
      | none =>
          have noCandidate : candidateOf? (field, role) = none := candidateOf?_none isRole
          rw [List.filterMap_cons_none noCandidate]
      | some form =>
          have isCandidate : candidateOf? (field, role) = some (form, field) :=
            candidateOf?_some isRole
          rw [List.filterMap_cons_some isCandidate]

/-- The choice of an alternative is its place. -/
theorem choice_eq (choices : AreChoices members)
    (has : List.Forall₂ (HasMember packer) members alternatives) {index : Nat}
    (inBounds : index < alternatives.length) : alternatives[index].1.choice.toNat = index := by
  have inMembers : index < members.length := by rwa [has.length_eq]
  obtain ⟨_, few, areChoices⟩ := choices
  have hasMember := (List.forall₂_iff_get.mp has).2 index inMembers inBounds
  have isChoice : alternatives[index].1.choice = UInt8.ofNat index :=
    hasMember.choice.trans (areChoices index _ (List.getElem?_eq_getElem inMembers))
  rw [isChoice]
  exact UInt8.toNat_ofNat_of_lt' (Nat.lt_of_lt_of_le inMembers (Nat.le_succ_of_le few))

/-- The alternative with the choice of some place is the one in that place. -/
theorem find?_choice (choices : AreChoices members)
    (has : List.Forall₂ (HasMember packer) members alternatives) {index : Nat}
    (inBounds : index < alternatives.length) :
    (alternatives.map Prod.fst).find? (fun field => field.choice.toNat = index) =
      some alternatives[index].1 := by
  refine List.find?_eq_some_iff_getElem.mpr ⟨?_, index, by rwa [List.length_map], ?_, ?_⟩
  · exact decide_eq_true (choice_eq choices has inBounds)
  · rw [List.getElem_map]
  · intro other earlier
    rw [List.getElem_map, choice_eq choices has (Nat.lt_trans earlier inBounds)]
    simp only [Nat.ne_of_lt earlier, decide_false, Bool.not_false]

/-- The alternative in the place that the tag says is read. -/
theorem reads_variant (tagged : IsTagged packer type tag alternatives payload)
    (choices : AreChoices members) (has : List.Forall₂ (HasMember packer) members alternatives)
    {data : Arena} (room : HasRoom data (instanceOf place type)) {index : Nat}
    (inBounds : index < alternatives.length) (isTag : data.HasNumber place 1 index) {inner : TypeId}
    (isType : exists member, members[index]? = some member ∧ member.type = some inner)
    {meaning : Value} (reads : packer.ReadsVariable inner (place.advance payload) meaning data) :
    packer.ReadsInstance id type place (.variant index meaning) data := by
  obtain ⟨found, isFound, isRead⟩ := reads
  obtain ⟨member, isMember, isInner⟩ := isType
  obtain ⟨inMembers, rfl⟩ := List.getElem?_eq_some_iff.mp isMember
  have hasMember := (List.forall₂_iff_get.mp has).2 index inMembers inBounds
  have isVariant : (packer.reader data).variant ⟨id, type, place⟩ =
      .ok (members[index].name, found) := by
    unfold Reader.variant
    rw [if_neg (not_not_intro tagged.shape)]
    simp only [bind, Except.bind, tag_eq isTag room.writable]
    exact alternative_eq tagged room (List.getElem_mem inBounds) hasMember isInner
      (find?_choice choices has inBounds) isFound index
  exact .variant (tag_eq isTag room.writable) isVariant isRead

/-- The alternatives that have a form are the candidates. -/
theorem candidates_of_forms (has : List.Forall₂ (HasMember packer) members alternatives)
    (forms : List.Forall₂ (fun member role => exists inner, member.type = some inner ∧
      packer.form? inner = pure (Role.form? role)) members roles) :
    packer.candidates type (alternatives.map Prod.fst) =
      pure (candidatesOf (alternatives.map Prod.fst) roles) := by
  have sameLength := has.length_eq
  have rolesLength := forms.length_eq
  refine candidates_eq (List.forall₂_iff_get.mpr ⟨?_, fun index inFields inRoles => ?_⟩)
  · rw [List.length_map, ← sameLength, rolesLength]
  · rw [List.length_map] at inFields
    obtain ⟨inner, isType, found⟩ := (List.forall₂_iff_get.mp forms).2 index (by omega) inRoles
    have hasMember := (List.forall₂_iff_get.mp has).2 index (by omega) inFields
    obtain ⟨other, isOther, isField, _⟩ := hasMember.type
    cases isType.symm.trans isOther
    simp only [List.get_eq_getElem, List.getElem_map] at isField ⊢
    exact ⟨inner, isField, found⟩

/-- Writing a variant fails when no candidate is chosen. -/
theorem variant_none_eq (tagged : IsTagged packer type tag alternatives payload)
    {candidates : List (Form × FieldDef)}
    (are : packer.candidates type (alternatives.map Prod.fst) = pure candidates)
    (chosen : choose candidates value = none) :
    packer.variant same type place path value =
      throw (.schema (.noVariantCandidate (packer.schema.name type) value.kind)) := by
  unfold Packer.variant
  rw [ask_ok tagged.inOrder, pure_bind]
  simp only [List.drop_succ_cons, List.drop_zero, are, pure_bind, List.head?_cons, chosen]

/-- Writing a variant writes the choice and then the value as the chosen
candidate. -/
theorem variant_some_eq (tagged : IsTagged packer type tag alternatives payload)
    {candidates : List (Form × FieldDef)}
    (are : packer.candidates type (alternatives.map Prod.fst) = pure candidates)
    {alternative : Typed} (isOne : alternative ∈ alternatives)
    (chosen : choose candidates value = some alternative.1) {inner : TypeId}
    (isInner : alternative.1.type = some inner) {data : Arena}
    (room : HasRoom data (instanceOf place type)) :
    packer.variant same type place path value = (do
      packer.writeTag place type tag.1 alternative.1.choice
      same inner (place.advance payload) path value) := by
  have fits := tagged.fits _ isOne
  unfold Packer.variant
  rw [ask_ok tagged.inOrder, pure_bind]
  simp only [List.drop_succ_cons, List.drop_zero, are, pure_bind, List.head?_cons, chosen]
  rw [room.inside_eq (by simp only [instanceOf]; omega), fits.1]
  simp only [fieldType_eq isInner, pure_bind]

/-- What is chosen has a form. -/
theorem form?_ne_none_of_isChoice {index : Nat} (isChoice : IsChoice roles value index)
    (bound : index < roles.length) : roles[index].form? ≠ none := by
  obtain ⟨role, rank, isRole, suits, _⟩ := isChoice
  obtain ⟨_, rfl⟩ := List.getElem?_eq_some_iff.mp isRole
  rw [suits?_eq] at suits
  intro noForm
  rw [noForm] at suits
  cases suits

/-- A value is written as a variant, or no alternative is of its form. -/
theorem fills_variant {entries : List (Term × Role)}
    (hasRole : HasRole document term (.variant (entries.map Prod.fst)))
    (tagged : IsTagged packer type tag alternatives payload) (choices : AreChoices members)
    (has : List.Forall₂ (HasMember packer) members alternatives)
    (are : List.Forall₂ (fun member entry =>
      IsAlternative document packer same path value member entry.1 entry.2) members entries)
    (room : HasRoom state.data (instanceOf place type)) :
    FillsInstance document packer id type place term path value
      (packer.variant same type place path value) state := by
  have sameLength := has.length_eq
  have entriesLength := are.length_eq
  have forms : List.Forall₂ (fun member role => exists inner, member.type = some inner ∧
      packer.form? inner = pure (Role.form? role)) members (entries.map Prod.snd) := by
    refine List.forall₂_map_right_iff.mpr (are.imp fun _ _ isAlternative => ?_)
    obtain ⟨inner, isType, found, _⟩ := isAlternative.type
    exact ⟨inner, isType, found⟩
  have candidates := @candidates_of_forms packer type alternatives members _ has forms
  have areRoles : List.Forall₂ (HasRole document) (entries.map Prod.fst) (entries.map Prod.snd) := by
    refine List.forall₂_iff_get.mpr ⟨by rw [List.length_map, List.length_map], ?_⟩
    intro other inTerms inRoles
    rw [List.length_map] at inTerms inRoles
    simp only [List.get_eq_getElem, List.getElem_map]
    exact ((List.forall₂_iff_get.mp are).2 other (by omega) inTerms).hasRole
  have fieldsLength : (alternatives.map Prod.fst).length = (entries.map Prod.snd).length := by
    rw [List.length_map, List.length_map, ← sameLength, entriesLength]
  cases chosen : choose (candidatesOf (alternatives.map Prod.fst) (entries.map Prod.snd)) value with
  | none =>
      rw [variant_none_eq tagged candidates chosen]
      refine ⟨⟨[], .start⟩, Or.inl fun decided => ?_⟩
      obtain ⟨index, _, isChoice, _⟩ := decided.alternative hasRole areRoles
      exact not_isChoice_of_choose fieldsLength chosen index isChoice
  | some field =>
      obtain ⟨index, isField, isChoice⟩ := isChoice_of_choose fieldsLength chosen
      obtain ⟨inFields, rfl⟩ := List.getElem?_eq_some_iff.mp isField
      rw [List.length_map] at inFields
      have inMembers : index < members.length := by omega
      have inEntries : index < entries.length := by omega
      have hasMember := (List.forall₂_iff_get.mp has).2 index inMembers inFields
      have isAlternative := (List.forall₂_iff_get.mp are).2 index inMembers inEntries
      obtain ⟨inner, isType, _, writes⟩ := isAlternative.type
      obtain ⟨other, isOther, isInner, found⟩ := hasMember.type
      cases isType.symm.trans isOther
      have isOne := List.getElem_mem inFields
      have hasForm := form?_ne_none_of_isChoice isChoice (by rwa [List.length_map])
      have choice := choice_eq choices has inFields
      rw [List.getElem_map] at chosen hasForm
      simp only [List.get_eq_getElem] at isInner found writes
      have isTerm : (entries.map Prod.fst)[index]? = some entries[index].1 := by
        rw [List.getElem?_map, List.getElem?_eq_getElem inEntries]
        rfl
      rw [variant_some_eq tagged candidates isOne chosen isInner room]
      refine fills_tagged tagged room isOne found _ (.variant index) ?_
        (fun verdict => .variant hasRole areRoles isChoice isTerm) (writes hasForm) ?_
      · intro decided
        obtain ⟨other, chosenTerm, isOther, isChosen, chosenDecided⟩ :=
          decided.alternative hasRole areRoles
        cases isChoice_inj isChoice isOther
        cases isTerm.symm.trans isChosen
        exact chosenDecided
      · intro data meaning dataRoom isTagged reads
        rw [choice] at isTagged
        exact reads_variant tagged choices has dataRoom inFields isTagged
          ⟨members[index], List.getElem?_eq_getElem inMembers, isType⟩ reads

end Variants

end Packer
end PackedJson
