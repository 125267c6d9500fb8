import PackedJson.Proofs.Packing.Instances

namespace PackedJson

/-- Values that are the same as long as one does not look inside arrays and objects. -/
inductive Json.SameOutside : Json -> Json -> Prop where
  | same (value : Json) : SameOutside value value
  | arrays (items others : List Json) : SameOutside (.array items) (.array others)
  | objects (members others : List (String × Json)) : SameOutside (.object members) (.object others)

theorem Json.SameOutside.kind_eq {value other : Json} (outside : SameOutside value other) :
    value.kind = other.kind := by
  cases outside <;> rfl

namespace Packer

open Arena TextSchema Layout Heap Builder

/-!
Values that packing does not tell apart.

A likeness relates values by what is asked of them.  Like values are the same
outside, and what packing finds inside them, the items of an array or the
members that a struct declares, is alike in turn.  Writers that agree on like
values inside lead to writers that agree on the whole, so that one induction
remains for whoever compares two ways of packing, or the packing of two values.
-/

/-- A relation between values that is kept by all steps of packing.  In a map, the order of the
members counts. -/
structure IsLikeness (document : Json) (promises : Promises) (settled : TypeId -> Prop)
    (Like : Term -> Json -> Json -> Prop) : Prop where
  outside {term : Term} {value other : Json} : Like term value other ->
    Json.SameOutside value other
  option {term inner : Term} {value other : Json} : HasRole document term (.option inner) ->
    Like term value other -> Like inner value other
  result {term inner : Term} {value other : Json} : HasRole document term (.result inner) ->
    Like term value other -> Like inner value other
  variant {term chosen : Term} {value other : Json} {alternatives : List Term}
    {roles : List Role} {place : Nat} : HasRole document term (.variant alternatives) ->
    List.Forall₂ (HasRole document) alternatives roles -> IsChoice roles value place ->
    alternatives[place]? = some chosen -> Like term value other -> Like chosen value other
  items {term element : Term} {items others : List Json} :
    HasRole document term (.array element) -> Like term (.array items) (.array others) ->
    List.Forall₂ (Like element) items others
  properties {term : Term} {properties : List Property} {members others : List (String × Json)} :
    HasRole document term (.struct properties) -> Like term (.object members) (.object others) ->
    forall property, property ∈ properties -> Option.Rel (Like property.term)
      (Json.lookup? property.name members) (Json.lookup? property.name others)
  entries {id : TypeId} {term inner : Term} {members others : List (String × Json)} :
    settled id -> promises id term -> HasRole document term (.map inner) ->
    Like term (.object members) (.object others) ->
    List.Forall₂ (fun member other => member.1 = other.1 ∧ Like inner member.2 other.2) members
      others

/-- A value is like itself. -/
theorem isLikeness_eq (document : Json) (promises : Promises) (settled : TypeId -> Prop) :
    IsLikeness document promises settled fun _ value other => value = other where
  outside same := same ▸ .same _
  option _ same := same
  result _ same := same
  variant _ _ _ _ same := same
  items _ same := by
    cases same
    exact List.forall₂_same.mpr fun _ _ => rfl
  properties _ same property _ := by
    cases same
    cases Json.lookup? property.name _ with
    | none => exact .none
    | some part => exact .some rfl
  entries _ _ _ same := by
    cases same
    exact List.forall₂_same.mpr fun _ _ => ⟨rfl, rfl⟩

/-- What holds of parts that are both there. -/
theorem rel_imp {Part : Type} {Like Agree : Part -> Part -> Prop} {found otherFound : Option Part}
    (like : Option.Rel Like found otherFound) (imp : forall part otherPart, found = some part ->
      otherFound = some otherPart -> Like part otherPart -> Agree part otherPart) :
    Option.Rel Agree found otherFound := by
  cases like with
  | none => exact .none
  | some like => exact .some (imp _ _ rfl rfl like)

/-! ### Writers that agree -/

section Agreement

variable {packer : Packer} {id : TypeId} {type : TypeDef} {place : Offset} {path : Path}
  {value other part otherPart : Json} {segment : Segment} {same otherSame write otherWrite : Writer}

theorem writeBuiltin_congr {builtin : Builtin} (outside : Json.SameOutside value other) :
    packer.writeBuiltin type place path value builtin =
      packer.writeBuiltin type place path other builtin := by
  cases outside with
  | same => rfl
  | arrays => cases builtin <;> rfl
  | objects => cases builtin <;> rfl

theorem nested_congr (agree : path.depth < packer.maxDepth ->
      write id place (path.child segment) part =
        otherWrite id place (path.child segment) otherPart) :
    packer.nested write id place path segment part =
      packer.nested otherWrite id place path segment otherPart := by
  unfold nested
  split
  next => rfl
  next notDeep => exact agree (Nat.lt_of_not_le notDeep)

/-- Steps over items that agree pairwise. -/
theorem foldlM_congr {Item Other State : Type} {step : State -> Item -> PackM State}
    {otherStep : State -> Other -> PackM State} {items : List Item} {others : List Other}
    (agree : List.Forall₂ (fun item other => forall state, step state item = otherStep state other)
      items others) (start : State) :
    items.foldlM step start = others.foldlM otherStep start := by
  induction agree generalizing start with
  | nil => rfl
  | cons first _ ih =>
      rw [List.foldlM_cons, List.foldlM_cons, first start]
      exact bind_congr fun next => ih next

theorem writeItems_congr {stride : Nat} {storage : Offset} {items others : List Json}
    (agree : List.Forall₂ (fun item other => forall index place,
      packer.nested write id place path (.index index) item =
        packer.nested otherWrite id place path (.index index) other) items others) (index : Nat)
    (first : Option Violation) :
    packer.writeItems write id stride storage path items index first =
      packer.writeItems otherWrite id stride storage path others index first := by
  induction agree generalizing index first with
  | nil => rfl
  | cons itemAgrees _ ih =>
      unfold writeItems
      refine bind_congr fun place => ?_
      rw [itemAgrees index place]
      exact bind_congr fun first => ih (index + 1) first

theorem array_congr {argument : TypeId} (isArgument : type.argument = some argument)
    (outside : Json.SameOutside value other)
    (agree : forall items others, value = .array items -> other = .array others ->
      List.Forall₂ (fun item other => forall segment place,
        packer.nested write argument place path segment item =
          packer.nested otherWrite argument place path segment other) items others) :
    packer.array write type place path value = packer.array otherWrite type place path other := by
  have arrays {items others : List Json} (isArray : value = .array items)
      (isOther : other = .array others) :
      packer.array write type place path (.array items) =
        packer.array otherWrite type place path (.array others) := by
    have agrees := agree items others isArray isOther
    unfold array
    simp only [argument_eq isArgument, pure_bind, agrees.length_eq]
    refine bind_congr fun storage => bind_congr fun element => ?_
    rw [writeItems_congr (agrees.imp fun _ _ agree index place => agree (.index index) place)]
  cases outside with
  | same =>
      cases value with
      | array items => exact arrays rfl rfl
      | _ => rfl
  | arrays => exact arrays rfl rfl
  | objects => rfl

theorem map_congr {argument : TypeId} (isArgument : type.argument = some argument)
    (outside : Json.SameOutside value other)
    (agree : forall members others, value = .object members -> other = .object others ->
      List.Forall₂ (fun member other => member.1 = other.1 ∧ forall segment place,
        packer.nested write argument place path segment member.2 =
          packer.nested otherWrite argument place path segment other.2) members others) :
    packer.map write type place path value = packer.map otherWrite type place path other := by
  have objects {members others : List (String × Json)} (isObject : value = .object members)
      (isOther : other = .object others) :
      packer.map write type place path (.object members) =
        packer.map otherWrite type place path (.object others) := by
    have agrees := agree members others isObject isOther
    have names : List.Forall₂ Eq (members.map Prod.fst) (others.map Prod.fst) :=
      List.forall₂_map_left_iff.mpr (List.forall₂_map_right_iff.mpr
        (agrees.imp fun _ _ same => same.1))
    rw [List.forall₂_eq_eq_eq] at names
    unfold map
    simp only [argument_eq isArgument, pure_bind, names]
    refine bind_congr fun layout => bind_congr fun storage => ?_
    rw [foldlM_congr (agrees.imp fun member other same first => ?_)]
    obtain ⟨name, part⟩ := member
    obtain ⟨_, otherPart⟩ := other
    obtain ⟨rfl, agree⟩ := same
    unfold writeMember
    simp only [agree]
  cases outside with
  | same =>
      cases value with
      | object members => exact objects rfl rfl
      | _ => rfl
  | arrays => rfl
  | objects => exact objects rfl rfl

/-- The members that the fields of a struct ask for agree. -/
theorem object_congr {typed : List Typed}
    (inOrder : packer.schema.fieldsInOrder type = .ok (typed.map Prod.fst))
    (outside : Json.SameOutside value other)
    (agree : forall members others field, value = .object members -> other = .object others ->
      field ∈ typed -> exists name inner, packer.schema.text field.1.jsonName = .ok name ∧
        field.1.type = some inner ∧ Option.Rel (fun part otherPart => forall place,
          packer.nested write inner place path (.key name) part =
            packer.nested otherWrite inner place path (.key name) otherPart)
          (Json.lookup? name members) (Json.lookup? name others)) :
    packer.object write type place path value = packer.object otherWrite type place path other := by
  have objects {members others : List (String × Json)} (isObject : value = .object members)
      (isOther : other = .object others) :
      packer.object write type place path (.object members) =
        packer.object otherWrite type place path (.object others) := by
    unfold object
    simp only [ask_ok inOrder, pure_bind]
    rw [foldlM_congr (List.forall₂_same.mpr fun field isField first => ?_)]
    obtain ⟨typedField, member, rfl⟩ := List.mem_map.mp isField
    obtain ⟨name, inner, isName, isType, agrees⟩ :=
      agree members others typedField isObject isOther member
    unfold writeField
    simp only [ask_ok isName, pure_bind]
    generalize Json.lookup? name members = found, Json.lookup? name others = otherFound at agrees
    cases agrees with
    | none => rfl
    | some agree => simp only [fieldType_eq isType, pure_bind, agree]
  cases outside with
  | same =>
      cases value with
      | object members => exact objects rfl rfl
      | _ => rfl
  | arrays => rfl
  | objects => exact objects rfl rfl

end Agreement

section Instances

variable {packer : Packer} {heap : Heap} {document : Json} {promises : Promises}
  {settled : TypeId -> Prop} {Like : Term -> Json -> Json -> Prop} {id inner : TypeId}
  {type : TypeDef} {term : Term} {role : Role} {place : Offset} {path : Path} {value other : Json}
  {same otherSame write otherWrite : Writer}

/-- Writers agree on two values that are alike, as they are handed on by a role. -/
def AgreeOnward (document : Json) (promises : Promises) (settled : TypeId -> Prop)
    (Like : Term -> Json -> Json -> Prop) (same otherSame : Writer) (bound : Nat) (path : Path)
    (value other : Json) : Prop :=
  forall id term role place, settled id -> promises id term -> HasRole document term role ->
    role.handoffs < bound -> Like term value other ->
    same id place path value = otherSame id place path other

/-- Writers agree on values that are alike and inside of two values, if they are not beyond the
limit. -/
def AgreeInside (packer : Packer) (promises : Promises) (settled : TypeId -> Prop)
    (Like : Term -> Json -> Json -> Prop) (write otherWrite : Writer) (path : Path)
    (value other : Json) : Prop :=
  forall id term segment part otherPart place, settled id -> promises id term ->
    Like term part otherPart -> part.height < value.height -> otherPart.height < other.height ->
    path.depth < packer.maxDepth ->
    write id place (path.child segment) part = otherWrite id place (path.child segment) otherPart

theorem IsWrapper.option_congr {tag zero one : Typed} {payload : Nat} {first second : Member}
    (wrapper : IsWrapper packer type .option tag zero one payload first second)
    (isInner : second.type = some inner) (outside : Json.SameOutside value other)
    (agree : forall place, same inner place path value = otherSame inner place path other) :
    packer.option same type place path value = packer.option otherSame type place path other := by
  obtain ⟨_, isType, isOne, _⟩ := wrapper.one.type
  cases isInner.symm.trans isType
  unfold option
  simp only [wrapper.wrapperFields_eq, pure_bind, fieldType_eq isOne]
  cases outside with
  | same => cases value <;> simp only [agree]
  | arrays => simp only [agree]
  | objects => simp only [agree]

theorem IsWrapper.result_congr {tag zero one : Typed} {payload : Nat} {first second : Member}
    (wrapper : IsWrapper packer type .result tag zero one payload first second)
    (isInner : first.type = some inner)
    (agree : forall place, same inner place path value = otherSame inner place path other) :
    packer.result same type place path value = packer.result otherSame type place path other := by
  obtain ⟨_, isType, isZero, _⟩ := wrapper.zero.type
  cases isInner.symm.trans isType
  unfold result
  simp only [wrapper.wrapperFields_eq, pure_bind, fieldType_eq isZero, agree]

/-- The choice among alternatives depends on a value from outside only. -/
theorem choose_congr (candidates : List (Form × FieldDef))
    (outside : Json.SameOutside value other) :
    choose candidates value = choose candidates other := by
  cases outside <;> rfl

theorem IsTagged.variant_congr {tag : Typed} {alternatives : List Typed} {payload : Nat}
    {members : List Member} {entries : List (Term × Role)}
    (likeness : IsLikeness document promises settled Like)
    (tagged : IsTagged packer type tag alternatives payload)
    (hasRole : HasRole document term (.variant (entries.map Prod.fst)))
    (has : List.Forall₂ (HasMember packer) members alternatives)
    (offer : List.Forall₂ (fun member entry =>
      Offers document packer promises settled member entry.1 entry.2) members entries)
    (alike : Like term value other)
    (agree : AgreeOnward document promises settled Like same otherSame 1 path value other) :
    packer.variant same type place path value =
      packer.variant otherSame type place path other := by
  have sameLength := has.length_eq
  have entriesLength := offer.length_eq
  have forms : List.Forall₂ (fun member role => exists inner, member.type = some inner ∧
      packer.form? inner = pure (Role.form? role)) members (entries.map Prod.snd) := by
    refine List.forall₂_map_right_iff.mpr (offer.imp fun _ _ offers => ?_)
    obtain ⟨inner, isType, _, _, form⟩ := offers.type
    exact ⟨inner, isType, form⟩
  have roles : List.Forall₂ (HasRole document) (entries.map Prod.fst) (entries.map Prod.snd) :=
    List.forall₂_map_left_iff.mpr (List.forall₂_map_right_iff.mpr
      (List.forall₂_same.mpr (forall_right offer fun _ _ offers => offers.hasRole)))
  have candidates := @candidates_of_forms packer type alternatives members _ has forms
  have outside := likeness.outside alike
  unfold variant
  simp only [ask_ok tagged.inOrder, pure_bind, List.drop_succ_cons, List.drop_zero, candidates,
    List.head?_cons, ← choose_congr _ outside, ← outside.kind_eq]
  cases chosen : choose (candidatesOf (alternatives.map Prod.fst) (entries.map Prod.snd)) value with
  | none => rfl
  | some field =>
      obtain ⟨index, isField, isChoice⟩ := isChoice_of_choose
        (by rw [List.length_map, List.length_map, ← sameLength, entriesLength]) chosen
      obtain ⟨inFields, rfl⟩ := List.getElem?_eq_some_iff.mp isField
      rw [List.length_map] at inFields
      have hasMember := (List.forall₂_iff_get.mp has).2 index (by omega) inFields
      have offers := (List.forall₂_iff_get.mp offer).2 index (by omega) (by omega)
      obtain ⟨inner, isType, innerSettled, promised, _⟩ := offers.type
      obtain ⟨_, isOther, isInner, _⟩ := hasMember.type
      cases isType.symm.trans isOther
      have hasForm := form?_ne_none_of_isChoice isChoice (by rw [List.length_map]; omega)
      rw [List.getElem_map] at hasForm
      simp only [List.get_eq_getElem] at isInner promised offers
      have innerAlike := likeness.variant hasRole roles isChoice
        (List.getElem?_eq_getElem (by rw [List.length_map]; omega)) alike
      rw [List.getElem_map] at innerAlike
      have agrees := fun place => agree inner _ _ place innerSettled promised offers.hasRole
        (handoffs_of_form hasForm) innerAlike
      simp only [List.getElem_map, fieldType_eq isInner, pure_bind, agrees]

/-- What is inside of two values is written the same, whether or not it is beyond the limit. -/
theorem AgreeInside.nested {innerTerm : Term} {part otherPart : Json}
    (inside : AgreeInside packer promises settled Like write otherWrite path value other)
    (isSettled : settled inner) (promised : promises inner innerTerm)
    (alike : Like innerTerm part otherPart) (lower : part.height < value.height)
    (otherLower : otherPart.height < other.height) (segment : Segment) (place : Offset) :
    packer.nested write inner place path segment part =
      packer.nested otherWrite inner place path segment otherPart :=
  nested_congr fun within => inside inner innerTerm segment part otherPart place isSettled promised
    alike lower otherLower within

namespace IsLikeness

variable (likeness : IsLikeness document promises settled Like)

include likeness

theorem array_congr {element : Term} (isArgument : type.argument = some inner)
    (isSettled : settled inner) (promised : promises inner element)
    (hasRole : HasRole document term (.array element)) (alike : Like term value other)
    (inside : AgreeInside packer promises settled Like write otherWrite path value other) :
    packer.array write type place path value = packer.array otherWrite type place path other := by
  refine Packer.array_congr isArgument (likeness.outside alike) ?_
  rintro items others rfl rfl
  have itemsAlike := likeness.items hasRole alike
  refine List.forall₂_iff_get.mpr ⟨itemsAlike.length_eq, fun index inItems inOthers => ?_⟩
  exact inside.nested isSettled promised
    ((List.forall₂_iff_get.mp itemsAlike).2 index inItems inOthers)
    (Json.height_lt_of_item (List.getElem_mem inItems))
    (Json.height_lt_of_item (List.getElem_mem inOthers))

theorem map_congr {values : Term} (isArgument : type.argument = some inner)
    (isSettled : settled id) (promised : promises id term) (innerSettled : settled inner)
    (innerPromised : promises inner values) (hasRole : HasRole document term (.map values))
    (alike : Like term value other)
    (inside : AgreeInside packer promises settled Like write otherWrite path value other) :
    packer.map write type place path value = packer.map otherWrite type place path other := by
  refine Packer.map_congr isArgument (likeness.outside alike) ?_
  rintro members others rfl rfl
  have entriesAlike := likeness.entries isSettled promised hasRole alike
  refine List.forall₂_iff_get.mpr ⟨entriesAlike.length_eq, fun index inMembers inOthers => ?_⟩
  obtain ⟨sameName, partsAlike⟩ :=
    (List.forall₂_iff_get.mp entriesAlike).2 index inMembers inOthers
  exact ⟨sameName, inside.nested innerSettled innerPromised partsAlike
    (Json.height_lt_of_member (List.getElem_mem inMembers))
    (Json.height_lt_of_member (List.getElem_mem inOthers))⟩

theorem object_congr {properties : List Property} {members : List Member} {typed : List Typed}
    (hasRole : HasRole document term (.struct properties))
    (served : List.Forall₂ (ServesProperty promises) properties members)
    (has : List.Forall₂ (HasMember packer) members typed)
    (areSettled : forall member, member ∈ members -> forall inner, member.type = some inner ->
      settled inner)
    (inOrder : packer.schema.fieldsInOrder type = .ok (typed.map Prod.fst))
    (alike : Like term value other)
    (inside : AgreeInside packer promises settled Like write otherWrite path value other) :
    packer.object write type place path value = packer.object otherWrite type place path other := by
  refine Packer.object_congr inOrder (likeness.outside alike) ?_
  rintro parts others field rfl rfl isField
  obtain ⟨index, inTyped, rfl⟩ := List.getElem_of_mem isField
  have inMembers := has.length_eq ▸ inTyped
  have inProperties := served.length_eq ▸ inMembers
  have hasMember := (List.forall₂_iff_get.mp has).2 index inMembers inTyped
  obtain ⟨sameName, _, inner, isType, promised⟩ :=
    (List.forall₂_iff_get.mp served).2 index inProperties inMembers
  obtain ⟨_, isOther, isInner, _⟩ := hasMember.type
  cases isType.symm.trans isOther
  have isSettled := areSettled _ (List.getElem_mem inMembers) inner isType
  have partsAlike := likeness.properties hasRole alike _ (List.getElem_mem inProperties)
  refine ⟨_, inner, hasMember.name.trans (congrArg Except.ok sameName), isInner, ?_⟩
  exact rel_imp partsAlike fun part otherPart isPart isOther alike => inside.nested isSettled
    promised alike (Json.height_lt_of_member (Json.mem_of_lookup? isPart))
    (Json.height_lt_of_member (Json.mem_of_lookup? isOther)) _

end IsLikeness

/-- What a type writes depends on how it hands a value on, and on how the values inside are
written. -/
theorem Packs.writeInstance_congr (packs : Packs packer heap document promises settled)
    (likeness : IsLikeness document promises settled Like) (isSettled : settled id)
    (promised : promises id term) (hasRole : HasRole document term role)
    (found : packer.schema.type id = .ok type) (alike : Like term value other)
    (onward : AgreeOnward document promises settled Like same otherSame role.handoffs path value
      other)
    (inside : AgreeInside packer promises settled Like write otherWrite path value other) :
    packer.writeInstance same write id type place path value =
      packer.writeInstance otherSame otherWrite id type place path other := by
  obtain ⟨_, kind, isRole, serves, is⟩ := packs.serving.serves id term promised
  cases hasRole_inj hasRole isRole
  obtain ⟨_, typed, align, shows⟩ := packs.shows isSettled is.declares
  cases found.symm.trans shows.found
  have outside := likeness.outside alike
  have builtin {builtin : Builtin} (isBuiltin : id = packer.context.builtin builtin) :
      packer.writeInstance same write id type place path value =
        packer.writeInstance otherSame otherWrite id type place path other := by
    rw [packs.writeInstance_builtin isBuiltin, packs.writeInstance_builtin isBuiltin,
      writeBuiltin_congr outside]
  cases serves with
  | integer => exact builtin is.details.1
  | number => exact builtin is.details.1
  | boolean => exact builtin is.details.1
  | null => exact builtin is.details.1
  | string => exact builtin is.details
  | array promisedElement =>
      have elementSettled := packs.settled_argument isSettled is.declares rfl
      rw [packs.writeInstance_declared is.declares rfl shows rfl,
        packs.writeInstance_declared is.declares rfl shows rfl]
      exact likeness.array_congr shows.argument elementSettled promisedElement hasRole alike inside
  | map promisedValue =>
      have valueSettled := packs.settled_argument isSettled is.declares rfl
      rw [packs.writeInstance_declared is.declares rfl shows rfl,
        packs.writeInstance_declared is.declares rfl shows rfl]
      exact likeness.map_congr shows.argument isSettled promised valueSettled promisedValue hasRole
        alike inside
  | option promisedInner =>
      have innerSettled := packs.settled_argument isSettled is.declares rfl
      obtain ⟨innerRole, _, hasInner, _⟩ := packs.serving.serves _ _ promisedInner
      obtain ⟨tag, zero, one, payload, option⟩ := shows.isWrapper packs rfl rfl rfl rfl rfl
      rw [packs.writeInstance_declared is.declares rfl shows rfl,
        packs.writeInstance_declared is.declares rfl shows rfl]
      exact option.option_congr rfl outside fun place => onward _ _ innerRole place innerSettled
        promisedInner hasInner (handoffs_of_option hasRole hasInner) (likeness.option hasRole alike)
  | result promisedInner =>
      have innerSettled := packs.settled_argument isSettled is.declares rfl
      obtain ⟨innerRole, _, hasInner, _⟩ := packs.serving.serves _ _ promisedInner
      obtain ⟨tag, zero, one, payload, result⟩ := shows.isWrapper packs rfl rfl rfl rfl rfl
      rw [packs.writeInstance_declared is.declares rfl shows rfl,
        packs.writeInstance_declared is.declares rfl shows rfl]
      exact result.result_congr rfl fun place => onward _ _ innerRole place innerSettled
        promisedInner hasInner (handoffs_of_result hasRole hasInner) (likeness.result hasRole alike)
  | struct served =>
      rw [packs.writeInstance_declared is.declares rfl shows rfl,
        packs.writeInstance_declared is.declares rfl shows rfl]
      exact likeness.object_congr hasRole served shows.members
        (fun member isMember inner => packs.settled_member isSettled is.declares isMember)
        shows.sound.inOrder alike inside
  | variant served =>
      obtain ⟨tag, alternatives, payload, _, tagged, has⟩ := shows.isTagged packs rfl rfl
      obtain ⟨entries, rfl, offer⟩ := packs.offers served (fun member isMember inner =>
        packs.settled_member isSettled is.declares (List.mem_cons_of_mem _ isMember))
      rw [packs.writeInstance_declared is.declares rfl shows rfl,
        packs.writeInstance_declared is.declares rfl shows rfl]
      exact tagged.variant_congr likeness hasRole has offer alike onward

/-- The same holds where an instance of its own is made first. -/
theorem Packs.writeVariable_congr (packs : Packs packer heap document promises settled)
    (likeness : IsLikeness document promises settled Like) (isSettled : settled id)
    (promised : promises id term) (hasRole : HasRole document term role)
    (alike : Like term value other)
    (onward : AgreeOnward document promises settled Like same otherSame role.handoffs path value
      other)
    (inside : AgreeInside packer promises settled Like write otherWrite path value other) :
    packer.writeVariable same write id place path value =
      packer.writeVariable otherSame otherWrite id place path other := by
  obtain ⟨_, kind, _, _, is⟩ := packs.serving.serves id term promised
  obtain ⟨_, typed, align, shows⟩ := packs.shows isSettled is.declares
  have instances (target : Offset) := @Packs.writeInstance_congr _ _ _ _ _ _ _ _ _ _ target _ _ _ _
    _ _ _ packs likeness isSettled promised hasRole shows.found alike onward inside
  unfold writeVariable
  simp only [ask_ok shows.found, pure_bind, instances]

end Instances

end Packer
end PackedJson
