import PackedJson.Proofs.Packing.Captures
import PackedJson.Proofs.Packing.Likeness
import PackedJson.Proofs.Schema.Copies

namespace PackedJson

/-!
What packing is indifferent to.

The order of the members of an object does not matter, nor do members that the
struct that an object is matched with does not declare: values that differ in
nothing else are packed the same, to the last byte and the last violation.
Maps are the exception, since the slots of their members are filled in the order
of the document, and so are the regions behind them.
-/

/-! ### Values that are alike -/

namespace Json

/-- Objects with distinct names have the same members in any order. -/
theorem lookup?_perm {members others : List (String × Json)}
    (distinct : (members.map Prod.fst).Nodup) (perm : members.Perm others) (name : String) :
    lookup? name members = lookup? name others := by
  have otherDistinct : (others.map Prod.fst).Nodup := (perm.map Prod.fst).nodup_iff.mp distinct
  cases found : lookup? name members with
  | some value =>
      exact (lookup?_of_mem otherDistinct (perm.mem_iff.mp (mem_of_lookup? found))).symm
  | none =>
      cases other : lookup? name others with
      | none => rfl
      | some value =>
          have member := perm.mem_iff.mpr (mem_of_lookup? other)
          cases found.symm.trans (lookup?_of_mem distinct member)

/-- Values that differ only in the order of the members of objects: under each name, there is the
same member up to this order, or none. -/
inductive Reordered : Json -> Json -> Prop where
  | same (value : Json) : Reordered value value
  | array {items others : List Json} : items.length = others.length ->
      (forall (index : Nat) (item other : Json), items[index]? = some item ->
        others[index]? = some other -> Reordered item other) ->
      Reordered (.array items) (.array others)
  | object {members others : List (String × Json)} :
      (forall name, lookup? name members = none ↔ lookup? name others = none) ->
      (forall name part other, lookup? name members = some part ->
        lookup? name others = some other -> Reordered part other) ->
      Reordered (.object members) (.object others)

theorem Reordered.of_perm {members others : List (String × Json)}
    (distinct : (members.map Prod.fst).Nodup) (perm : members.Perm others) :
    Reordered (.object members) (.object others) := by
  refine .object (fun name => by rw [lookup?_perm distinct perm name]) ?_
  intro name part other isPart isOther
  rw [lookup?_perm distinct perm name] at isPart
  cases isPart.symm.trans isOther
  exact .same part

end Json

namespace TextSchema

open Json

/-- Values that differ only in the order of the members of objects, and in members that are not
declared by the struct that an object is matched with, where this is asked of them. -/
inductive Alike (document : Json) : Term -> Json -> Json -> Prop where
  | reordered {term : Term} {value other : Json} : Reordered value other ->
      Alike document term value other
  | option {term inner : Term} {value other : Json} : HasRole document term (.option inner) ->
      Alike document inner value other -> Alike document term value other
  | result {term inner : Term} {value other : Json} : HasRole document term (.result inner) ->
      Alike document inner value other -> Alike document term value other
  | array {term element : Term} {items others : List Json} :
      HasRole document term (.array element) -> items.length = others.length ->
      (forall (index : Nat) (item other : Json), items[index]? = some item ->
        others[index]? = some other -> Alike document element item other) ->
      Alike document term (.array items) (.array others)
  | struct {term : Term} {properties : List Property} {members others : List (String × Json)} :
      HasRole document term (.struct properties) ->
      (forall property, property ∈ properties ->
        (lookup? property.name members = none ↔ lookup? property.name others = none)) ->
      (forall property part other, property ∈ properties ->
        lookup? property.name members = some part -> lookup? property.name others = some other ->
        Alike document property.term part other) ->
      Alike document term (.object members) (.object others)
  | variant {term chosen : Term} {alternatives : List Term} {roles : List Role} {place : Nat}
      {value other : Json} : HasRole document term (.variant alternatives) ->
      List.Forall₂ (HasRole document) alternatives roles -> IsChoice roles value place ->
      alternatives[place]? = some chosen -> Alike document chosen value other ->
      Alike document term value other

section Alike

variable {document : Json} {term inner : Term} {value other : Json}

/-- One more member that a struct does not declare. -/
theorem Alike.of_undeclared {properties : List Property} {members : List (String × Json)}
    {name : String} (isStruct : HasRole document term (.struct properties))
    (undeclared : forall property, property ∈ properties -> name ≠ property.name) (part : Json) :
    Alike document term (.object ((name, part) :: members)) (.object members) := by
  have same (property : Property) (declared : property ∈ properties) :
      lookup? property.name ((name, part) :: members) = lookup? property.name members :=
    if_neg (undeclared property declared)
  refine .struct isStruct (fun property declared => by rw [same property declared]) ?_
  intro property part other declared isPart isOther
  rw [same property declared] at isPart
  cases isPart.symm.trans isOther
  exact .reordered (.same _)

theorem Alike.outside (alike : Alike document term value other) : SameOutside value other := by
  induction alike with
  | reordered reordered =>
      cases reordered with
      | same => exact .same _
      | array => exact .arrays _ _
      | object => exact .objects _ _
  | option _ _ ih => exact ih
  | result _ _ ih => exact ih
  | array => exact .arrays _ _
  | struct => exact .objects _ _
  | variant _ _ _ _ _ ih => exact ih

theorem Alike.of_option (alike : Alike document term value other)
    (isOption : HasRole document term (.option inner)) : Alike document inner value other := by
  cases alike with
  | reordered reordered => exact .reordered reordered
  | option hasRole alike =>
      cases hasRole_inj isOption hasRole
      exact alike
  | _ hasRole => cases hasRole_inj isOption hasRole

theorem Alike.of_result (alike : Alike document term value other)
    (isResult : HasRole document term (.result inner)) : Alike document inner value other := by
  cases alike with
  | reordered reordered => exact .reordered reordered
  | result hasRole alike =>
      cases hasRole_inj isResult hasRole
      exact alike
  | _ hasRole => cases hasRole_inj isResult hasRole

theorem Alike.of_variant {chosen : Term} {alternatives : List Term} {roles : List Role}
    {place : Nat} (alike : Alike document term value other)
    (isVariant : HasRole document term (.variant alternatives))
    (areRoles : List.Forall₂ (HasRole document) alternatives roles)
    (isChoice : IsChoice roles value place) (isChosen : alternatives[place]? = some chosen) :
    Alike document chosen value other := by
  cases alike with
  | reordered reordered => exact .reordered reordered
  | variant hasRole otherRoles otherChoice otherChosen alike =>
      cases hasRole_inj isVariant hasRole
      cases roles_inj areRoles otherRoles
      cases isChoice_inj isChoice otherChoice
      cases isChosen.symm.trans otherChosen
      exact alike
  | _ hasRole => cases hasRole_inj isVariant hasRole

theorem forall₂_of_getElem? {Item Other : Type} {relation : Item -> Other -> Prop}
    {items : List Item} {others : List Other} (sameLength : items.length = others.length)
    (each : forall (index : Nat) (item : Item) (other : Other), items[index]? = some item ->
      others[index]? = some other -> relation item other) : List.Forall₂ relation items others :=
  List.forall₂_iff_get.mpr ⟨sameLength, fun index inItems inOthers =>
    each index _ _ (List.getElem?_eq_getElem inItems) (List.getElem?_eq_getElem inOthers)⟩

/-- The items of arrays that are alike, one by one. -/
theorem Alike.of_array {element : Term} {items others : List Json}
    (alike : Alike document term (.array items) (.array others))
    (isArray : HasRole document term (.array element)) :
    List.Forall₂ (Alike document element) items others := by
  cases alike with
  | reordered reordered =>
      cases reordered with
      | same => exact List.forall₂_same.mpr fun _ _ => .reordered (.same _)
      | array sameLength areReordered =>
          exact forall₂_of_getElem? sameLength fun index item other isItem isOther =>
            .reordered (areReordered index item other isItem isOther)
  | array hasRole sameLength areAlike =>
      cases hasRole_inj isArray hasRole
      exact forall₂_of_getElem? sameLength areAlike
  | _ hasRole => cases hasRole_inj isArray hasRole

/-- What is there on both sides or on none, and alike if it is. -/
theorem rel_of_iff {Part : Type} {Like : Part -> Part -> Prop} {found otherFound : Option Part}
    (both : found = none ↔ otherFound = none)
    (like : forall part other, found = some part -> otherFound = some other -> Like part other) :
    Option.Rel Like found otherFound := by
  cases found with
  | none =>
      cases both.mp rfl
      exact .none
  | some part =>
      cases otherFound with
      | none => cases both.mpr rfl
      | some other => exact .some (like part other rfl rfl)

/-- The members of objects that are alike, as far as a struct declares them. -/
theorem Alike.of_struct {properties : List Property} {members others : List (String × Json)}
    (alike : Alike document term (.object members) (.object others))
    (isStruct : HasRole document term (.struct properties)) {property : Property}
    (declared : property ∈ properties) : Option.Rel (Alike document property.term)
      (lookup? property.name members) (lookup? property.name others) := by
  cases alike with
  | reordered reordered =>
      cases reordered with
      | same =>
          refine rel_of_iff Iff.rfl fun part other isPart isOther => ?_
          cases isPart.symm.trans isOther
          exact .reordered (.same _)
      | object both areReordered =>
          exact rel_of_iff (both _) fun part other isPart isOther =>
            .reordered (areReordered _ part other isPart isOther)
  | struct hasRole both areAlike =>
      cases hasRole_inj isStruct hasRole
      exact rel_of_iff (both property declared) fun part other =>
        areAlike property part other declared
  | _ hasRole => cases hasRole_inj isStruct hasRole

end Alike
end TextSchema

namespace Heap

open Layout

variable {heap : Heap} {schema : Schema} {target : Target} {settled : TypeId -> Prop}
  {root : TypeId}

/-- The types that are laid out may be taken to be those that can be reached from one of them. -/
theorem IsLayout.reached (layout : IsLayout heap target settled) (told : heap.ToldBy schema)
    (rootSettled : settled root) : IsLayout heap target (schema.Reaches root) := by
  have isSettled {id : TypeId} (reached : schema.Reaches root id) : settled id :=
    settled_of_reaches told layout rootSettled reached
  refine ⟨fun id reached => ?_, fun id reached => ?_⟩
  · obtain ⟨type, fields, slots, align, stored, hasFields, arranged⟩ :=
      layout.laidOut id (isSettled reached)
    refine ⟨type, fields, slots, align, stored, hasFields,
      { arranged with takes := List.forall₂_iff_get.mpr ⟨arranged.takes.length_eq, ?_⟩ }⟩
    intro index inFields inSlots
    obtain ⟨inner, innerType, isField, innerStored, isSlot, isAlign, _⟩ :=
      (List.forall₂_iff_get.mp arranged.takes).2 index inFields inSlots
    exact ⟨inner, innerType, isField, innerStored, isSlot, isAlign, .inr (reached.field
      (told.type stored) (told.fieldsInOrder hasFields) (List.getElem_mem inFields)
      (fieldType_of type isField))⟩
  · obtain ⟨declaration, declares, _⟩ := layout.declared id (isSettled reached)
    exact ⟨declaration, declares, fun successor member =>
      reached.next (successors_eq told declares) member⟩

end Heap

namespace Packer

open Arena TextSchema Layout Heap Builder

section Congruence

variable {packer : Packer} {heap : Heap} {document : Json} {promises : Promises}
  {settled : TypeId -> Prop} {Like : Term -> Json -> Json -> Prop} {root : TypeId}
  {value other : Json}

/-- Nothing but the types that can be reached from the root is needed for packing. -/
theorem Packs.reached (packs : Packs packer heap document promises settled)
    (isRoot : packer.schema.root packer.context = .ok root) :
    Packs packer heap document promises (packer.schema.Reaches root) ∧
      promises root ⟨document, false, false⟩ := by
  obtain ⟨told, serving⟩ := packs
  obtain ⟨compiled, isCompiled, promised, rootSettled⟩ := serving.root
  unfold Schema.root at isRoot
  rw [isCompiled] at isRoot
  cases isRoot
  exact ⟨⟨told, { serving with
    layout := serving.layout.reached told rootSettled
    root := ⟨_, isCompiled, promised, .root⟩ }⟩, promised⟩

/-! ### Like values are packed the same -/

/-- Like values are written the same, up to a bound on their height and on how often they are
handed on.  What was handed on before may differ, and so may the bounds on the descent. -/
def AgreeOnLike (packer : Packer) (heap : Heap) (document : Json) (promises : Promises)
    (settled : TypeId -> Prop) (Like : Term -> Json -> Json -> Prop) (bound : Nat) : Prop :=
  forall ⦃levels otherLevels steps otherSteps : Nat⦄ ⦃earlier otherEarlier : List Handoff⦄
    ⦃id : TypeId⦄ ⦃term : Term⦄ ⦃role : Role⦄ ⦃place : Offset⦄ ⦃path : Path⦄ ⦃value other : Json⦄,
    settled id -> promises id term -> HasRole document term role -> Like term value other ->
    4 * value.height + role.handoffs < bound -> value.height ≤ levels ->
    other.height ≤ otherLevels -> role.handoffs < steps -> role.handoffs < otherSteps ->
    AreEarlier packer heap earlier role.handoffs ->
    AreEarlier packer heap otherEarlier role.handoffs ->
    packer.writeWrapped (packer.write levels) steps earlier id place path value =
      packer.writeWrapped (packer.write otherLevels) otherSteps otherEarlier id place path other

/-- The values inside of like values are written the same. -/
theorem AgreeOnLike.agreeInside {bound levels otherLevels : Nat} {path : Path}
    (agree : AgreeOnLike packer heap document promises settled Like bound)
    (packs : Packs packer heap document promises settled) (bounded : 4 * value.height ≤ bound)
    (low : value.height ≤ levels) (otherLow : other.height ≤ otherLevels) :
    AgreeInside packer promises settled Like (packer.write levels) (packer.write otherLevels) path
      value other := by
  intro id term segment part otherPart place isSettled promised alike lower otherLower _
  obtain ⟨levels, rfl⟩ := Nat.exists_eq_succ_of_ne_zero (by omega : levels ≠ 0)
  obtain ⟨otherLevels, rfl⟩ := Nat.exists_eq_succ_of_ne_zero (by omega : otherLevels ≠ 0)
  obtain ⟨role, _, hasRole, _⟩ := packs.serving.serves id term promised
  have few := role.handoffs_lt_four
  exact agree isSettled promised hasRole alike (by omega) (by omega) (by omega)
    (handoffs_lt_limit role) (handoffs_lt_limit role) nofun nofun

/-- A value that is handed on has the same height, and is handed on less often from there.  A
value inside has a smaller height. -/
theorem AgreeOnLike.succ {bound : Nat}
    (agree : AgreeOnLike packer heap document promises settled Like bound)
    (packs : Packs packer heap document promises settled)
    (likeness : IsLikeness document promises settled Like) :
    AgreeOnLike packer heap document promises settled Like (bound + 1) := by
  intro levels otherLevels steps otherSteps earlier otherEarlier id term role place path value other
    isSettled promised hasRole alike bounded low otherLow many otherMany areEarlier otherAreEarlier
  obtain ⟨steps, rfl⟩ := Nat.exists_eq_succ_of_ne_zero (Nat.ne_zero_of_lt many)
  obtain ⟨otherSteps, rfl⟩ := Nat.exists_eq_succ_of_ne_zero (Nat.ne_zero_of_lt otherMany)
  obtain ⟨_, kind, isRole, serves, is⟩ := packs.serving.serves id term promised
  cases hasRole_inj hasRole isRole
  have handoffs := packs.handoffsOf_eq serves
  funext state
  rw [writeWrapped_eq (areEarlier.isNew is.declares handoffs),
    writeWrapped_eq (otherAreEarlier.isNew is.declares handoffs)]
  refine congrFun (packs.writeVariable_congr likeness isSettled promised hasRole alike ?_
    (agree.agreeInside packs (by omega) low otherLow)) state
  intro inner innerTerm innerRole innerPlace innerSettled innerPromised hasInner less innerAlike
  exact agree innerSettled innerPromised hasInner innerAlike (by omega) low otherLow (by omega)
    (by omega) (areEarlier.next is.declares handoffs less)
    (otherAreEarlier.next is.declares handoffs less)

theorem Packs.agreeOnLike (packs : Packs packer heap document promises settled)
    (likeness : IsLikeness document promises settled Like) (bound : Nat) :
    AgreeOnLike packer heap document promises settled Like bound := by
  induction bound with
  | zero =>
      intro _ _ _ _ _ _ _ _ _ _ _ _ _ _ _ _ _ impossible
      exact absurd impossible (Nat.not_lt_zero _)
  | succ bound ih => exact ih.succ packs likeness

/-- Like documents are packed the same. -/
theorem Packs.pack_congr (packs : Packs packer heap document promises settled)
    (likeness : IsLikeness document promises settled Like) (isSettled : settled root)
    (promised : promises root ⟨document, false, false⟩)
    (alike : Like ⟨document, false, false⟩ value other) :
    packer.pack root value = packer.pack root other := by
  obtain ⟨role, kind, hasRole, serves, is⟩ := packs.serving.serves root _ promised
  obtain ⟨type, typed, align, shows⟩ := packs.shows isSettled is.declares
  have agree := packs.agreeOnLike likeness (4 * value.height + role.handoffs)
  have onward : AgreeOnward document promises settled Like
      (packer.writeWrapped (packer.write value.height) handoffLimit [])
      (packer.writeWrapped (packer.write other.height) handoffLimit [])
      role.handoffs Path.root value other :=
    fun inner innerTerm innerRole innerPlace innerSettled innerPromised hasInner less alike =>
      agree innerSettled innerPromised hasInner alike (by omega) (Nat.le_refl _) (Nat.le_refl _)
        (handoffs_lt_limit innerRole) (handoffs_lt_limit innerRole) nofun nofun
  have inside : AgreeInside packer promises settled Like (packer.write value.height)
      (packer.write other.height) Path.root value other :=
    agree.agreeInside packs (Nat.le_add_right _ _) (Nat.le_refl _) (Nat.le_refl _)
  have instances (place : Offset) := @Packs.writeInstance_congr _ _ _ _ _ _ _ _ _ _ place _ value
    other _ _ _ _ packs likeness isSettled promised hasRole shows.found alike onward inside
  unfold pack
  simp only [ask_ok shows.found, pure_bind, instances]

/-- Without maps, the order of members and undeclared members do not count. -/
theorem isLikeness_alike (packs : Packs packer heap document promises settled)
    (noMap : forall id type, settled id -> packer.schema.type id = .ok type -> type.shape ≠ .map) :
    IsLikeness document promises settled (Alike document) where
  outside alike := alike.outside
  option isOption alike := alike.of_option isOption
  result isResult alike := alike.of_result isResult
  variant isVariant areRoles isChoice isChosen alike :=
    alike.of_variant isVariant areRoles isChoice isChosen
  items isArray alike := alike.of_array isArray
  properties isStruct alike _ declared := alike.of_struct isStruct declared
  entries isSettled promised isMap _ := by
    obtain ⟨_, kind, hasRole, serves, is⟩ := packs.serving.serves _ _ promised
    cases hasRole_inj isMap hasRole
    obtain ⟨type, _, _, shows⟩ := packs.shows isSettled is.declares
    cases serves
    exact absurd shows.shape (noMap _ type isSettled shows.found)

end Congruence

/-! ### Compiled text schemas -/

/-- Where no map can be reached from the root of a compiled text schema, documents that differ
only in the order of members and in members that are not declared are packed the same: from every
state, with the same result or failure, the same violations and the same bytes. -/
theorem pack_eq_of_alike {document : Json} {options : CompileOptions} {container : Container}
    (accepted : compile document options = .ok container) {target : Target}
    {pointerBase maxDepth : Nat} {root : TypeId}
    (isRoot : container.schema.root (container.context target) = .ok root)
    (noMap : forall id type, container.schema.Reaches root id ->
      container.schema.type id = .ok type -> type.shape ≠ .map) {value other : Json}
    (alike : Alike document ⟨document, false, false⟩ value other) :
    (container.packer target pointerBase maxDepth).pack root value =
      (container.packer target pointerBase maxDepth).pack root other := by
  obtain ⟨heap, promises, settled, holds, serving⟩ := isCompiled_of_compile accepted target
  have whole : Packs (container.packer target pointerBase maxDepth) heap document promises
      settled := ⟨holds.told, serving⟩
  obtain ⟨packs, promised⟩ := whole.reached isRoot
  exact packs.pack_congr (isLikeness_alike packs noMap) .root promised alike

/-- The node of the integer that may fail. -/
def fallibleNumber : Json := .object
  [("type", .string "integer"), ("x-can-fail", .boolean true)]

theorem hasRole_fallibleSchema : HasRole fallibleSchema ⟨fallibleSchema, false, false⟩
    (.struct [⟨"n", ⟨fallibleNumber, true, false⟩⟩]) :=
  .node (.stated rfl rfl)

/-- An object with an integer that may fail is asked for, and nothing else. -/
theorem exists_role_of_asks_fallible {term : Term} (asks : Asks fallibleSchema term) :
    exists role, HasRole fallibleSchema term role ∧
      (role = .struct [⟨"n", ⟨fallibleNumber, true, false⟩⟩] ∨
        role = .result ⟨fallibleNumber, false, false⟩ ∨ role = .integer) := by
  induction asks with
  | root => exact ⟨_, hasRole_fallibleSchema, .inl rfl⟩
  | next _ hasRole member ih =>
      obtain ⟨role, isRole, rfl | rfl | rfl⟩ := ih
      · cases hasRole_inj hasRole isRole
        cases List.mem_singleton.mp member
        exact ⟨_, .result fallibleNumber, .inr (.inl rfl)⟩
      · cases hasRole_inj hasRole isRole
        cases List.mem_singleton.mp member
        exact ⟨_, .node (.stated rfl rfl), .inr (.inr rfl)⟩
      · cases hasRole_inj hasRole isRole
        cases member

/-- An object in place of the integer is no integer, in whichever order its members are. -/
theorem pack_eq_of_alike_fallible : exists container root,
    compile fallibleSchema {} = .ok container ∧
    container.schema.root (container.context .wasm32) = .ok root ∧
    (forall id type, container.schema.Reaches root id -> container.schema.type id = .ok type ->
      type.shape ≠ .map) ∧
    let value := Json.object [("n", .object [("a", .null), ("b", .null)]), ("x", .null)]
    let other := Json.object [("n", .object [("b", .null), ("a", .null)])]
    Alike fallibleSchema ⟨fallibleSchema, false, false⟩ value other ∧
    (container.packer .wasm32 0 128).pack root value =
      (container.packer .wasm32 0 128).pack root other := by
  obtain ⟨container, root, _, _, accepted, isRoot, _⟩ := exists_fallibleContainer .wasm32
  obtain ⟨heap, promises, settled, holds, serving⟩ := isCompiled_of_compile accepted .wasm32
  have noMap : forall id type, container.schema.Reaches root id ->
      container.schema.type id = .ok type -> type.shape ≠ .map := by
    intro id type reaches found
    refine serving.shape_ne_map holds.told isRoot ?_ reaches found
    intro term inner asks isMap
    obtain ⟨role, isRole, rfl | rfl | rfl⟩ := exists_role_of_asks_fallible asks <;>
      cases hasRole_inj isMap isRole
  refine ⟨container, root, accepted, isRoot, noMap, ?_⟩
  intro value other
  have alike : Alike fallibleSchema ⟨fallibleSchema, false, false⟩ value other := by
    refine .struct hasRole_fallibleSchema ?_ ?_
    · intro property declared
      cases List.mem_singleton.mp declared
      exact ⟨nofun, nofun⟩
    · intro property part otherPart declared isPart isOther
      cases List.mem_singleton.mp declared
      cases isPart
      cases isOther
      exact .reordered (.of_perm (by decide) (List.Perm.swap _ _ []))
  exact ⟨alike, pack_eq_of_alike accepted isRoot noMap alike⟩

end Packer
end PackedJson
