import PackedJson.Proofs.Schema.Soundness
import PackedJson.Proofs.TextSchema.Compiled

namespace PackedJson

/-!
What the types of a text schema are there for.

A type that can be reached from the root was compiled for a term of the text
schema, or it is a scalar, the type of texts, or an array of such types.  Maps
and wrappers are none of the latter, so that every one of them was compiled for
a term.
-/

/-- Scalars, the type of texts, and arrays. -/
def Kind.IsPlain : Kind -> Prop
  | .scalar _ => True
  | .text => True
  | .array _ => True
  | _ => False

namespace TextSchema

open Heap Builder

/-- A type was compiled for a term, or is a part of one that was. -/
inductive Belongs (heap : Heap) (context : Context) (promises : Promises) : TypeId -> Prop where
  | promised {id : TypeId} {term : Term} : promises id term -> Belongs heap context promises id
  | scalar {builtin : Builtin} : builtin ∈ scalarBuiltins ->
      Belongs heap context promises (context.builtin builtin)
  | text : Belongs heap context promises (context.builtin .string)
  | array {id element : TypeId} : Declares heap id ((Kind.array element).declaration context) ->
      Belongs heap context promises element -> Belongs heap context promises id

namespace Serving

variable {heap : Heap} {target : Target} {context : Context} {document : Json}
  {promises : Promises} {settled : TypeId -> Prop} {id successor : TypeId}
  {declaration : Declaration}
  (serving : Serving heap target context document promises settled)

include serving

theorem declares_scalar {builtin : Builtin} (isScalar : builtin ∈ scalarBuiltins) :
    Declares heap (context.builtin builtin) ((Kind.scalar builtin).declaration context) := by
  rw [← map_fst_scalarSizes target] at isScalar
  obtain ⟨⟨_, size⟩, member, rfl⟩ := List.mem_map.mp isScalar
  exact (serving.scalars _ size member).declares

omit serving in
/-- The words of an array are scalars. -/
theorem belongs_of_array {element : TypeId} (belongs : Belongs heap context promises element)
    (member : successor ∈ context.arrayMembers.filterMap Member.type ++ [element]) :
    Belongs heap context promises successor := by
  have isOne : successor ∈ [context.builtin .pointer, context.builtin .size, context.builtin .size,
    element] := member
  simp only [List.mem_cons, List.not_mem_nil, or_false] at isOne
  rcases isOne with rfl | rfl | rfl | rfl
  · exact .scalar (by decide)
  · exact .scalar (by decide)
  · exact .scalar (by decide)
  · exact belongs

omit serving in
/-- What a type of some kind refers to belongs to the text schema. -/
theorem belongs_of_kind {role : Role} {kind : Kind} (serves : Serves promises role kind)
    (is : IsKind heap target context id kind)
    (member : successor ∈ (kind.declaration context).successors) :
    Belongs heap context promises successor := by
  cases serves with
  | integer => cases member
  | number => cases member
  | boolean => cases member
  | null => cases member
  | string => exact belongs_of_array (.scalar (by decide)) member
  | array promised => exact belongs_of_array (.promised promised) member
  | @map term value keys values strings promised =>
      obtain ⟨keysAre, valuesAre, stringsAre⟩ := is.details
      have isOne : successor ∈ [keys, values, strings, value] := member
      simp only [List.mem_cons, List.not_mem_nil, or_false] at isOne
      rcases isOne with rfl | rfl | rfl | rfl
      · exact .array keysAre (.scalar (by decide))
      · exact .array valuesAre (.promised promised)
      · exact .array stringsAre .text
      · exact .promised promised
  | @option term inner promised =>
      have isOne : successor ∈ [context.builtin .tag, context.builtin .unit, inner, inner] := member
      simp only [List.mem_cons, List.not_mem_nil, or_false] at isOne
      rcases isOne with rfl | rfl | rfl | rfl
      · exact .scalar (by decide)
      · exact .scalar (by decide)
      · exact .promised promised
      · exact .promised promised
  | @result term inner promised =>
      have isOne : successor ∈ [context.builtin .tag, inner, context.builtin .string, inner] := member
      simp only [List.mem_cons, List.not_mem_nil, or_false] at isOne
      rcases isOne with rfl | rfl | rfl | rfl
      · exact .scalar (by decide)
      · exact .promised promised
      · exact .text
      · exact .promised promised
  | struct served =>
      rcases List.mem_append.mp member with isMember | isArgument
      · obtain ⟨part, inMembers, isType⟩ := List.mem_filterMap.mp isMember
        have typed : forall part : Member, part ∈ _ -> forall type, part.type = some type ->
            Belongs heap context promises type :=
          forall_right served fun _ _ ⟨_, _, type, known, promised⟩ other isOther => by
            cases known.symm.trans isOther
            exact .promised promised
        exact typed part inMembers successor isType
      · cases isArgument
  | variant served =>
      rcases List.mem_append.mp member with isMember | isArgument
      · obtain ⟨part, inMembers, isType⟩ := List.mem_filterMap.mp isMember
        have typed : forall part : Member, part ∈ _ -> forall type, part.type = some type ->
            Belongs heap context promises type :=
          forall_right served fun _ _ ⟨type, known, promised⟩ other isOther => by
            cases known.symm.trans isOther
            exact .promised promised
        rcases List.mem_cons.mp inMembers with rfl | isAlternative
        · cases isType
          exact .scalar (by decide)
        · exact typed part isAlternative successor isType
      · cases isArgument

/-- What a type refers to belongs to the text schema if the type does. -/
theorem belongs_of_successor (belongs : Belongs heap context promises id)
    (declares : Declares heap id declaration) (member : successor ∈ declaration.successors) :
    Belongs heap context promises successor := by
  cases belongs with
  | promised promised =>
      obtain ⟨role, kind, _, serves, is⟩ := serving.serves id _ promised
      cases declares_inj declares is.declares
      exact belongs_of_kind serves is member
  | scalar isScalar =>
      cases declares_inj declares (serving.declares_scalar isScalar)
      cases member
  | text =>
      cases declares_inj declares serving.text
      exact belongs_of_array (.scalar (by decide)) member
  | array isArray elementBelongs =>
      cases declares_inj declares isArray
      exact belongs_of_array elementBelongs member

variable {schema : Schema} (told : heap.ToldBy schema) {root : TypeId}

include told

/-- What can be reached from the root is settled, and belongs to the text schema. -/
theorem belongs_of_reaches (isRoot : schema.root context = .ok root)
    (reaches : schema.Reaches root id) : settled id ∧ Belongs heap context promises id := by
  obtain ⟨compiled, isCompiled, promised, isSettled⟩ := serving.root
  have same : compiled = root := by
    unfold Schema.root at isRoot
    rw [isCompiled] at isRoot
    exact Except.ok.inj isRoot
  subst same
  refine ⟨Layout.settled_of_reaches told serving.layout isSettled reaches, ?_⟩
  induction reaches with
  | root => exact .promised promised
  | next earlier answer member ih =>
      obtain ⟨declaration, declares, _⟩ := serving.layout.declared _
        (Layout.settled_of_reaches told serving.layout isSettled earlier)
      rw [Layout.successors_eq told declares] at answer
      cases answer
      exact serving.belongs_of_successor ih declares member

/-- A type that can be reached is of a kind, and was compiled for a term unless it
is a scalar or an array. -/
theorem exists_kind (isRoot : schema.root context = .ok root)
    (reaches : schema.Reaches root id) {type : TypeDef} (found : schema.type id = .ok type) :
    exists kind, type.shape = (kind.declaration context).shape ∧
      type.prototype = (kind.declaration context).prototype ∧
      (kind.IsPlain ∨ exists term role, promises id term ∧ HasRole document term role ∧
        Serves promises role kind ∧ IsKind heap target context id kind) := by
  obtain ⟨_, belongs⟩ := serving.belongs_of_reaches told isRoot reaches
  have states {declaration : Declaration} (declares : Declares heap id declaration) :
      type.shape = declaration.shape ∧ type.prototype = declaration.prototype := by
    obtain ⟨record, _, stored, _, is⟩ := declares
    cases found.symm.trans (told.type stored)
    exact ⟨is.shape, is.prototype⟩
  cases belongs with
  | promised promised =>
      obtain ⟨role, kind, hasRole, serves, is⟩ := serving.serves id _ promised
      obtain ⟨shape, prototype⟩ := states is.declares
      exact ⟨kind, shape, prototype, .inr ⟨_, role, promised, hasRole, serves, is⟩⟩
  | @scalar builtin isScalar =>
      obtain ⟨shape, prototype⟩ := states (serving.declares_scalar isScalar)
      exact ⟨.scalar builtin, shape, prototype, .inl trivial⟩
  | text =>
      obtain ⟨shape, prototype⟩ := states serving.text
      exact ⟨.text, shape, prototype, .inl trivial⟩
  | @array _ element isArray _ =>
      obtain ⟨shape, prototype⟩ := states isArray
      exact ⟨.array element, shape, prototype, .inl trivial⟩

/-- A result was compiled for a term that may fail. -/
theorem exists_result (isRoot : schema.root context = .ok root)
    (reaches : schema.Reaches root id) {type : TypeDef} (found : schema.type id = .ok type)
    (isResult : type.prototype = some (context.builtin .result)) :
    exists term inner innerId, promises id term ∧ HasRole document term (.result inner) ∧
      promises innerId inner ∧ IsKind heap target context id (.result innerId) := by
  obtain ⟨kind, _, prototype, origin⟩ := serving.exists_kind told isRoot reaches found
  rw [isResult] at prototype
  have only {builtin : Builtin} (same : some (context.builtin .result) =
      some (context.builtin builtin)) : builtin = .result :=
    serving.distinct _ _ (Option.some.inj same).symm
  cases kind with
  | result innerId =>
      obtain isPlain | ⟨term, _, promised, hasRole, serves, is⟩ := origin
      · exact isPlain.elim
      · cases serves with
        | result innerPromised => exact ⟨term, _, innerId, promised, hasRole, innerPromised, is⟩
  | scalar => cases prototype
  | _ => cases only prototype

/-- A map was compiled for a term that describes maps. -/
theorem exists_map (isRoot : schema.root context = .ok root)
    (reaches : schema.Reaches root id) {type : TypeDef} (found : schema.type id = .ok type)
    (isMap : type.shape = .map) :
    exists term inner value keys values strings, promises id term ∧
      HasRole document term (.map inner) ∧ promises value inner ∧
      IsKind heap target context id (.map value keys values strings) := by
  obtain ⟨kind, shape, _, origin⟩ := serving.exists_kind told isRoot reaches found
  rw [isMap] at shape
  cases kind with
  | map value keys values strings =>
      obtain isPlain | ⟨term, _, promised, hasRole, serves, is⟩ := origin
      · exact isPlain.elim
      · cases serves with
        | map innerPromised =>
            exact ⟨term, _, value, keys, values, strings, promised, hasRole, innerPromised, is⟩
  | _ => cases shape

end Serving

/-! ### Required members -/

section Required

variable {heap : Heap} {target : Target} {context : Context} {document : Json}
  {promises : Promises} {settled : TypeId -> Prop} {id : TypeId} {arena : Arena}
  (serving : Serving heap target context document promises settled) (holds : heap.Holds arena)

include serving holds

/-- A type is an option if it was compiled for a term that may be missing. -/
theorem Serving.prototype_of_promised {term : Term} {type : TypeDef} (promised : promises id term)
    (found : Schema.type ⟨arena⟩ id = .ok type) :
    term.optional = decide (type.prototype = some (context.builtin .option)) := by
  obtain ⟨role, kind, hasRole, serves, is⟩ := serving.serves id term promised
  obtain ⟨stored, _, isStored, _, said⟩ := is.declares
  cases found.symm.trans (holds.told.type isStored)
  have prototype : type.prototype = (kind.declaration context).prototype := said.prototype
  have only {builtin : Builtin} (different : builtin ≠ .option)
      (isPrototype : type.prototype = some (context.builtin builtin)) :
      false = decide (type.prototype = some (context.builtin .option)) := by
    rw [isPrototype]
    exact (decide_eq_false fun same =>
      different (serving.distinct _ _ (Option.some.inj same))).symm
  cases hasRole with
  | option =>
      cases serves
      exact (decide_eq_true prototype).symm
  | result =>
      cases serves
      exact only (by decide) prototype
  | node describes =>
      cases serves with
      | option => exact absurd rfl (describes.ne_option _)
      | result | string | array | map | struct | variant => exact only (by decide) prototype
      | _ =>
          rw [prototype]
          rfl

omit serving in
/-- What a type says of its fields is what a declaration of it says. -/
theorem fieldsAre_of_declares {declaration : Declaration} {type : TypeDef} {fields : List FieldDef}
    (declares : Declares heap id declaration) (found : Schema.type ⟨arena⟩ id = .ok type)
    (inOrder : Schema.fieldsInOrder ⟨arena⟩ type = .ok fields) :
    type.shape = declaration.shape ∧ FieldsAre heap 0 declaration.members fields := by
  obtain ⟨stored, storedFields, isStored, hasFields, said⟩ := declares
  cases found.symm.trans (holds.told.type isStored)
  cases inOrder.symm.trans (holds.fieldsInOrder hasFields)
  exact ⟨said.shape, said.members⟩

/-- A field of a struct is required unless its type is an option. -/
theorem Serving.isRequired_eq {root inner : TypeId} {type innerType : TypeDef} {fields : List FieldDef}
    {field : FieldDef} (isRoot : Schema.root ⟨arena⟩ context = .ok root)
    (reaches : Schema.Reaches ⟨arena⟩ root id) (found : Schema.type ⟨arena⟩ id = .ok type)
    (inOrder : Schema.fieldsInOrder ⟨arena⟩ type = .ok fields) (isStruct : type.shape = .struct)
    (member : field ∈ fields) (isType : field.type = some inner)
    (innerFound : Schema.type ⟨arena⟩ inner = .ok innerType) :
    field.isRequired = !decide (innerType.prototype = some (context.builtin .option)) := by
  obtain ⟨_, belongs⟩ := serving.belongs_of_reaches holds.told isRoot reaches
  have scalar {builtin : Builtin}
      (declares : Declares heap id ((Kind.scalar builtin).declaration context)) : False := by
    obtain ⟨_, noFields⟩ := fieldsAre_of_declares holds declares found inOrder
    cases noFields
    cases member
  cases belongs with
  | scalar isScalar => exact (scalar (serving.declares_scalar isScalar)).elim
  | text =>
      obtain ⟨shape, _⟩ := fieldsAre_of_declares holds serving.text found inOrder
      cases isStruct.symm.trans shape
  | array declares =>
      obtain ⟨shape, _⟩ := fieldsAre_of_declares holds declares found inOrder
      cases isStruct.symm.trans shape
  | promised promised =>
      obtain ⟨role, kind, _, serves, is⟩ := serving.serves id _ promised
      obtain ⟨shape, fieldsAre⟩ := fieldsAre_of_declares holds is.declares found inOrder
      rw [isStruct] at shape
      cases serves with
      | integer | number | boolean | null => exact (scalar is.declares).elim
      | string | array | map | option | result | variant => cases shape
      | @struct properties members served =>
          obtain ⟨index, bound, rfl⟩ := List.getElem_of_mem member
          have inMembers : index < members.length := fieldsAre.length ▸ bound
          obtain ⟨_, required, innerId, isMember, innerPromised⟩ :=
            (List.forall₂_iff_get.mp served).2 index (served.length_eq.symm ▸ inMembers) inMembers
          have is : fields[index].Is heap members[index] (0 + index) := fieldsAre.get inMembers bound
          simp only [List.get_eq_getElem] at required isMember innerPromised
          cases isType.symm.trans (is.type.trans isMember)
          unfold FieldDef.isRequired
          rw [is.flags, required, serving.prototype_of_promised holds innerPromised innerFound]

end Required

/-! ### Terms that a text schema asks for -/

/-- The terms that a role speaks of. -/
def Role.terms : Role -> List Term
  | .array inner => [inner]
  | .map inner => [inner]
  | .option inner => [inner]
  | .result inner => [inner]
  | .struct properties => properties.map Property.term
  | .variant alternatives => alternatives
  | _ => []

/-- The terms that are asked for by a text schema: the one of its root, and those that their roles
speak of. -/
inductive Asks (document : Json) : Term -> Prop where
  | root : Asks document ⟨document, false, false⟩
  | next {term inner : Term} {role : Role} : Asks document term -> HasRole document term role ->
      inner ∈ role.terms -> Asks document inner

/-- A role is served by what serves the terms that it speaks of. -/
theorem Serves.restrict {promises : Promises} {asked : Term -> Prop} {role : Role} {kind : Kind}
    (serves : Serves promises role kind)
    (areAsked : forall inner, inner ∈ role.terms -> asked inner) :
    Serves (fun id term => promises id term ∧ asked term) role kind := by
  cases serves with
  | integer => exact .integer
  | number => exact .number
  | boolean => exact .boolean
  | null => exact .null
  | string => exact .string
  | array promised => exact .array ⟨promised, areAsked _ List.mem_cons_self⟩
  | map promised => exact .map ⟨promised, areAsked _ List.mem_cons_self⟩
  | option promised => exact .option ⟨promised, areAsked _ List.mem_cons_self⟩
  | result promised => exact .result ⟨promised, areAsked _ List.mem_cons_self⟩
  | struct served =>
      refine .struct (List.forall₂_iff_get.mpr ⟨served.length_eq, ?_⟩)
      intro index isProperty isMember
      obtain ⟨name, required, type, isType, promised⟩ :=
        (List.forall₂_iff_get.mp served).2 index isProperty isMember
      exact ⟨name, required, type, isType, promised,
        areAsked _ (List.mem_map_of_mem (List.getElem_mem isProperty))⟩
  | variant served =>
      refine .variant (List.forall₂_iff_get.mpr ⟨served.length_eq, ?_⟩)
      intro index isTerm isMember
      obtain ⟨type, isType, promised⟩ := (List.forall₂_iff_get.mp served).2 index isTerm isMember
      exact ⟨type, isType, promised, areAsked _ (List.getElem_mem isTerm)⟩

section Asked

variable {heap : Heap} {target : Target} {context : Context} {document : Json}
  {promises : Promises} {settled : TypeId -> Prop} {schema : Schema} {root id : TypeId}
  {type : TypeDef}

/-- Types are there for terms that are asked for only. -/
theorem Serving.asked (serving : Serving heap target context document promises settled) :
    Serving heap target context document (fun id term => promises id term ∧ Asks document term)
      settled := by
  obtain ⟨compiled, isCompiled, promised, isSettled⟩ := serving.root
  refine { serving with
    serves := fun id term promised => ?_
    root := ⟨compiled, isCompiled, ⟨promised, .root⟩, isSettled⟩ }
  obtain ⟨role, kind, hasRole, serves, is⟩ := serving.serves id term promised.1
  exact ⟨role, kind, hasRole, serves.restrict fun _ => promised.2.next hasRole, is⟩

/-- Where no maps are asked for, no map can be reached. -/
theorem Serving.shape_ne_map (serving : Serving heap target context document promises settled)
    (told : heap.ToldBy schema) (isRoot : schema.root context = .ok root)
    (noMap : forall term inner, Asks document term -> ¬ HasRole document term (.map inner))
    (reaches : schema.Reaches root id) (found : schema.type id = .ok type) : type.shape ≠ .map := by
  intro isMap
  obtain ⟨term, inner, _, _, _, _, promised, hasRole, _⟩ :=
    serving.asked.exists_map told isRoot reaches found isMap
  exact noMap term inner promised.2 hasRole

end Asked

end TextSchema
end PackedJson
