import PackedJson.Proofs.Packing.Captures

namespace PackedJson

open Heap Builder Layout

/-!
Instances of generic types.

Every context has generic types: arrays, options, results and maps.  What a
compiled text schema refers to are instances of them.  An instance has the
fields of its generic type in their order.  A field without a type is one of
the argument; a field of another generic type is one of its own instance at
the argument, which is how maps consist of arrays; all other fields stay.
There is one instance for each generic type and argument, so that none is
made twice, neither by the context nor by the types that a text schema
describes.
-/

namespace Schema

/-- What a field of a generic type is of, in its instance at an argument. -/
inductive BindsType (schema : Schema) (argument : TypeId) : Option TypeId -> TypeId -> Prop where
  | parameter : BindsType schema argument none argument
  | nested {generic inner : TypeId} {genericType innerType : TypeDef} :
      schema.type generic = .ok genericType -> genericType.isGeneric = true ->
      schema.type inner = .ok innerType -> innerType.prototype = some generic ->
      innerType.argument = some argument -> BindsType schema argument (some generic) inner
  | kept {concrete : TypeId} {type : TypeDef} : schema.type concrete = .ok type ->
      type.isGeneric = false -> BindsType schema argument (some concrete) concrete

/-- A field of an instance at an argument is the field of the generic type, apart from its type
and its position. -/
structure BindsField (schema : Schema) (argument : TypeId) (formal field : FieldDef) : Prop where
  name : exists text, schema.text formal.jsonName = .ok text ∧ schema.text field.jsonName = .ok text
  companion : exists text, schema.text formal.companionName = .ok text ∧
    schema.text field.companionName = .ok text
  type : exists type, field.type = some type ∧ schema.BindsType argument formal.type type
  hash : field.hash = formal.hash
  order : field.order = formal.order
  flags : field.flags = formal.flags
  activation : field.activation = formal.activation
  choice : field.choice = formal.choice

/-- A type with some fields is the instance of a generic type at an argument. -/
def Instantiates (schema : Schema) (generic argument : TypeId) (type : TypeDef)
    (fields : List FieldDef) : Prop :=
  exists genericType formals, schema.type generic = .ok genericType ∧
    genericType.isGeneric = true ∧ type.shape = genericType.shape ∧
    schema.fieldsInOrder genericType = .ok formals ∧
    List.Forall₂ (schema.BindsField argument) formals fields

end Schema

namespace TextSchema

/-- An instance of a generic builtin says what it is an instance of. -/
theorem instanceOutline_argument {generic : Builtin} (isGeneric : generic ∈ genericBuiltins)
    (argument : Ref) : (instanceOutline generic argument).prototype = some generic ∧
      (instanceOutline generic argument).argument = some argument := by
  simp only [genericBuiltins, List.mem_cons, List.not_mem_nil, or_false] at isGeneric
  rcases isGeneric with rfl | rfl | rfl | rfl <;> exact ⟨rfl, rfl⟩

/-- Only instances of generic builtins have arguments.  The text type is the one of bytes, and all
others are told by references of their own. -/
theorem Draft.outline_of_argument {draft : Draft} {ref argument : Ref} {generic : Builtin}
    (proper : ref.Proper) (prototype : (draft.outline ref).prototype = some generic)
    (isArgument : (draft.outline ref).argument = some argument) :
    generic ∈ genericBuiltins ∧
      (draft.outline ref).shape = (instanceOutline generic argument).shape ∧
      (draft.outline ref).parts = (instanceOutline generic argument).parts ∧
      (ref = .applied generic argument ∨ ref = .builtin .string ∧ argument = .builtin .char) := by
  cases ref with
  | builtin builtin =>
      cases builtin with
      | string =>
          cases prototype
          cases isArgument
          exact ⟨by decide, rfl, rfl, .inr ⟨rfl, rfl⟩⟩
      | _ => cases isArgument
  | declared index =>
      cases found : draft.sketches[index]? with
      | none =>
          rw [Draft.outline_of_none found] at isArgument
          cases isArgument
      | some sketch =>
          rw [Draft.outline_of_some found] at isArgument
          cases isArgument
  | applied applied inner =>
      obtain ⟨isGeneric, _, _⟩ := proper
      have outlined := instanceOutline_argument isGeneric inner
      cases outlined.1.symm.trans prototype
      cases outlined.2.symm.trans isArgument
      exact ⟨isGeneric, rfl, rfl, .inl rfl⟩

/-- There is one reference for each generic builtin and argument. -/
theorem Draft.eq_of_argument {draft : Draft} {ref other argument : Ref} {generic : Builtin}
    (proper : ref.Proper) (otherProper : other.Proper)
    (prototype : (draft.outline ref).prototype = some generic)
    (isArgument : (draft.outline ref).argument = some argument)
    (otherPrototype : (draft.outline other).prototype = some generic)
    (otherArgument : (draft.outline other).argument = some argument) : other = ref := by
  obtain ⟨_, _, _, known⟩ := outline_of_argument proper prototype isArgument
  obtain ⟨_, _, _, otherKnown⟩ := outline_of_argument otherProper otherPrototype otherArgument
  rcases known with rfl | ⟨rfl, rfl⟩ <;> rcases otherKnown with rfl | ⟨rfl, isBytes⟩
  · rfl
  · exact absurd isBytes proper.2.1
  · exact absurd rfl otherProper.2.1
  · rfl

theorem Site.Finds.eq {site : Site} {ref : Ref} {id other : TypeId} (finds : site.Finds ref id)
    (again : site.Finds ref other) : id = other :=
  Option.some.inj (finds.2.symm.trans again.2)

namespace Embodies

variable {draft : Draft} {root ref argument : Ref} {heap : Heap} {schema : Schema} {target : Target}
  {context : Context} {site : Site} {settled : TypeId -> Prop} {id argumentId : TypeId}
  {type : TypeDef} {fields : List FieldDef} {part : Part} {member formalMember : Member}
  {field formal : FieldDef} {order : Nat}
  (embodies : Embodies draft root heap target context site settled) (told : heap.ToldBy schema)

include embodies told

/-- What is found for a reference is concrete, and has fields with types. -/
theorem exists_concrete (finds : site.Finds ref id) :
    exists type fields argument members, schema.type id = .ok type ∧
      schema.fieldsInOrder type = .ok fields ∧ FieldsAre heap 0 members fields ∧
      List.Forall₂ site.FindsPart (draft.outline ref).parts members ∧
      Option.Rel site.Finds (draft.outline ref).argument argument ∧
      type.isGeneric = false ∧ type.shape = (draft.outline ref).shape ∧
      type.prototype = (draft.outline ref).prototype.map site.context.builtin ∧
      type.argument = argument := by
  obtain ⟨_, _, _, argument, members, isArgument, found, type, fields, stored, hasFields, is⟩ :=
    embodies.outlined ref id finds
  exact ⟨type, _, argument, members, told.type stored, told.fieldsInOrder hasFields, is.members,
    found, isArgument, is.generic, is.shape, is.prototype, is.argument⟩

/-- What a generic type says in place of a type is bound to that type. -/
theorem bindsType {formalType : Option TypeId} (argumentFinds : site.Finds argument argumentId)
    (finds : site.Finds ref id) (generalizes : site.Generalizes argument ref formalType) :
    schema.BindsType argumentId formalType id := by
  cases generalizes with
  | parameter => exact finds.eq argumentFinds ▸ .parameter
  | @nested generic isGeneric =>
      obtain ⟨_, _, genericType, _, genericStored, _, genericIs⟩ :=
        embodies.generic generic argument isGeneric
      obtain ⟨type, _, _, _, isType, _, _, _, isFound, _, _, prototype, same⟩ :=
        embodies.exists_concrete told finds
      have outlined := instanceOutline_argument isGeneric argument
      change (draft.outline (.applied generic argument)).prototype = _ ∧
        (draft.outline (.applied generic argument)).argument = _ at outlined
      rw [outlined.1] at prototype
      rw [outlined.2] at isFound
      cases isFound with
      | some found =>
          cases found.eq argumentFinds
          exact .nested (told.type genericStored) genericIs.generic isType prototype same
  | kept otherFinds =>
      obtain ⟨_, _, _, _, isType, _, _, _, _, concrete, _⟩ := embodies.exists_concrete told finds
      cases otherFinds.eq finds
      exact .kept isType concrete

/-- A field of an instance is bound to the field of the generic type that it is there for. -/
theorem bindsField (argumentFinds : site.Finds argument argumentId)
    (finds : site.FindsPart part member) (generalizes : site.GeneralizesPart argument part formalMember)
    (formalIs : formal.Is heap formalMember order) (is : field.Is heap member order) :
    schema.BindsField argumentId formal field := by
  obtain ⟨id, found, rfl⟩ := finds
  obtain ⟨formalType, stands, rfl⟩ := generalizes
  have binds := embodies.bindsType told argumentFinds found stands
  exact {
    name := ⟨part.name, told.text formalIs.name, told.text is.name⟩
    companion := ⟨part.companion, told.text formalIs.companion, told.text is.companion⟩
    type := ⟨id, is.type, formalIs.type.symm ▸ binds⟩
    hash := is.hash.trans formalIs.hash.symm
    order := is.order.trans formalIs.order.symm
    flags := is.flags.trans formalIs.flags.symm
    activation := is.activation.trans formalIs.activation.symm
    choice := is.choice.trans formalIs.choice.symm }

/-- The fields of an instance are bound to those of its generic type, one after another. -/
theorem bindsFields {parts : List Part} {members formalMembers : List Member}
    {fields formals : List FieldDef} {order : Nat} (argumentFinds : site.Finds argument argumentId)
    (finds : List.Forall₂ site.FindsPart parts members)
    (generalizes : List.Forall₂ (site.GeneralizesPart argument) parts formalMembers)
    (formalsAre : FieldsAre heap order formalMembers formals) (are : FieldsAre heap order members fields) :
    List.Forall₂ (schema.BindsField argumentId) formals fields := by
  induction finds generalizing formalMembers fields formals order with
  | nil =>
      cases generalizes
      cases formalsAre
      cases are
      exact .nil
  | cons found _ ih =>
      cases generalizes with
      | cons stands others =>
          cases formalsAre with
          | cons formalIs formalRest =>
              cases are with
              | cons is rest =>
                  exact .cons (embodies.bindsField told argumentFinds found stands formalIs is)
                    (ih others formalRest rest)

/-- What has a prototype and an argument has the fields of its prototype, bound to the argument. -/
theorem instantiates {generic : TypeId} (finds : site.Finds ref id) (stored : schema.type id = .ok type)
    (hasFields : schema.fieldsInOrder type = .ok fields) (prototype : type.prototype = some generic)
    (isArgument : type.argument = some argumentId) :
    exists builtin argument, (draft.outline ref).prototype = some builtin ∧
      (draft.outline ref).argument = some argument ∧ site.context.builtin builtin = generic ∧
      site.Finds argument argumentId ∧ schema.Instantiates generic argumentId type fields := by
  obtain ⟨_, _, found, members, isType, areFields, are, partsFound, argumentFound, _, shape,
    isPrototype, sameArgument⟩ := embodies.exists_concrete told finds
  cases stored.symm.trans isType
  cases hasFields.symm.trans areFields
  obtain ⟨builtin, outlined, rfl⟩ := Option.map_eq_some_iff.mp (isPrototype.symm.trans prototype)
  cases sameArgument.symm.trans isArgument
  generalize taken : (draft.outline ref).argument = inner at argumentFound
  cases argumentFound with
  | @some argument _ argumentFinds =>
      obtain ⟨isGeneric, sameShape, sameParts, _⟩ := Draft.outline_of_argument finds.1 outlined taken
      obtain ⟨formalMembers, stands, genericType, formals, genericStored, genericFields, genericIs⟩ :=
        embodies.generic builtin argument isGeneric
      refine ⟨builtin, argument, outlined, rfl, rfl, argumentFinds, genericType, _,
        told.type genericStored, genericIs.generic,
        (shape.trans sameShape).trans genericIs.shape.symm, told.fieldsInOrder genericFields, ?_⟩
      exact embodies.bindsFields told argumentFinds (sameParts ▸ partsFound) stands
        genericIs.members are

end Embodies

section Accepted

variable {document : Json} {options : CompileOptions} {container : Container} {target : Target}
  {root : TypeId}

/-- The types that the root of a context leads to are concrete, and so are all of their fields.
One that has a prototype and an argument has the fields of its prototype with the argument in place
of missing types, and no other type has the same prototype and argument. -/
theorem instances_of_compile (accepted : compile document options = .ok container)
    (isRoot : container.schema.root (container.context target) = .ok root) {id : TypeId}
    (reaches : container.schema.Reaches root id) :
    exists type fields, container.schema.type id = .ok type ∧
      container.schema.fieldsInOrder type = .ok fields ∧ type.isGeneric = false ∧
      (forall field, field ∈ fields -> field.type ≠ none) ∧
      forall generic argument, type.prototype = some generic -> type.argument = some argument ->
        container.schema.Instantiates generic argument type fields ∧
        forall other otherType, container.schema.Reaches root other ->
          container.schema.type other = .ok otherType -> otherType.prototype = some generic ->
          otherType.argument = some argument -> other = id := by
  obtain ⟨_, drafted, _, _, heap, holds, embodied⟩ := bodies_of_compile accepted
  obtain ⟨_, site, settled, embodies⟩ := embodied target
  have told : heap.ToldBy container.schema := holds.told
  obtain ⟨rootId, contextRoot, rootFinds, rootSettled⟩ := embodies.root
  have found {id : TypeId} (reaches : container.schema.Reaches root id) :
      exists ref, site.Finds ref id := by
    refine embodies.found _ (settled_of_reaches told embodies.layout ?_ reaches)
    unfold Schema.root at isRoot
    rw [contextRoot] at isRoot
    cases isRoot
    exact rootSettled
  obtain ⟨ref, finds⟩ := found reaches
  obtain ⟨type, fields, _, members, stored, hasFields, are, partsFound, _, concrete, _⟩ :=
    embodies.exists_concrete told finds
  refine ⟨type, fields, stored, hasFields, concrete, ?_, fun generic argument prototype isArgument => ?_⟩
  · intro field isField missing
    have isType : field.type ∈ _ := List.mem_map_of_mem isField
    rw [FieldsAre.map_eq are fun _ _ _ is => is.type] at isType
    obtain ⟨member, isMember, same⟩ := List.mem_map.mp isType
    obtain ⟨_, _, _, _, rfl⟩ := exists_of_mem_left partsFound.flip isMember
    cases same.trans missing
  · obtain ⟨builtin, inner, outlined, taken, rfl, innerFinds, instantiates⟩ :=
      embodies.instantiates told finds stored hasFields prototype isArgument
    refine ⟨instantiates, fun other otherType otherReaches otherStored samePrototype sameArgument => ?_⟩
    obtain ⟨otherRef, otherFinds⟩ := found otherReaches
    obtain ⟨_, otherFields, _, _, otherIsType, otherHasFields, _⟩ :=
      embodies.exists_concrete told otherFinds
    cases otherStored.symm.trans otherIsType
    obtain ⟨otherBuiltin, otherInner, otherOutlined, otherTaken, same, otherInnerFinds, _⟩ :=
      embodies.instantiates told otherFinds otherStored otherHasFields samePrototype sameArgument
    cases embodies.distinct _ _ _ innerFinds otherInnerFinds
    rw [← embodies.builtins, ← embodies.builtins] at same
    cases embodies.different _ _ same
    cases Draft.eq_of_argument finds.1 otherFinds.1 outlined taken otherOutlined otherTaken
    exact otherFinds.eq finds

/-- An integer that may fail has an instance of the type of results, at the type of integers. -/
theorem instances_of_compile_fallible : exists container root id type fields,
    compile Packer.fallibleSchema {} = .ok container ∧
    container.schema.root (container.context .wasm32) = .ok root ∧
    container.schema.Reaches root id ∧ container.schema.type id = .ok type ∧
    container.schema.Instantiates ((container.context .wasm32).builtin .result)
      ((container.context .wasm32).builtin .integer) type fields := by
  obtain ⟨container, root, id, type, accepted, isRoot, reaches, found, isResult, isInteger, _⟩ :=
    Packer.exists_fallibleContainer .wasm32
  obtain ⟨_, fields, again, _, _, _, instances⟩ := instances_of_compile accepted isRoot reaches
  cases found.symm.trans again
  exact ⟨container, root, id, type, fields, accepted, isRoot, reaches, found,
    (instances _ _ isResult isInteger).1⟩

end Accepted

end TextSchema
end PackedJson
