import PackedJson.Proofs.TextSchema.Acceptance

namespace PackedJson

open Heap

/-!
The types of both targets of a compiled text schema.

The two targets have types of their own, at different places and of different
sizes.  Apart from that they are alike: listed in the same order, types at the
same position have the same names, marks and fields, and refer to types that
are again at one position.
-/

namespace Schema

/-- Two references lead to one text. -/
def SameText (schema : Schema) (first second : TextRef) : Prop :=
  exists text, schema.text first = .ok text ∧ schema.text second = .ok text

/-- Two fields say the same, of types that are paired. -/
structure FieldsAlike (schema : Schema) (paired : TypeId -> TypeId -> Prop)
    (field other : FieldDef) : Prop where
  name : schema.SameText field.jsonName other.jsonName
  companion : schema.SameText field.companionName other.companionName
  hash : field.hash = other.hash
  flags : field.flags = other.flags
  activation : field.activation = other.activation
  choice : field.choice = other.choice
  order : field.order = other.order
  types : exists type otherType, field.type = some type ∧ other.type = some otherType ∧
    paired type otherType

/-- Two types of different contexts say the same: what they refer to is paired,
and they have the same prototype, each in its own context. -/
structure TypesAlike (schema : Schema) (context otherContext : Context)
    (paired : TypeId -> TypeId -> Prop) (type other : TypeDef) : Prop where
  name : schema.SameText type.name other.name
  shape : type.shape = other.shape
  flags : type.flags = other.flags
  fieldCount : type.fieldCount = other.fieldCount
  prototype : exists builtin : Option Builtin, type.prototype = builtin.map context.builtin ∧
    other.prototype = builtin.map otherContext.builtin
  argument : Option.Rel paired type.argument other.argument
  /-- In the order of declaration. -/
  fields : exists fields others, schema.fieldsInOrder type = .ok fields ∧
    schema.fieldsInOrder other = .ok others ∧
    List.Forall₂ (schema.FieldsAlike paired) fields others

/-- Types listed for two contexts are alike, position by position.  What they
refer to is at one position, too, and a builtin is listed for each context at
the same position. -/
structure Parallel (schema : Schema) (context otherContext : Context)
    (ids others : List TypeId) : Prop where
  length : ids.length = others.length
  once : ids.Nodup
  otherOnce : others.Nodup
  builtins : forall id otherId, (id, otherId) ∈ ids.zip others -> forall builtin,
    id = context.builtin builtin ↔ otherId = otherContext.builtin builtin
  alike : forall id otherId, (id, otherId) ∈ ids.zip others -> exists type otherType,
    schema.type id = .ok type ∧ schema.type otherId = .ok otherType ∧
    schema.TypesAlike context otherContext
      (fun first second => (first, second) ∈ ids.zip others) type otherType

theorem FieldsAlike.imp {schema : Schema} {paired other : TypeId -> TypeId -> Prop}
    {field otherField : FieldDef} (alike : schema.FieldsAlike paired field otherField)
    (more : forall first second, paired first second -> other first second) :
    schema.FieldsAlike other field otherField := by
  obtain ⟨type, otherType, isType, isOther, isPaired⟩ := alike.types
  exact { alike with types := ⟨type, otherType, isType, isOther, more _ _ isPaired⟩ }

theorem TypesAlike.imp {schema : Schema} {context otherContext : Context}
    {paired other : TypeId -> TypeId -> Prop} {type otherType : TypeDef}
    (alike : schema.TypesAlike context otherContext paired type otherType)
    (more : forall first second, paired first second -> other first second) :
    schema.TypesAlike context otherContext other type otherType := by
  obtain ⟨fields, others, inOrder, otherInOrder, areAlike⟩ := alike.fields
  refine { alike with
    argument := ?_
    fields := ⟨fields, others, inOrder, otherInOrder, areAlike.imp fun _ _ same => same.imp more⟩ }
  have argument := alike.argument
  generalize type.argument = first at argument
  generalize otherType.argument = second at argument
  cases argument with
  | none => exact .none
  | some isPaired => exact .some (more _ _ isPaired)

end Schema

namespace TextSchema

section Embodiments

variable {draft : Draft} {root ref : Ref} {heap : Heap} {arena : Arena} {target other : Target}
  {context otherContext : Context} {site otherSite : Site} {settled otherSettled : TypeId -> Prop}
  {id otherId : TypeId}
  (first : Embodies draft root heap target context site settled)
  (second : Embodies draft root heap other otherContext otherSite otherSettled)

/-- Fields for the same parts say the same. -/
theorem fieldsAlike_of_parts (holds : heap.Holds arena) {parts : List Part}
    {members others : List Member} {fields otherFields : List FieldDef}
    (reached : forall part, part ∈ parts -> draft.Reaches root part.type)
    (finds : List.Forall₂ site.FindsPart parts members)
    (otherFinds : List.Forall₂ otherSite.FindsPart parts others)
    (are : FieldsAre heap 0 members fields) (otherAre : FieldsAre heap 0 others otherFields) :
    List.Forall₂ (Schema.FieldsAlike ⟨arena⟩ (Twins draft root site otherSite)) fields
      otherFields := by
  have length := finds.length_eq
  have otherLength := otherFinds.length_eq
  have fieldsLength := are.length
  have otherFieldsLength := otherAre.length
  refine List.forall₂_iff_get.mpr ⟨by omega, fun index bound otherBound => ?_⟩
  have inParts : index < parts.length := by omega
  have is := are.get (by omega) bound
  have otherIs := otherAre.get (by omega) otherBound
  obtain ⟨id, found, isMember⟩ := (List.forall₂_iff_get.mp finds).2 index inParts (by omega)
  obtain ⟨otherId, otherFound, isOther⟩ :=
    (List.forall₂_iff_get.mp otherFinds).2 index inParts (by omega)
  simp only [List.get_eq_getElem] at isMember isOther found otherFound ⊢
  rw [isMember] at is
  rw [isOther] at otherIs
  exact ⟨⟨_, holds.text is.name, holds.text otherIs.name⟩,
    ⟨_, holds.text is.companion, holds.text otherIs.companion⟩, is.hash.trans otherIs.hash.symm,
    is.flags.trans otherIs.flags.symm, is.activation.trans otherIs.activation.symm,
    is.choice.trans otherIs.choice.symm, is.order.trans otherIs.order.symm,
    ⟨id, otherId, is.type, otherIs.type, _, reached _ (List.getElem_mem inParts), found, otherFound⟩⟩

include first second in
/-- Twins are alike. -/
theorem alike_of_twins (holds : heap.Holds arena) (twins : Twins draft root site otherSite id otherId)
    (isSettled : settled id) (otherIsSettled : otherSettled otherId) :
    exists type otherType, Schema.type ⟨arena⟩ id = .ok type ∧
      Schema.type ⟨arena⟩ otherId = .ok otherType ∧
      Schema.TypesAlike ⟨arena⟩ context otherContext (Twins draft root site otherSite) type
        otherType := by
  obtain ⟨ref, reached, finds, otherFinds⟩ := twins
  obtain ⟨type, fields, argument, members, stored, hasFields, flags, isArgument, found, is⟩ :=
    first.exists_type finds isSettled
  obtain ⟨otherType, otherFields, otherArgument, others, otherStored, otherHasFields, otherFlags,
    isOtherArgument, otherFound, otherIs⟩ := second.exists_type otherFinds otherIsSettled
  obtain ⟨named, namedStored, name⟩ := first.named ref id finds
  obtain ⟨otherNamed, otherNamedStored, otherName⟩ := second.named ref otherId otherFinds
  cases hasType_inj stored namedStored
  cases hasType_inj otherStored otherNamedStored
  have partReached (part : Part) (member : part ∈ (draft.outline ref).parts) :
      draft.Reaches root part.type :=
    reached.next (List.mem_append_left _ (List.mem_map_of_mem member))
  have sameCount : type.fieldCount = otherType.fieldCount := by
    have length := is.members.length
    have otherLength := otherIs.members.length
    rw [Sorted.length_sortBy] at length otherLength
    refine UInt32.toNat_inj.mp ?_
    rw [hasFields.1, otherHasFields.1, length, otherLength]
    exact found.length_eq.symm.trans otherFound.length_eq
  refine ⟨type, otherType, holds.type stored, holds.type otherStored,
    ⟨_, holds.text name, holds.text otherName⟩, is.shape.trans otherIs.shape.symm,
    flags.trans otherFlags.symm, sameCount, ⟨(draft.outline ref).prototype, ?_, ?_⟩, ?_,
    ⟨_, _, holds.fieldsInOrder hasFields, holds.fieldsInOrder otherHasFields,
      fieldsAlike_of_parts holds partReached found otherFound is.members otherIs.members⟩⟩
  · rw [is.prototype]
    exact congrArg (fun builtins => Option.map builtins _) (funext fun builtin =>
      (first.builtins builtin).symm)
  · rw [otherIs.prototype]
    exact congrArg (fun builtins => Option.map builtins _) (funext fun builtin =>
      (second.builtins builtin).symm)
  · rw [is.argument, otherIs.argument]
    change Option.Rel _ argument otherArgument
    cases outlineArgument : (draft.outline ref).argument with
    | none =>
        rw [outlineArgument] at isArgument isOtherArgument
        cases isArgument
        cases isOtherArgument
        exact .none
    | some argumentRef =>
        have argumentReached := reached.next (List.mem_append_right _
          (Option.mem_toList.mpr outlineArgument))
        rw [outlineArgument] at isArgument isOtherArgument
        cases isArgument with
        | some argumentFinds =>
            cases isOtherArgument with
            | some otherArgumentFinds =>
                exact .some ⟨argumentRef, argumentReached, argumentFinds, otherArgumentFinds⟩

include first second in
/-- A builtin is twin to the same builtin of the other target. -/
theorem builtin_of_twins (twins : Twins draft root site otherSite id otherId) (builtin : Builtin) :
    id = context.builtin builtin ↔ otherId = otherContext.builtin builtin := by
  obtain ⟨ref, _, finds, otherFinds⟩ := twins
  rw [first.builtins, second.builtins]
  constructor
  · rintro rfl
    cases first.apart ref builtin finds
    exact (Option.some.inj otherFinds.2).symm
  · rintro rfl
    cases second.apart ref builtin otherFinds
    exact (Option.some.inj finds.2).symm

include first second in
/-- The types of two embodiments of a draft are parallel. -/
theorem exists_parallel (holds : heap.Holds arena) :
    exists rootId otherRootId ids others, context.root = some rootId ∧
      otherContext.root = some otherRootId ∧ Schema.reachable ⟨arena⟩ rootId = .ok ids ∧
      Schema.reachable ⟨arena⟩ otherRootId = .ok others ∧
      Schema.Parallel ⟨arena⟩ context otherContext ids others := by
  obtain ⟨rootId, isRoot, finds, rootSettled⟩ := first.root
  obtain ⟨otherRootId, isOtherRoot, otherFinds, otherRootSettled⟩ := second.root
  obtain ⟨refs, ids, areReached, listed, allFound⟩ := first.exists_refs holds finds rootSettled
  obtain ⟨_, others, again, otherListed, arePairs⟩ := first.layout.reachable_pairs holds rootSettled
    second.layout holds otherRootSettled (pairs_twins first holds second holds)
    ⟨root, .root, finds, otherFinds⟩
  cases listed.symm.trans again
  have otherAllFound := finds_of_twins first.distinct allFound arePairs
  obtain ⟨_, sameList, once, mem⟩ := first.layout.exists_reachable holds rootSettled
  cases listed.symm.trans sameList
  obtain ⟨_, sameOthers, otherOnce, otherMem⟩ := second.layout.exists_reachable holds otherRootSettled
  cases otherListed.symm.trans sameOthers
  have mem_of_twins (id otherId : TypeId) (twins : Twins draft root site otherSite id otherId) :
      (id, otherId) ∈ ids.zip others := by
    obtain ⟨ref, reached, found, otherFound⟩ := twins
    obtain ⟨index, bound, rfl⟩ := List.getElem_of_mem ((areReached ref).mpr reached)
    have inIds : index < ids.length := allFound.length_eq ▸ bound
    have inOthers : index < others.length := otherAllFound.length_eq ▸ bound
    have same := (List.forall₂_iff_get.mp allFound).2 index bound inIds
    have otherSame := (List.forall₂_iff_get.mp otherAllFound).2 index bound inOthers
    refine List.mem_iff_getElem.mpr ⟨index, by rw [List.length_zip]; omega, ?_⟩
    have isFirst : id = ids[index] := Option.some.inj (found.2.symm.trans same.2)
    have isSecond : otherId = others[index] := Option.some.inj (otherFound.2.symm.trans otherSame.2)
    rw [List.getElem_zip, isFirst, isSecond]
  refine ⟨rootId, otherRootId, ids, others, isRoot, isOtherRoot, listed, otherListed,
    arePairs.length_eq, once, otherOnce,
    fun id otherId member => builtin_of_twins first second (List.forall₂_zip arePairs member),
    fun id otherId member => ?_⟩
  obtain ⟨inIds, inOthers⟩ := List.of_mem_zip member
  obtain ⟨type, otherType, isType, isOther, alike⟩ := alike_of_twins first second holds
    (List.forall₂_zip arePairs member)
    (Layout.settled_of_reaches holds.told first.layout rootSettled ((mem id).mp inIds))
    (Layout.settled_of_reaches holds.told second.layout otherRootSettled ((otherMem otherId).mp inOthers))
  exact ⟨type, otherType, isType, isOther, alike.imp mem_of_twins⟩

end Embodiments

/-- The types of both targets of a compiled text schema are parallel. -/
theorem targets_parallel {document : Json} {options : CompileOptions} {container : Container}
    (accepted : compile document options = .ok container) :
    exists wasmRoot nativeRoot wasmIds nativeIds,
      container.schema.root (container.context .wasm32) = .ok wasmRoot ∧
      container.schema.root (container.context .native) = .ok nativeRoot ∧
      container.schema.reachable wasmRoot = .ok wasmIds ∧
      container.schema.reachable nativeRoot = .ok nativeIds ∧
      container.schema.Parallel (container.context .wasm32) (container.context .native) wasmIds
        nativeIds := by
  obtain ⟨slice, drafted, _, _, heap, holds, embodied⟩ := bodies_of_compile accepted
  obtain ⟨_, _, _, wasm⟩ := embodied .wasm32
  obtain ⟨_, _, _, native⟩ := embodied .native
  obtain ⟨wasmRoot, nativeRoot, wasmIds, nativeIds, isWasmRoot, isNativeRoot, wasmListed,
    nativeListed, parallel⟩ := exists_parallel wasm native holds
  refine ⟨wasmRoot, nativeRoot, wasmIds, nativeIds, ?_, ?_, wasmListed, nativeListed, parallel⟩
  · unfold Schema.root
    rw [isWasmRoot]
  · unfold Schema.root
    rw [isNativeRoot]

/-- The types of the schema of integers are parallel. -/
theorem targets_parallel_integer : exists container,
    compile (namedSchema "integer") {} = .ok container ∧
      exists wasmRoot nativeRoot wasmIds nativeIds,
        container.schema.root (container.context .wasm32) = .ok wasmRoot ∧
        container.schema.root (container.context .native) = .ok nativeRoot ∧
        container.schema.reachable wasmRoot = .ok wasmIds ∧
        container.schema.reachable nativeRoot = .ok nativeIds ∧
        container.schema.Parallel (container.context .wasm32) (container.context .native) wasmIds
          nativeIds := by
  obtain ⟨container, accepted, _⟩ := exists_integerContainer
  exact ⟨container, accepted, targets_parallel accepted⟩

end TextSchema
end PackedJson
