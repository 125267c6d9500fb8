import PackedJson.Proofs.TextSchema.Targets

namespace PackedJson

open Heap Builder Layout

/-!
Why compiling a text schema fails.

Compiling fails because the text schema has a flaw, because the arena is full,
or because a type is too large.  It never fails because a type contains
itself: whenever the types of a target are to be laid out, each cycle among
them passes through a type that is stored by reference, or through the
elements of an array or a map.
-/

namespace Schema

/-! ### Cycles -/

/-- A type refers to another one. -/
def RefersTo (schema : Schema) (outer inner : TypeId) : Prop :=
  exists successors, schema.successors outer = .ok successors ∧ inner ∈ successors

/-- Instances of the second type never lie inside of instances of the first
one: they are stored by reference, or they are elements of an array or a map. -/
inductive Separates (schema : Schema) (outer inner : TypeId) : Prop where
  | byReference {type : TypeDef} : schema.type inner = .ok type ->
      type.isStoredByReference = true -> Separates schema outer inner
  | element {type : TypeDef} : schema.type outer = .ok type ->
      type.shape = .array ∨ type.shape = .map -> type.argument = some inner ->
      Separates schema outer inner

/-- No cycle among the types that can be reached is without a type that is
stored by reference and without elements. -/
def BreaksCycles (schema : Schema) (root : TypeId) : Prop :=
  forall id, schema.Reaches root id ->
    ¬ Relation.TransGen (fun outer inner => schema.RefersTo outer inner ∧
      ¬ schema.Separates outer inner) id id

/-! ### Exact sizes -/

/-- The room of an instance, given the variables of other types. -/
def instanceRoom (target : Target) (slotOf : TypeId -> Variable) (type : TypeDef)
    (fields : List FieldDef) : Variable :=
  if type.isBuiltin && type.fieldCount == 0 then Variable.ofType target type
  else exactRoom type.shape ((fields.filterMap FieldDef.type).map slotOf)

/-- The variables of all types that can be reached take the room that the
rules of the layout say, in numbers of any size. -/
def IsExact (schema : Schema) (target : Target) (root : TypeId) (slotOf : TypeId -> Variable) :
    Prop :=
  forall id type fields, schema.Reaches root id -> schema.type id = .ok type ->
    schema.fieldsInOrder type = .ok fields ->
    slotOf id = if type.isStoredByReference then ⟨target.pointerWidth, target.pointerWidth⟩
      else instanceRoom target slotOf type fields

/-- The exact size of the instances of a type of some name exceeds 32 binary
digits. -/
def TooLarge (schema : Schema) (target : Target) (root : TypeId) (name : String) : Prop :=
  exists slotOf id type fields, schema.IsExact target root slotOf ∧ schema.Reaches root id ∧
    schema.type id = .ok type ∧ schema.fieldsInOrder type = .ok fields ∧
    schema.name type = name ∧ 2 ^ 32 ≤ (instanceRoom target slotOf type fields).size

end Schema

namespace TextSchema

section Assemblies

variable {setting : Setting} {draft : Draft} {root : Ref} {ids : List TypeId} {heap : Heap}
  {state : State} {rootId : TypeId} {context : Context}

/-- What a type refers to without being separated from it is contained inline. -/
theorem Realizes.inlines_of_refersTo (realizes : Realizes setting draft ids heap state) {ref : Ref}
    {outer inner : TypeId} (finds : (siteOf setting ids state).Finds ref outer)
    (refers : Schema.RefersTo ⟨state.builder.arena⟩ outer inner)
    (together : ¬ Schema.Separates ⟨state.builder.arena⟩ outer inner) :
    exists part, (siteOf setting ids state).Finds part inner ∧ draft.Inlines part ref := by
  have holds := realizes.tabled.holds
  obtain ⟨successors, known, member⟩ := refers
  obtain ⟨_, argument, members, isArgument, found, declares⟩ := realizes.isOutlined finds
  cases (successors_eq holds.told declares).symm.trans known
  obtain ⟨type, _, stored, _, is⟩ := declares
  have unmarked {part : Ref} (partFinds : (siteOf setting ids state).Finds part inner) :
      draft.isByReference part = false := by
    obtain ⟨_, _, _, _, _, ⟨innerType, _, innerStored, _⟩⟩ := realizes.isOutlined partFinds
    rw [← realizes.isByReference_eq partFinds innerStored, Bool.eq_false_iff]
    exact fun marked => together (.byReference (holds.type innerStored) marked)
  cases List.mem_append.mp member with
  | inl isMember =>
      obtain ⟨index, bound, rfl⟩ := List.getElem_of_mem isMember
      have parts := List.forall₂_iff_get.mp (Site.types_of_parts found)
      have inParts : index < ((draft.outline ref).parts.map Part.type).length :=
        parts.1.symm ▸ bound
      have partFinds := parts.2 index inParts bound
      exact ⟨_, partFinds, List.get_mem _ ⟨index, inParts⟩, unmarked partFinds⟩
  | inr inArgument =>
      have isOwn : argument = some inner := Option.mem_toList.mp inArgument
      subst isOwn
      cases outlineArgument : (draft.outline ref).argument with
      | none =>
          rw [outlineArgument] at isArgument
          cases isArgument
      | some part =>
          rw [outlineArgument] at isArgument
          cases isArgument with
          | some partFinds =>
              -- Only arrays and maps have arguments that are types of no members.
              refine ⟨part, partFinds, argument_mem_parts outlineArgument ?_, unmarked partFinds⟩
              have plain : ¬ ((draft.outline ref).shape = .array ∨
                  (draft.outline ref).shape = .map) := fun elements =>
                together (.element (holds.type stored) (is.shape.symm ▸ elements) is.argument)
              cases shape : (draft.outline ref).shape with
              | struct => exact .inl rfl
              | variant => exact .inr rfl
              | array => exact absurd (.inl shape) plain
              | map => exact absurd (.inr shape) plain

/-- Cycles are broken before types are laid out. -/
theorem Assembled.breaksCycles
    (assembled : Assembled setting draft root ids heap state rootId context) :
    Schema.BreaksCycles ⟨state.builder.arena⟩ rootId := by
  intro id reaches
  have realizes := assembled.realizes
  obtain ⟨ref, _, finds⟩ := exists_reached realizes.tabled.holds
    (fun ref id found => ⟨_, realizes.isOutlined found⟩) assembled.finds reaches
  exact assembled.complete.irreflexive (fun _ _ _ => realizes.finds_inj)
    (fun _ _ _ found related => realizes.inlines_of_refersTo found related.1 related.2) finds

/-! ### Layouts that stop -/

/-- A layout stops only at a type that can be reached and is too large. -/
theorem Assembled.exists_oversized
    (assembled : Assembled setting draft root ids heap state rootId context) {cause : SchemaError}
    (stops : (targetPlan setting ids heap state rootId).Stops cause) :
    exists ref id type name, draft.Reaches root ref ∧ (siteOf setting ids state).Finds ref id ∧
      Schema.Reaches ⟨state.builder.arena⟩ rootId id ∧ HasType heap id type ∧
      HasText heap type.name name ∧ cause = .malformed name .layoutTooLarge ∧
      forall sizeOf, draft.Exact setting.target sizeOf ->
        2 ^ 32 ≤ (draft.room setting.target sizeOf ref).size := by
  have realizes := assembled.realizes
  have complete := assembled.complete
  unfold Layout.Plan.Stops at stops
  split at stops
  next =>
    obtain ⟨id, isType, cycle⟩ := stops
    exact (realizes.not_inlines_self complete isType cycle).elim
  next name =>
    obtain ⟨id, type, declaration, ⟨ref, finds, origin⟩, stored, declares, oversized, named⟩ := stops
    have large (sizeOf : Ref -> Variable) (exact : draft.Exact setting.target sizeOf) :
        2 ^ 32 ≤ (draft.room setting.target sizeOf ref).size := by
      obtain ⟨slotOf, sizes⟩ := realizes.exists_sizes sizeOf
      rw [← realizes.exactInstance_eq sizes finds stored declares]
      exact oversized slotOf (realizes.exact sizes exact)
    obtain ⟨other, otherStored, hasName⟩ := realizes.named finds
    cases hasType_inj stored otherStored
    have reaches : Schema.Reaches ⟨state.builder.arena⟩ rootId id := by
      cases origin with
      | inl reaches => exact reaches
      | inr isBuiltin =>
          -- Builtins are small.
          obtain ⟨builtin, rfl⟩ := isBuiltin
          obtain ⟨sizeOf, exact⟩ := complete.exists_exact setting.target
          have small := exact.room_builtin builtin
          have exceeds := large sizeOf exact
          omega
    obtain ⟨found, reached, sameFinds⟩ := exists_reached realizes.tabled.holds
      (fun ref id found => ⟨_, realizes.isOutlined found⟩) assembled.finds reaches
    cases realizes.finds_inj sameFinds finds
    exact ⟨_, id, type, _, reached, finds, reaches, stored, hasName, by rw [named _ hasName], large⟩
  next => exact stops.elim

/-- The room of an instance, as a schema tells it, is what the draft says. -/
theorem Realizes.instanceRoom_eq (realizes : Realizes setting draft ids heap state)
    {sizeOf : Ref -> Variable} {slotOf : TypeId -> Variable}
    (sizes : Sizes setting ids state sizeOf slotOf) {ref : Ref} {id : TypeId}
    (finds : (siteOf setting ids state).Finds ref id) :
    exists type fields, HasType heap id type ∧ HasFields heap id type fields ∧
      Schema.instanceRoom setting.target slotOf type (Sorted.sortBy FieldDef.orderKey fields) =
        draft.room setting.target sizeOf ref := by
  obtain ⟨_, argument, members, _, _, declares⟩ := realizes.isOutlined finds
  obtain ⟨type, fields, stored, hasFields, is⟩ := declares
  refine ⟨type, fields, stored, hasFields, ?_⟩
  rw [← realizes.exactInstance_eq sizes finds stored ⟨type, fields, stored, hasFields, is⟩,
    Schema.instanceRoom, exactInstance, is.members.types_eq, is.shape]

/-- Exact sizes of a draft are exact sizes of the types that can be reached. -/
theorem Assembled.isExact (assembled : Assembled setting draft root ids heap state rootId context)
    {sizeOf : Ref -> Variable} {slotOf : TypeId -> Variable}
    (sizes : Sizes setting ids state sizeOf slotOf) (exact : draft.Exact setting.target sizeOf) :
    Schema.IsExact ⟨state.builder.arena⟩ setting.target rootId slotOf := by
  intro id type fields reaches isType inOrder
  have realizes := assembled.realizes
  have holds := realizes.tabled.holds
  obtain ⟨ref, _, finds⟩ := exists_reached holds
    (fun ref id found => ⟨_, realizes.isOutlined found⟩) assembled.finds reaches
  obtain ⟨other, records, stored, hasFields, room⟩ := realizes.instanceRoom_eq sizes finds
  cases isType.symm.trans (holds.type stored)
  cases inOrder.symm.trans (holds.fieldsInOrder hasFields)
  rw [sizes ref id finds, exact ref, realizes.isByReference_eq finds stored, ← room]
  rfl

/-- A layout stops only for a type that is too large. -/
theorem Assembled.tooLarge
    (assembled : Assembled setting draft root ids heap state rootId context) {cause : SchemaError}
    (stops : (targetPlan setting ids heap state rootId).Stops cause) :
    exists name, cause = .malformed name .layoutTooLarge ∧
      Schema.TooLarge ⟨state.builder.arena⟩ setting.target rootId name := by
  have realizes := assembled.realizes
  have holds := realizes.tabled.holds
  obtain ⟨ref, id, type, name, _, finds, reaches, stored, hasName, rfl, large⟩ :=
    assembled.exists_oversized stops
  obtain ⟨sizeOf, exact⟩ := assembled.complete.exists_exact setting.target
  obtain ⟨slotOf, sizes⟩ := realizes.exists_sizes sizeOf
  obtain ⟨other, fields, otherStored, hasFields, room⟩ := realizes.instanceRoom_eq sizes finds
  cases hasType_inj stored otherStored
  exact ⟨name, rfl, slotOf, id, type, _, assembled.isExact sizes exact, reaches, holds.type stored,
    holds.fieldsInOrder hasFields, holds.name hasName, room ▸ large sizeOf exact⟩

end Assemblies

/-! ### Failures -/

/-- The types of a target of a text schema have been compiled, and are about to
be laid out. -/
def LayoutBegins (document : Json) (options : CompileOptions) (target : Target)
    (context : Context) (schema : Schema) : Prop :=
  exists slice builder state, sliceOf document = .ok slice ∧
    Builder.ofConfig options.arena = .ok builder ∧
    Begins document options.rootName slice builder target context state ∧
    schema = ⟨state.builder.arena⟩

/-- What is about to be laid out has been assembled from a draft. -/
theorem exists_assembled {document : Json} {rootName : String} {slice : Option String}
    {builder : Builder} (starts : Starts builder)
    {target : Target} {context : Context} {state : State}
    (begins : Begins document rootName slice builder target context state) :
    exists setting draft root ids heap rootId,
      Assembled setting draft root ids heap state rootId context := by
  let start : State := ⟨builder, [], [], []⟩
  have holds : Heap.empty.Holds start.builder.arena := starts.holds
  have known : Known Heap.empty start.builder.instances := starts.known
  cases begins with
  | wasm begins =>
      have follows := follows_assembleTarget holds known document rootName slice .wasm32
      obtain ⟨_, _, _, setting, ids, heap, rootId, _, _, assembled, _⟩ := follows.of_ok begins
      exact ⟨setting, _, _, ids, heap, rootId, assembled⟩
  | native first begins =>
      have run := run_compileTarget holds known document rootName slice .wasm32
      obtain ⟨_, _, _, _, _, _, middleHolds, _, middleKnown, _⟩ := run.of_ok first
      have follows :=
        follows_assembleTarget middleHolds middleKnown document rootName slice .native
      obtain ⟨_, _, _, setting, ids, heap, rootId, _, _, assembled, _⟩ := follows.of_ok begins
      exact ⟨setting, _, _, ids, heap, rootId, assembled⟩

theorem flaw_of_sliceOf {document : Json} {failure : CompileError}
    (fails : sliceOf document = .error failure) :
    exists flaw, failure = .atPointer "/x-slice" flaw := by
  unfold sliceOf at fails
  split at fails
  · cases fails
  · split at fails
    · cases fails
    · cases fails
      exact ⟨_, rfl⟩
  · cases fails
    exact ⟨_, rfl⟩

theorem arena_of_ofConfig {config : ArenaConfig} {failure : SchemaError}
    (fails : Builder.ofConfig config = .error failure) : exists cause, failure = .arena cause := by
  unfold Builder.ofConfig at fails
  split at fails
  · cases fails
  · cases fails
    exact ⟨_, rfl⟩

/-- A text schema has a flaw, its arena is full, or one of its types is too
large: compiling fails for no other reason.  No type contains itself when the
types of a target are to be laid out. -/
theorem failures_of_compile (document : Json) (options : CompileOptions) :
    (forall target context schema, LayoutBegins document options target context schema ->
      exists root, context.root = some root ∧ schema.BreaksCycles root) ∧
    forall failure, compile document options = .error failure ->
      (exists pointer flaw, failure = .invalid pointer flaw) ∨
      (exists cause, failure = .outOfMemory cause) ∨
      exists name target context schema root,
        failure = .schema (.malformed name .layoutTooLarge) ∧
        LayoutBegins document options target context schema ∧ context.root = some root ∧
        schema.TooLarge target root name := by
  constructor
  · rintro target context schema ⟨slice, builder, state, _, isBuilder, begins, rfl⟩
    obtain ⟨setting, draft, root, ids, heap, rootId, assembled⟩ :=
      exists_assembled (starts_of_ofConfig isBuilder) begins
    refine ⟨rootId, ?_, assembled.breaksCycles⟩
    obtain ⟨_, rfl⟩ := assembled.context
    rfl
  · intro failure fails
    cases failure with
    | invalid pointer flaw => exact .inl ⟨pointer, flaw, rfl⟩
    | outOfMemory cause => exact .inr (.inl ⟨cause, rfl⟩)
    | schema cause =>
        cases isSlice : sliceOf document with
        | error cause =>
            obtain ⟨flaw, rfl⟩ := flaw_of_sliceOf isSlice
            unfold compile at fails
            rw [isSlice] at fails
            cases fails
        | ok slice =>
            cases isBuilder : Builder.ofConfig options.arena with
            | error cause =>
                obtain ⟨shortage, rfl⟩ := arena_of_ofConfig isBuilder
                unfold compile at fails
                simp only [isSlice, isBuilder, bind, Except.bind] at fails
                cases fails
            | ok builder =>
                have ends := ends_compile isSlice isBuilder
                rw [fails] at ends
                obtain ⟨target, context, state, begins, _, setting, ids, heap, rootId, _, rfl, _,
                  assembled, stops⟩ := ends
                obtain ⟨name, rfl, large⟩ := assembled.tooLarge stops
                refine .inr (.inr ⟨name, setting.target, context, _, rootId, rfl,
                  ⟨slice, builder, state, isSlice, isBuilder, begins, rfl⟩, ?_, large⟩)
                obtain ⟨_, rfl⟩ := assembled.context
                rfl

/-- Where there is room for what the draft accounts for, the types of the first
target come to be laid out. -/
theorem exists_layoutBegins {document : Json} {options : CompileOptions} {slice : Option String}
    {builder : Builder} (isSlice : sliceOf document = .ok slice)
    (isBuilder : Builder.ofConfig options.arena = .ok builder) {drafted : Drafted Ref}
    (drafts : draftTarget document options.rootName slice Draft.empty = .ok drafted)
    (room : drafted.cost ≤ builder.arena.spare) :
    exists context schema, LayoutBegins document options .wasm32 context schema := by
  have starts := starts_of_ofConfig isBuilder
  let start : State := ⟨builder, [], [], []⟩
  have holds : Heap.empty.Holds start.builder.arena := starts.holds
  have known : Known Heap.empty start.builder.instances := starts.known
  have follows := follows_assembleTarget holds known document options.rootName slice .wasm32
  cases begins : assembleTarget document options.rootName slice .wasm32 start with
  | ok context state =>
      exact ⟨context, _, slice, builder, state, isSlice, isBuilder, .wasm begins, rfl⟩
  | error failure state =>
      have agrees := follows.of_error begins
      cases failure with
      | outOfMemory cause =>
          have short : builder.arena.spare < drafted.cost := agrees drafted drafts
          omega
      | invalid pointer flaw => cases drafts.symm.trans agrees
      | schema cause => exact agrees.elim

/-- Lists, which may contain another list. -/
def listSchema : Json :=
  .object [("$ref", .string "#/$defs/List"), ("$defs", .object [("List", .object
    [("type", .string "object"),
      ("properties", .object [("next", .object [("$ref", .string "#/$defs/List")])])])])]

/-- The types of lists come to be laid out, and a slice that is no text is a
flaw. -/
theorem failures_of_compile_list :
    (exists context schema root, LayoutBegins listSchema {} .wasm32 context schema ∧
      context.root = some root ∧ schema.BreaksCycles root) ∧
    exists failure, compile (.object [("x-slice", .null)]) {} = .error failure ∧
      ((exists pointer flaw, failure = .invalid pointer flaw) ∨
        (exists cause, failure = .outOfMemory cause) ∨
        exists name target context schema root,
          failure = .schema (.malformed name .layoutTooLarge) ∧
          LayoutBegins (.object [("x-slice", .null)]) {} target context schema ∧
          context.root = some root ∧ schema.TooLarge target root name) := by
  constructor
  · obtain ⟨builder, isBuilder, spare⟩ : exists builder,
        Builder.ofConfig {} = .ok builder ∧ builder.arena.spare = 65535 := ⟨_, rfl, rfl⟩
    have cheap : (draftTarget listSchema "Root" none Draft.empty).toOption.any
        (fun drafted => decide (drafted.cost ≤ 65535)) = true := by decide +kernel
    cases drafts : draftTarget listSchema "Root" none Draft.empty with
    | error failure =>
        rw [drafts] at cheap
        cases cheap
    | ok drafted =>
        rw [drafts] at cheap
        have room : drafted.cost ≤ builder.arena.spare := spare ▸ of_decide_eq_true cheap
        obtain ⟨context, schema, begins⟩ :=
          @exists_layoutBegins listSchema {} none builder rfl isBuilder drafted drafts room
        obtain ⟨root, isRoot, breaks⟩ :=
          (failures_of_compile listSchema {}).1 .wasm32 context schema begins
        exact ⟨context, schema, root, begins, isRoot, breaks⟩
  · exact ⟨_, rfl, (failures_of_compile _ {}).2 _ rfl⟩

end TextSchema
end PackedJson
