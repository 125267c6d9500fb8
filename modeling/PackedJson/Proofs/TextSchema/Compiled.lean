import PackedJson.Proofs.Schema.Arranging
import PackedJson.Proofs.TextSchema.Compiling

namespace PackedJson
namespace TextSchema

open Heap Builder

/-!
What a compiled text schema provides.

For each target there are types that serve the terms of the text schema, and
those that can be reached from the root are laid out.  The types of the second
target are added behind those of the first one, which stay as they are.
-/

/-- The types of one target: they serve the terms that they are promised for,
and those that are settled are laid out. -/
structure Serving (heap : Heap) (target : Target) (context : Context) (document : Json)
    (promises : Promises) (settled : TypeId -> Prop) : Prop where
  serves : forall id term, promises id term -> exists role kind, HasRole document term role ∧
    Serves promises role kind ∧ IsKind heap target context id kind
  layout : IsLayout heap target settled
  scalars : AreScalars heap target context
  distinct : forall first second, context.builtin first = context.builtin second -> first = second
  stored : forall builtin, exists type, HasType heap (context.builtin builtin) type ∧
    type.isBuiltin = true
  text : Declares heap (context.builtin .string) (Kind.text.declaration context)
  root : exists root, context.root = some root ∧ promises root ⟨document, false, false⟩ ∧
    settled root

section Extension

variable {heap larger : Heap} {target : Target}

theorem IsLayout.extends {settled : TypeId -> Prop} (layout : IsLayout heap target settled)
    (kept : heap.Extends larger) : IsLayout larger target settled := by
  refine ⟨fun id isSettled => ?_, fun id isSettled => ?_⟩
  · obtain ⟨type, fields, slots, align, stored, hasFields, arranged⟩ := layout.laidOut id isSettled
    refine ⟨type, fields, slots, align, kept.hasType stored, kept.hasFields hasFields,
      { arranged with takes := arranged.takes.imp fun _ _ takes => ?_ }⟩
    obtain ⟨inner, innerType, isType, innerStored, rest⟩ := takes
    exact ⟨inner, innerType, isType, kept.hasType innerStored, rest⟩
  · obtain ⟨declaration, declares, closed⟩ := layout.declared id isSettled
    exact ⟨declaration, kept.grows.declares declares, closed⟩

/-- The types of a target stay as they are when cells are added. -/
theorem Serving.extends {context : Context} {document : Json} {promises : Promises}
    {settled : TypeId -> Prop}
    (serving : Serving heap target context document promises settled)
    (kept : heap.Extends larger) :
    Serving larger target context document promises settled := by
  refine ⟨fun id term promised => ?_, IsLayout.extends serving.layout kept,
    fun builtin size member => (serving.scalars builtin size member).extends kept,
    serving.distinct, fun builtin => ?_, kept.grows.declares serving.text, serving.root⟩
  · obtain ⟨role, kind, hasRole, serves, is⟩ := serving.serves id term promised
    exact ⟨role, kind, hasRole, serves, is.grows kept.grows⟩
  · obtain ⟨type, stored, isBuiltin⟩ := serving.stored builtin
    exact ⟨type, kept.hasType stored, isBuiltin⟩

end Extension

/-! ### The types of one target -/

section Targets

variable {setting : Setting} {heap : Heap} {promises : Promises} {state : State}

/-- An array that is a part of a map. -/
def IsPart (setting : Setting) (heap : Heap) (promises : Promises) (id : TypeId) : Prop :=
  setting.old id.offset.toNat = none ∧ exists element,
    Declares heap id ((Kind.array element).declaration setting.context) ∧
      (element = setting.context.builtin .hash ∨ element = setting.context.builtin .string ∨
        exists term, promises element term)

/-- The types that promised types are made of. -/
inductive IsUsed (setting : Setting) (heap : Heap) (promises : Promises) : TypeId -> Prop where
  | promised {id : TypeId} {term : Term} : promises id term -> IsUsed setting heap promises id
  | scalar {builtin : Builtin} : builtin ∈ scalarBuiltins ->
      IsUsed setting heap promises (setting.context.builtin builtin)
  | string : IsUsed setting heap promises (setting.context.builtin .string)
  | part {id : TypeId} : IsPart setting heap promises id -> IsUsed setting heap promises id

/-- The types of a target are to be laid out. -/
def planOf (setting : Setting) (heap : Heap) (promises : Promises) : Layout.Plan :=
  ⟨setting.old, heap, setting.target, IsUsed setting heap promises⟩

theorem sound_array {element : TypeId} {builtin : Bool}
    (isUsed : IsUsed setting heap promises element) :
    (planOf setting heap promises).Sound ⟨.array, some (setting.context.builtin .array),
      some element, builtin, false, setting.context.arrayMembers⟩ := by
  refine ⟨rfl, ?_, ?_, ?_, nofun⟩
  · exact List.forall_mem_cons.mpr ⟨⟨_, rfl, .scalar (by decide)⟩, List.forall_mem_cons.mpr
      ⟨⟨_, rfl, .scalar (by decide)⟩, List.forall_mem_singleton.mpr ⟨_, rfl, .scalar (by decide)⟩⟩⟩
  · rintro _ ⟨rfl⟩
    exact isUsed
  · rintro _ _ (impossible | impossible) <;> cases impossible

theorem forall_right {First Second : Type} {relation : First -> Second -> Prop}
    {good : Second -> Prop} {firsts : List First} {seconds : List Second}
    (related : List.Forall₂ relation firsts seconds)
    (onEach : forall first second, relation first second -> good second) :
    forall second, second ∈ seconds -> good second := by
  induction related with
  | nil => nofun
  | cons isRelated _ ih => exact List.forall_mem_cons.mpr ⟨onEach _ _ isRelated, ih⟩

/-- Types of a kind that serves a role consist of types that are used. -/
theorem sound_of_serves {role : Role} {kind : Kind} {id : TypeId}
    (serves : Serves promises role kind)
    (is : IsKind heap setting.target setting.context id kind) (parts : kind.IsNew setting.old) :
    (planOf setting heap promises).Sound (kind.declaration setting.context) := by
  have scalar {builtin : Builtin} (isScalar : builtin ∈ scalarBuiltins) :
      (planOf setting heap promises).types (setting.context.builtin builtin) := .scalar isScalar
  cases serves with
  | integer => exact ⟨rfl, nofun, nofun, nofun, nofun⟩
  | number => exact ⟨rfl, nofun, nofun, nofun, nofun⟩
  | boolean => exact ⟨rfl, nofun, nofun, nofun, nofun⟩
  | null => exact ⟨rfl, nofun, nofun, nofun, nofun⟩
  | string => exact sound_array (.scalar (by decide))
  | array promised => exact sound_array (.promised promised)
  | map promised =>
      obtain ⟨keysNew, valuesNew, stringsNew⟩ := parts
      obtain ⟨keysAre, valuesAre, stringsAre⟩ := is.details
      refine ⟨rfl, ?_, ?_, ?_, nofun⟩
      · refine List.forall_mem_cons.mpr ⟨⟨_, rfl, .part ⟨keysNew, _, keysAre, Or.inl rfl⟩⟩,
          List.forall_mem_cons.mpr ⟨⟨_, rfl, .part ⟨valuesNew, _, valuesAre,
            Or.inr (Or.inr ⟨_, promised⟩)⟩⟩, List.forall_mem_singleton.mpr ⟨_, rfl,
            .part ⟨stringsNew, _, stringsAre, Or.inr (Or.inl rfl)⟩⟩⟩⟩
      · rintro _ ⟨rfl⟩
        exact .promised promised
      · rintro _ _ (impossible | impossible) <;> cases impossible
  | @option term inner promised =>
      refine ⟨rfl, ?_, ?_, ?_, fun _ => Nat.le_succ 2⟩
      · exact List.forall_mem_cons.mpr ⟨⟨_, rfl, scalar (by decide)⟩, List.forall_mem_cons.mpr
          ⟨⟨_, rfl, scalar (by decide)⟩, List.forall_mem_singleton.mpr ⟨_, rfl, .promised promised⟩⟩⟩
      · rintro _ ⟨rfl⟩
        exact .promised promised
      · rintro _ ⟨rfl⟩ _
        exact ⟨_, List.mem_cons_of_mem _ (List.mem_cons_of_mem _ List.mem_cons_self), rfl⟩
  | @result term inner promised =>
      refine ⟨rfl, ?_, ?_, ?_, fun _ => Nat.le_succ 2⟩
      · exact List.forall_mem_cons.mpr ⟨⟨_, rfl, scalar (by decide)⟩, List.forall_mem_cons.mpr
          ⟨⟨_, rfl, .promised promised⟩, List.forall_mem_singleton.mpr ⟨_, rfl, .string⟩⟩⟩
      · rintro _ ⟨rfl⟩
        exact .promised promised
      · rintro _ ⟨rfl⟩ _
        exact ⟨_, List.mem_cons_of_mem _ List.mem_cons_self, rfl⟩
  | struct served =>
      refine ⟨rfl, forall_right served fun _ _ ⟨_, _, type, isType, promised⟩ => ?_, nofun, nofun,
        nofun⟩
      exact ⟨type, isType, .promised promised⟩
  | @variant alternatives members served =>
      have typed := forall_right served fun _ member ⟨type, isType, promised⟩ =>
        (⟨type, isType, .promised promised⟩ :
          exists type, member.type = some type ∧ (planOf setting heap promises).types type)
      obtain ⟨nonempty, _, _⟩ := is.details
      have positive := List.length_pos_iff.mpr nonempty
      exact ⟨rfl, List.forall_mem_cons.mpr ⟨⟨_, rfl, scalar (by decide)⟩, typed⟩, nofun, nofun,
        fun _ => Nat.succ_le_succ positive⟩

theorem isSize_of_mem {target : Target} {builtin : Builtin} {size : Nat}
    (member : (builtin, size) ∈ scalarSizes target) : size = 0 ∨ IsAlign size := by
  have width := IsAlign.pointerWidth target
  simp only [scalarSizes, List.mem_cons, Prod.mk.injEq, List.not_mem_nil, or_false] at member
  rcases member with h | h | h | h | h | h | h | h | h <;> obtain ⟨-, rfl⟩ := h
  · exact Or.inr ⟨3, by decide, rfl⟩
  · exact Or.inr ⟨3, by decide, rfl⟩
  · exact Or.inr .one
  · exact Or.inr .one
  · exact Or.inr width
  · exact Or.inr width
  · exact Or.inr ⟨2, by decide, rfl⟩
  · exact Or.inr .one
  · exact Or.inl rfl

/-- The types that are used can be laid out. -/
theorem Building.closed (building : Building setting [] heap promises state) {arena : Arena}
    (holds : setting.old.Holds arena) : (planOf setting heap promises).Closed := by
  have founded := building.founded
  have isScalar {builtin : Builtin} (isScalar : builtin ∈ scalarBuiltins) :
      exists size, (builtin, size) ∈ scalarSizes setting.target ∧
        IsScalar heap (setting.context.builtin builtin) builtin.name size := by
    rw [← map_fst_scalarSizes setting.target] at isScalar
    obtain ⟨⟨found, size⟩, member, rfl⟩ := List.mem_map.mp isScalar
    exact ⟨size, member, founded.basics.scalars found size member⟩
  refine ⟨?_, ?_, ?_, fun position owner records => holds.owned position owner records⟩
  · intro id isUsed
    cases isUsed with
    | promised promised =>
        obtain ⟨role, kind, _, serves, is, parts⟩ := building.kept id _ promised nofun
        exact ⟨_, is.declares, sound_of_serves serves is parts⟩
    | scalar member =>
        obtain ⟨size, _, scalar⟩ := isScalar member
        exact ⟨_, scalar.declares, rfl, nofun, nofun, nofun, nofun⟩
    | string => exact ⟨_, founded.basics.string, sound_array (.scalar (by decide))⟩
    | part isPart =>
        obtain ⟨_, element, declares, isHash | isString | ⟨term, promised⟩⟩ := isPart
        · exact ⟨_, declares, sound_array (isHash ▸ .scalar (by decide))⟩
        · exact ⟨_, declares, sound_array (isString ▸ .string)⟩
        · exact ⟨_, declares, sound_array (.promised promised)⟩
  · intro id declaration isUsed declares isBuiltin noMembers
    cases isUsed with
    | promised promised =>
        obtain ⟨role, kind, _, serves, is, _⟩ := building.kept id _ promised nofun
        cases declares_inj is.declares declares
        cases kind with
        | scalar builtin =>
            obtain ⟨_, size, member, name, stored, _⟩ := is.details
            exact ⟨name, size, isSize_of_mem member, stored⟩
        | text => cases noMembers
        | _ => cases isBuiltin
    | scalar member =>
        obtain ⟨size, inSizes, name, stored, _⟩ := isScalar member
        exact ⟨name, size, isSize_of_mem inSizes, stored⟩
    | string =>
        cases declares_inj founded.basics.string declares
        cases noMembers
    | part isPart =>
        obtain ⟨_, element, isArray, _⟩ := isPart
        cases declares_inj isArray declares
        cases noMembers
  · intro id isUsed
    cases isUsed with
    | promised promised => exact building.new id _ promised
    | scalar => exact founded.made.new _ (Builtin.mem_all _)
    | string => exact founded.made.new _ (Builtin.mem_all _)
    | part isPart => exact isPart.1

/-- A failure that compiling a text schema may end with. -/
def CompileError.IsAllowed : CompileError -> Prop
  | .schema cause => cause.StopsLayout
  | _ => True

theorem CompileError.IsExpected.isAllowed {failure : CompileError}
    (expected : CompileError.IsExpected failure) : CompileError.IsAllowed failure := by
  cases failure with
  | schema => exact expected.elim
  | _ => trivial

/-- A compilation ends well, or fails as it may. -/
def Finishes {Result : Type} (step : CompileM Result) (state : State)
    (good : Result -> State -> Prop) : Prop :=
  Run step state good fun failure _ => CompileError.IsAllowed failure

theorem Compiles.finishes {Result : Type} {step : CompileM Result}
    {good : Result -> State -> Prop} (compiles : Compiles step state good) :
    Finishes step state good :=
  Run.imp compiles (fun _ _ => id) fun _ _ => CompileError.IsExpected.isAllowed

theorem Finishes.andThen {Result Next : Type} {first : CompileM Result}
    {second : Result -> CompileM Next} {good : Result -> State -> Prop}
    {nextGood : Next -> State -> Prop} (finishes : Finishes first state good)
    (continued : forall result after, good result after ->
      Finishes (second result) after nextGood) : Finishes (first >>= second) state nextGood :=
  Run.andThen finishes continued fun _ _ => id

theorem finishes_build {Result : Type} {step : BuildM Result}
    {good : Result -> Builder -> Prop}
    (run : Run step state.builder good fun failure _ => failure.StopsLayout) :
    Finishes (build step) state fun result after => exists builder, good result builder ∧
      after = { state with builder := builder } := by
  obtain ⟨builder, names, definitions, inProgress⟩ := state
  unfold Run at run
  unfold Finishes Run build
  cases ends : step builder with
  | ok result after =>
      simp only [ends] at run ⊢
      exact ⟨after, run, rfl⟩
  | error failure after =>
      simp only [ends] at run ⊢
      cases failure with
      | arena cause => trivial
      | _ => exact run

theorem builds_storeSlice {builder : Builder} (holds : heap.Holds builder.arena)
    (slice : Option String) :
    Builds (storeSlice slice) builder (textCost (slice.getD "")) fun stored after =>
      exists larger, Added heap builder larger after ∧ HasText larger stored (slice.getD "") := by
  cases slice with
  | none => exact Builds.pure ⟨heap, Added.refl holds, hasText_empty heap⟩
  | some pointer => exact builds_storeText holds pointer

/-- Nothing is promised at the start. -/
theorem Building.start {names : List String} {builder : Builder}
    (tabled : Tabled setting.old [setting.context.textKey] heap builder)
    (founded : Founded setting.old heap builder.instances setting.target setting.context) :
    Building setting [] heap (fun _ _ => False) ⟨builder, names, [], []⟩ :=
  ⟨tabled, founded, nofun, nofun, nofun, nofun, nofun, nofun, List.nodup_nil⟩

/-- What types are depends only on the builtins of a context. -/
theorem IsKind.completed {target : Target} {context : Context} {id : TypeId} {kind : Kind}
    (is : IsKind heap target context id kind) {root : Option TypeId} {slice : TextRef} :
    IsKind heap target { context with root := root, slice := slice } id kind := by
  obtain ⟨declares, details⟩ := is
  cases kind <;> exact ⟨declares, details⟩

/-- Laying the types of a target out completes it. -/
theorem Building.arranged (building : Building setting [] heap promises state) {arena : Arena}
    (holds : setting.old.Holds arena) {root : TypeId} {slice : TextRef}
    (promised : promises root ⟨setting.document, false, false⟩) :
    Finishes (build (Layout.arrangeContext
        { setting.context with root := some root, slice := slice } setting.target)) state
      fun _ after => exists later settled, later.Holds after.builder.arena ∧
        setting.old.Extends later ∧ Known later after.builder.instances ∧
        Serving later setting.target { setting.context with root := some root, slice := slice }
          setting.document promises settled := by
  have tabled := building.tabled
  have founded := building.founded
  refine Run.imp (finishes_build (Run.imp (Layout.run_arrangeContext (building.closed holds)
    tabled.holds tabled.since rfl (.promised promised) .string (.scalar (by decide)))
    (fun _ _ => id) fun _ _ stops => stops.stopsLayout)) ?_ (fun _ _ => id)
  rintro _ _ ⟨builder, ⟨later, settled, held, relaid, kept, rests, layout, isSettled, _⟩, rfl⟩
  refine ⟨later, settled, held, kept, ?_, ?_, layout, ?_, fun _ _ => founded.builtin_inj, ?_,
    relaid.declares founded.basics.string, root, rfl, promised, isSettled⟩
  · rw [rests.instances]
    exact tabled.known.relaid relaid
  · intro id term isPromised
    obtain ⟨role, kind, hasRole, serves, is, _⟩ := building.kept id term isPromised nofun
    exact ⟨role, kind, hasRole, serves, IsKind.completed (is.relaid relaid)⟩
  · exact fun builtin size member => (founded.basics.scalars builtin size member).relaid relaid
  · intro builtin
    obtain ⟨type, stored, isBuiltin⟩ := founded.made.stored builtin builtin.mem_all
    obtain ⟨laterType, laterStored, same | resizes⟩ := relaid.hasType stored
    · exact ⟨type, same ▸ laterStored, isBuiltin⟩
    · exact ⟨laterType, laterStored, resizes.builtin.trans isBuiltin⟩

/-- The types of a target are added to those that are there. -/
theorem finishes_target {old : Heap} (holds : old.Holds state.builder.arena)
    (known : Known old state.builder.instances) (document : Json) (rootName : String)
    (slice : Option String) (target : Target) :
    Finishes (compileTarget document rootName slice target) state
      fun context after => exists later promises settled, later.Holds after.builder.arena ∧
        old.Extends later ∧ Known later after.builder.instances ∧
        Serving later target context document promises settled := by
  unfold compileTarget
  refine run_bind.mpr ?_
  change Finishes (do
    let context ← build (Builder.newContext target)
    let root ← compileWithin context document (nestingBound document) document "" rootName none
    let stored ← build (Builder.storeSlice slice)
    build (Layout.arrangeContext { context with root := some root, slice := stored } target)
    return { context with root := some root, slice := stored }) ⟨state.builder, [], [], []⟩ _
  have made : Compiles (build (Builder.newContext target)) ⟨state.builder, [], [], []⟩ _ :=
    compiles_build (builds_newContext target holds known).run
  refine made.finishes.andThen ?_
  rintro context _ ⟨builder, ⟨heap, tabled, founded⟩, rfl⟩
  let setting : Setting := ⟨old, target, context, document⟩
  have building : Building setting [] heap (fun _ _ => False) ⟨builder, [], [], []⟩ :=
    .start tabled founded
  refine (compiles_within setting (nestingBound document) document "" rootName none building
    nofun).finishes.andThen ?_
  rintro root middle ⟨rootHeap, promises, advances, promised⟩
  have built := (builds_storeSlice advances.building.tabled.holds slice).run
  refine (compiles_build built).finishes.andThen ?_
  rintro stored _ ⟨sliced, ⟨larger, added, _⟩, rfl⟩
  have complete := (advances.building.added added).building
  refine (complete.arranged holds promised).andThen ?_
  exact fun _ _ ⟨later, settled, held, kept, known, serving⟩ =>
    ⟨later, promises, settled, held, kept, known, serving⟩

/-- A compiled container: its arena holds the types of both targets. -/
def IsCompiled (document : Json) (container : Container) : Prop :=
  forall target, exists heap promises settled, heap.Holds container.arena ∧
    Serving heap target (container.context target) document promises settled

/-- A builder with an arena of its own, in which nothing is stored yet. -/
structure Starts (builder : Builder) : Prop where
  holds : Heap.empty.Holds builder.arena
  known : Known Heap.empty builder.instances

theorem starts_of_ofConfig {config : ArenaConfig} {builder : Builder}
    (made : Builder.ofConfig config = .ok builder) : Starts builder := by
  unfold Builder.ofConfig at made
  split at made
  next arena isArena =>
    cases made
    have isOwned : arena.isOwned = true := by
      unfold Arena.owned at isArena
      split at isArena
      · cases isArena
      · split at isArena
        · cases isArena
          rfl
        · cases isArena
    exact ⟨Heap.holds_empty isOwned (Arena.owned_writable isArena), known_of_nil rfl⟩
  next => cases made

theorem finishes_targets {builder : Builder} (starts : Starts builder) (document : Json)
    (rootName : String) (slice : Option String) :
    Finishes (compileTargets document rootName slice) ⟨builder, [], [], []⟩
      fun contexts after => forall hash,
        IsCompiled document ⟨hash, contexts.1, contexts.2, after.builder.arena⟩ := by
  obtain ⟨holds, known⟩ := starts
  have first : Finishes (compileTarget document rootName slice .wasm32) ⟨builder, [], [], []⟩ _ :=
    finishes_target holds known document rootName slice .wasm32
  refine first.andThen ?_
  rintro wasm middle ⟨wasmHeap, wasmPromises, wasmSettled, wasmHolds, _, wasmKnown, wasmServing⟩
  refine (finishes_target wasmHolds wasmKnown document rootName slice .native).andThen ?_
  rintro native after ⟨heap, promises, settled, held, kept, _, serving⟩
  intro hash target
  cases target with
  | wasm32 => exact ⟨heap, wasmPromises, wasmSettled, held, wasmServing.extends kept⟩
  | native => exact ⟨heap, promises, settled, held, serving⟩

/-- The steps by which a container is compiled. -/
structure CompileSteps (document : Json) (options : CompileOptions) (container : Container)
    (slice : Option String) (builder : Builder) (after : State) : Prop where
  isSlice : sliceOf document = .ok slice
  isBuilder : Builder.ofConfig options.arena = .ok builder
  ends : compileTargets document options.rootName slice ⟨builder, [], [], []⟩ =
    .ok (container.wasm, container.native) after
  arena : container.arena = after.builder.arena
  hash : Listing.schemaHash container = .ok container.schemaHash

/-- What `compile` accepts was compiled step by step. -/
theorem exists_steps {document : Json} {options : CompileOptions} {container : Container}
    (accepted : compile document options = .ok container) :
    exists slice builder after, CompileSteps document options container slice builder after := by
  unfold compile at accepted
  cases isSlice : sliceOf document with
  | error failure =>
      rw [isSlice] at accepted
      cases accepted
  | ok slice =>
      rw [isSlice] at accepted
      simp only [bind, Except.bind] at accepted
      cases isBuilder : Builder.ofConfig options.arena with
      | error cause =>
          rw [isBuilder] at accepted
          cases accepted
      | ok builder =>
          simp only [isBuilder] at accepted
          cases ends : compileTargets document options.rootName slice ⟨builder, [], [], []⟩ with
          | error failure after =>
              simp only [ends] at accepted
              cases accepted
          | ok contexts after =>
              obtain ⟨wasm, native⟩ := contexts
              simp only [ends] at accepted
              cases isHash : Listing.schemaHash ⟨0, wasm, native, after.builder.arena⟩ with
              | error cause =>
                  simp only [isHash] at accepted
                  cases accepted
              | ok hash =>
                  simp only [isHash] at accepted
                  cases accepted
                  exact ⟨slice, builder, after, isSlice, isBuilder, ends, rfl, isHash⟩

/-- What `compile` accepts is compiled. -/
theorem isCompiled_of_compile {document : Json} {options : CompileOptions} {container : Container}
    (accepted : compile document options = .ok container) : IsCompiled document container := by
  obtain ⟨slice, builder, after, steps⟩ := exists_steps accepted
  have finishes : Finishes (compileTargets document options.rootName slice)
      ⟨builder, [], [], []⟩ _ :=
    finishes_targets (starts_of_ofConfig steps.isBuilder) document options.rootName slice
  have compiled := Run.of_ok finishes steps.ends container.schemaHash
  rw [← steps.arena] at compiled
  exact compiled

end Targets

end TextSchema
end PackedJson
