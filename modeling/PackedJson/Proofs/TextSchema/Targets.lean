import PackedJson.Proofs.TextSchema.Lines

namespace PackedJson
namespace TextSchema

open Heap Builder Layout

/-!
How compiling a text schema ends.

Both targets have the same draft.  Compiling ends well with types that embody
it for each of the targets, or it fails: with the flaw that drafting finds,
because the arena has less room than twice what the draft accounts for, or
because the types of a target cannot be laid out.
-/

/-- A failure of operations on types, as the compiler reports it. -/
theorem run_buildOf {Result : Type} {step : BuildM Result} {state : State}
    {good : Result -> Builder -> Prop} {bad : SchemaError -> Prop}
    (run : Run step state.builder good fun failure _ => bad failure) :
    Run (build step) state
      (fun result after => exists builder, good result builder ∧
        after = { state with builder := builder })
      (fun failure _ => exists cause, bad cause ∧ failure = .ofSchema cause) := by
  obtain ⟨builder, names, definitions, inProgress⟩ := state
  unfold Run at run
  unfold Run build
  cases ends : step builder with
  | ok result after =>
      simp only [ends] at run ⊢
      exact ⟨after, run, rfl⟩
  | error failure after =>
      simp only [ends] at run ⊢
      exact ⟨failure, run, rfl⟩

/-! ### One target -/

section Targets

variable {document : Json} {rootName : String} {slice : Option String} {target : Target}

/-- The types of a target have been assembled from a draft, and its plan has a
cause for which their layout stops. -/
def StopsTarget (document : Json) (rootName : String) (slice : Option String) (target : Target)
    (context : Context) (state : State) (cause : SchemaError) : Prop :=
  exists drafted setting ids heap rootId,
    draftTarget document rootName slice Draft.empty = .ok drafted ∧ setting.target = target ∧
    (exists arena, setting.old.Holds arena) ∧
    Assembled setting drafted.draft drafted.result ids heap state rootId context ∧
    (targetPlan setting ids heap state rootId).Stops cause

/-- Compiling a target ends well with the types of its draft, which are behind
those that were there.  It fails as the draft does, or because the types
cannot be laid out. -/
theorem run_compileTarget {old : Heap} {start : State} (holds : old.Holds start.builder.arena)
    (known : Known old start.builder.instances) (document : Json) (rootName : String)
    (slice : Option String) (target : Target) :
    Run (compileTarget document rootName slice target) start
      (fun context after => exists drafted heap site settled,
        draftTarget document rootName slice Draft.empty = .ok drafted ∧
        start.builder.arena.spare ≤ after.builder.arena.spare + drafted.cost ∧
        heap.Holds after.builder.arena ∧ old.Extends heap ∧ Known heap after.builder.instances ∧
        Embodies drafted.draft drafted.result heap target context site settled ∧
        HasText heap context.slice (slice.getD ""))
      (fun failure _ => Agrees (draftTarget document rootName slice Draft.empty)
          start.builder.arena.spare failure ∨
        exists context middle cause,
          assembleTarget document rootName slice target start = .ok context middle ∧
          StopsTarget document rootName slice target context middle cause ∧
          failure = .schema cause) := by
  rw [compileTarget_eq]
  have assembles := (follows_assembleTarget holds known document rootName slice target).remember
  refine Run.andThen assembles ?_ (fun _ _ fails => .inl fails.1)
  rintro context middle ⟨⟨drafted, ends, room, setting, ids, heap, rootId, rfl, rfl, assembled,
    hasText⟩, begins⟩
  refine Run.andThen (run_buildOf (assembled.arranges holds)) ?_ ?_
  · rintro _ _ ⟨after, ⟨later, settled, held, kept, isKnown, more, embodies, stays⟩, rfl⟩
    exact run_pure.mpr ⟨drafted, later, _, settled, ends,
      Nat.le_trans room (Nat.add_le_add_right more _), held, kept, isKnown, embodies,
      stays _ _ hasText⟩
  · rintro _ _ ⟨cause, stops, rfl⟩
    refine .inr ⟨context, middle, cause, begins,
      ⟨drafted, setting, ids, heap, rootId, ends, rfl, ⟨_, holds⟩, assembled, stops⟩, ?_⟩
    cases cause with
    | arena cause => exact stops.elim
    | _ => rfl

/-! ### Both targets -/

/-- The types of a target have been assembled, and are to be laid out.  For the
second target, the first one has been compiled by then. -/
inductive Begins (document : Json) (rootName : String) (slice : Option String)
    (builder : Builder) : Target -> Context -> State -> Prop where
  | wasm {context : Context} {state : State} :
      assembleTarget document rootName slice .wasm32 ⟨builder, [], [], []⟩ = .ok context state ->
      Begins document rootName slice builder .wasm32 context state
  | native {first context : Context} {middle state : State} :
      compileTarget document rootName slice .wasm32 ⟨builder, [], [], []⟩ = .ok first middle ->
      assembleTarget document rootName slice .native middle = .ok context state ->
      Begins document rootName slice builder .native context state

/-- The types of both targets embody one draft, and both have one slice. -/
def Bodies (draft : Draft) (root : Ref) (slice : String) (contexts : Target -> Context)
    (arena : Arena) : Prop :=
  exists heap, heap.Holds arena ∧ forall target,
    HasText heap (contexts target).slice slice ∧ exists site settled,
      Embodies draft root heap target (contexts target) site settled

/-- A compilation fails as its draft does, for want of twice the room that the
draft accounts for, or because the types of a target cannot be laid out. -/
def FailsAs (document : Json) (rootName : String) (slice : Option String) (builder : Builder) :
    CompileError -> Prop
  | .invalid pointer flaw =>
      draftTarget document rootName slice Draft.empty = .error (.invalid pointer flaw)
  | .outOfMemory _ => forall drafted,
      draftTarget document rootName slice Draft.empty = .ok drafted ->
        builder.arena.spare < 2 * drafted.cost
  | .schema cause => exists target context state,
      Begins document rootName slice builder target context state ∧
        StopsTarget document rootName slice target context state cause

/-- The contexts of both targets. -/
def contextsOf (contexts : Context × Context) : Target -> Context
  | .wasm32 => contexts.1
  | .native => contexts.2

theorem run_compileTargets {builder : Builder} (starts : Starts builder) (document : Json)
    (rootName : String) (slice : Option String) :
    Run (compileTargets document rootName slice) ⟨builder, [], [], []⟩
      (fun contexts after => exists drafted,
        draftTarget document rootName slice Draft.empty = .ok drafted ∧
        Bodies drafted.draft drafted.result (slice.getD "") (contextsOf contexts)
          after.builder.arena)
      (fun failure _ => FailsAs document rootName slice builder failure) := by
  obtain ⟨holds, known⟩ := starts
  have first : Run (compileTarget document rootName slice .wasm32) ⟨builder, [], [], []⟩ _ _ :=
    (run_compileTarget holds known document rootName slice .wasm32).remember
  refine Run.andThen first ?_ ?_
  · rintro wasm middle ⟨⟨drafted, wasmHeap, wasmSite, wasmSettled, ends, room, wasmHolds, _,
      wasmKnown, wasmEmbodies, wasmText⟩, begins⟩
    refine Run.andThen (run_compileTarget wasmHolds wasmKnown document rootName slice .native) ?_ ?_
    · rintro native after ⟨_, heap, site, settled, again, _, held, kept, _, embodies, hasText⟩
      cases ends.symm.trans again
      refine run_pure.mpr ⟨drafted, ends, heap, held, fun target => ?_⟩
      cases target with
      | wasm32 => exact ⟨kept.hasText wasmText, wasmSite, wasmSettled, wasmEmbodies.extends kept⟩
      | native => exact ⟨hasText, site, settled, embodies⟩
    · rintro failure _ (agrees | ⟨context, last, cause, more, stops, rfl⟩)
      · cases failure with
        | invalid pointer flaw => exact agrees
        | outOfMemory cause =>
            intro found isFound
            cases ends.symm.trans isFound
            have short := agrees drafted ends
            change builder.arena.spare ≤ _ at room
            change middle.builder.arena.spare < _ at short
            omega
        | schema cause => exact agrees.elim
      · exact ⟨.native, context, last, .native begins more, stops⟩
  · rintro failure _ ⟨agrees | ⟨context, last, cause, begins, stops, rfl⟩, _⟩
    · cases failure with
      | invalid pointer flaw => exact agrees
      | outOfMemory cause =>
          intro drafted ends
          have short : builder.arena.spare < drafted.cost := agrees drafted ends
          omega
      | schema cause => exact agrees.elim
    · exact ⟨.wasm32, context, last, .wasm begins, stops⟩

end Targets

/-! ### Containers -/

theorem Bodies.complete {draft : Draft} {root : Ref} {slice : String} {contexts : Target -> Context}
    {arena : Arena} (bodies : Bodies draft root slice contexts arena) : draft.Complete root := by
  obtain ⟨_, _, embodied⟩ := bodies
  obtain ⟨_, _, _, embodies⟩ := embodied .wasm32
  exact embodies.complete

/-- One list of references tells what is listed for all containers with the types
of a draft. -/
theorem Bodies.exists_rosters {draft : Draft} {root : Ref} {slice : String} {container : Container}
    (bodies : Bodies draft root slice container.context container.arena) : exists refs,
      forall {other : Container}, Bodies draft root slice other.context other.arena ->
        exists heap, Rosters draft root slice refs heap other := by
  obtain ⟨_, holds, embodied⟩ := bodies
  obtain ⟨_, _, _, first⟩ := embodied .wasm32
  obtain ⟨refs, rosters⟩ := first.exists_rosters holds
  refine ⟨refs, fun {other} ⟨heap, otherHolds, otherEmbodied⟩ => ⟨heap, otherHolds,
    fun target => (otherEmbodied target).1, fun target => ?_⟩⟩
  obtain ⟨_, site, settled, embodies⟩ := otherEmbodied target
  exact ⟨site, settled, rosters embodies otherHolds⟩

/-- What embodies a draft can be listed. -/
theorem Bodies.exists_schemaHash {draft : Draft} {root : Ref} {slice : String}
    {container : Container} (bodies : Bodies draft root slice container.context container.arena) :
    exists hash, Listing.schemaHash container = .ok hash := by
  choose sizesFor exact using bodies.complete.exists_exact
  obtain ⟨refs, rostersOf⟩ := bodies.exists_rosters
  obtain ⟨heap, rosters⟩ := rostersOf bodies
  unfold Listing.schemaHash
  rw [rosters.layout_eq exact]
  exact ⟨_, rfl⟩

/-- How a compilation ends: well, with types that embody a draft, or badly. -/
def Ends (document : Json) (rootName : String) (slice : Option String) (builder : Builder) :
    Except CompileError Container -> Prop
  | .ok container => exists drafted,
      draftTarget document rootName slice Draft.empty = .ok drafted ∧
      Bodies drafted.draft drafted.result (slice.getD "") container.context container.arena
  | .error failure => FailsAs document rootName slice builder failure

/-- A compilation ends as its draft says. -/
theorem ends_compile {document : Json} {options : CompileOptions} {slice : Option String}
    {builder : Builder} (isSlice : sliceOf document = .ok slice)
    (isBuilder : Builder.ofConfig options.arena = .ok builder) :
    Ends document options.rootName slice builder (compile document options) := by
  have run := run_compileTargets (starts_of_ofConfig isBuilder) document options.rootName slice
  unfold compile
  simp only [isSlice, isBuilder, bind, Except.bind]
  cases ends : compileTargets document options.rootName slice ⟨builder, [], [], []⟩ with
  | error failure after => exact run.of_error ends
  | ok contexts after =>
      obtain ⟨drafted, drafts, bodies⟩ := run.of_ok ends
      obtain ⟨wasm, native⟩ := contexts
      have sameContexts (hash : UInt32) :
          (⟨hash, wasm, native, after.builder.arena⟩ : Container).context =
            contextsOf (wasm, native) := by
        funext target
        cases target <;> rfl
      have embodied (hash : UInt32) : Bodies drafted.draft drafted.result (slice.getD "")
          (⟨hash, wasm, native, after.builder.arena⟩ : Container).context after.builder.arena :=
        sameContexts hash ▸ bodies
      obtain ⟨hash, isHash⟩ := Bodies.exists_schemaHash (embodied 0)
      simp only [isHash]
      exact ⟨drafted, drafts, embodied hash⟩

/-- What is compiled embodies the draft of its text schema. -/
theorem bodies_of_compile {document : Json} {options : CompileOptions} {container : Container}
    (accepted : compile document options = .ok container) : exists slice drafted,
      sliceOf document = .ok slice ∧
      draftTarget document options.rootName slice Draft.empty = .ok drafted ∧
      Bodies drafted.draft drafted.result (slice.getD "") container.context container.arena := by
  obtain ⟨slice, builder, _, steps⟩ := exists_steps accepted
  have ends := ends_compile steps.isSlice steps.isBuilder
  rw [accepted] at ends
  obtain ⟨drafted, drafts, bodies⟩ := ends
  exact ⟨slice, drafted, steps.isSlice, drafts, bodies⟩

end TextSchema
end PackedJson
