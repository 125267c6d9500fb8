import PackedJson.Proofs.TextSchema.Realization

namespace PackedJson
namespace TextSchema

open Heap Builder

/-!
The compiler follows drafts.

Each function of the compiler ends as its counterpart on drafts does: with
types that realize the draft, or with the flaw that drafting finds.  Besides,
the arena may refuse; then it has less room than the draft accounts for.
-/

/-- A failure agrees with what drafting ends with: the flaw is the same, and
the arena refuses only for want of the room that is accounted for. -/
def Agrees {Planned : Type} (outcome : Except CompileError (Drafted Planned)) (spare : Nat) :
    CompileError -> Prop
  | .outOfMemory _ => forall drafted, outcome = .ok drafted -> spare < drafted.cost
  | .invalid pointer flaw => outcome = .error (.invalid pointer flaw)
  | .schema _ => False

/-- A computation of the compiler follows one on drafts. -/
def Follows {Result Planned : Type} (step : CompileM Result) (state : State)
    (plan : DraftM Planned) (draft : Draft)
    (good : Result -> State -> Planned -> Draft -> Prop) : Prop :=
  Run step state
    (fun result after => exists drafted, plan draft = .ok drafted ∧
      state.builder.arena.spare ≤ after.builder.arena.spare + drafted.cost ∧
      good result after drafted.result drafted.draft)
    (fun failure _ => Agrees (plan draft) state.builder.arena.spare failure)

section Combinators

variable {Result Planned Next Further : Type} {state : State} {draft : Draft}
  {step : CompileM Result} {plan : DraftM Planned}
  {good weaker : Result -> State -> Planned -> Draft -> Prop}

theorem Follows.andThen {second : Result -> CompileM Next} {rest : Planned -> DraftM Further}
    {nextGood : Next -> State -> Further -> Draft -> Prop}
    (follows : Follows step state plan draft good)
    (continued : forall result after planned next, good result after planned next ->
      Follows (second result) after (rest planned) next nextGood) :
    Follows (step >>= second) state (plan >>= rest) draft nextGood := by
  refine Run.andThen follows ?_ ?_
  · rintro result after ⟨drafted, begins, room, isGood⟩
    refine Run.imp (continued result after _ _ isGood) ?_ ?_
    · rintro nextResult last ⟨further, ends, moreRoom, isNextGood⟩
      exact ⟨_, DraftM.bind_of_ok begins ends, by dsimp only; omega, isNextGood⟩
    · intro failure last agrees
      cases failure with
      | outOfMemory cause =>
          intro all ends
          obtain ⟨before, further, begun, ended, rfl⟩ := DraftM.of_bind_ok ends
          cases begins.symm.trans begun
          have short := agrees further ended
          dsimp only
          omega
      | invalid pointer flaw => exact DraftM.bind_of_next_error begins agrees
      | schema cause => exact agrees
  · intro failure after agrees
    cases failure with
    | outOfMemory cause =>
        intro all ends
        obtain ⟨before, further, begun, ended, rfl⟩ := DraftM.of_bind_ok ends
        exact Nat.lt_of_lt_of_le (agrees before begun) (Nat.le_add_right _ _)
    | invalid pointer flaw => exact DraftM.bind_of_error agrees
    | schema cause => exact agrees

theorem Follows.imp (follows : Follows step state plan draft good)
    (onGood : forall result after planned next, good result after planned next ->
      weaker result after planned next) : Follows step state plan draft weaker :=
  Run.imp follows
    (fun _ _ ⟨drafted, ends, room, isGood⟩ => ⟨drafted, ends, room, onGood _ _ _ _ isGood⟩)
    fun _ _ => id

/-- A computation that ends at once follows one that ends at once. -/
theorem follows_of_ok {result : Result} {after : State} {planned : Planned} {next : Draft}
    {cost : Nat} (ends : step state = .ok result after)
    (drafts : plan draft = .ok ⟨planned, next, cost⟩) (sameBuilder : after.builder = state.builder)
    (isGood : good result after planned next) : Follows step state plan draft good :=
  (run_of_ok ends).mpr ⟨_, drafts, by rw [sameBuilder]; omega, isGood⟩

theorem follows_pure {result : Result} {planned : Planned}
    (isGood : good result state planned draft) :
    Follows (pure result) state (pure planned) draft good :=
  follows_of_ok rfl rfl rfl isGood

theorem follows_reject (pointer : String) (flaw : Flaw) :
    Follows (reject pointer flaw) state (draftReject pointer flaw) draft good :=
  rfl

/-- Operations on types one after another. -/
theorem build_bind (first : BuildM Result) (second : Result -> BuildM Next) :
    build (first >>= second) = build first >>= fun result => build (second result) := by
  funext state
  obtain ⟨builder, names, definitions, inProgress⟩ := state
  simp only [build, bind, EStateM.bind]
  cases first builder <;> rfl

/-- An operation on types follows a plan that accounts for its room. -/
theorem follows_build {operation : BuildM Result} {cost drafted : Nat}
    {made : Result -> Builder -> Prop} (builds : Builds operation state.builder cost made)
    {planned : Planned} {next : Draft} (drafts : plan draft = .ok ⟨planned, next, drafted⟩)
    (atMost : cost ≤ drafted) :
    Follows (build operation) state plan draft fun result after found last =>
      planned = found ∧ next = last ∧
        exists builder, made result builder ∧ after = { state with builder := builder } := by
  obtain ⟨builder, names, definitions, inProgress⟩ := state
  unfold Builds Run at builds
  unfold Follows Run build
  cases ends : operation builder with
  | ok result after =>
      simp only [ends] at builds ⊢
      obtain ⟨isMade, room⟩ := builds
      exact ⟨_, drafts, Nat.le_trans room (Nat.add_le_add_left atMost _), rfl, rfl, after, isMade, rfl⟩
  | error failure after =>
      simp only [ends] at builds ⊢
      obtain ⟨⟨cause, rfl, _⟩, short⟩ := builds
      intro found isFound
      cases drafts.symm.trans isFound
      exact Nat.lt_of_lt_of_le short atMost

/-- An operation on types whose result the draft does not know. -/
theorem follows_room {operation : BuildM Result} {cost : Nat} {made : Result -> Builder -> Prop}
    (builds : Builds operation state.builder cost made) :
    Follows (build operation) state (draftRoom cost) draft fun result after _ last =>
      draft = last ∧ exists builder, made result builder ∧
        after = { state with builder := builder } :=
  (follows_build builds rfl (Nat.le_refl cost)).imp fun _ _ _ _ ends => ends.2

end Combinators

section Nodes

variable {setting : Setting} {draft : Draft} {ids : List TypeId} {heap : Heap} {state : State}

/-- A type was made for a reference. -/
def Makes (setting : Setting) (ids : List TypeId) (heap : Heap) (state : State) (id : TypeId)
    (after : State) (ref : Ref) (next : Draft) : Prop :=
  exists laterIds later, Realizes setting next laterIds later after ∧
    Leads setting ids heap state laterIds later after ∧ ref ≠ .builtin .char ∧
    (siteOf setting laterIds after).Finds ref id

/-- Nodes are compiled as they are drafted. -/
def FollowsNodes (setting : Setting) (compile : NodeCompiler) (drafter : NodeDrafter) : Prop :=
  forall {draft : Draft} {ids : List TypeId} {heap : Heap} {state : State} (node : Json)
    (pointer name : String) (definition : Option String), Realizes setting draft ids heap state ->
    Follows (compile node pointer name definition) state (drafter node pointer name definition)
      draft (Makes setting ids heap state)

theorem Makes.refl (realizes : Realizes setting draft ids heap state) {id : TypeId} {ref : Ref}
    (notText : ref ≠ .builtin .char) (finds : (siteOf setting ids state).Finds ref id) :
    Makes setting ids heap state id state ref draft :=
  ⟨ids, heap, realizes, .refl setting ids heap state, notText, finds⟩

theorem Makes.after {middleIds : List TypeId} {middle : Heap} {between after : State}
    {id : TypeId} {ref : Ref} {next : Draft}
    (makes : Makes setting middleIds middle between id after ref next)
    (leads : Leads setting ids heap state middleIds middle between) :
    Makes setting ids heap state id after ref next := by
  obtain ⟨laterIds, later, realizes, more, notText, finds⟩ := makes
  exact ⟨laterIds, later, realizes, leads.trans more, notText, finds⟩

/-! ### Instances -/

theorem Realizes.ready (realizes : Realizes setting draft ids heap state) {generic : Builtin}
    (isGeneric : generic ∈ genericBuiltins) :
    Ready setting.old heap (genericLevels generic) (setting.context.builtin generic) := by
  simp only [genericBuiltins, List.mem_cons, List.not_mem_nil, or_false] at isGeneric
  rcases isGeneric with rfl | rfl | rfl | rfl
  · exact realizes.founded.basics.ready
  · exact realizes.founded.readyOption
  · exact realizes.founded.readyResult
  · exact realizes.founded.readyMap realizes.tabled

theorem genericLevels_le (generic : Builtin) : genericLevels generic ≤ 3 := by
  cases generic <;> decide

/-- The instance of a generic builtin at a type. -/
theorem follows_instance (realizes : Realizes setting draft ids heap state) {generic : Builtin}
    {argument : TypeId} {ref : Ref} (isGeneric : generic ∈ genericBuiltins)
    (notText : ref ≠ .builtin .char) (finds : (siteOf setting ids state).Finds ref argument) :
    Follows (build (instantiate (setting.context.builtin generic) argument)) state
      (draftInstance generic ref) draft (Makes setting ids heap state) := by
  have builds := builds_instantiate (genericLevels_le generic) realizes.tabled
    (realizes.named finds) (realizes.ready isGeneric)
  refine (follows_build builds rfl (Nat.le_refl _)).imp ?_
  rintro id _ _ _ ⟨rfl, rfl, builder, ⟨larger, made, binds⟩, rfl⟩
  obtain ⟨realized, leads⟩ := realizes.instantiated made
  have found := binds.of_isGeneric (realized.founded.isGeneric isGeneric)
  have argumentFinds := finds.mono leads.includes
  exact ⟨ids, larger, realized, leads, nofun, ⟨isGeneric, notText, argumentFinds.1⟩,
    Option.bind_eq_some_iff.mpr ⟨argument, argumentFinds.2, found⟩⟩

/-- The type of a part is wrapped as it is drafted. -/
theorem follows_wrapFieldType (realizes : Realizes setting draft ids heap state) {id : TypeId}
    {ref : Ref} (notText : ref ≠ .builtin .char) (finds : (siteOf setting ids state).Finds ref id)
    (flags : FieldFlags) :
    Follows (build (wrapFieldType setting.context id flags)) state (draftWrapped ref flags) draft
      (Makes setting ids heap state) := by
  have outer (found : TypeId) (after : State) (planned : Ref) (next : Draft)
      (makes : Makes setting ids heap state found after planned next) :
      Follows (build (if flags.contains FieldFlags.required then pure found else
        optionOf setting.context found)) after
        (if flags.contains FieldFlags.required then pure planned else
          draftInstance .option planned) next (Makes setting ids heap state) := by
    split
    · exact follows_pure makes
    · obtain ⟨laterIds, later, realized, leads, notText, finds⟩ := makes
      exact (follows_instance realized (by decide) notText finds).imp
        fun _ _ _ _ makes => makes.after leads
  unfold wrapFieldType draftWrapped
  cases flags.contains FieldFlags.canFail with
  | false =>
      have inner : Follows (build (pure id)) state (pure ref) draft
          (Makes setting ids heap state) :=
        follows_pure (.refl realizes notText finds)
      exact (build_bind _ _).symm ▸ inner.andThen outer
  | true =>
      have isGeneric : Builtin.result ∈ genericBuiltins := by decide
      have inner := follows_instance realizes isGeneric notText finds
      exact (build_bind _ _).symm ▸ inner.andThen outer

/-! ### Parts -/

/-- A field was made for a part. -/
def MakesPart (setting : Setting) (ids : List TypeId) (heap : Heap) (state : State) (order : Nat)
    (answer : FieldDef × List String) (after : State) (planned : Part × List String)
    (next : Draft) : Prop :=
  answer.2 = planned.2 ∧ exists laterIds later member, Realizes setting next laterIds later after ∧
    Leads setting ids heap state laterIds later after ∧
    (siteOf setting laterIds after).FindsPart planned.1 member ∧
    answer.1.Is later member order ∧ answer.1.Storable

/-- Fields were made for parts. -/
structure MadeParts (setting : Setting) (ids : List TypeId) (heap : Heap) (state : State)
    (order : Nat) (fields : List FieldDef) (after : State) (parts : List Part) (next : Draft)
    (laterIds : List TypeId) (later : Heap) (members : List Member) : Prop where
  realizes : Realizes setting next laterIds later after
  leads : Leads setting ids heap state laterIds later after
  finds : List.Forall₂ (siteOf setting laterIds after).FindsPart parts members
  are : FieldsAre later order members fields
  storable : forall field, field ∈ fields -> field.Storable

def MakesParts (setting : Setting) (ids : List TypeId) (heap : Heap) (state : State)
    (order : Nat) (fields : List FieldDef) (after : State) (parts : List Part) (next : Draft) :
    Prop :=
  exists laterIds later members,
    MadeParts setting ids heap state order fields after parts next laterIds later members

theorem MakesParts.nil (realizes : Realizes setting draft ids heap state) (order : Nat) :
    MakesParts setting ids heap state order [] state [] draft :=
  ⟨ids, heap, [], realizes, .refl setting ids heap state, .nil, .nil, nofun⟩

/-- A field is stored only if its type is, and so it refers to one. -/
theorem Realizes.storable (realizes : Realizes setting draft ids heap state) {ref : Ref}
    {id : TypeId} (finds : (siteOf setting ids state).Finds ref id) {field : FieldDef}
    (type : field.type = some id) : field.Storable := by
  obtain ⟨typeDef, stored, _⟩ := realizes.named finds
  intro other same
  cases type.symm.trans same
  exact realizes.tabled.holds.ne_null stored

/-- A part is given another name in generated declarations. -/
theorem follows_nameCompanion (realizes : Realizes setting draft ids heap state) {field : FieldDef}
    {part : Part} {type : TypeId} {order : Nat} (finds : (siteOf setting ids state).Finds part.type type)
    (is : field.Is heap (part.member type) order) (ident : String) (taken : List String) :
    Follows (nameCompanion field part.name ident taken) state (draftCompanion part ident taken)
      draft (MakesPart setting ids heap state order) := by
  have storable := realizes.storable finds is.type
  unfold nameCompanion draftCompanion
  dsimp only
  split
  · exact follows_pure ⟨rfl, ids, heap, _, realizes, .refl setting ids heap state,
      ⟨type, finds, rfl⟩, is, storable⟩
  · have builds := builds_storeText realizes.tabled.holds (Text.Identifier.fresh taken ident)
    refine (follows_room builds).andThen ?_
    rintro stored _ _ _ ⟨rfl, builder, ⟨larger, added, hasText⟩, rfl⟩
    obtain ⟨realized, leads⟩ := realizes.added added
    have laterIs := added.kept.grows.fieldIs is
    exact follows_pure ⟨rfl, ids, larger, _, realized, leads, ⟨type, finds.mono leads.includes, rfl⟩,
      ⟨laterIs.name, laterIs.type, laterIs.hash, laterIs.order, laterIs.flags, laterIs.activation,
        laterIs.choice, hasText⟩, storable⟩

theorem follows_property {compile : NodeCompiler} {drafter : NodeDrafter}
    (follows : FollowsNodes setting compile drafter) (realizes : Realizes setting draft ids heap state)
    (base owner : String) (required : List String) (order : Nat) (taken : List String)
    (property : String × Json) :
    Follows (compileProperty compile setting.context base owner required order taken property) state
      (draftProperty drafter base owner required taken property) draft
      (MakesPart setting ids heap state order) := by
  obtain ⟨name, node⟩ := property
  unfold compileProperty draftProperty
  refine (follows node _ _ none realizes).andThen ?_
  rintro id first ref firstDraft ⟨firstIds, firstHeap, firstRealizes, firstLeads, notText, finds⟩
  refine (follows_wrapFieldType firstRealizes notText finds _).andThen ?_
  rintro stored second storedRef secondDraft
    ⟨secondIds, secondHeap, secondRealizes, secondLeads, _, storedFinds⟩
  have builds := builds_plainField secondRealizes.tabled.holds name (some stored) order
  refine (follows_room builds).andThen ?_
  rintro field _ _ _ ⟨rfl, builder, ⟨thirdHeap, added, is⟩, rfl⟩
  obtain ⟨thirdRealizes, thirdLeads⟩ := secondRealizes.added added
  have flagged (flags : FieldFlags) : FieldDef.Is thirdHeap
      (Part.member { name := name, type := storedRef, flags := flags } stored) order
      { field with flags := flags } :=
    ⟨is.name, is.type, is.hash, is.order, rfl, is.activation, is.choice, is.companion⟩
  refine (follows_nameCompanion thirdRealizes (storedFinds.mono thirdLeads.includes)
    (flagged _) _ _).imp ?_
  rintro answer after planned next ⟨same, laterIds, later, member, realized, leads, rest⟩
  exact ⟨same, laterIds, later, member, realized,
    ((firstLeads.trans secondLeads).trans thirdLeads).trans leads, rest⟩

/-- A part and the parts after it. -/
theorem MadeParts.cons {order : Nat} {field : FieldDef} {fields : List FieldDef} {part : Part}
    {parts : List Part} {middle after : State} {next : Draft} {middleIds laterIds : List TypeId}
    {middleHeap later : Heap} {member : Member} {members : List Member}
    (leads : Leads setting ids heap state middleIds middleHeap middle)
    (finds : (siteOf setting middleIds middle).FindsPart part member)
    (is : field.Is middleHeap member order) (storable : field.Storable)
    (rest : MadeParts setting middleIds middleHeap middle (order + 1) fields after parts next
      laterIds later members) :
    MadeParts setting ids heap state order (field :: fields) after (part :: parts) next laterIds
      later (member :: members) :=
  ⟨rest.realizes, leads.trans rest.leads, .cons (finds.mono rest.leads.includes) rest.finds,
    .cons (rest.leads.grows.fieldIs is) rest.are, List.forall_mem_cons.mpr ⟨storable, rest.storable⟩⟩

/-- The parts of a list are made one after another. -/
theorem MakesPart.andThen {order : Nat} {answer : FieldDef × List String} {middle : State}
    {planned : Part × List String} {next : Draft}
    (makes : MakesPart setting ids heap state order answer middle planned next)
    (step : List String -> CompileM (List FieldDef)) (plan : List String -> DraftM (List Part))
    (follows : forall middleIds middleHeap, Realizes setting next middleIds middleHeap middle ->
      Follows (step planned.2) middle (plan planned.2) next
        (MakesParts setting middleIds middleHeap middle (order + 1))) :
    Follows (do
        let fields ← step answer.2
        return answer.1 :: fields) middle
      (do
        let parts ← plan planned.2
        return planned.1 :: parts) next (MakesParts setting ids heap state order) := by
  obtain ⟨sameTaken, middleIds, middleHeap, member, realizes, leads, finds, is, storable⟩ := makes
  rw [sameTaken]
  refine (follows middleIds middleHeap realizes).andThen ?_
  rintro fields after parts last ⟨laterIds, later, members, made⟩
  exact follows_pure ⟨laterIds, later, member :: members, .cons leads finds is storable made⟩

theorem follows_properties {compile : NodeCompiler} {drafter : NodeDrafter}
    (follows : FollowsNodes setting compile drafter) (base owner : String) (required : List String)
    (properties : List (String × Json)) (order : Nat) (taken : List String)
    (realizes : Realizes setting draft ids heap state) :
    Follows (compileProperties compile setting.context base owner required properties order taken)
      state (draftProperties drafter base owner required properties taken) draft
      (MakesParts setting ids heap state order) := by
  induction properties generalizing draft ids heap state order taken with
  | nil => exact follows_pure (.nil realizes order)
  | cons property rest ih =>
      unfold compileProperties draftProperties
      refine (follows_property follows realizes base owner required order taken property).andThen ?_
      rintro answer middle planned next makes
      exact makes.andThen
        (compileProperties compile setting.context base owner required rest (order + 1))
        (draftProperties drafter base owner required rest)
        fun _ _ realizes => ih (order + 1) planned.2 realizes

theorem follows_propertyParts {compile : NodeCompiler} {drafter : NodeDrafter}
    (follows : FollowsNodes setting compile drafter) (realizes : Realizes setting draft ids heap state)
    (node : Json) (pointer owner : String) (required : List String) :
    Follows (propertyFields compile setting.context node pointer owner required) state
      (draftPropertyParts drafter node pointer owner required) draft
      (MakesParts setting ids heap state 0) := by
  unfold propertyFields draftPropertyParts
  dsimp only
  cases node.member? "properties" with
  | none => exact follows_pure (.nil realizes 0)
  | some properties =>
      cases properties with
      | object properties => exact follows_properties follows _ _ _ properties 0 [] realizes
      | _ => exact follows_reject _ _

theorem follows_label (realizes : Realizes setting draft ids heap state) {ref : Ref}
    {id : TypeId} (finds : (siteOf setting ids state).Finds ref id) :
    Follows (build (query fun schema => return schema.name (← schema.type id))) state
      (draftQuery fun draft => draft.nameOf ref) draft
      fun label after planned next => draft.nameOf ref = label ∧ draft.nameOf ref = planned ∧
        state = after ∧ draft = next := by
  obtain ⟨type, stored, hasText⟩ := realizes.named finds
  have holds := realizes.tabled.holds
  have asked : Builds (query fun schema => return schema.name (← schema.type id)) state.builder 0
      fun found after => draft.nameOf ref = found ∧ state.builder = after := by
    refine Builds.query ?_ ⟨rfl, rfl⟩
    change (do
      let type ← Schema.type ⟨state.builder.arena⟩ id
      return Schema.name ⟨state.builder.arena⟩ type) = Except.ok (draft.nameOf ref)
    rw [holds.type stored]
    exact congrArg Except.ok (holds.name hasText)
  refine (follows_build asked rfl (Nat.le_refl _)).imp ?_
  rintro label _ _ _ ⟨rfl, rfl, _, ⟨rfl, rfl⟩, rfl⟩
  exact ⟨rfl, rfl, rfl, rfl⟩

theorem follows_alternative {compile : NodeCompiler} {drafter : NodeDrafter}
    (follows : FollowsNodes setting compile drafter) (realizes : Realizes setting draft ids heap state)
    (pointer owner : String) (index : Nat) (taken : List String) (alternative : Json) :
    Follows (compileAlternative compile pointer owner index taken alternative) state
      (draftAlternative drafter pointer owner index taken alternative) draft
      (MakesPart setting ids heap state (index + 1)) := by
  unfold compileAlternative draftAlternative
  refine (follows alternative _ _ none realizes).andThen ?_
  rintro id first ref firstDraft ⟨firstIds, firstHeap, firstRealizes, firstLeads, _, finds⟩
  refine (follows_label firstRealizes finds).andThen ?_
  rintro label _ _ _ ⟨isLabel, rfl, rfl, rfl⟩
  rw [isLabel]
  have builds := builds_plainField firstRealizes.tabled.holds label (some id)
    (index + 1)
  refine (follows_room builds).andThen ?_
  rintro field _ _ _ ⟨rfl, builder, ⟨secondHeap, added, is⟩, rfl⟩
  obtain ⟨secondRealizes, secondLeads⟩ := firstRealizes.added added
  have chosen (choice : UInt8) : FieldDef.Is secondHeap
      (Part.member { name := label, type := ref, choice := choice } id) (index + 1)
      { field with choice := choice } :=
    ⟨is.name, is.type, is.hash, is.order, is.flags, is.activation, rfl, is.companion⟩
  refine (follows_nameCompanion secondRealizes (finds.mono secondLeads.includes)
    (chosen _) _ _).imp ?_
  rintro answer after planned next ⟨same, laterIds, later, member, realized, leads, rest⟩
  exact ⟨same, laterIds, later, member, realized, (firstLeads.trans secondLeads).trans leads, rest⟩

theorem follows_alternatives {compile : NodeCompiler} {drafter : NodeDrafter}
    (follows : FollowsNodes setting compile drafter) (pointer owner : String)
    (alternatives : List Json) (index : Nat) (taken : List String)
    (realizes : Realizes setting draft ids heap state) :
    Follows (compileAlternatives compile pointer owner alternatives index taken) state
      (draftAlternatives drafter pointer owner alternatives index taken) draft
      (MakesParts setting ids heap state (index + 1)) := by
  induction alternatives generalizing draft ids heap state index taken with
  | nil => exact follows_pure (.nil realizes (index + 1))
  | cons alternative rest ih =>
      unfold compileAlternatives draftAlternatives
      refine (follows_alternative follows realizes pointer owner index taken alternative).andThen ?_
      rintro answer middle planned next makes
      exact makes.andThen (compileAlternatives compile pointer owner rest (index + 1))
        (draftAlternatives drafter pointer owner rest (index + 1))
        fun _ _ realizes => ih (index + 1) planned.2 realizes

/-! ### Opening and closing declared types -/

/-- A declared type is marked. -/
theorem follows_mark (realizes : Realizes setting draft ids heap state) {index : Nat} {id : TypeId}
    (found : ids[index]? = some id) (mark : TypeFlags -> TypeFlags)
    (marks : forall type : TypeDef, type.IsDeclared ->
      type.Remarks { type with flags := mark type.flags }) :
    Follows (build (updateType id fun type => { type with flags := mark type.flags })) state
      (draftMark (.declared index) mark) draft fun _ after _ next => exists later,
        Realizes setting next ids later after ∧ Leads setting ids heap state ids later after := by
  obtain ⟨sketch, _, is⟩ := realizes.exists_sketch found
  obtain ⟨type, stored, declared, _⟩ := is.isDeclared
  have storable := realizes.tabled.holds.storable _ _ stored
  have builds := builds_updateType realizes.tabled.holds
    (fun type => { type with flags := mark type.flags }) stored
    ⟨storable.prototype, storable.argument⟩
  refine (follows_build builds rfl (Nat.le_refl _)).imp ?_
  rintro _ _ _ _ ⟨-, rfl, builder, ⟨_, instances, held⟩, rfl⟩
  exact realizes.marked found stored (marks type declared) held instances

/-- A declared type has been made, and its parts are being made. -/
structure Pending (setting : Setting) (ids : List TypeId) (heap : Heap) (state : State)
    (index : Nat) (id : TypeId) (laterIds : List TypeId) (later : Heap) (after : State)
    (next : Draft) : Prop where
  realizes : Realizes setting next laterIds later after
  leads : Leads setting ids heap state laterIds later after
  found : laterIds[index]? = some id
  free : heap id.offset.toNat = none

section Declared

variable {index : Nat} {id : TypeId} {laterIds lastIds : List TypeId} {later last : Heap}
  {after final : State} {next lastDraft : Draft}

theorem Pending.advance (pending : Pending setting ids heap state index id laterIds later after next)
    (realizes : Realizes setting lastDraft lastIds last final)
    (leads : Leads setting laterIds later after lastIds last final) :
    Pending setting ids heap state index id lastIds last final lastDraft := by
  refine ⟨realizes, pending.leads.trans leads, ?_, pending.free⟩
  obtain ⟨more, rfl⟩ := leads.ids
  obtain ⟨bound, _⟩ := List.getElem?_eq_some_iff.mp pending.found
  exact (List.getElem?_append_left bound).trans pending.found

theorem nodeMarks_remarks (node : Json) (type : TypeDef) (declared : type.IsDeclared) :
    type.Remarks { type with flags := nodeMarks node type.flags } := by
  unfold nodeMarks
  cases isSet node "x-by-reference" with
  | false =>
      cases isSet node "x-non-exhaustive" with
      | false => exact declared.remarks
      | true => exact declared.markedNonExhaustive
  | true =>
      have marks := declared.markedByReference
      cases isSet node "x-non-exhaustive" with
      | false => exact marks
      | true => exact marks.trans marks.still.markedNonExhaustive

/-- A node that sets no marks changes no sketch. -/
theorem Draft.change_nodeMarks {node : Json} (byReference : isSet node "x-by-reference" = false)
    (nonExhaustive : isSet node "x-non-exhaustive" = false) (draft : Draft) (ref : Ref) :
    draft.change ref (fun sketch => { sketch with flags := nodeMarks node sketch.flags }) =
      draft := by
  have unchanged : (fun sketch : Sketch => { sketch with flags := nodeMarks node sketch.flags }) =
      id := by
    funext sketch
    unfold nodeMarks
    rw [byReference, nonExhaustive]
    rfl
  rw [unchanged]
  cases ref with
  | declared index =>
      exact congrArg (Draft.mk · _ _ _) (List.modify_id index draft.sketches)
  | builtin builtin => rfl
  | applied generic argument => rfl

/-- A declared type that was made is marked as its node says. -/
theorem Pending.applyFlags
    (pending : Pending setting ids heap state index id laterIds later after next) (node : Json) :
    Follows (applyFlags node id) after (draftMark (.declared index) (nodeMarks node)) next
      fun _ final _ marked => exists last,
        Pending setting ids heap state index id laterIds last final marked := by
  have marks : Follows (build (updateType id fun type =>
      { type with flags := nodeMarks node type.flags })) after
      (draftMark (.declared index) (nodeMarks node)) next fun _ final _ marked => exists last,
        Pending setting ids heap state index id laterIds last final marked :=
    (follows_mark pending.realizes pending.found _ (nodeMarks_remarks node)).imp
      fun _ _ _ _ ⟨last, realizes, leads⟩ => ⟨last, pending.advance realizes leads⟩
  -- Forgetting what was written is another step of the compiler.
  have follows : Follows (do
      let _ ← build (updateType id fun type =>
        { type with flags := nodeMarks node type.flags })
      return () : CompileM Unit) after (draftMark (.declared index) (nodeMarks node)) next
      fun _ final _ marked => exists last,
        Pending setting ids heap state index id laterIds last final marked :=
    Run.andThen marks (fun _ _ ends => ends) fun _ _ agrees => agrees
  unfold TextSchema.applyFlags
  dsimp only
  cases byReference : isSet node "x-by-reference" with
  | false =>
      cases nonExhaustive : isSet node "x-non-exhaustive" with
      | false =>
          have same := next.change_nodeMarks byReference nonExhaustive (.declared index)
          have stays : draftMark (.declared index) (nodeMarks node) next = .ok ⟨(), next, 0⟩ :=
            congrArg (fun draft => Except.ok (Drafted.mk () draft 0)) same
          exact follows_of_ok rfl stays rfl ⟨later, pending⟩
      | true =>
          simp only [nodeMarks, byReference, nonExhaustive] at follows
          exact follows
  | true =>
      simp only [nodeMarks, byReference] at follows
      exact follows

/-- A declared type that was made is entered for the definition that it is. -/
theorem Pending.register
    (pending : Pending setting ids heap state index id laterIds later after next)
    (definition : Option String) :
    Follows (register definition id) after (draftRegister definition (.declared index)) next
      fun _ final _ registered =>
        Pending setting ids heap state index id laterIds later final registered := by
  cases definition with
  | none => exact follows_pure pending
  | some reference =>
      have realizes := pending.realizes.defined reference
        (show Site.Finds _ (.declared index) id from ⟨trivial, pending.found⟩)
        nofun fun _ => ⟨index, rfl⟩
      exact follows_of_ok rfl rfl rfl (pending.advance realizes
        ⟨List.prefix_rfl, Grows.refl later, .refl _, rfl⟩)

/-- A declared type is made, entered and marked before its parts are known. -/
theorem follows_opened {Next Further : Type} (realizes : Realizes setting draft ids heap state)
    (title : String) (shape : Shape) (definition : Option String) (node : Json)
    {step : String -> TypeId -> CompileM Next} {plan : String -> Ref -> DraftM Further}
    {good : Next -> State -> Further -> Draft -> Prop}
    (follows : forall name index id laterIds later after next,
      Pending setting ids heap state index id laterIds later after next ->
      Follows (step name id) after (plan name (.declared index)) next good) :
    Follows (do
        let name ← uniqueName title
        let id ← build (newDeclaredType setting.context name shape (prototypeOf shape))
        register definition id
        TextSchema.applyFlags node id
        step name id) state
      (do
        let name ← draftName title
        let ref ← draftDeclared name shape
        draftRegister definition ref
        draftMark ref (nodeMarks node)
        plan name ref) draft good := by
  have names : Follows (uniqueName title) state (draftName title) draft
      fun name after planned next => name = planned ∧
        after = { state with names := name :: state.names } ∧
        next = { draft with names := name :: draft.names } := by
    refine follows_of_ok rfl rfl rfl ?_
    rw [realizes.names]
    exact ⟨rfl, rfl, rfl⟩
  refine names.andThen ?_
  rintro name _ _ _ ⟨rfl, rfl, rfl⟩
  have renamed := realizes.renamed (name :: draft.names)
  rw [realizes.names]
  obtain ⟨prototypeDef, prototypeStored, _⟩ :=
    realizes.founded.made.stored (prototypeOf shape) (prototypeOf shape).mem_all
  have builds := builds_newDeclaredType renamed.tabled.holds name shape prototypeStored
  refine (follows_build builds rfl (Nat.le_refl _)).andThen ?_
  rintro id _ _ _ ⟨rfl, rfl, builder, ⟨free, larger, text, added, hasText, hasType⟩, rfl⟩
  obtain ⟨opened, leads⟩ := renamed.opened free added hasText hasType
  have found : (ids ++ [id])[draft.sketches.length]? = some id := by
    rw [← realizes.length]
    exact List.getElem?_concat_length
  have pending : Pending setting ids heap state draft.sketches.length id _ _ _ _ :=
    ⟨opened, ⟨leads.ids, leads.grows, leads.instances, leads.inProgress⟩, found, free⟩
  refine (pending.register definition).andThen ?_
  rintro _ after _ next registered
  refine (registered.applyFlags node).andThen ?_
  rintro _ final _ marked ⟨last, marking⟩
  exact follows name _ id _ last final marked marking

/-- A declared type is given its parts and returned. -/
theorem Pending.close (pending : Pending setting ids heap state index id laterIds later after next)
    {fields : List FieldDef} {parts : List Part} {final : State} {lastDraft : Draft}
    (makes : MakesParts setting laterIds later after 0 fields final parts lastDraft) :
    Follows (do
        let _ ← build (setFields id fields)
        return id) final
      (do
        draftParts (.declared index) parts
        return .declared index) lastDraft (Makes setting ids heap state) := by
  obtain ⟨lastIds, last, members, made⟩ := makes
  have closing := pending.advance made.realizes made.leads
  obtain ⟨sketch, _, is⟩ := closing.realizes.exists_sketch closing.found
  obtain ⟨type, stored, declared, _⟩ := is.isDeclared
  have length : parts.length = fields.length := by
    rw [made.finds.length_eq, made.are.length]
  have builds := builds_setFields made.realizes.tabled.holds stored made.storable
  rw [← length] at builds
  refine (follows_build builds rfl (Nat.le_refl _)).andThen ?_
  rintro changed _ _ _
    ⟨rfl, rfl, builder, ⟨largest, altered, isChanged, changedStored, hasFields⟩, rfl⟩
  rw [length] at isChanged
  have realizes := closing.realizes.closed closing.found stored made.finds made.are altered isChanged
    changedStored hasFields
  refine follows_pure ⟨lastIds, largest, realizes, ?_, nofun, trivial, closing.found⟩
  refine ⟨closing.leads.ids, closing.leads.grows.altered closing.free altered.kept, ?_,
    closing.leads.inProgress⟩
  change Continues state.builder.instances builder.instances
  rw [altered.instances]
  exact closing.leads.instances

end Declared

/-! ### Nodes -/

theorem follows_required (node : Json) (pointer : String) :
    Follows (requiredNames node pointer) state (draftRequired node pointer) draft
      fun names after planned next => names = planned ∧ state = after ∧ draft = next := by
  unfold requiredNames draftRequired
  cases node.member? "required" with
  | none => exact follows_pure ⟨rfl, rfl, rfl⟩
  | some names =>
      cases names with
      | array names =>
          dsimp only
          cases texts? names with
          | none => exact follows_reject _ _
          | some names => exact follows_pure ⟨rfl, rfl, rfl⟩
      | _ => exact follows_reject _ _

variable {compile : NodeCompiler} {drafter : NodeDrafter}

theorem follows_struct (follows : FollowsNodes setting compile drafter)
    (realizes : Realizes setting draft ids heap state) (node : Json) (pointer title : String)
    (definition : Option String) :
    Follows (compileStruct compile setting.context node pointer title definition) state
      (draftStruct drafter node pointer title definition) draft (Makes setting ids heap state) := by
  refine follows_opened realizes title .struct definition node ?_
  intro name index id laterIds later after next pending
  refine (follows_required node pointer).andThen ?_
  rintro required _ _ _ ⟨rfl, rfl, rfl⟩
  refine (follows_propertyParts follows pending.realizes node pointer name required).andThen ?_
  rintro fields final parts lastDraft makes
  exact pending.close makes

theorem follows_object (follows : FollowsNodes setting compile drafter)
    (realizes : Realizes setting draft ids heap state) (node : Json) (pointer title : String)
    (definition : Option String) :
    Follows (compileObject compile setting.context node pointer title definition) state
      (draftObject drafter node pointer title definition) draft (Makes setting ids heap state) := by
  have struct := follows_struct follows realizes node pointer title definition
  unfold compileObject draftObject
  cases node.member? "properties" with
  | some properties => exact struct
  | none =>
      cases node.member? "additionalProperties" with
      | none => exact struct
      | some values =>
          cases values with
          | object values =>
              refine (follows (.object values) _ _ none realizes).andThen ?_
              rintro value middle ref next ⟨laterIds, later, realized, leads, notText, finds⟩
              exact (follows_instance realized (by decide) notText finds).imp
                fun _ _ _ _ makes => makes.after leads
          | _ => exact struct

theorem follows_variant (follows : FollowsNodes setting compile drafter)
    (realizes : Realizes setting draft ids heap state) (node alternatives : Json)
    (pointer title : String) (definition : Option String) :
    Follows (compileVariant compile setting.context node alternatives pointer title definition)
      state (draftVariant drafter node alternatives pointer title definition) draft
      (Makes setting ids heap state) := by
  unfold compileVariant draftVariant
  cases alternatives with
  | array alternatives =>
      dsimp only
      split
      · exact follows_reject _ _
      · refine follows_opened realizes title .variant definition node ?_
        intro name index id laterIds later after next pending
        have builds := builds_plainField pending.realizes.tabled.holds "tag"
          (some (setting.context.builtin .tag)) 0
        refine (follows_room builds).andThen ?_
        rintro tag _ _ _ ⟨rfl, builder, ⟨tagHeap, added, tagIs⟩, rfl⟩
        obtain ⟨tagged, tagLeads⟩ := pending.realizes.added added
        refine (follows_alternatives follows pointer name alternatives 0 [] tagged).andThen ?_
        rintro fields final parts lastDraft ⟨lastIds, last, members, made⟩
        have tagFinds : (siteOf setting laterIds { after with builder := builder }).Finds
            (.builtin .tag) (setting.context.builtin .tag) := ⟨by unfold Ref.Proper; decide, rfl⟩
        exact pending.close ⟨lastIds, last, _ :: members,
          .cons tagLeads ⟨_, tagFinds, rfl⟩ tagIs (tagged.storable tagFinds tagIs.type) made⟩
  | _ => exact follows_reject _ _

theorem follows_array (follows : FollowsNodes setting compile drafter)
    (realizes : Realizes setting draft ids heap state) (node : Json) (pointer title : String) :
    Follows (compileArray compile setting.context node pointer title) state
      (draftArray drafter node pointer title) draft (Makes setting ids heap state) := by
  unfold compileArray draftArray
  cases node.member? "items" with
  | none => exact follows_reject _ _
  | some items =>
      refine (follows items _ _ none realizes).andThen ?_
      rintro element middle ref next ⟨laterIds, later, realized, leads, notText, finds⟩
      exact (follows_instance realized (by decide) notText finds).imp
        fun _ _ _ _ makes => makes.after leads

theorem follows_typed (follows : FollowsNodes setting compile drafter)
    (realizes : Realizes setting draft ids heap state) (node : Json) (pointer title : String)
    (definition : Option String) (typeName : String) :
    Follows (compileTyped compile setting.context node pointer title definition typeName) state
      (draftTyped drafter node pointer title definition typeName) draft
      (Makes setting ids heap state) := by
  have scalar {builtin : Builtin} (different : builtin ≠ .char)
      (proper : (Ref.builtin builtin).Proper) :
      Makes setting ids heap state (setting.context.builtin builtin) state (.builtin builtin) draft :=
    .refl realizes (fun same => different (Ref.builtin.inj same)) ⟨proper, rfl⟩
  unfold compileTyped draftTyped
  split
  · exact follows_object follows realizes node pointer title definition
  · exact follows_array follows realizes node pointer title
  · exact follows_pure (scalar (by decide) (by unfold Ref.Proper; decide))
  · exact follows_pure (scalar (by decide) (by unfold Ref.Proper; decide))
  · exact follows_pure (scalar (by decide) (by unfold Ref.Proper; decide))
  · exact follows_pure (scalar (by decide) (by unfold Ref.Proper; decide))
  · exact follows_pure (scalar (by decide) (by unfold Ref.Proper; decide))
  · -- No other name is one of the names above.
    first
    | exact follows_reject _ _
    | split <;> first | contradiction | exact follows_reject _ _

theorem follows_typeName (node : Json) (pointer : String) :
    Follows (typeName node pointer) state (draftTypeName node pointer) draft
      fun name after planned next => name = planned ∧ state = after ∧ draft = next := by
  unfold typeName draftTypeName
  cases node.member? "type" with
  | none =>
      dsimp only
      split
      · exact follows_pure ⟨rfl, rfl, rfl⟩
      · exact follows_reject _ _
  | some name =>
      cases name with
      | string name => exact follows_pure ⟨rfl, rfl, rfl⟩
      | _ => exact follows_reject _ _

/-! ### References -/

/-- A definition is compiled when it is met for the first time. -/
theorem follows_definition (follows : FollowsNodes setting compile drafter)
    (realizes : Realizes setting draft ids heap state) {reference : String}
    (missing : draft.definitions.lookup reference = none) (new : reference ∉ draft.inProgress)
    (target : Json) (pointer name : String) :
    Follows (do
        enterDefinition reference
        let id ← compile target pointer name (some reference)
        leaveDefinition reference
        define reference id
        return id) state
      (do
        draftStep fun draft => { draft with inProgress := reference :: draft.inProgress }
        let ref ← drafter target pointer name (some reference)
        draftStep fun draft => { draft with inProgress := draft.inProgress.erase reference }
        draftDefine reference ref
        return ref) draft (Makes setting ids heap state) := by
  have enters : Follows (enterDefinition reference) state
      (draftStep fun draft => { draft with inProgress := reference :: draft.inProgress }) draft
      fun _ after _ next => after = { state with inProgress := reference :: state.inProgress } ∧
        next = { draft with inProgress := reference :: draft.inProgress } :=
    follows_of_ok rfl rfl rfl ⟨rfl, rfl⟩
  refine enters.andThen ?_
  rintro _ _ _ _ ⟨rfl, rfl⟩
  refine (follows target pointer name (some reference) (realizes.entered missing new)).andThen ?_
  rintro id after ref next ⟨laterIds, later, realized, leads, notText, finds⟩
  have leaves : Follows (leaveDefinition reference) after
      (draftStep fun draft => { draft with inProgress := draft.inProgress.erase reference }) next
      fun _ final _ last => final = { after with inProgress := after.inProgress.erase reference } ∧
        last = { next with inProgress := next.inProgress.erase reference } :=
    follows_of_ok rfl rfl rfl ⟨rfl, rfl⟩
  refine leaves.andThen ?_
  rintro _ _ _ _ ⟨rfl, rfl⟩
  have left := realized.left reference
  have notInProgress : reference ∉ next.inProgress.erase reference :=
    realized.once.not_mem_erase
  have defined := left.defined reference finds notText fun member => absurd member notInProgress
  have sameProgress : after.inProgress.erase reference = state.inProgress := by
    rw [leads.inProgress, List.erase_cons_head]
  exact follows_of_ok rfl rfl rfl ⟨laterIds, later, defined,
    ⟨leads.ids, leads.grows, leads.instances, sameProgress⟩, notText, finds⟩

/-- A definition that is met inside of itself is marked. -/
theorem follows_markDefinition (realizes : Realizes setting draft ids heap state)
    {reference : String} {ref : Ref} (found : draft.definitions.lookup reference = some ref)
    (inProgress : reference ∈ draft.inProgress) {id : TypeId}
    (finds : (siteOf setting ids state).Finds ref id) :
    Follows (do
        let _ ← build (updateType id fun type =>
          { type with flags := type.flags.insert TypeFlags.storedByReference })
        return id) state
      (do
        draftMark ref fun flags => flags.insert TypeFlags.storedByReference
        return ref) draft (Makes setting ids heap state) := by
  obtain ⟨index, rfl⟩ := realizes.declared reference ref found inProgress
  have found : ids[index]? = some id := finds.2
  refine (follows_mark realizes found (fun flags => flags.insert TypeFlags.storedByReference)
    fun _ declared => declared.markedByReference).andThen ?_
  rintro _ after _ next ⟨later, realized, leads⟩
  exact follows_pure ⟨ids, later, realized, leads, nofun, finds.mono leads.includes⟩

theorem follows_reference (follows : FollowsNodes setting compile drafter)
    (realizes : Realizes setting draft ids heap state) (pointer : String) (reference : Json) :
    Follows (compileReference compile setting.document pointer reference) state
      (draftReference drafter setting.document pointer reference) draft
      (Makes setting ids heap state) := by
  unfold compileReference draftReference
  cases reference with
  | string reference =>
      dsimp only
      cases definitionName? reference with
      | none => exact follows_reject _ _
      | some name =>
          dsimp only
          have finds : Follows (findDefinition? reference) state
              (draftQuery fun draft => draft.definitions.lookup reference) draft
              fun found after planned next => state.definitions.lookup reference = found ∧
                draft.definitions.lookup reference = planned ∧ state = after ∧ draft = next :=
            follows_of_ok rfl rfl rfl ⟨rfl, rfl, rfl, rfl⟩
          have asks : Follows (isInProgress reference) state
              (draftQuery fun draft => draft.inProgress.contains reference) draft
              fun found after planned next => draft.inProgress.contains reference = found ∧
                found = planned ∧ state = after ∧ draft = next := by
            refine follows_of_ok rfl rfl rfl ?_
            rw [realizes.inProgress]
            exact ⟨rfl, rfl, rfl, rfl⟩
          refine finds.andThen ?_
          rintro found _ planned _ ⟨isFound, isPlanned, rfl, rfl⟩
          have related := realizes.lookup reference
          rw [isFound, isPlanned] at related
          cases planned with
          | some ref =>
              cases found with
              | none => exact related.elim
              | some id =>
                  obtain ⟨notText, isFinding⟩ := related
                  refine asks.andThen ?_
                  rintro answer _ _ _ ⟨isAnswer, rfl, rfl, rfl⟩
                  cases answer with
                  | true =>
                      exact follows_markDefinition realizes isPlanned
                        (List.contains_iff_mem.mp isAnswer) isFinding
                  | false => exact follows_pure (.refl realizes notText isFinding)
          | none =>
              cases found with
              | some id => exact related.elim
              | none =>
                  refine asks.andThen ?_
                  rintro answer _ _ _ ⟨isAnswer, rfl, rfl, rfl⟩
                  cases answer with
                  | true => exact follows_reject _ _
                  | false =>
                      have new : reference ∉ draft.inProgress := by
                        intro member
                        cases isAnswer.symm.trans (List.contains_iff_mem.mpr member)
                      cases Json.Pointer.resolve? (String.ofList (reference.toList.drop 1))
                          setting.document with
                      | none => exact follows_reject _ _
                      | some target =>
                          exact follows_definition follows realizes isPlanned new target _ name
  | _ => exact follows_reject _ _

theorem follows_node (follows : FollowsNodes setting compile drafter) :
    FollowsNodes setting (compileNode compile setting.context setting.document)
      (draftNode drafter setting.document) := by
  intro draft ids heap state node pointer name definition realizes
  unfold compileNode draftNode
  cases node with
  | object members =>
      dsimp only
      cases Json.member? (.object members) "$ref" with
      | some reference => exact follows_reference follows realizes pointer reference
      | none =>
          dsimp only
          cases Json.member? (.object members) "oneOf" with
          | some alternatives => exact follows_variant follows realizes _ alternatives _ _ definition
          | none =>
              cases Json.member? (.object members) "anyOf" with
              | some alternatives =>
                  exact follows_variant follows realizes _ alternatives _ _ definition
              | none =>
                  refine (follows_typeName _ pointer).andThen ?_
                  rintro typeName _ _ _ ⟨rfl, rfl, rfl⟩
                  exact follows_typed follows realizes _ pointer _ definition typeName
  | _ => exact follows_reject _ _

/-- Nodes of any nesting are compiled as they are drafted. -/
theorem follows_within (setting : Setting) (levels : Nat) :
    FollowsNodes setting (compileWithin setting.context setting.document levels)
      (draftWithin setting.document levels) := by
  induction levels with
  | zero =>
      intro draft ids heap state node pointer name definition _
      exact follows_reject _ _
  | succ levels ih => exact follows_node ih

end Nodes

end TextSchema
end PackedJson
