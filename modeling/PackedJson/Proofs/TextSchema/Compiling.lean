import PackedJson.Proofs.TextSchema.Promises

namespace PackedJson

namespace Builder

open Heap

/-- The arena refused. -/
def Refused (failure : SchemaError) (_ : Builder) : Prop :=
  exists cause, failure = .arena cause

theorem Builds.run {Result : Type} {step : BuildM Result} {builder : Builder} {cost : Nat}
    {good : Result -> Builder -> Prop} (builds : Builds step builder cost good) :
    Run step builder good Refused :=
  Run.imp builds (fun _ _ ends => ends.1) fun _ _ ⟨⟨cause, same, _⟩, _⟩ => ⟨cause, same⟩

/-- A new declared type has a prototype and no fields yet. -/
theorem builds_newDeclaredType {heap : Heap} {builder : Builder} {context : Context}
    (holds : heap.Holds builder.arena) (name : String) (shape : Shape) {prototype : Builtin}
    {prototypeDef : TypeDef} (stored : HasType heap (context.builtin prototype) prototypeDef) :
    Builds (newDeclaredType context name shape prototype) builder (textCost name + typeCost)
      fun id after => heap id.offset.toNat = none ∧ exists larger text,
        Added heap builder larger after ∧ HasText larger text name ∧
        HasType larger id { TypeDef.ofShape text shape with
          prototype := some (context.builtin prototype) } := by
  refine Builds.andThen (builds_newType holds name shape) 0 ?_ (Nat.le_refl _)
  rintro id middle ⟨free, larger, text, added, hasText, hasType⟩
  have storable : TypeDef.Storable { TypeDef.ofShape text shape with
      prototype := some (context.builtin prototype) } := by
    refine ⟨?_, nofun⟩
    rintro _ ⟨rfl⟩
    exact holds.ne_null stored
  refine Builds.andThen (builds_updateType added.holds
    (fun type => { type with prototype := some (context.builtin prototype) }) hasType storable)
    0 ?_ (Nat.le_refl _)
  rintro changed after ⟨_, instances, held⟩
  refine Builds.pure ⟨free, _, text, ⟨held, added.kept.set _ free,
    instances.trans added.instances⟩, ?_, set_same _ _ _⟩
  exact (without_extends_set larger id.offset.toNat _).hasText (hasText_without hasType hasText)

/-- A type wraps another one, if it is to do so. -/
def Wraps (old heap : Heap) (target : Target) (context : Context) (wrap : TypeId -> Kind)
    (does : Bool) (inner outer : TypeId) : Prop :=
  if does then IsKind heap target context outer (wrap inner) ∧
    (exists name, Named heap outer name) ∧ old outer.offset.toNat = none
  else outer = inner

theorem Wraps.grows {old heap later : Heap} {target : Target} {context : Context}
    {wrap : TypeId -> Kind} {does : Bool} {inner outer : TypeId}
    (wraps : Wraps old heap target context wrap does inner outer) (grows : Grows heap later) :
    Wraps old later target context wrap does inner outer := by
  cases does with
  | false => exact wraps
  | true =>
      obtain ⟨is, ⟨name, named⟩, new⟩ := wraps
      exact ⟨is.grows grows, ⟨name, named.grows grows⟩, new⟩

theorem Wraps.named {old heap : Heap} {target : Target} {context : Context}
    {wrap : TypeId -> Kind} {does : Bool} {inner outer : TypeId}
    (wraps : Wraps old heap target context wrap does inner outer) {name : String}
    (named : Named heap inner name) : exists name, Named heap outer name := by
  cases does with
  | false => exact ⟨name, (show outer = inner from wraps) ▸ named⟩
  | true => exact wraps.2.1

/-- The type of a field wraps a result and then an option around another type. -/
theorem run_wrapFieldType {old heap : Heap} {target : Target} {context : Context}
    {builder : Builder} {type : TypeId} {name : String}
    (tabled : Tabled old [context.textKey] heap builder)
    (founded : Founded old heap builder.instances target context) (named : Named heap type name)
    (flags : FieldFlags) :
    Run (wrapFieldType context type flags) builder
      (fun stored after => exists larger inner,
        Instantiated old [context.textKey] heap builder larger after ∧
        Wraps old larger target context .result (flags.contains FieldFlags.canFail) type inner ∧
        Wraps old larger target context .option (!flags.contains FieldFlags.required) inner stored)
      Refused := by
  have second {inner : TypeId} {middle : Builder} {larger : Heap}
      (made : Instantiated old [context.textKey] heap builder larger middle)
      (wraps : Wraps old larger target context .result (flags.contains FieldFlags.canFail) type
        inner) :
      Run (if flags.contains FieldFlags.required then pure inner else optionOf context inner) middle
        (fun stored after => exists larger inner,
          Instantiated old [context.textKey] heap builder larger after ∧
          Wraps old larger target context .result (flags.contains FieldFlags.canFail) type inner ∧
          Wraps old larger target context .option (!flags.contains FieldFlags.required) inner
            stored)
        Refused := by
    cases flags.contains FieldFlags.required with
    | true => exact ⟨larger, inner, made, wraps, rfl⟩
    | false =>
        obtain ⟨innerName, innerNamed⟩ := wraps.named (named.grows made.kept.grows)
        refine (builds_optionOf made.tabled (founded.grows made.kept.grows made.continues)
          innerNamed).run.imp ?_ (fun _ _ => id)
        rintro stored after ⟨largest, kind, storedName, more, rfl, is, storedNamed, new⟩
        exact ⟨largest, inner, made.trans more, wraps.grows more.kept.grows,
          is, ⟨storedName, storedNamed⟩, new⟩
  unfold wrapFieldType
  cases canFail : flags.contains FieldFlags.canFail with
  | false =>
      rw [canFail] at second
      exact second (.refl tabled) rfl
  | true =>
      rw [canFail] at second
      refine Run.andThen (builds_resultOf tabled founded named).run ?_ (fun _ _ => id)
      rintro inner after ⟨larger, kind, innerName, made, rfl, is, innerNamed, new⟩
      exact second made ⟨is, ⟨innerName, innerNamed⟩, new⟩

theorem IsScalar.declares {heap : Heap} {id : TypeId} {name : String} {size : Nat}
    (scalar : IsScalar heap id name size) :
    Declares heap id ⟨.struct, none, none, true, false, []⟩ := by
  obtain ⟨stored, hasType, _⟩ := scalar
  refine ⟨_, [], hasType, ⟨rfl, fun nonempty => absurd rfl nonempty⟩, rfl, rfl, rfl,
    TypeDef.isBuiltin_scalar _ _, ?_, ?_, .nil⟩
  · change FlagSet.contains TypeFlags.builtin TypeFlags.generic = false
    decide
  · intro byReference
    have isNot : FlagSet.contains TypeFlags.builtin TypeFlags.storedByReference = false := by decide
    cases isNot.symm.trans byReference

end Builder

namespace TextSchema

open Heap Builder

/-!
Compiling keeps its promises.

Each function of the compiler is given the invariant and ends with it.  It
fails only because a node is at fault or because the arena refuses.
-/

/-- A failure that is no defect of the compiler: a node is at fault, or the
arena is full. -/
def CompileError.IsExpected : CompileError -> Prop
  | .outOfMemory _ => True
  | .invalid _ _ => True
  | .schema _ => False

/-- A compilation ends well, or fails as expected. -/
def Compiles {Result : Type} (step : CompileM Result) (state : State)
    (good : Result -> State -> Prop) : Prop :=
  Run step state good fun failure _ => failure.IsExpected

section Combinators

variable {Result Next : Type} {state : State}

theorem Compiles.andThen {first : CompileM Result} {second : Result -> CompileM Next}
    {good : Result -> State -> Prop} {nextGood : Next -> State -> Prop}
    (compiles : Compiles first state good)
    (continued : forall result after, good result after ->
      Compiles (second result) after nextGood) : Compiles (first >>= second) state nextGood :=
  Run.andThen compiles continued fun _ _ => id

theorem Compiles.imp {step : CompileM Result} {good weaker : Result -> State -> Prop}
    (compiles : Compiles step state good)
    (onGood : forall result after, good result after -> weaker result after) :
    Compiles step state weaker :=
  Run.imp compiles onGood fun _ _ => id

theorem compiles_reject (pointer : String) (flaw : Flaw) {good : Result -> State -> Prop} :
    Compiles (reject pointer flaw) state good :=
  trivial

theorem compiles_build {step : BuildM Result} {good : Result -> Builder -> Prop}
    (run : Run step state.builder good Refused) :
    Compiles (build step) state fun result after =>
      exists builder, good result builder ∧ after = { state with builder := builder } := by
  obtain ⟨builder, names, definitions, inProgress⟩ := state
  unfold Run at run
  unfold Compiles Run build
  cases ends : step builder with
  | ok result after =>
      simp only [ends] at run ⊢
      exact ⟨after, run, rfl⟩
  | error cause after =>
      simp only [ends] at run ⊢
      obtain ⟨arenaCause, rfl⟩ := run
      trivial

end Combinators

section Compiling

variable {setting : Setting} {opened : List (TypeId × Role)} {heap : Heap} {promises : Promises}
  {state : State}

/-- The type that is given for a term is promised. -/
def Promised (setting : Setting) (opened : List (TypeId × Role)) (heap : Heap) (promises : Promises)
    (state : State) (term : Term) (id : TypeId) (after : State) : Prop :=
  exists later more, Advances setting opened heap promises state later more after ∧ more id term

/-- Nodes are compiled to types that are promised for them. -/
def CompilesNodes (setting : Setting) (compile : NodeCompiler) : Prop :=
  forall {opened : List (TypeId × Role)} {heap : Heap} {promises : Promises} {state : State}
    (node : Json) (pointer name : String) (definition : Option String),
    Building setting opened heap promises state ->
    (forall reference, definition = some reference ->
      target? setting.document reference = some node) ->
    Compiles (compile node pointer name definition) state
      (Promised setting opened heap promises state ⟨node, false, false⟩)

/-! ### Scalars -/

theorem Building.scalar (building : Building setting opened heap promises state) {builtin : Builtin}
    {role : Role} {term : Term} (isScalar : builtin ∈ scalarBuiltins)
    (hasRole : HasRole setting.document term role) (serves : Serves promises role (.scalar builtin)) :
    Promised setting opened heap promises state term (setting.context.builtin builtin) state := by
  rw [← map_fst_scalarSizes setting.target] at isScalar
  obtain ⟨⟨found, size⟩, member, rfl⟩ := List.mem_map.mp isScalar
  have scalar := building.founded.basics.scalars found size member
  exact ⟨heap, _, building.keep hasRole serves
    ⟨scalar.declares, rfl, size, member, scalar⟩ (Or.inl rfl) trivial scalar.named
    (building.founded.made.new found found.mem_all), promises.add_self _ _⟩

theorem Building.text (building : Building setting opened heap promises state) {term : Term}
    (hasRole : HasRole setting.document term .string) :
    Promised setting opened heap promises state term (setting.context.builtin .string) state :=
  ⟨heap, _, building.keep hasRole .string ⟨building.founded.basics.string, rfl⟩ (Or.inl rfl) trivial
    building.founded.basics.stringNamed
    (building.founded.made.new .string (Builtin.mem_all .string)), promises.add_self _ _⟩

/-- An instance of a generic type was made for a term. -/
theorem Building.makesKind (building : Building setting opened heap promises state)
    {builder : Builder} {kindIs : Kind -> Prop} {id : TypeId} {term : Term} {role : Role}
    (makes : MakesKind setting.old heap setting.target setting.context state.builder kindIs id
      builder)
    (hasRole : HasRole setting.document term role)
    (serves : forall kind, kindIs kind -> Serves promises role kind ∧
      (kind.declaration setting.context).argument.isSome ∧ kind.IsNew setting.old) :
    Promised setting opened heap promises state term id { state with builder := builder } := by
  obtain ⟨larger, kind, name, made, isOne, is, named, new⟩ := makes
  have advances := building.instantiated made
  obtain ⟨isServing, hasArgument, parts⟩ := serves kind isOne
  have kept := advances.building.keep hasRole isServing is (Or.inr hasArgument) parts named new
  exact ⟨larger, _, advances.trans kept, promises.add_self _ _⟩

/-! ### Declared types -/

/-- Which text a type is named with does not count. -/
theorem Building.renamed (building : Building setting opened heap promises state)
    (names : List String) : Building setting opened heap promises { state with names := names } :=
  ⟨building.tabled, building.founded, building.declared, building.kept, building.waiting,
    building.named, building.new, building.definitions, building.distinct⟩

theorem compiles_uniqueName (base : String) :
    Compiles (uniqueName base) state fun _ after =>
      exists names, after = { state with names := names } :=
  ⟨_, rfl⟩

/-- A declared type is entered for the definition that it is. -/
theorem Building.define (building : Building setting opened heap promises state) {id : TypeId}
    {reference : String} {node : Json} (isTarget : target? setting.document reference = some node)
    (promised : promises id ⟨node, false, false⟩)
    (declared : reference ∈ state.inProgress -> IsNewDeclared setting heap id) :
    Building setting opened heap promises
      { state with definitions := (reference, id) :: state.definitions } := by
  refine ⟨building.tabled, building.founded, building.declared, building.kept, building.waiting,
    building.named, building.new, ?_, building.distinct⟩
  intro other otherId found
  rw [List.lookup_cons] at found
  split at found
  next same =>
    cases found
    cases eq_of_beq same
    exact ⟨⟨node, isTarget, promised⟩, declared⟩
  next different => exact building.definitions other otherId found

theorem compiles_register (building : Building setting opened heap promises state) {id : TypeId}
    {definition : Option String} {node : Json}
    (isTarget : forall reference, definition = some reference ->
      target? setting.document reference = some node)
    (promised : promises id ⟨node, false, false⟩) (declared : IsNewDeclared setting heap id) :
    Compiles (register definition id) state fun _ after =>
      Advances setting opened heap promises state heap promises after := by
  cases definition with
  | none => exact .refl building
  | some reference =>
      exact ⟨building.define (isTarget reference rfl) promised fun _ => declared, Grows.refl heap,
        .refl promises, rfl⟩

theorem compiles_applyFlags (building : Building setting opened heap promises state) {id : TypeId}
    (node : Json) (declared : IsNewDeclared setting heap id) :
    Compiles (applyFlags node id) state fun _ after => exists later,
      Advances setting opened heap promises state later promises after := by
  obtain ⟨new, type, stored, isDeclared⟩ := declared
  have storable := building.tabled.holds.storable _ _ stored
  unfold applyFlags
  have marked (flags : TypeFlags)
      (marks : type.Remarks { type with flags := flags }) (change : TypeDef -> TypeDef)
      (isChange : change type = { type with flags := flags }) :
      Compiles (do
          let _ ← build (Builder.updateType id change)
          return () : CompileM Unit) state fun _ after => exists later,
        Advances setting opened heap promises state later promises after := by
    have run := (builds_updateType building.tabled.holds change stored
      (by rw [isChange]; exact ⟨storable.prototype, storable.argument⟩)).run
    refine (compiles_build run).andThen ?_
    rintro changed after ⟨builder, ⟨_, instances, held⟩, rfl⟩
    rw [isChange] at held
    exact ⟨_, building.marked new stored marks held instances⟩
  cases byReference : isSet node "x-by-reference" with
  | false =>
      cases nonExhaustive : isSet node "x-non-exhaustive" with
      | false => exact ⟨heap, .refl building⟩
      | true => exact marked _ isDeclared.markedNonExhaustive _ rfl
  | true =>
      cases nonExhaustive : isSet node "x-non-exhaustive" with
      | false => exact marked _ isDeclared.markedByReference _ rfl
      | true =>
          have marks := isDeclared.markedByReference
          exact marked _ (marks.trans marks.still.markedNonExhaustive) _ rfl

/-- The names that a node requires, when they are in order. -/
theorem compiles_requiredNames (node : Json) (pointer : String) :
    Compiles (requiredNames node pointer) state fun names after =>
      names = requiredOf node ∧ after = state := by
  unfold requiredNames
  split
  · next missing =>
      refine ⟨?_, rfl⟩
      simp only [requiredOf, missing]
  · next names isArray =>
      split
      · next texts isTexts =>
          refine ⟨?_, rfl⟩
          simp only [requiredOf, isArray, isTexts, Option.getD_some]
      · exact compiles_reject _ _
  · exact compiles_reject _ _

/-! ### Fields -/

/-- A field that was given another name in generated declarations. -/
theorem compiles_nameCompanion (building : Building setting opened heap promises state)
    {field : FieldDef} {member : Member} {order : Nat} (is : field.Is heap member order)
    (storable : field.Storable) (jsonName ident : String) (taken : List String) :
    Compiles (nameCompanion field jsonName ident taken) state fun answer after =>
      exists later companion, Advances setting opened heap promises state later promises after ∧
        answer.1.Is later { member with companion := companion } order ∧ answer.1.Storable := by
  unfold nameCompanion
  dsimp only
  split
  · exact ⟨heap, member.companion, .refl building, is, storable⟩
  · refine (compiles_build (builds_storeText building.tabled.holds _).run).andThen ?_
    rintro stored after ⟨builder, ⟨larger, added, hasText⟩, rfl⟩
    have laterIs := added.kept.grows.fieldIs is
    exact ⟨larger, Text.Identifier.fresh taken ident, building.added added, ⟨laterIs.name, laterIs.type, laterIs.hash,
      laterIs.order, laterIs.flags, laterIs.activation, laterIs.choice, hasText⟩, storable⟩

theorem Building.storable (building : Building setting opened heap promises state) {id : TypeId}
    {term : Term} (promised : promises id term) {field : FieldDef} (type : field.type = some id) :
    field.Storable := by
  obtain ⟨name, typeDef, stored, _⟩ := building.named id term promised
  intro other same
  cases type.symm.trans same
  exact building.tabled.holds.ne_null stored

/-- A type that wraps a promised one is promised for the wrapped term. -/
theorem Building.wraps (building : Building setting opened heap promises state)
    {wrap : TypeId -> Kind} {does : Bool} {inner outer : TypeId} {term : Term} (wrapped : Term)
    {role : Role} (wraps : Wraps setting.old heap setting.target setting.context wrap does inner
      outer) (promised : promises inner term)
    (hasRole : does = true -> HasRole setting.document wrapped role)
    (serves : Serves promises role (wrap inner))
    (undeclared : ((wrap inner).declaration setting.context).argument.isSome)
    (parts : (wrap inner).IsNew setting.old)
    (same : does = false -> wrapped = term) :
    exists more, Advances setting opened heap promises state heap more state ∧
      more outer wrapped := by
  cases does with
  | false =>
      cases (show outer = inner from wraps)
      rw [same rfl]
      exact ⟨promises, .refl building, promised⟩
  | true =>
      obtain ⟨is, ⟨name, named⟩, new⟩ := wraps
      exact ⟨_, building.keep (hasRole rfl) serves is (Or.inr undeclared) parts named new,
        promises.add_self _ _⟩

/-- The type of a property is wrapped as its term says. -/
theorem compiles_wrapFieldType (building : Building setting opened heap promises state)
    {node : Json} {id : TypeId} (promised : promises id ⟨node, false, false⟩) (flags : FieldFlags) :
    Compiles (build (Builder.wrapFieldType setting.context id flags)) state
      (Promised setting opened heap promises state
        ⟨node, flags.contains FieldFlags.canFail, !flags.contains FieldFlags.required⟩) := by
  obtain ⟨name, named⟩ := building.named id _ promised
  refine (compiles_build (run_wrapFieldType building.tabled building.founded named flags)).imp ?_
  rintro stored after ⟨builder, ⟨larger, inner, made, innerWraps, outerWraps⟩, rfl⟩
  have advances := building.instantiated made
  obtain ⟨more, innerAdvances, innerPromised⟩ := advances.building.wraps
    ⟨node, flags.contains FieldFlags.canFail, false⟩ innerWraps promised
    (fun does => by rw [does]; exact .result node) (.result promised) rfl trivial
    (fun does => by rw [does])
  obtain ⟨most, outerAdvances, outerPromised⟩ := innerAdvances.building.wraps
    ⟨node, flags.contains FieldFlags.canFail, !flags.contains FieldFlags.required⟩ outerWraps
    innerPromised (fun does => by rw [does]; exact .option node _) (.option innerPromised) rfl
    trivial
    (fun does => by rw [does])
  exact ⟨larger, most, (advances.trans innerAdvances).trans outerAdvances, outerPromised⟩

/-- Fields were made for what a declared type consists of. -/
structure MakesFields {Item : Type} (setting : Setting) (opened : List (TypeId × Role)) (heap : Heap)
    (promises : Promises) (state : State) (Serving : Promises -> Item -> Member -> Prop)
    (items : List Item) (order : Nat) (fields : List FieldDef) (after : State) (later : Heap)
    (more : Promises) (members : List Member) : Prop where
  advances : Advances setting opened heap promises state later more after
  serving : List.Forall₂ (Serving more) items members
  are : FieldsAre later order members fields
  storable : forall field, field ∈ fields -> field.Storable

theorem MakesFields.nil {Item : Type} {Serving : Promises -> Item -> Member -> Prop} {order : Nat}
    (building : Building setting opened heap promises state) :
    MakesFields setting opened heap promises state Serving [] order [] state heap promises [] :=
  ⟨.refl building, .nil, .nil, nofun⟩

theorem MakesFields.cons {Item : Type} {Serving : Promises -> Item -> Member -> Prop} {item : Item}
    {items : List Item} {order : Nat} {field : FieldDef} {fields : List FieldDef}
    {middle after : State} {heapThen later : Heap} {promisesThen more : Promises} {member : Member}
    {members : List Member}
    (mono : forall {promises more : Promises}, more.Includes promises ->
      Serving promises item member -> Serving more item member)
    (advances : Advances setting opened heap promises state heapThen promisesThen middle)
    (serving : Serving promisesThen item member) (is : field.Is heapThen member order)
    (storable : field.Storable)
    (rest : MakesFields setting opened heapThen promisesThen middle Serving items (order + 1) fields
      after later more members) :
    MakesFields setting opened heap promises state Serving (item :: items) order (field :: fields)
      after later more (member :: members) :=
  ⟨advances.trans rest.advances, .cons (mono rest.advances.includes serving) rest.serving,
    .cons (rest.advances.grows.fieldIs is) rest.are, List.forall_mem_cons.mpr ⟨storable, rest.storable⟩⟩

theorem ServesProperty.mono {promises more : Promises} {property : Property} {member : Member}
    (includes : more.Includes promises) (serves : ServesProperty promises property member) :
    ServesProperty more property member := by
  obtain ⟨name, required, type, isType, promised⟩ := serves
  exact ⟨name, required, type, isType, includes _ _ promised⟩

theorem FieldFlags.contains_set (required canFail : Bool) :
    FlagSet.contains ((FlagSet.empty.set FieldFlags.required required).set FieldFlags.canFail canFail)
      FieldFlags.required = required ∧
    FlagSet.contains ((FlagSet.empty.set FieldFlags.required required).set FieldFlags.canFail canFail)
      FieldFlags.canFail = canFail := by
  cases required <;> cases canFail <;> decide

/-- The property that a member of `properties` declares. -/
def propertyOf (required : List String) (property : String × Json) : Property :=
  ⟨property.1, property.2, isSet property.2 "x-can-fail", !required.contains property.1⟩

theorem compiles_property {compile : NodeCompiler} (compiles : CompilesNodes setting compile)
    (building : Building setting opened heap promises state) (base owner : String)
    (required : List String) (order : Nat) (taken : List String) (property : String × Json) :
    Compiles (compileProperty compile setting.context base owner required order taken property) state
      fun answer after => exists later more member,
        Advances setting opened heap promises state later more after ∧
        ServesProperty more (propertyOf required property) member ∧
        answer.1.Is later member order ∧ answer.1.Storable := by
  obtain ⟨name, node⟩ := property
  unfold compileProperty
  refine (compiles node _ _ none building nofun).andThen ?_
  rintro id first ⟨firstHeap, firstPromises, firstAdvances, promised⟩
  have flags := FieldFlags.contains_set (required.contains name) (isSet node "x-can-fail")
  refine (compiles_wrapFieldType firstAdvances.building promised _).andThen ?_
  rintro stored second ⟨secondHeap, secondPromises, secondAdvances, storedPromised⟩
  refine (compiles_build (builds_plainField secondAdvances.building.tabled.holds name
    (some stored) order).run).andThen ?_
  rintro field third ⟨builder, ⟨thirdHeap, added, is⟩, rfl⟩
  have thirdAdvances := secondAdvances.building.added added
  have storable : field.Storable := thirdAdvances.building.storable storedPromised is.type
  have flagged (flags : FieldFlags) : FieldDef.Is thirdHeap
      { name := name, type := some stored, flags := flags } order { field with flags := flags } :=
    ⟨is.name, is.type, is.hash, is.order, rfl, is.activation, is.choice, is.companion⟩
  refine (compiles_nameCompanion thirdAdvances.building
    (flagged ((FlagSet.empty.set FieldFlags.required (required.contains name)).set
      FieldFlags.canFail (isSet node "x-can-fail"))) storable _ _ _).imp ?_
  rintro answer after ⟨later, companion, advances, answerIs, answerStorable⟩
  rw [flags.1, flags.2] at storedPromised
  refine ⟨later, secondPromises, _,
    ((firstAdvances.trans secondAdvances).trans thirdAdvances).trans advances,
    ⟨rfl, ?_, stored, rfl, storedPromised⟩, answerIs, answerStorable⟩
  rw [flags.1]
  exact (Bool.not_not _).symm

theorem compiles_properties {compile : NodeCompiler} (compiles : CompilesNodes setting compile)
    (base owner : String) (required : List String) (properties : List (String × Json))
    (order : Nat) (taken : List String) (building : Building setting opened heap promises state) :
    Compiles (compileProperties compile setting.context base owner required properties order taken)
      state fun fields after => exists later more members,
        MakesFields setting opened heap promises state ServesProperty
          (properties.map (propertyOf required)) order fields after later more members := by
  induction properties generalizing heap promises state order taken with
  | nil => exact ⟨heap, promises, [], .nil building⟩
  | cons property rest ih =>
      unfold compileProperties
      refine (compiles_property compiles building base owner required order taken property).andThen ?_
      rintro ⟨field, taken⟩ middle ⟨heapThen, promisesThen, member, advances, serves, is, storable⟩
      refine (ih (order + 1) taken advances.building).andThen ?_
      rintro fields after ⟨later, more, members, makes⟩
      exact ⟨later, more, member :: members, makes.cons (fun includes => .mono includes) advances
        serves is storable⟩

theorem compiles_propertyFields {compile : NodeCompiler} (compiles : CompilesNodes setting compile)
    (building : Building setting opened heap promises state) (node : Json)
    (pointer owner : String) :
    Compiles (propertyFields compile setting.context node pointer owner (requiredOf node)) state
      fun fields after => exists later more members,
        MakesFields setting opened heap promises state ServesProperty (propertiesOf node) 0 fields
          after later more members := by
  unfold propertyFields propertiesOf
  dsimp only
  split
  · next missing =>
      rw [missing]
      exact ⟨heap, promises, [], .nil building⟩
  · next properties isObject =>
      rw [isObject]
      exact compiles_properties compiles _ owner _ properties 0 [] building
  · exact compiles_reject _ _

/-! ### Alternatives -/

/-- A member of a variant is there for the alternative in some place. -/
def ServesInPlace (promises : Promises) (alternative : Json × Nat) (member : Member) : Prop :=
  ServesAlternative promises ⟨alternative.1, false, false⟩ member ∧
    member.choice = UInt8.ofNat alternative.2

theorem ServesInPlace.mono {promises more : Promises} {alternative : Json × Nat} {member : Member}
    (includes : more.Includes promises) (serves : ServesInPlace promises alternative member) :
    ServesInPlace more alternative member := by
  obtain ⟨⟨type, isType, promised⟩, choice⟩ := serves
  exact ⟨⟨type, isType, includes _ _ promised⟩, choice⟩

theorem compiles_alternative {compile : NodeCompiler} (compiles : CompilesNodes setting compile)
    (building : Building setting opened heap promises state) (pointer owner : String) (index : Nat)
    (taken : List String) (alternative : Json) :
    Compiles (compileAlternative compile pointer owner index taken alternative) state
      fun answer after => exists later more member,
        Advances setting opened heap promises state later more after ∧
        ServesInPlace more (alternative, index) member ∧
        answer.1.Is later member (index + 1) ∧ answer.1.Storable := by
  unfold compileAlternative
  refine (compiles alternative _ _ none building nofun).andThen ?_
  rintro id first ⟨firstHeap, firstPromises, firstAdvances, promised⟩
  obtain ⟨label, type, stored, hasText⟩ := firstAdvances.building.named id _ promised
  have holds := firstAdvances.building.tabled.holds
  have asked : Builds (Builder.query fun schema => return schema.name (← schema.type id))
      first.builder 0 fun found after => label = found ∧ first.builder = after := by
    refine Builds.query ?_ ⟨rfl, rfl⟩
    change (do
      let type ← Schema.type ⟨first.builder.arena⟩ id
      return Schema.name ⟨first.builder.arena⟩ type) = Except.ok label
    rw [holds.type stored]
    exact congrArg Except.ok (holds.name hasText)
  refine (compiles_build asked.run).andThen ?_
  rintro _ _ ⟨_, ⟨rfl, rfl⟩, rfl⟩
  refine (compiles_build (builds_plainField holds label (some id) (index + 1)).run).andThen ?_
  rintro field second ⟨builder, ⟨secondHeap, added, is⟩, rfl⟩
  have secondAdvances := firstAdvances.building.added added
  have storable : field.Storable := secondAdvances.building.storable promised is.type
  have chosen (choice : UInt8) : FieldDef.Is secondHeap
      { name := label, type := some id, choice := choice } (index + 1)
      { field with choice := choice } :=
    ⟨is.name, is.type, is.hash, is.order, is.flags, is.activation, rfl, is.companion⟩
  refine (compiles_nameCompanion secondAdvances.building (chosen (UInt8.ofNat index)) storable
    _ _ _).imp ?_
  rintro answer after ⟨later, companion, advances, answerIs, answerStorable⟩
  exact ⟨later, firstPromises, _, (firstAdvances.trans secondAdvances).trans advances,
    ⟨⟨id, rfl, promised⟩, rfl⟩, answerIs, answerStorable⟩

theorem compiles_alternatives {compile : NodeCompiler} (compiles : CompilesNodes setting compile)
    (pointer owner : String) (alternatives : List Json) (index : Nat) (taken : List String)
    (building : Building setting opened heap promises state) :
    Compiles (compileAlternatives compile pointer owner alternatives index taken) state
      fun fields after => exists later more members,
        MakesFields setting opened heap promises state ServesInPlace (alternatives.zipIdx index)
          (index + 1) fields after later more members := by
  induction alternatives generalizing heap promises state index taken with
  | nil => exact ⟨heap, promises, [], .nil building⟩
  | cons alternative rest ih =>
      unfold compileAlternatives
      refine (compiles_alternative compiles building pointer owner index taken alternative).andThen ?_
      rintro ⟨field, taken⟩ middle ⟨heapThen, promisesThen, member, advances, serves, is, storable⟩
      refine (ih (index + 1) taken advances.building).andThen ?_
      rintro fields after ⟨later, more, members, makes⟩
      exact ⟨later, more, member :: members, makes.cons (fun includes => .mono includes) advances
        serves is storable⟩

/-! ### Opening and closing declared types -/

/-- A declared type was opened for a node. -/
structure Opened (setting : Setting) (opened : List (TypeId × Role)) (heap : Heap)
    (promises : Promises) (state : State) (node : Json) (role : Role) (shape : Shape)
    (prototype : Builtin) (id : TypeId) (later : Heap) (more : Promises) (after : State) :
    Prop where
  building : Building setting ((id, role) :: opened) later more after
  closed : forall otherRole, (id, otherRole) ∉ opened
  free : heap id.offset.toNat = none
  new : setting.old id.offset.toNat = none
  grows : Grows heap later
  includes : more.Includes promises
  promised : more id ⟨node, false, false⟩
  inProgress : after.inProgress = state.inProgress
  type : exists type, HasType later id type ∧ type.IsDeclared ∧ type.shape = shape ∧
    type.prototype = some (setting.context.builtin prototype)

theorem Opened.advance {node : Json} {role : Role} {shape : Shape} {prototype : Builtin}
    {id : TypeId} {later last : Heap} {more most : Promises} {after final : State}
    (isOpened : Opened setting opened heap promises state node role shape prototype id later more
      after)
    (advances : Advances setting ((id, role) :: opened) later more after last most final) :
    Opened setting opened heap promises state node role shape prototype id last most final := by
  refine ⟨advances.building, isOpened.closed, isOpened.free, isOpened.new,
    isOpened.grows.trans advances.grows, isOpened.includes.trans advances.includes,
    advances.includes _ _ isOpened.promised, advances.inProgress.trans isOpened.inProgress, ?_⟩
  obtain ⟨type, stored, declared, sameShape, samePrototype⟩ := isOpened.type
  obtain ⟨laterType, laterStored, same | marks⟩ := advances.grows.hasType stored
  · exact ⟨laterType, laterStored, same ▸ declared, same ▸ sameShape, same ▸ samePrototype⟩
  · obtain ⟨flags, same⟩ := marks.same
    exact ⟨laterType, laterStored, marks.still, same ▸ sameShape, same ▸ samePrototype⟩

/-- A declared type is made, entered and marked before its fields are known. -/
theorem compiles_opened {Next : Type} (building : Building setting opened heap promises state)
    {node : Json} {role : Role} (hasRole : HasRole setting.document ⟨node, false, false⟩ role)
    (title : String) {definition : Option String}
    (isTarget : forall reference, definition = some reference ->
      target? setting.document reference = some node)
    (shape : Shape) (prototype : Builtin) {next : String -> TypeId -> CompileM Next}
    {good : Next -> State -> Prop}
    (continued : forall name id later more after,
      Opened setting opened heap promises state node role shape prototype id later more after ->
      Compiles (next name id) after good) :
    Compiles (do
        let name ← uniqueName title
        let id ← build (Builder.newDeclaredType setting.context name shape prototype)
        register definition id
        applyFlags node id
        next name id) state good := by
  refine (compiles_uniqueName title).andThen ?_
  rintro name _ ⟨names, rfl⟩
  have renamed := building.renamed names
  obtain ⟨prototypeDef, prototypeStored, _⟩ :=
    building.founded.made.stored prototype prototype.mem_all
  refine (compiles_build (builds_newDeclaredType renamed.tabled.holds name shape
    prototypeStored).run).andThen ?_
  rintro id _ ⟨builder, ⟨free, larger, text, added, hasText, hasType⟩, rfl⟩
  have new := building.tabled.since.grows.free free
  have closed : forall otherRole, (id, otherRole) ∉ opened := by
    intro otherRole member
    obtain ⟨_, type, stored, _⟩ := building.declared id otherRole member
    cases free.symm.trans stored
  have plain : TypeDef.IsDeclared { TypeDef.ofShape text shape with
      prototype := some (setting.context.builtin prototype) } := by
    refine ⟨?_, ?_, rfl⟩
    · change FlagSet.contains FlagSet.empty TypeFlags.builtin = false
      decide
    · change FlagSet.contains FlagSet.empty TypeFlags.generic = false
      decide
  have declared : IsNewDeclared setting larger id := ⟨new, _, hasType, plain⟩
  have isOpen := renamed.open_ hasRole added.kept.grows (renamed.tabled.added added)
    added.instances free declared ⟨_, hasType, hasText⟩
  have promised := promises.add_self id ⟨node, false, false⟩
  have includes := promises.includes_add id ⟨node, false, false⟩
  have first : Opened setting opened heap promises state node role shape prototype id larger _ _ :=
    ⟨isOpen, closed, free, new, added.kept.grows, includes, promised, rfl, _, hasType, plain, rfl,
      rfl⟩
  refine (compiles_register isOpen isTarget promised declared).andThen ?_
  rintro _ registered registers
  have second := first.advance registers
  refine (compiles_applyFlags second.building node ⟨new, second.type.imp fun _ isType =>
    ⟨isType.1, isType.2.1⟩⟩).andThen ?_
  rintro _ flagged ⟨later, flags⟩
  exact continued name id later _ flagged (second.advance flags)

/-- A declared type is given its fields and returned. -/
theorem Opened.close {node : Json} {role : Role} {shape : Shape} {prototype : Builtin} {id : TypeId}
    {later : Heap} {more : Promises} {after : State}
    (isOpened : Opened setting opened heap promises state node role shape prototype id later more
      after) (kind : Kind) {members : List Member} {fields : List FieldDef}
    (declaration : kind.declaration setting.context =
      ⟨shape, some (setting.context.builtin prototype), none, false, false, members⟩)
    (details : forall heap, KindDetails heap setting.target setting.context id kind)
    (serves : Serves more role kind) (are : FieldsAre later 0 members fields)
    (storable : forall field, field ∈ fields -> field.Storable) :
    Compiles (do
        let _ ← build (Builder.setFields id fields)
        return id) after
      (Promised setting opened heap promises state ⟨node, false, false⟩) := by
  obtain ⟨type, stored, declared, sameShape, samePrototype⟩ := isOpened.type
  have building := isOpened.building
  refine (compiles_build (builds_setFields building.tabled.holds stored storable).run).andThen ?_
  rintro changed _ ⟨builder, ⟨last, altered, ⟨place, isChanged⟩, changedStored, hasFields⟩, rfl⟩
  have changedDeclared : changed.IsDeclared := by
    rw [isChanged]
    exact ⟨declared.builtin, declared.generic, declared.argument⟩
  have lastAre := altered.kept.grows.fieldsAre (fieldsAre_without stored are)
  have few : 0 + members.length ≤ 2 ^ 32 := by
    have count := hasFields.1
    have length := are.length
    have bound := changed.fieldCount.toNat_lt
    omega
  have declares : Declares last id (kind.declaration setting.context) := by
    rw [declaration]
    refine ⟨changed, fields, changedStored, hasFields, ?_, ?_, ?_, changedDeclared.builtin,
      changedDeclared.generic, fun _ => changedDeclared, ?_⟩
    · rw [isChanged]
      exact sameShape
    · rw [isChanged]
      exact samePrototype
    · rw [isChanged]
      exact declared.argument
    · rw [lastAre.sortBy_eq few]
      exact lastAre
  have sameName : changed.name = type.name := by
    rw [isChanged]
  have parts : kind.IsNew setting.old := by
    have noArgument := congrArg Declaration.argument declaration
    cases kind with
    | map => cases noArgument
    | _ => trivial
  exact ⟨last, more, ⟨building.close isOpened.closed stored declared changedStored changedDeclared
    sameName altered isOpened.new serves parts ⟨declares, details last⟩,
    isOpened.grows.altered isOpened.free altered.kept, isOpened.includes, isOpened.inProgress⟩,
    isOpened.promised⟩

/-! ### Nodes -/

theorem compiles_struct {compile : NodeCompiler} (compiles : CompilesNodes setting compile)
    (building : Building setting opened heap promises state) (node : Json)
    (hasRole : HasRole setting.document ⟨node, false, false⟩ (.struct (propertiesOf node)))
    (pointer title : String) {definition : Option String}
    (isTarget : forall reference, definition = some reference ->
      target? setting.document reference = some node) :
    Compiles (compileStruct compile setting.context node pointer title definition) state
      (Promised setting opened heap promises state ⟨node, false, false⟩) := by
  refine compiles_opened building hasRole title isTarget .struct .structPrototype ?_
  intro name id later more after isOpened
  refine (compiles_requiredNames node pointer).andThen ?_
  rintro _ _ ⟨rfl, rfl⟩
  refine (compiles_propertyFields compiles isOpened.building node pointer name).andThen ?_
  rintro fields final ⟨last, most, members, makes⟩
  have closing := isOpened.advance makes.advances
  exact closing.close (.struct members) rfl (fun _ => trivial) (.struct makes.serving)
    makes.are makes.storable

theorem areChoices_of_serves {alternatives : List Json} {members : List Member}
    (nonempty : alternatives ≠ []) (few : alternatives.length ≤ 255)
    (serving : List.Forall₂ (ServesInPlace promises) (alternatives.zipIdx 0) members) :
    AreChoices members := by
  have length := serving.length_eq
  rw [List.length_zipIdx] at length
  refine ⟨?_, by omega, ?_⟩
  · intro isEmpty
    subst isEmpty
    exact nonempty (List.length_eq_zero_iff.mp length)
  · intro index member found
    obtain ⟨bound, isMember⟩ := List.getElem?_eq_some_iff.mp found
    have inAlternatives : index < alternatives.length := by omega
    have serves := (List.forall₂_iff_get.mp serving).2 index
      (by rw [List.length_zipIdx]; exact inAlternatives) bound
    simp only [List.get_eq_getElem, List.getElem_zipIdx, Nat.zero_add, isMember] at serves
    exact serves.2

theorem forall₂_servesAlternative {alternatives : List Json} {members : List Member} {start : Nat}
    (serving : List.Forall₂ (ServesInPlace promises) (alternatives.zipIdx start) members) :
    List.Forall₂ (ServesAlternative promises)
      (alternatives.map fun alternative => ⟨alternative, false, false⟩) members := by
  induction alternatives generalizing start members with
  | nil =>
      cases serving
      exact .nil
  | cons alternative rest ih =>
      cases serving with
      | cons serves others => exact .cons serves.1 (ih others)

theorem compiles_variant {compile : NodeCompiler} (compiles : CompilesNodes setting compile)
    (building : Building setting opened heap promises state) (node alternatives : Json)
    (hasRole : forall items, alternatives = .array items ->
      HasRole setting.document ⟨node, false, false⟩
        (.variant (items.map fun item => ⟨item, false, false⟩)))
    (pointer title : String) {definition : Option String}
    (isTarget : forall reference, definition = some reference ->
      target? setting.document reference = some node) :
    Compiles (compileVariant compile setting.context node alternatives pointer title definition)
      state (Promised setting opened heap promises state ⟨node, false, false⟩) := by
  unfold compileVariant
  split
  · next items =>
      split
      · exact compiles_reject _ _
      · next counted =>
          have nonempty : items ≠ [] := by
            intro isEmpty
            exact counted (Or.inl (List.isEmpty_iff.mpr isEmpty))
          have few : items.length ≤ 255 := Nat.le_of_not_lt fun many => counted (Or.inr many)
          refine compiles_opened building (hasRole items rfl) title isTarget .variant
            .variantPrototype ?_
          intro name id later more after isOpened
          refine (compiles_build (builds_plainField isOpened.building.tabled.holds "tag"
            (some (setting.context.builtin .tag)) 0).run).andThen ?_
          rintro tag _ ⟨builder, ⟨tagHeap, added, tagIs⟩, rfl⟩
          have tagged := isOpened.advance (isOpened.building.added added)
          refine (compiles_alternatives compiles pointer name items 0 [] tagged.building).andThen ?_
          rintro fields final ⟨last, most, members, makes⟩
          have closing := tagged.advance makes.advances
          obtain ⟨tagDef, tagStored, _⟩ := tagged.building.founded.made.stored .tag
            (Builtin.mem_all .tag)
          have tagStorable : tag.Storable := by
            intro other same
            cases tagIs.type.symm.trans same
            exact tagged.building.tabled.holds.ne_null tagStored
          exact closing.close (.variant members) rfl
            (fun _ => areChoices_of_serves nonempty few makes.serving)
            (.variant (forall₂_servesAlternative makes.serving))
            (.cons (makes.advances.grows.fieldIs tagIs) makes.are)
            (List.forall_mem_cons.mpr ⟨tagStorable, makes.storable⟩)
  · exact compiles_reject _ _

theorem compiles_object {compile : NodeCompiler} (compiles : CompilesNodes setting compile)
    (building : Building setting opened heap promises state) (node : Json)
    (hasRole : HasRole setting.document ⟨node, false, false⟩ (objectRole node))
    (pointer title : String) {definition : Option String}
    (isTarget : forall reference, definition = some reference ->
      target? setting.document reference = some node) :
    Compiles (compileObject compile setting.context node pointer title definition) state
      (Promised setting opened heap promises state ⟨node, false, false⟩) := by
  unfold objectRole at hasRole
  unfold compileObject
  split
  · next values missing isObject =>
      rw [missing, isObject] at hasRole
      refine (compiles (.object values) _ _ none building nofun).andThen ?_
      rintro value middle ⟨later, more, advances, promised⟩
      obtain ⟨name, named⟩ := advances.building.named value _ promised
      refine (compiles_build (builds_mapOf advances.building.tabled advances.building.founded named
        (advances.building.ne_char promised)).run).imp ?_
      rintro id _ ⟨builder, makes, rfl⟩
      obtain ⟨last, most, further, isPromised⟩ := advances.building.makesKind makes hasRole (by
        rintro kind ⟨parts, keys, values, strings, rfl⟩
        exact ⟨.map promised, rfl, parts⟩)
      exact ⟨last, most, advances.trans further, isPromised⟩
  · next other =>
      refine compiles_struct compiles building node ?_ pointer title isTarget
      revert hasRole
      split
      · next values missing isObject => exact absurd isObject (other values missing)
      · exact id

theorem compiles_array {compile : NodeCompiler} (compiles : CompilesNodes setting compile)
    (building : Building setting opened heap promises state) (node : Json)
    (hasRole : forall items, node.member? "items" = some items ->
      HasRole setting.document ⟨node, false, false⟩ (.array ⟨items, false, false⟩))
    (pointer title : String) :
    Compiles (compileArray compile setting.context node pointer title) state
      (Promised setting opened heap promises state ⟨node, false, false⟩) := by
  unfold compileArray
  split
  · exact compiles_reject _ _
  · next items isItems =>
      refine (compiles items _ _ none building nofun).andThen ?_
      rintro element middle ⟨later, more, advances, promised⟩
      obtain ⟨name, named⟩ := advances.building.named element _ promised
      refine (compiles_build (builds_arrayOf advances.building.tabled advances.building.founded
        named (advances.building.ne_char promised)).run).imp ?_
      rintro id _ ⟨builder, makes, rfl⟩
      obtain ⟨last, most, further, isPromised⟩ := advances.building.makesKind makes
        (hasRole items isItems) (by
          rintro kind rfl
          exact ⟨.array promised, rfl, trivial⟩)
      exact ⟨last, most, advances.trans further, isPromised⟩

theorem compiles_typed {compile : NodeCompiler} (compiles : CompilesNodes setting compile)
    (building : Building setting opened heap promises state) (node : Json) (typeName : String)
    (hasRole : forall role, typedRole? node typeName = some role ->
      HasRole setting.document ⟨node, false, false⟩ role)
    (pointer title : String) {definition : Option String}
    (isTarget : forall reference, definition = some reference ->
      target? setting.document reference = some node) :
    Compiles (compileTyped compile setting.context node pointer title definition typeName) state
      (Promised setting opened heap promises state ⟨node, false, false⟩) := by
  unfold compileTyped
  split
  · exact compiles_object compiles building node (hasRole _ rfl) pointer title isTarget
  · refine compiles_array compiles building node ?_ pointer title
    intro items isItems
    refine hasRole _ ?_
    simp only [typedRole?, isItems, Option.map_some]
  · exact building.text (hasRole _ rfl)
  · exact building.scalar (by decide) (hasRole _ rfl) .integer
  · exact building.scalar (by decide) (hasRole _ rfl) .number
  · exact building.scalar (by decide) (hasRole _ rfl) .boolean
  · exact building.scalar (by decide) (hasRole _ rfl) .null
  · exact compiles_reject _ _

theorem compiles_typeName (node : Json) (pointer : String) :
    Compiles (typeName node pointer) state fun name after =>
      typeNameOf? node = some name ∧ after = state := by
  unfold typeName
  split
  · next name isText =>
      refine ⟨?_, rfl⟩
      simp only [typeNameOf?, isText]
  · exact compiles_reject _ _
  · next missing =>
      split
      · next isObject =>
          refine ⟨?_, rfl⟩
          simp only [typeNameOf?, missing, isObject, if_true]
      · exact compiles_reject _ _

/-! ### References -/

theorem compiles_findDefinition (reference : String) :
    Compiles (findDefinition? reference) state fun found after =>
      state.definitions.lookup reference = found ∧ state = after :=
  ⟨rfl, rfl⟩

theorem compiles_isInProgress (reference : String) :
    Compiles (isInProgress reference) state fun answer after =>
      state.inProgress.contains reference = answer ∧ state = after :=
  ⟨rfl, rfl⟩

/-- The compilation of a definition begins. -/
theorem Building.enter (building : Building setting opened heap promises state) {reference : String}
    (missing : state.definitions.lookup reference = none) (new : reference ∉ state.inProgress) :
    Building setting opened heap promises
      { state with inProgress := reference :: state.inProgress } := by
  refine ⟨building.tabled, building.founded, building.declared, building.kept, building.waiting,
    building.named, building.new, ?_, List.nodup_cons.mpr ⟨new, building.distinct⟩⟩
  intro other id found
  obtain ⟨isTarget, isDeclared⟩ := building.definitions other id found
  refine ⟨isTarget, fun member => ?_⟩
  cases List.mem_cons.mp member with
  | inl same =>
      subst same
      cases missing.symm.trans found
  | inr earlier => exact isDeclared earlier

/-- The compilation of a definition has ended. -/
theorem Building.leave (building : Building setting opened heap promises state)
    (reference : String) : Building setting opened heap promises
      { state with inProgress := state.inProgress.erase reference } := by
  refine ⟨building.tabled, building.founded, building.declared, building.kept, building.waiting,
    building.named, building.new, ?_, building.distinct.erase reference⟩
  intro other id found
  obtain ⟨isTarget, isDeclared⟩ := building.definitions other id found
  exact ⟨isTarget, fun member => isDeclared (List.mem_of_mem_erase member)⟩

theorem compiles_definition {compile : NodeCompiler} (compiles : CompilesNodes setting compile)
    (building : Building setting opened heap promises state) {reference name : String}
    (isDefinition : definitionName? reference = some name)
    (missing : state.definitions.lookup reference = none) (new : reference ∉ state.inProgress)
    {target : Json} (resolved : Json.Pointer.resolve? (String.ofList (reference.toList.drop 1))
      setting.document = some target) (pointer : String) :
    Compiles (do
        enterDefinition reference
        let id ← compile target pointer name (some reference)
        leaveDefinition reference
        define reference id
        return id) state
      (Promised setting opened heap promises state ⟨target, false, false⟩) := by
  have isTarget : target? setting.document reference = some target := by
    unfold target?
    rw [isDefinition]
    exact resolved
  have entered := building.enter missing new
  have enters : Compiles (enterDefinition reference) state fun _ after =>
      { state with inProgress := reference :: state.inProgress } = after := rfl
  refine enters.andThen ?_
  rintro _ _ rfl
  refine (compiles target pointer name (some reference) entered (by
    rintro _ ⟨rfl⟩
    exact isTarget)).andThen ?_
  rintro id after ⟨later, more, advances, promised⟩
  have left := advances.building.leave reference
  have sameProgress : after.inProgress.erase reference = state.inProgress := by
    simp only [advances.inProgress, List.erase_cons_head]
  rw [sameProgress] at left
  have defined := left.define isTarget promised fun member => absurd member new
  refine ⟨later, more, ⟨?_, advances.grows, advances.includes, ?_⟩, promised⟩
  · change Building setting opened later more ⟨after.builder, after.names,
      (reference, id) :: after.definitions, after.inProgress.erase reference⟩
    rw [sameProgress]
    exact defined
  · exact sameProgress

theorem compiles_reference {compile : NodeCompiler} (compiles : CompilesNodes setting compile)
    (building : Building setting opened heap promises state) {node reference : Json}
    (isReference : node.member? "$ref" = some reference) (pointer : String) :
    Compiles (compileReference compile setting.document pointer reference) state
      (Promised setting opened heap promises state ⟨node, false, false⟩) := by
  unfold compileReference
  split
  · next reference =>
      -- A promise for the target of a reference is one for the reference.
      have follow {target : Json} {id : TypeId} {after : State}
          (isTarget : target? setting.document reference = some target)
          (promised : Promised setting opened heap promises state ⟨target, false, false⟩ id after) :
          Promised setting opened heap promises state ⟨node, false, false⟩ id after := by
        obtain ⟨later, more, advances, isPromised⟩ := promised
        refine ⟨later, _, advances.trans (advances.building.promise isPromised ?_),
          more.add_self id _⟩
        intro role hasRole
        cases hasRole with
        | node describes => exact .node (.reference isReference isTarget describes)
      split
      · exact compiles_reject _ _
      · next name isDefinition =>
          refine (compiles_findDefinition reference).andThen ?_
          rintro found _ ⟨isFound, rfl⟩
          split
          · next id =>
              obtain ⟨⟨target, isTarget, promised⟩, declared⟩ :=
                building.definitions reference id isFound
              have asTarget := follow isTarget ⟨heap, promises, .refl building, promised⟩
              refine (compiles_isInProgress reference).andThen ?_
              rintro answer _ ⟨isAnswer, rfl⟩
              split
              · next inProgress =>
                  have contained : state.inProgress.contains reference = true :=
                    isAnswer.trans inProgress
                  obtain ⟨new, type, stored, isDeclared⟩ :=
                    declared (List.contains_iff_mem.mp contained)
                  have storable := building.tabled.holds.storable _ _ stored
                  refine (compiles_build (builds_updateType building.tabled.holds (fun type =>
                    { type with flags := type.flags.insert TypeFlags.storedByReference }) stored
                    ⟨storable.prototype, storable.argument⟩).run).andThen ?_
                  rintro changed _ ⟨builder, ⟨_, instances, held⟩, rfl⟩
                  exact follow isTarget ⟨_, promises, building.marked new stored
                    isDeclared.markedByReference held instances, promised⟩
              · exact asTarget
          · refine (compiles_isInProgress reference).andThen ?_
            rintro answer _ ⟨isAnswer, rfl⟩
            split
            · exact compiles_reject _ _
            · next notInProgress =>
                have new : reference ∉ state.inProgress := by
                  intro member
                  have contained : state.inProgress.contains reference = true :=
                    List.contains_iff_mem.mpr member
                  exact notInProgress (isAnswer.symm.trans contained)
                dsimp only
                split
                · exact compiles_reject _ _
                · next target resolved =>
                    have isTarget : target? setting.document reference = some target := by
                      unfold target?
                      rw [isDefinition]
                      exact resolved
                    exact (compiles_definition compiles building isDefinition isFound new resolved
                      _).imp fun id after promised => follow isTarget promised
  · exact compiles_reject _ _

theorem compiles_node {compile : NodeCompiler} (compiles : CompilesNodes setting compile) :
    CompilesNodes setting (compileNode compile setting.context setting.document) := by
  intro opened heap promises state node pointer name definition building isTarget
  unfold compileNode
  split
  · next members =>
      split
      · next reference isReference =>
          exact compiles_reference compiles building isReference pointer
      · next noReference =>
          have stated {role : Role} (isStated : statedRole? (.object members) = some role) :
              HasRole setting.document ⟨.object members, false, false⟩ role :=
            .node (.stated noReference isStated)
          dsimp only
          split
          · next alternatives isOneOf =>
              refine compiles_variant compiles building _ alternatives ?_ _ _ isTarget
              rintro items rfl
              refine stated ?_
              simp only [statedRole?, isOneOf, Option.some_or]
          · next alternatives noOneOf isAnyOf =>
              refine compiles_variant compiles building _ alternatives ?_ _ _ isTarget
              rintro items rfl
              refine stated ?_
              simp only [statedRole?, noOneOf, isAnyOf, Option.none_or]
          · next noOneOf noAnyOf =>
              refine (compiles_typeName _ pointer).andThen ?_
              rintro typeName _ ⟨isName, rfl⟩
              refine compiles_typed compiles building _ typeName ?_ pointer _ isTarget
              intro role isTyped
              refine stated ?_
              simp only [statedRole?, noOneOf, noAnyOf, Option.none_or, isName, Option.bind_some,
                isTyped]
  · exact compiles_reject _ _

/-- Nodes of any nesting are compiled to types that are promised for them. -/
theorem compiles_within (setting : Setting) (levels : Nat) :
    CompilesNodes setting (compileWithin setting.context setting.document levels) := by
  induction levels with
  | zero =>
      intro opened heap promises state node pointer name definition _ _
      exact compiles_reject _ _
  | succ levels ih => exact compiles_node ih

end Compiling

end TextSchema
end PackedJson
