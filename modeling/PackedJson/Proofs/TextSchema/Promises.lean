import PackedJson.Proofs.Schema.Kind
import PackedJson.Proofs.TextSchema.Meaning

namespace PackedJson
namespace TextSchema

open Heap Builder

/-!
Types that serve the terms of a text schema.

While a text schema is compiled, identifiers are promised to be types for
terms: their kinds serve the roles of the terms.  Declared types are promised
before they have their fields; until then they are open.  `Building` is the
invariant of the compilation of one target.
-/

/-- What is fixed while the types of one target are compiled. -/
structure Setting where
  /-- The heap before the target was begun. -/
  old : Heap
  target : Target
  context : Context
  document : Json

/-- Which types are meant for which terms. -/
abbrev Promises := TypeId -> Term -> Prop

namespace Promises

/-- One more type is meant for a term. -/
def add (promises : Promises) (id : TypeId) (term : Term) : Promises :=
  fun other otherTerm => promises other otherTerm ∨ other = id ∧ otherTerm = term

/-- Promises are not taken back. -/
def Includes (more promises : Promises) : Prop :=
  forall id term, promises id term -> more id term

theorem Includes.refl (promises : Promises) : Includes promises promises := fun _ _ => id

theorem Includes.trans {first second third : Promises} (more : Includes second first)
    (most : Includes third second) : Includes third first :=
  fun id term promised => most id term (more id term promised)

theorem includes_add (promises : Promises) (id : TypeId) (term : Term) :
    Includes (promises.add id term) promises :=
  fun _ _ => Or.inl

theorem add_self (promises : Promises) (id : TypeId) (term : Term) : promises.add id term id term :=
  Or.inr ⟨rfl, rfl⟩

end Promises

/-- A member of a struct is there for a property. -/
def ServesProperty (promises : Promises) (property : Property) (member : Member) : Prop :=
  member.name = property.name ∧
    member.flags.contains FieldFlags.required = !property.term.optional ∧
    exists type, member.type = some type ∧ promises type property.term

/-- A member of a variant is there for an alternative. -/
def ServesAlternative (promises : Promises) (term : Term) (member : Member) : Prop :=
  exists type, member.type = some type ∧ promises type term

/-- Types of a kind serve a role. -/
inductive Serves (promises : Promises) : Role -> Kind -> Prop where
  | integer : Serves promises .integer (.scalar .integer)
  | number : Serves promises .number (.scalar .number)
  | boolean : Serves promises .boolean (.scalar .boolean)
  | null : Serves promises .null (.scalar .unit)
  | string : Serves promises .string .text
  | array {term : Term} {element : TypeId} : promises element term ->
      Serves promises (.array term) (.array element)
  | map {term : Term} {value keys values strings : TypeId} : promises value term ->
      Serves promises (.map term) (.map value keys values strings)
  | option {term : Term} {inner : TypeId} : promises inner term ->
      Serves promises (.option term) (.option inner)
  | result {term : Term} {inner : TypeId} : promises inner term ->
      Serves promises (.result term) (.result inner)
  | struct {properties : List Property} {members : List Member} :
      List.Forall₂ (ServesProperty promises) properties members ->
      Serves promises (.struct properties) (.struct members)
  | variant {alternatives : List Term} {members : List Member} :
      List.Forall₂ (ServesAlternative promises) alternatives members ->
      Serves promises (.variant alternatives) (.variant members)

theorem Serves.mono {promises more : Promises} {role : Role} {kind : Kind}
    (serves : Serves promises role kind) (includes : more.Includes promises) :
    Serves more role kind := by
  cases serves with
  | integer => exact .integer
  | number => exact .number
  | boolean => exact .boolean
  | null => exact .null
  | string => exact .string
  | array promised => exact .array (includes _ _ promised)
  | map promised => exact .map (includes _ _ promised)
  | option promised => exact .option (includes _ _ promised)
  | result promised => exact .result (includes _ _ promised)
  | struct served =>
      exact .struct (served.imp fun _ _ ⟨name, required, type, isType, promised⟩ =>
        ⟨name, required, type, isType, includes _ _ promised⟩)
  | variant served =>
      exact .variant (served.imp fun _ _ ⟨type, isType, promised⟩ =>
        ⟨type, isType, includes _ _ promised⟩)

/-- A promise is kept: the type is of a kind that serves the role of the term. -/
def Kept (setting : Setting) (heap : Heap) (promises : Promises) (id : TypeId) (term : Term) :
    Prop :=
  exists role kind, HasRole setting.document term role ∧ Serves promises role kind ∧
    IsKind heap setting.target setting.context id kind ∧ kind.IsNew setting.old

/-- A stored declared type that was not there before. -/
def IsNewDeclared (setting : Setting) (heap : Heap) (id : TypeId) : Prop :=
  setting.old id.offset.toNat = none ∧ exists type, HasType heap id type ∧ type.IsDeclared

/-- What holds while the types of a target are compiled.  Some declared types
are open, each with the role that it is to serve. -/
structure Building (setting : Setting) (opened : List (TypeId × Role)) (heap : Heap)
    (promises : Promises) (state : State) : Prop where
  tabled : Tabled setting.old [setting.context.textKey] heap state.builder
  founded : Founded setting.old heap state.builder.instances setting.target setting.context
  /-- Open types are declared types. -/
  declared : forall id role, (id, role) ∈ opened -> IsNewDeclared setting heap id
  kept : forall id term, promises id term -> (forall role, (id, role) ∉ opened) ->
    Kept setting heap promises id term
  waiting : forall id term, promises id term -> forall role, (id, role) ∈ opened ->
    HasRole setting.document term role
  named : forall id term, promises id term -> exists name, Named heap id name
  new : forall id term, promises id term -> setting.old id.offset.toNat = none
  definitions : forall reference id, state.definitions.lookup reference = some id ->
    (exists target, target? setting.document reference = some target ∧
      promises id ⟨target, false, false⟩) ∧
    (reference ∈ state.inProgress -> IsNewDeclared setting heap id)
  distinct : state.inProgress.Nodup

/-- A later state of the compilation, with the same types open. -/
structure Advances (setting : Setting) (opened : List (TypeId × Role)) (heap : Heap)
    (promises : Promises) (state : State) (later : Heap) (more : Promises) (after : State) :
    Prop where
  building : Building setting opened later more after
  grows : Grows heap later
  includes : more.Includes promises
  inProgress : after.inProgress = state.inProgress

section Steps

variable {setting : Setting} {opened : List (TypeId × Role)} {heap later : Heap}
  {promises more : Promises} {state after : State} {id : TypeId} {term : Term}

theorem Advances.refl (building : Building setting opened heap promises state) :
    Advances setting opened heap promises state heap promises state :=
  ⟨building, Grows.refl heap, .refl promises, rfl⟩

theorem Advances.trans {last : Heap} {most : Promises} {final : State}
    (first : Advances setting opened heap promises state later more after)
    (second : Advances setting opened later more after last most final) :
    Advances setting opened heap promises state last most final :=
  ⟨second.building, first.grows.trans second.grows, first.includes.trans second.includes,
    second.inProgress.trans first.inProgress⟩

theorem IsNewDeclared.grows (declared : IsNewDeclared setting heap id) (grows : Grows heap later) :
    IsNewDeclared setting later id := by
  obtain ⟨new, type, stored, isDeclared⟩ := declared
  obtain ⟨laterType, laterStored, same | marks⟩ := grows.hasType stored
  · exact ⟨new, laterType, laterStored, same ▸ isDeclared⟩
  · exact ⟨new, laterType, laterStored, marks.still⟩

theorem Kept.grows (kept : Kept setting heap promises id term) (grows : Grows heap later)
    (includes : more.Includes promises) : Kept setting later more id term := by
  obtain ⟨role, kind, hasRole, serves, is, parts⟩ := kept
  exact ⟨role, kind, hasRole, serves.mono includes, is.grows grows, parts⟩

/-- Promised types are not types of text bytes. -/
theorem Building.ne_char (building : Building setting opened heap promises state)
    (promised : promises id term) : id ≠ setting.context.builtin .char := by
  intro same
  obtain ⟨name, charStored, _⟩ := building.founded.basics.scalars .char 1 (by
    cases setting.target <;> decide)
  rw [← same] at charStored
  have isBuiltin := TypeDef.isBuiltin_scalar name (UInt32.ofNat 1)
  by_cases isOpen : exists role, (id, role) ∈ opened
  · obtain ⟨role, member⟩ := isOpen
    obtain ⟨_, type, stored, declared⟩ := building.declared id role member
    cases hasType_inj stored charStored
    cases isBuiltin.symm.trans declared.builtin
  · obtain ⟨role, kind, hasRole, serves, ⟨declares, details⟩, _⟩ :=
      building.kept id term promised fun role member => isOpen ⟨role, member⟩
    have notChar {builtin : Builtin} (isOther : id = setting.context.builtin builtin) :
        builtin = .char := building.founded.builtin_inj (isOther.symm.trans same)
    have contradiction_ {declaration : Declaration} (declares : Declares heap id declaration)
        (plain : declaration.builtin = false) : False := by
      obtain ⟨type, _, stored, _, is⟩ := declares
      cases hasType_inj stored charStored
      cases isBuiltin.symm.trans (is.builtin.trans plain)
    cases serves with
    | integer => cases notChar details.1
    | number => cases notChar details.1
    | boolean => cases notChar details.1
    | null => cases notChar details.1
    | string => cases notChar details
    | array => exact contradiction_ declares rfl
    | map => exact contradiction_ declares rfl
    | option => exact contradiction_ declares rfl
    | result => exact contradiction_ declares rfl
    | struct => exact contradiction_ declares rfl
    | variant => exact contradiction_ declares rfl

/-- The invariant holds of a later heap with a later table. -/
theorem Building.moved (building : Building setting opened heap promises state)
    {builder : Builder} (tabled : Tabled setting.old [setting.context.textKey] later builder)
    (grows : Grows heap later) (continues : Continues state.builder.instances builder.instances) :
    Building setting opened later promises { state with builder := builder } := by
  refine ⟨tabled, building.founded.grows grows continues, ?_, ?_, building.waiting, ?_,
    building.new, ?_, building.distinct⟩
  · intro id role member
    exact (building.declared id role member).grows grows
  · intro id term promised closed
    exact (building.kept id term promised closed).grows grows (.refl promises)
  · intro id term promised
    obtain ⟨name, named⟩ := building.named id term promised
    exact ⟨name, named.grows grows⟩
  · intro reference id found
    obtain ⟨isTarget, isDeclared⟩ := building.definitions reference id found
    exact ⟨isTarget, fun member => (isDeclared member).grows grows⟩

/-- Instances were made. -/
theorem Building.instantiated (building : Building setting opened heap promises state)
    {builder : Builder}
    (made : Instantiated setting.old [setting.context.textKey] heap state.builder later builder) :
    Advances setting opened heap promises state later promises { state with builder := builder } :=
  ⟨building.moved made.tabled made.kept.grows made.continues, made.kept.grows, .refl promises, rfl⟩

/-- Cells were added. -/
theorem Building.added (building : Building setting opened heap promises state) {builder : Builder}
    (added : Added heap state.builder later builder) :
    Advances setting opened heap promises state later promises { state with builder := builder } := by
  refine ⟨building.moved (building.tabled.added added) added.kept.grows ?_, added.kept.grows,
    .refl promises, rfl⟩
  rw [added.instances]
  exact .refl _

/-- A new declared type was marked. -/
theorem Building.marked (building : Building setting opened heap promises state)
    {builder : Builder} {type marked : TypeDef} (new : setting.old id.offset.toNat = none)
    (stored : HasType heap id type) (marks : type.Remarks marked)
    (holds : (heap.set id.offset.toNat (.type marked)).Holds builder.arena)
    (instances : builder.instances = state.builder.instances) :
    Advances setting opened heap promises state (heap.set id.offset.toNat (.type marked)) promises
      { state with builder := builder } := by
  have grows := (Grows.refl heap).mark stored marks
  refine ⟨building.moved (building.tabled.grown (building.tabled.since.set _ new) holds grows
    instances) grows ?_, grows, .refl promises, rfl⟩
  rw [instances]
  exact .refl _

/-- A promise for the role of another term that the type was promised for. -/
theorem Building.promise (building : Building setting opened heap promises state)
    (promised : promises id term) {other : Term}
    (sameRole : forall role, HasRole setting.document term role ->
      HasRole setting.document other role) :
    Advances setting opened heap promises state heap (promises.add id other) state := by
  have includes := promises.includes_add id other
  refine ⟨⟨building.tabled, building.founded, building.declared, ?_, ?_, ?_, ?_, ?_,
    building.distinct⟩, Grows.refl heap, includes, rfl⟩
  · rintro otherId otherTerm (earlier | ⟨rfl, rfl⟩) closed
    · exact (building.kept otherId otherTerm earlier closed).grows (Grows.refl heap) includes
    · obtain ⟨role, kind, hasRole, serves, is, parts⟩ := building.kept otherId term promised closed
      exact ⟨role, kind, sameRole role hasRole, serves.mono includes, is, parts⟩
  · rintro otherId otherTerm (earlier | ⟨rfl, rfl⟩) role isOpen
    · exact building.waiting otherId otherTerm earlier role isOpen
    · exact sameRole role (building.waiting otherId term promised role isOpen)
  · rintro otherId otherTerm (earlier | ⟨rfl, rfl⟩)
    · exact building.named otherId otherTerm earlier
    · exact building.named otherId term promised
  · rintro otherId otherTerm (earlier | ⟨rfl, rfl⟩)
    · exact building.new otherId otherTerm earlier
    · exact building.new otherId term promised
  · intro reference otherId found
    obtain ⟨⟨target, isTarget, isPromised⟩, isDeclared⟩ :=
      building.definitions reference otherId found
    exact ⟨⟨target, isTarget, Or.inl isPromised⟩, isDeclared⟩

/-- A promise that is kept from the start. -/
theorem Building.keep (building : Building setting opened heap promises state) {role : Role}
    {kind : Kind} (hasRole : HasRole setting.document term role) (serves : Serves promises role kind)
    (is : IsKind heap setting.target setting.context id kind)
    (undeclared : (kind.declaration setting.context).builtin = true ∨
      (kind.declaration setting.context).argument.isSome)
    (parts : kind.IsNew setting.old) {name : String} (named : Named heap id name)
    (new : setting.old id.offset.toNat = none) :
    Advances setting opened heap promises state heap (promises.add id term) state := by
  have includes := promises.includes_add id term
  refine ⟨⟨building.tabled, building.founded, building.declared, ?_, ?_, ?_, ?_, ?_,
    building.distinct⟩, Grows.refl heap, includes, rfl⟩
  · rintro otherId otherTerm (earlier | ⟨rfl, rfl⟩) closed
    · exact (building.kept otherId otherTerm earlier closed).grows (Grows.refl heap) includes
    · exact ⟨role, kind, hasRole, serves.mono includes, is, parts⟩
  · rintro otherId otherTerm (earlier | ⟨rfl, rfl⟩) otherRole isOpen
    · exact building.waiting otherId otherTerm earlier otherRole isOpen
    · obtain ⟨_, type, stored, declared⟩ := building.declared otherId otherRole isOpen
      exact absurd rfl (ne_of_declared stored declared is.declares undeclared)
  · rintro otherId otherTerm (earlier | ⟨rfl, rfl⟩)
    · exact building.named otherId otherTerm earlier
    · exact ⟨name, named⟩
  · rintro otherId otherTerm (earlier | ⟨rfl, rfl⟩)
    · exact building.new otherId otherTerm earlier
    · exact new
  · intro reference otherId found
    obtain ⟨⟨target, isTarget, isPromised⟩, isDeclared⟩ :=
      building.definitions reference otherId found
    exact ⟨⟨target, isTarget, Or.inl isPromised⟩, isDeclared⟩

/-- A new declared type is opened for a term. -/
theorem Building.open_ (building : Building setting opened heap promises state) {role : Role}
    (hasRole : HasRole setting.document term role) {builder : Builder}
    (grows : Grows heap later)
    (tabled : Tabled setting.old [setting.context.textKey] later builder)
    (instances : builder.instances = state.builder.instances)
    (free : heap id.offset.toNat = none) (declared : IsNewDeclared setting later id)
    {name : String} (named : Named later id name) :
    Building setting ((id, role) :: opened) later (promises.add id term)
      { state with builder := builder } := by
  have includes := promises.includes_add id term
  have moved := building.moved tabled grows (by rw [instances]; exact .refl _)
  have earlier_ne {other : TypeId} {otherTerm : Term} (promised : promises other otherTerm) :
      other ≠ id := by
    intro same
    subst same
    obtain ⟨name, type, stored, _⟩ := building.named other otherTerm promised
    cases free.symm.trans stored
  have opened_ne {other : TypeId} {otherRole : Role} (isOpen : (other, otherRole) ∈ opened) :
      other ≠ id := by
    intro same
    subst same
    obtain ⟨_, type, stored, _⟩ := building.declared other otherRole isOpen
    cases free.symm.trans stored
  refine ⟨moved.tabled, moved.founded, ?_, ?_, ?_, ?_, ?_, ?_, moved.distinct⟩
  · intro other otherRole isOpen
    cases List.mem_cons.mp isOpen with
    | inl same =>
        cases same
        exact declared
    | inr earlier => exact moved.declared other otherRole earlier
  · rintro other otherTerm (earlier | ⟨rfl, rfl⟩) closed
    · exact (moved.kept other otherTerm earlier fun otherRole isOpen =>
        closed otherRole (List.mem_cons_of_mem _ isOpen)).grows (Grows.refl later) includes
    · exact absurd List.mem_cons_self (closed role)
  · rintro other otherTerm (earlier | ⟨rfl, rfl⟩) otherRole isOpen
    · cases List.mem_cons.mp isOpen with
      | inl same =>
          cases same
          exact absurd rfl (earlier_ne earlier)
      | inr isEarlier => exact moved.waiting other otherTerm earlier otherRole isEarlier
    · cases List.mem_cons.mp isOpen with
      | inl same =>
          cases same
          exact hasRole
      | inr isEarlier => exact absurd rfl (opened_ne isEarlier)
  · rintro other otherTerm (earlier | ⟨rfl, rfl⟩)
    · exact moved.named other otherTerm earlier
    · exact ⟨name, named⟩
  · rintro other otherTerm (earlier | ⟨rfl, rfl⟩)
    · exact moved.new other otherTerm earlier
    · exact declared.1
  · intro reference other found
    obtain ⟨⟨target, isTarget, isPromised⟩, isDeclared⟩ := moved.definitions reference other found
    exact ⟨⟨target, isTarget, Or.inl isPromised⟩, isDeclared⟩

/-- An open type gets its fields and is open no longer. -/
theorem Building.close {role : Role} {kind : Kind}
    (building : Building setting ((id, role) :: opened) heap promises state)
    (closed : forall otherRole, (id, otherRole) ∉ opened) {builder : Builder}
    {type laterType : TypeDef} (stored : HasType heap id type) (declared : type.IsDeclared)
    (laterStored : HasType later id laterType) (laterDeclared : laterType.IsDeclared)
    (sameName : laterType.name = type.name)
    (altered : Altered heap state.builder id later builder) (new : setting.old id.offset.toNat = none)
    (serves : Serves promises role kind) (parts : kind.IsNew setting.old)
    (is : IsKind later setting.target setting.context id kind) :
    Building setting opened later promises { state with builder := builder } := by
  have kept := altered.kept
  have sameGeneric := laterDeclared.generic.trans declared.generic.symm
  have unused : type.isGeneric = true -> type.fieldCount = 0 := by
    intro generic
    cases generic.symm.trans declared.generic
  have keepsDeclared {other : TypeId} (isDeclared : IsNewDeclared setting heap other) :
      IsNewDeclared setting later other := by
    obtain ⟨otherNew, otherType, otherStored, otherDeclared⟩ := isDeclared
    by_cases same : other = id
    · subst same
      exact ⟨new, laterType, laterStored, laterDeclared⟩
    · exact ⟨otherNew, otherType, kept.hasType (hasType_without otherStored same), otherDeclared⟩
  have tabled : Tabled setting.old [setting.context.textKey] later builder := by
    refine ⟨?_, altered.holds, ?_, ?_, ?_⟩
    · intro position cell before
      refine kept position cell ((without_other heap ?_).trans
        (building.tabled.since position cell before))
      intro same
      subst same
      cases new.symm.trans before
    · rw [altered.instances]
      refine building.tabled.complete.change building.tabled.known stored unused laterStored
        sameGeneric kept ?_ fun _ _ _ _ _ => sameName
      intro generic argument _ hasArgument
      cases declared.argument.symm.trans hasArgument
    · rw [altered.instances]
      exact building.tabled.known.change stored unused laterStored kept
    · rw [altered.instances]
      exact building.tabled.new
  have founded := building.founded.change stored declared kept
  rw [← altered.instances] at founded
  refine ⟨tabled, founded, ?_, ?_, ?_, ?_, building.new, ?_, building.distinct⟩
  · intro other otherRole isOpen
    exact keepsDeclared (building.declared other otherRole (List.mem_cons_of_mem _ isOpen))
  · intro other term promised stillClosed
    by_cases same : other = id
    · subst same
      exact ⟨role, kind, building.waiting other term promised role List.mem_cons_self, serves, is,
        parts⟩
    · obtain ⟨otherRole, otherKind, hasRole, otherServes, otherIs, otherParts⟩ :=
        building.kept other term promised fun otherRole isOpen => by
          cases List.mem_cons.mp isOpen with
          | inl equal =>
              cases equal
              exact same rfl
          | inr earlier => exact stillClosed otherRole earlier
      exact ⟨otherRole, otherKind, hasRole, otherServes,
        otherIs.change stored declared kept same, otherParts⟩
  · intro other term promised otherRole isOpen
    exact building.waiting other term promised otherRole (List.mem_cons_of_mem _ isOpen)
  · intro other term promised
    obtain ⟨name, otherType, otherStored, hasText⟩ := building.named other term promised
    have keptText := kept.hasText (hasText_without stored hasText)
    by_cases same : other = id
    · subst same
      cases hasType_inj stored otherStored
      exact ⟨name, laterType, laterStored, sameName ▸ keptText⟩
    · exact ⟨name, otherType, kept.hasType (hasType_without otherStored same), keptText⟩
  · intro reference other found
    obtain ⟨isTarget, isDeclared⟩ := building.definitions reference other found
    exact ⟨isTarget, fun member => keepsDeclared (isDeclared member)⟩

end Steps

end TextSchema
end PackedJson
