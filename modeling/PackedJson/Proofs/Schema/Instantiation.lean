import PackedJson.Proofs.Schema.Declaration

namespace PackedJson
namespace Builder

open Heap

/-!
Instances of generic types.

The builder keeps a table of the instances made so far.  An entry is complete
when its type has the members of the generic type with the parameter bound to
the argument.  Instantiating makes the entry that is asked for, and every
entry that it makes on the way is complete.  Entries that are still being made
are exempt.

Types that were there before, those of the heap `old`, are not looked at: a
table may hold entries of another target.
-/

/-- The instances made so far. -/
abbrev Instances := List ((TypeId × TypeId) × TypeId)

/-- A stored type that is not generic. -/
def Concrete (heap : Heap) (id : TypeId) : Prop :=
  exists type, HasType heap id type ∧ type.isGeneric = false

/-- A stored type that is generic. -/
def IsGeneric (heap : Heap) (id : TypeId) : Prop :=
  exists type, HasType heap id type ∧ type.isGeneric = true

/-- A stored type whose name can be read. -/
def Named (heap : Heap) (id : TypeId) (name : String) : Prop :=
  exists type, HasType heap id type ∧ HasText heap type.name name

/-- What the type of a member becomes in an instance. -/
inductive Binds (heap : Heap) (instances : Instances) (argument : TypeId) :
    Option TypeId -> TypeId -> Prop where
  | parameter : Binds heap instances argument none argument
  | concrete {id : TypeId} : Concrete heap id -> Binds heap instances argument (some id) id
  | nested {generic id : TypeId} : IsGeneric heap generic ->
      instances.lookup (generic, argument) = some id ->
      Binds heap instances argument (some generic) id

/-- What a member becomes in an instance. -/
def BindsMember (heap : Heap) (instances : Instances) (argument : TypeId)
    (generic bound : Member) : Prop :=
  exists id, Binds heap instances argument generic.type id ∧ bound = { generic with type := some id }

/-- A type bears the names of a generic type and of an argument, and the marks
of the generic type apart from those that generic builtins have. -/
def Labelled (heap : Heap) (generic argument id : TypeId) : Prop :=
  exists genericType type genericName argumentName, HasType heap generic genericType ∧
    HasText heap genericType.name genericName ∧ Named heap argument argumentName ∧
    HasType heap id type ∧
    HasText heap type.name (genericName ++ "<" ++ argumentName ++ ">") ∧
    type.flags = (genericType.flags.remove TypeFlags.generic).remove TypeFlags.builtin

/-- A type is the instance of a generic type at an argument. -/
def IsInstance (heap : Heap) (instances : Instances) (generic argument id : TypeId) : Prop :=
  exists declaration members, Declares heap generic declaration ∧ declaration.generic = true ∧
    List.Forall₂ (BindsMember heap instances argument) declaration.members members ∧
    Declares heap id ⟨declaration.shape, some generic, some argument, false, false, members⟩ ∧
    Labelled heap generic argument id

/-- The entries of the table are complete, apart from exempt ones and those of
generic types that were there before. -/
def Complete (old heap : Heap) (instances : Instances) (exempt : List (TypeId × TypeId)) : Prop :=
  forall generic argument id, old generic.offset.toNat = none ->
    instances.lookup (generic, argument) = some id -> (generic, argument) ∉ exempt ->
    IsInstance heap instances generic argument id

/-- The generic types and the instances of all entries are stored, and the
generic types have their fields. -/
def Known (heap : Heap) (instances : Instances) : Prop :=
  forall generic argument id, instances.lookup (generic, argument) = some id ->
    (exists type, HasType heap generic type ∧ type.isGeneric = true ∧ type.fieldCount ≠ 0) ∧
      exists cell, heap id.offset.toNat = some cell

/-- An empty table has no entries. -/
theorem known_of_nil {heap : Heap} {instances : Instances} (none : instances = []) :
    Known heap instances := by
  rw [none]
  exact nofun

/-- A table has every entry of another one. -/
def Continues (instances later : Instances) : Prop :=
  forall key id, instances.lookup key = some id -> later.lookup key = some id

section Growth

variable {heap later : Heap} {instances laterInstances : Instances} {argument : TypeId}

theorem Concrete.grows {id : TypeId} (concrete : Concrete heap id) (grows : Grows heap later) :
    Concrete later id := by
  obtain ⟨type, stored, plain⟩ := concrete
  obtain ⟨laterType, laterStored, same | marks⟩ := grows.hasType stored
  · exact ⟨laterType, laterStored, same ▸ plain⟩
  · exact ⟨laterType, laterStored, marks.still.generic⟩

theorem IsGeneric.grows {id : TypeId} (generic : IsGeneric heap id) (grows : Grows heap later) :
    IsGeneric later id := by
  obtain ⟨type, stored, isGeneric⟩ := generic
  refine ⟨type, grows.hasType_of_not stored ?_, isGeneric⟩
  intro declared
  rw [declared.generic] at isGeneric
  cases isGeneric

theorem Concrete.not_isGeneric {id : TypeId} (concrete : Concrete heap id) :
    ¬ IsGeneric heap id := by
  rintro ⟨type, stored, isGeneric⟩
  obtain ⟨other, otherStored, plain⟩ := concrete
  rw [hasType_inj stored otherStored, plain] at isGeneric
  cases isGeneric

theorem Named.grows {id : TypeId} {name : String} (named : Named heap id name)
    (grows : Grows heap later) : Named later id name := by
  obtain ⟨type, stored, hasName⟩ := named
  obtain ⟨laterType, laterStored, same | ⟨_, _, flags, same⟩⟩ := grows.hasType stored
  · exact ⟨laterType, laterStored, same ▸ grows.hasText hasName⟩
  · exact ⟨laterType, laterStored, same ▸ grows.hasText hasName⟩

theorem Binds.grows {type : Option TypeId} {id : TypeId}
    (binds : Binds heap instances argument type id) (grows : Grows heap later)
    (continues : Continues instances laterInstances) :
    Binds later laterInstances argument type id := by
  cases binds with
  | parameter => exact .parameter
  | concrete concrete => exact .concrete (concrete.grows grows)
  | nested generic found => exact .nested (generic.grows grows) (continues _ _ found)

theorem BindsMember.grows {generic bound : Member}
    (binds : BindsMember heap instances argument generic bound) (grows : Grows heap later)
    (continues : Continues instances laterInstances) :
    BindsMember later laterInstances argument generic bound := by
  obtain ⟨id, binds, same⟩ := binds
  exact ⟨id, binds.grows grows continues, same⟩

theorem IsInstance.grows {generic id : TypeId}
    (is : IsInstance heap instances generic argument id) (grows : Grows heap later)
    (continues : Continues instances laterInstances) :
    IsInstance later laterInstances generic argument id := by
  obtain ⟨declaration, members, declares, isGeneric, bound, instanceDeclares, genericType, type,
    genericName, argumentName, genericStored, genericText, named, stored, hasText, flags⟩ := is
  have genericFlag : genericType.isGeneric = true := by
    obtain ⟨other, fields, otherStored, _, otherIs⟩ := declares
    cases hasType_inj genericStored otherStored
    exact otherIs.generic.trans isGeneric
  have hasArgument : type.argument = some argument := by
    obtain ⟨other, fields, otherStored, _, otherIs⟩ := instanceDeclares
    cases hasType_inj stored otherStored
    exact otherIs.argument
  refine ⟨declaration, members, grows.declares declares, isGeneric,
    bound.imp fun _ _ binds => binds.grows grows continues, grows.declares instanceDeclares,
    genericType, type, genericName, argumentName, grows.hasType_of_not genericStored ?_,
    grows.hasText genericText, named.grows grows, grows.hasType_of_not stored ?_,
    grows.hasText hasText, flags⟩
  · intro declared
    cases genericFlag.symm.trans declared.generic
  · intro declared
    cases hasArgument.symm.trans declared.argument

theorem IsInstance.labelled {generic id : TypeId}
    (is : IsInstance heap instances generic argument id) : Labelled heap generic argument id := by
  obtain ⟨_, _, _, _, _, _, labelled⟩ := is
  exact labelled

theorem Labelled.named {generic id : TypeId} (labelled : Labelled heap generic argument id) :
    exists name, Named heap id name := by
  obtain ⟨_, type, _, _, _, _, _, stored, hasText, _⟩ := labelled
  exact ⟨_, type, stored, hasText⟩

theorem Named.inj {id : TypeId} {first second : String} (named : Named heap id first)
    (other : Named heap id second) : first = second := by
  obtain ⟨type, stored, hasText⟩ := named
  obtain ⟨otherType, otherStored, otherText⟩ := other
  cases hasType_inj stored otherStored
  exact hasText_inj hasText otherText

theorem Known.grows (known : Known heap instances) (grows : Grows heap later) :
    Known later instances := by
  intro generic argument id found
  obtain ⟨⟨type, stored, isGeneric, nonzero⟩, ⟨idCell, idStored⟩⟩ := known generic argument id found
  obtain ⟨laterIdCell, laterIdStored, _⟩ := grows _ _ idStored
  have undeclared : ¬ type.IsDeclared := by
    intro declared
    rw [declared.generic] at isGeneric
    cases isGeneric
  exact ⟨⟨type, grows.hasType_of_not stored undeclared, isGeneric, nonzero⟩,
    ⟨laterIdCell, laterIdStored⟩⟩

theorem Complete.grows {old : Heap} {exempt : List (TypeId × TypeId)}
    (complete : Complete old heap instances exempt) (grows : Grows heap later) :
    Complete old later instances exempt :=
  fun generic argument id new found notExempt =>
    (complete generic argument id new found notExempt).grows grows fun _ _ found => found

end Growth

theorem Continues.refl (instances : Instances) : Continues instances instances :=
  fun _ _ found => found

theorem Continues.trans {instances later last : Instances} (first : Continues instances later)
    (second : Continues later last) : Continues instances last :=
  fun key id found => second key id (first key id found)

/-- A new entry does not hide another one. -/
theorem Continues.cons {instances : Instances} {key : TypeId × TypeId} (id : TypeId)
    (missing : instances.lookup key = none) : Continues instances ((key, id) :: instances) := by
  intro other otherId found
  rw [List.lookup_cons]
  have different : (other == key) = false := by
    apply beq_false_of_ne
    intro same
    rw [same, missing] at found
    cases found
  rw [different]
  exact found

section Change

/-! The record of one type is replaced by another one.  A generic type changes
only before it has fields, and therefore before it has instances. -/

variable {heap later : Heap} {id : TypeId} {type laterType : TypeDef} {instances : Instances}

theorem Concrete.change (stored : HasType heap id type) (laterStored : HasType later id laterType)
    (sameGeneric : laterType.isGeneric = type.isGeneric)
    (kept : (heap.without id.offset.toNat).Extends later) {other : TypeId}
    (concrete : Concrete heap other) : Concrete later other := by
  obtain ⟨otherType, otherStored, plain⟩ := concrete
  by_cases same : other = id
  · subst same
    cases hasType_inj stored otherStored
    exact ⟨laterType, laterStored, sameGeneric.trans plain⟩
  · exact ⟨otherType, kept.hasType (hasType_without otherStored same), plain⟩

theorem IsGeneric.change (stored : HasType heap id type) (laterStored : HasType later id laterType)
    (sameGeneric : laterType.isGeneric = type.isGeneric)
    (kept : (heap.without id.offset.toNat).Extends later) {other : TypeId}
    (generic : IsGeneric heap other) : IsGeneric later other := by
  obtain ⟨otherType, otherStored, isGeneric⟩ := generic
  by_cases same : other = id
  · subst same
    cases hasType_inj stored otherStored
    exact ⟨laterType, laterStored, sameGeneric.trans isGeneric⟩
  · exact ⟨otherType, kept.hasType (hasType_without otherStored same), isGeneric⟩

theorem Named.change (stored : HasType heap id type) (laterStored : HasType later id laterType)
    (kept : (heap.without id.offset.toNat).Extends later) {other : TypeId} {name : String}
    (named : Named heap other name) (sameName : other = id -> laterType.name = type.name) :
    Named later other name := by
  obtain ⟨otherType, otherStored, hasText⟩ := named
  by_cases same : other = id
  · subst same
    cases hasType_inj stored otherStored
    refine ⟨laterType, laterStored, ?_⟩
    rw [sameName rfl]
    exact kept.hasText (hasText_without stored hasText)
  · exact ⟨otherType, kept.hasType (hasType_without otherStored same),
      kept.hasText (hasText_without stored hasText)⟩

theorem Binds.change (stored : HasType heap id type) (laterStored : HasType later id laterType)
    (sameGeneric : laterType.isGeneric = type.isGeneric)
    (kept : (heap.without id.offset.toNat).Extends later)
    {argument : TypeId} {generic : Option TypeId} {bound : TypeId}
    (binds : Binds heap instances argument generic bound) :
    Binds later instances argument generic bound := by
  cases binds with
  | parameter => exact .parameter
  | concrete concrete => exact .concrete (concrete.change stored laterStored sameGeneric kept)
  | nested generic found =>
      exact .nested (generic.change stored laterStored sameGeneric kept) found

/-- An instance stays one, unless its own record or that of its generic type
is the one replaced. -/
theorem IsInstance.change (stored : HasType heap id type) (laterStored : HasType later id laterType)
    (sameGeneric : laterType.isGeneric = type.isGeneric)
    (kept : (heap.without id.offset.toNat).Extends later)
    {generic argument other : TypeId} (is : IsInstance heap instances generic argument other)
    (genericApart : generic ≠ id) (different : other ≠ id)
    (sameName : argument = id -> laterType.name = type.name) :
    IsInstance later instances generic argument other := by
  obtain ⟨declaration, members, declares, isGeneric, bound, instanceDeclares, genericType,
    otherType, genericName, argumentName, genericStored, genericText, named, otherStored, hasText,
    flags⟩ := is
  exact ⟨declaration, members, kept.grows.declares (declares_without stored declares genericApart),
    isGeneric,
    bound.imp fun _ _ ⟨bindsId, binds, same⟩ =>
      ⟨bindsId, binds.change stored laterStored sameGeneric kept, same⟩,
    kept.grows.declares (declares_without stored instanceDeclares different), genericType,
    otherType, genericName, argumentName,
    kept.hasType (hasType_without genericStored genericApart),
    kept.hasText (hasText_without stored genericText),
    named.change stored laterStored kept sameName,
    kept.hasType (hasType_without otherStored different),
    kept.hasText (hasText_without stored hasText), flags⟩

theorem Known.ne (known : Known heap instances) (stored : HasType heap id type)
    (unused : type.isGeneric = true -> type.fieldCount = 0) {generic argument other : TypeId}
    (found : instances.lookup (generic, argument) = some other) : generic ≠ id := by
  intro same
  subst same
  obtain ⟨⟨genericType, genericStored, isGeneric, nonzero⟩, _⟩ := known generic argument other found
  cases hasType_inj stored genericStored
  exact nonzero (unused isGeneric)

theorem Known.change (known : Known heap instances) (stored : HasType heap id type)
    (unused : type.isGeneric = true -> type.fieldCount = 0)
    (laterStored : HasType later id laterType)
    (kept : (heap.without id.offset.toNat).Extends later) : Known later instances := by
  intro generic argument other found
  have apart := known.ne stored unused found
  obtain ⟨⟨genericType, genericStored, isGeneric, nonzero⟩, ⟨cell, otherStored⟩⟩ :=
    known generic argument other found
  refine ⟨⟨genericType, kept.hasType (hasType_without genericStored apart), isGeneric, nonzero⟩, ?_⟩
  by_cases same : other.offset.toNat = id.offset.toNat
  · rw [same]
    exact ⟨_, laterStored⟩
  · exact ⟨cell, kept _ _ ((without_other heap same).trans otherStored)⟩

/-- Entries stay complete, except one whose own type is changed. -/
theorem Complete.change {old : Heap} {exempt : List (TypeId × TypeId)}
    (complete : Complete old heap instances exempt) (known : Known heap instances)
    (stored : HasType heap id type) (unused : type.isGeneric = true -> type.fieldCount = 0)
    (laterStored : HasType later id laterType)
    (sameGeneric : laterType.isGeneric = type.isGeneric)
    (kept : (heap.without id.offset.toNat).Extends later)
    (own : forall generic argument, type.prototype = some generic ->
      type.argument = some argument -> (generic, argument) ∈ exempt)
    (sameName : forall generic other, old generic.offset.toNat = none ->
      instances.lookup (generic, id) = some other -> (generic, id) ∉ exempt ->
      laterType.name = type.name) :
    Complete old later instances exempt := by
  intro generic argument other new found notExempt
  have is := complete generic argument other new found notExempt
  refine is.change stored laterStored sameGeneric kept (known.ne stored unused found) ?_ ?_
  rotate_left
  · rintro rfl
    exact sameName generic other new found notExempt
  intro same
  subst same
  obtain ⟨_, _, _, _, _, ⟨otherType, fields, otherStored, _, otherIs⟩, _⟩ := is
  cases hasType_inj stored otherStored
  exact notExempt (own generic argument otherIs.prototype otherIs.argument)

end Change

/-- An exempt entry that is complete need not be exempt any longer. -/
theorem Complete.close {old heap : Heap} {instances : Instances}
    {exempt : List (TypeId × TypeId)} {generic argument id : TypeId}
    (complete : Complete old heap instances ((generic, argument) :: exempt))
    (found : instances.lookup (generic, argument) = some id)
    (closed : IsInstance heap instances generic argument id) :
    Complete old heap instances exempt := by
  intro otherGeneric otherArgument other new otherFound notExempt
  by_cases same : (otherGeneric, otherArgument) = (generic, argument)
  · cases same
    cases found.symm.trans otherFound
    exact closed
  · refine complete otherGeneric otherArgument other new otherFound ?_
    intro member
    cases List.mem_cons.mp member with
    | inl equal => exact same equal
    | inr late => exact notExempt late

/-! ### Instantiating -/

/-- A type that can be instantiated with few levels of nesting: it is not
generic, or it is a small generic type whose fields have such types. -/
def Ready (old heap : Heap) : Nat -> TypeId -> Prop
  | 0, _ => False
  | levels + 1, id => Concrete heap id ∨
      exists type fields declaration name, old id.offset.toNat = none ∧ HasType heap id type ∧
        HasFields heap id type fields ∧ type.Is heap declaration fields ∧
        FieldsAre heap 0 declaration.members fields ∧ declaration.generic = true ∧
        HasText heap type.name name ∧ name.utf8ByteSize ≤ 6 ∧ fields ≠ [] ∧ fields.length ≤ 3 ∧
        forall field, field ∈ fields -> forall inner, field.type = some inner ->
          Ready old heap levels inner

theorem Ready.grows {old heap later : Heap} {levels : Nat} {id : TypeId}
    (ready : Ready old heap levels id) (grows : Grows heap later) : Ready old later levels id := by
  induction levels generalizing id with
  | zero => exact ready
  | succ levels ih =>
      cases ready with
      | inl concrete => exact Or.inl (concrete.grows grows)
      | inr generic =>
          obtain ⟨type, fields, declaration, name, new, stored, hasFields, is, are, isGeneric,
            hasText, short, nonempty, few, inner⟩ := generic
          have undeclared : ¬ type.IsDeclared := by
            intro declared
            rw [← is.generic, declared.generic] at isGeneric
            cases isGeneric
          exact Or.inr ⟨type, fields, declaration, name, new,
            grows.hasType_of_not stored undeclared, grows.hasFields hasFields,
            ⟨is.shape, is.prototype, is.argument, is.builtin, is.generic, is.byReference,
              grows.fieldsAre is.members⟩,
            grows.fieldsAre are, isGeneric, grows.hasText hasText, short, nonempty, few,
            fun field member innerId same => ih (inner field member innerId same)⟩

/-- The room that an instance may take, given the size of the name of its
argument. -/
def instanceCost (argumentSize : Nat) : Nat -> Nat
  | 0 => 0
  | levels + 1 => 168 + argumentSize + 3 * instanceCost argumentSize levels

/-- A builder whose arena holds a heap, and whose table is complete apart from
some entries. -/
structure Tabled (old : Heap) (exempt : List (TypeId × TypeId)) (heap : Heap)
    (builder : Builder) : Prop where
  since : old.Extends heap
  holds : heap.Holds builder.arena
  complete : Complete old heap builder.instances exempt
  known : Known heap builder.instances
  /-- Instances of new types are new. -/
  new : forall generic argument id, old generic.offset.toNat = none ->
    builder.instances.lookup (generic, argument) = some id -> old id.offset.toNat = none

/-- Cells were added or marked. -/
theorem Tabled.grown {old heap later : Heap} {exempt : List (TypeId × TypeId)}
    {builder after : Builder} (tabled : Tabled old exempt heap builder) (since : old.Extends later)
    (holds : later.Holds after.arena) (grows : Grows heap later)
    (instances : after.instances = builder.instances) : Tabled old exempt later after := by
  refine ⟨since, holds, ?_, ?_, ?_⟩
  · rw [instances]
    exact tabled.complete.grows grows
  · rw [instances]
    exact tabled.known.grows grows
  · rw [instances]
    exact tabled.new

theorem Tabled.added {old heap larger : Heap} {exempt : List (TypeId × TypeId)}
    {builder after : Builder} (tabled : Tabled old exempt heap builder)
    (added : Added heap builder larger after) : Tabled old exempt larger after :=
  tabled.grown (tabled.since.trans added.kept) added.holds added.kept.grows added.instances

theorem Tabled.weaken {old heap : Heap} {exempt more : List (TypeId × TypeId)} {builder : Builder}
    (tabled : Tabled old exempt heap builder) (subset : exempt ⊆ more) :
    Tabled old more heap builder :=
  ⟨tabled.since, tabled.holds, fun generic argument id new found notExempt =>
    tabled.complete generic argument id new found fun member => notExempt (subset member),
    tabled.known, tabled.new⟩

/-- The builder after some instances were made: the entries and the cells are
kept, and new entries are for new types. -/
structure Instantiated (old : Heap) (exempt : List (TypeId × TypeId)) (heap : Heap)
    (builder : Builder) (larger : Heap) (after : Builder) : Prop where
  tabled : Tabled old exempt larger after
  kept : heap.Extends larger
  continues : Continues builder.instances after.instances
  fresh : forall key id, after.instances.lookup key = some id ->
    builder.instances.lookup key = some id ∨ heap id.offset.toNat = none

namespace Instantiated

variable {old heap larger : Heap} {exempt : List (TypeId × TypeId)} {builder after : Builder}

theorem refl (tabled : Tabled old exempt heap builder) :
    Instantiated old exempt heap builder heap builder :=
  ⟨tabled, Extends.refl heap, Continues.refl _, fun _ _ => Or.inl⟩

theorem trans {largest : Heap} {last : Builder}
    (first : Instantiated old exempt heap builder larger after)
    (second : Instantiated old exempt larger after largest last) :
    Instantiated old exempt heap builder largest last := by
  refine ⟨second.tabled, first.kept.trans second.kept, first.continues.trans second.continues, ?_⟩
  intro key id found
  cases second.fresh key id found with
  | inl earlier => exact first.fresh key id earlier
  | inr free => exact Or.inr (first.kept.grows.free free)

end Instantiated

section Instantiate

variable {old : Heap} {argument : TypeId} {argumentName : String}

/-- The fields of an instance, each bound by a computation that binds types. -/
theorem builds_bindFields {construct : TypeId -> BuildM TypeId} {exempt : List (TypeId × TypeId)}
    {levels cost order : Nat} {members : List Member} {fields : List FieldDef} {heap : Heap}
    {builder : Builder} (tabled : Tabled old exempt heap builder)
    (named : Named heap argument argumentName)
    (constructs : forall {heap : Heap} {builder : Builder} {id : TypeId},
      Tabled old exempt heap builder -> Named heap argument argumentName ->
      Ready old heap levels id ->
      Builds (construct id) builder cost fun bound after => exists larger,
        Instantiated old exempt heap builder larger after ∧
        Binds larger after.instances argument (some id) bound)
    (are : FieldsAre heap order members fields)
    (ready : forall field, field ∈ fields -> forall inner, field.type = some inner ->
      Ready old heap levels inner) :
    Builds (bindFields construct argument fields) builder (fields.length * cost)
      fun bound after => exists larger boundMembers,
        Instantiated old exempt heap builder larger after ∧
        List.Forall₂ (BindsMember larger after.instances argument) members boundMembers ∧
        FieldsAre larger order boundMembers bound ∧ bound.length = fields.length := by
  induction fields generalizing order members heap builder with
  | nil =>
      cases members with
      | nil =>
          exact Builds.pure ⟨heap, [], .refl tabled, .nil, .nil, rfl⟩
      | cons member rest => cases are
  | cons field rest ih =>
      cases members with
      | nil => cases are
      | cons member others =>
          cases are with
          | cons is restAre =>
              have continued (type : TypeId) (middle : Builder)
                  (ends : exists larger, Instantiated old exempt heap builder larger middle ∧
                    Binds larger middle.instances argument field.type type) :
                  Builds (do
                      let bound ← bindFields construct argument rest
                      return { field with type := some type } :: bound) middle (rest.length * cost)
                    fun bound after => exists larger boundMembers,
                      Instantiated old exempt heap builder larger after ∧
                      List.Forall₂ (BindsMember larger after.instances argument)
                        (member :: others) boundMembers ∧
                      FieldsAre larger order boundMembers bound ∧
                      bound.length = (field :: rest).length := by
                obtain ⟨larger, made, binds⟩ := ends
                have grows := made.kept.grows
                have next := ih made.tabled (named.grows grows) (grows.fieldsAre restAre)
                  (fun other later inner same =>
                    (ready other (List.mem_cons_of_mem _ later) inner same).grows grows)
                refine Builds.andThen next 0 ?_ (Nat.le_refl _)
                rintro bound after ⟨largest, boundMembers, nextMade, allBound, boundAre, sameLength⟩
                have laterIs := (made.kept.trans nextMade.kept).grows.fieldIs is
                refine Builds.pure ⟨largest, { member with type := some type } :: boundMembers,
                  made.trans nextMade, .cons ⟨type, ?_, rfl⟩ allBound, ?_,
                  congrArg (· + 1) sameLength⟩
                · have sameType : field.type = member.type := is.type
                  rw [← sameType]
                  exact binds.grows nextMade.kept.grows nextMade.continues
                · exact FieldsAre.cons ⟨laterIs.name, rfl, laterIs.hash, laterIs.order,
                    laterIs.flags, laterIs.activation, laterIs.choice, laterIs.companion⟩ boundAre
              have total : cost + rest.length * cost ≤ (field :: rest).length * cost := by
                rw [List.length_cons, Nat.add_mul, Nat.one_mul]
                omega
              unfold bindFields
              cases kind : field.type with
              | none =>
                  rw [kind] at continued
                  have asIs : Builds (pure argument : BuildM TypeId) builder cost
                      fun type after => exists larger,
                        Instantiated old exempt heap builder larger after ∧
                        Binds larger after.instances argument none type :=
                    Builds.pure ⟨heap, .refl tabled, .parameter⟩
                  exact Builds.andThen asIs (rest.length * cost) continued total
              | some inner =>
                  rw [kind] at continued
                  exact Builds.andThen
                    (constructs tabled named (ready field List.mem_cons_self inner kind))
                    (rest.length * cost) continued total

theorem Binds.stored {heap : Heap} {instances : Instances} (known : Known heap instances)
    (named : Named heap argument argumentName) {type : Option TypeId} {id : TypeId}
    (binds : Binds heap instances argument type id) :
    exists cell, heap id.offset.toNat = some cell := by
  cases binds with
  | parameter =>
      obtain ⟨type, stored, _⟩ := named
      exact ⟨_, stored⟩
  | concrete concrete =>
      obtain ⟨type, stored, _⟩ := concrete
      exact ⟨_, stored⟩
  | nested _ found => exact (known _ _ _ found).2

/-- Bound fields refer to stored types. -/
theorem storable_of_binds {heap : Heap} {builder : Builder} {exempt : List (TypeId × TypeId)}
    (tabled : Tabled old exempt heap builder) (named : Named heap argument argumentName)
    {order : Nat} {members boundMembers : List Member} {bound : List FieldDef}
    (allBound : List.Forall₂ (BindsMember heap builder.instances argument) members boundMembers)
    (are : FieldsAre heap order boundMembers bound) :
    forall field, field ∈ bound -> field.Storable := by
  induction allBound generalizing order bound with
  | nil =>
      cases are
      intro field member
      cases member
  | cons binds _ ih =>
      cases are with
      | cons is others =>
          intro field member
          cases List.mem_cons.mp member with
          | inr later => exact ih others field later
          | inl same =>
              subst same
              obtain ⟨id, binds, sameMember⟩ := binds
              intro typeId sameType
              have isId : some typeId = some id := by
                rw [← sameType, is.type, sameMember]
              cases isId
              obtain ⟨cell, stored⟩ := binds.stored tabled.known named
              exact tabled.holds.ne_null stored

theorem flags_instanceDef (flags : TypeFlags) :
    ((flags.remove TypeFlags.generic).remove TypeFlags.builtin).contains TypeFlags.generic = false ∧
    ((flags.remove TypeFlags.generic).remove TypeFlags.builtin).contains TypeFlags.builtin = false ∧
    ((flags.remove TypeFlags.generic).remove TypeFlags.builtin).contains
      TypeFlags.storedByReference = flags.contains TypeFlags.storedByReference := by
  obtain ⟨bits⟩ := flags
  change BitVec 5 at bits
  revert bits
  decide

theorem builds_register (generic argument id : TypeId) (builder : Builder) :
    Builds (register generic argument id) builder 0 fun _ after =>
      { builder with instances := ((generic, argument), id) :: builder.instances } = after :=
  ⟨rfl, Nat.le_refl _⟩

theorem builds_findInstance (generic argument : TypeId) (builder : Builder) :
    Builds (findInstance? generic argument) builder 0 fun found after =>
      builder.instances.lookup (generic, argument) = found ∧ builder = after :=
  ⟨⟨rfl, rfl⟩, Nat.le_refl _⟩

/-- The table with a new entry whose fields are not set yet. -/
theorem Tabled.register {exempt : List (TypeId × TypeId)} {heap : Heap} {builder : Builder}
    (tabled : Tabled old exempt heap builder) {generic id : TypeId} {genericType type : TypeDef}
    (missing : builder.instances.lookup (generic, argument) = none)
    (genericStored : HasType heap generic genericType) (isGeneric : genericType.isGeneric = true)
    (nonzero : genericType.fieldCount ≠ 0) (stored : HasType heap id type)
    (idNew : old id.offset.toNat = none) :
    Tabled old ((generic, argument) :: exempt) heap
      { builder with instances := ((generic, argument), id) :: builder.instances } := by
  have continues := Continues.cons id missing
  have split {key : TypeId × TypeId} {other : TypeId}
      (found : (((generic, argument), id) :: builder.instances).lookup key = some other) :
      key = (generic, argument) ∧ other = id ∨ builder.instances.lookup key = some other := by
    rw [List.lookup_cons] at found
    cases same : key == (generic, argument) with
    | true =>
        rw [same] at found
        exact Or.inl ⟨eq_of_beq same, (Option.some.inj found).symm⟩
    | false =>
        rw [same] at found
        exact Or.inr found
  refine ⟨tabled.since, tabled.holds, ?_, ?_, ?_⟩
  · intro otherGeneric otherArgument other new found notExempt
    rcases split found with ⟨same, _⟩ | earlier
    · exact absurd (same ▸ List.mem_cons_self) notExempt
    · exact (tabled.complete _ _ _ new earlier fun member =>
        notExempt (List.mem_cons_of_mem _ member)).grows (Grows.refl heap) continues
  · intro otherGeneric otherArgument other found
    rcases split found with ⟨same, equal⟩ | earlier
    · cases same
      subst equal
      exact ⟨⟨_, genericStored, isGeneric, nonzero⟩, ⟨_, stored⟩⟩
    · exact tabled.known _ _ _ earlier
  · intro otherGeneric otherArgument other new found
    rcases split found with ⟨_, equal⟩ | earlier
    · exact equal ▸ idNew
    · exact tabled.new _ _ _ new earlier

theorem textCost_label {name : String} (argumentName : String) (short : name.utf8ByteSize ≤ 6) :
    textCost (name ++ "<" ++ argumentName ++ ">") ≤ argumentName.utf8ByteSize + 10 := by
  have open_ : ("<" : String).utf8ByteSize = 1 := rfl
  have close_ : (">" : String).utf8ByteSize = 1 := rfl
  unfold textCost
  simp only [String.utf8ByteSize_append]
  omega

theorem cost_le_instanceCost {argumentSize label count depth : Nat}
    (short : label ≤ argumentSize + 10) (few : count ≤ 3) :
    label + (typeCost + (count * instanceCost argumentSize depth + fieldsCost count)) ≤
      instanceCost argumentSize (depth + 1) := by
  have product : count * instanceCost argumentSize depth ≤ 3 * instanceCost argumentSize depth :=
    Nat.mul_le_mul_right _ few
  unfold typeCost fieldsCost
  rw [instanceCost]
  omega

/-- A record of a new instance that was given the bound fields of the generic
type is an instance. -/
theorem isInstance_of_altered {earlier heap larger : Heap} {builder after : Builder}
    {generic id : TypeId} {type : TypeDef} {fields bound : List FieldDef}
    {declaration : Declaration} {members : List Member} {reference : TextRef} {label : String}
    {place : Offset} (declares : Declares heap generic declaration) (different : generic ≠ id)
    (is : type.Is earlier declaration fields) (isGeneric : declaration.generic = true)
    (stored : HasType heap id (instanceDef generic argument type reference))
    (hasText : HasText heap reference label)
    (binds : List.Forall₂ (BindsMember heap builder.instances argument) declaration.members
      members)
    (are : FieldsAre heap 0 members bound) (few : members.length ≤ 2 ^ 32)
    (altered : Altered heap builder id larger after)
    (changedStored : HasType larger id { instanceDef generic argument type reference with
      fields := place, fieldCount := UInt32.ofNat bound.length })
    (changedFields : HasFields larger id { instanceDef generic argument type reference with
      fields := place, fieldCount := UInt32.ofNat bound.length } bound)
    {name : String} (genericStored : HasType heap generic type)
    (genericText : HasText heap type.name name) (named : Named heap argument argumentName)
    (isLabel : label = name ++ "<" ++ argumentName ++ ">") :
    IsInstance larger after.instances generic argument id := by
  have flags := flags_instanceDef type.flags
  refine ⟨declaration, members, ?_, isGeneric, ?_, ?_, type, _, name, argumentName, ?_, ?_, ?_,
    changedStored, ?_, rfl⟩
  · exact altered.kept.grows.declares (declares_without stored declares different)
  · rw [altered.instances]
    exact binds.imp fun _ _ ⟨bindsId, isBound, same⟩ => ⟨bindsId,
      isBound.change stored changedStored rfl altered.kept, same⟩
  · refine ⟨_, bound, changedStored, changedFields, is.shape, rfl, rfl, flags.2.1, flags.1, ?_, ?_⟩
    · intro byReference
      have declared := is.byReference (flags.2.2.symm.trans byReference)
      have contradiction_ := declared.generic.symm.trans (is.generic.trans isGeneric)
      cases contradiction_
    · rw [are.sortBy_eq (by omega)]
      exact altered.kept.grows.fieldsAre (fieldsAre_without stored are)
  · exact altered.kept.hasType (hasType_without genericStored different)
  · exact altered.kept.hasText (hasText_without stored genericText)
  · exact named.change stored changedStored altered.kept fun _ => rfl
  · rw [← isLabel]
    exact altered.kept.hasText (hasText_without stored hasText)

/-- The table is complete again once the fields of a new entry are set. -/
theorem instantiated_of_altered {exempt : List (TypeId × TypeId)} {heap boundHeap larger : Heap}
    {builder withFields after : Builder} {generic id : TypeId} {type changed : TypeDef}
    (tabled : Tabled old exempt heap builder) (free : heap id.offset.toNat = none)
    (missing : builder.instances.lookup (generic, argument) = none)
    (before : heap.Extends boundHeap)
    (bound : Tabled old ((generic, argument) :: exempt) boundHeap withFields)
    (continues : Continues (((generic, argument), id) :: builder.instances) withFields.instances)
    (fresh : forall key other, withFields.instances.lookup key = some other ->
      (((generic, argument), id) :: builder.instances).lookup key = some other ∨
        heap other.offset.toNat = none)
    (stored : HasType boundHeap id type) (unused : type.isGeneric = true -> type.fieldCount = 0)
    (prototype : type.prototype = some generic) (isArgument : type.argument = some argument)
    (changedStored : HasType larger id changed) (sameGeneric : changed.isGeneric = type.isGeneric)
    (sameName : changed.name = type.name)
    (altered : Altered boundHeap withFields id larger after)
    (isInstance : IsInstance larger after.instances generic argument id) :
    Instantiated old exempt heap builder larger after ∧
      after.instances.lookup (generic, argument) = some id := by
  have found := continues (generic, argument) id (by rw [List.lookup_cons, beq_self_eq_true])
  have kept : heap.Extends larger := by
    intro position cell present
    have elsewhere : position ≠ id.offset.toNat := by
      intro same
      subst same
      cases free.symm.trans present
    exact altered.kept _ _ ((without_other _ elsewhere).trans (before _ _ present))
  rw [altered.instances] at isInstance ⊢
  refine ⟨⟨⟨tabled.since.trans kept, altered.holds, ?_, ?_, ?_⟩, kept, ?_, ?_⟩, found⟩
  · rw [altered.instances]
    refine (bound.complete.change bound.known stored unused changedStored sameGeneric
      altered.kept ?_ fun _ _ _ _ _ => sameName).close found isInstance
    intro otherGeneric otherArgument sameGeneric sameArgument
    cases prototype.symm.trans sameGeneric
    cases isArgument.symm.trans sameArgument
    exact List.mem_cons_self
  · rw [altered.instances]
    exact bound.known.change stored unused changedStored altered.kept
  · rw [altered.instances]
    exact bound.new
  · rw [altered.instances]
    exact (Continues.cons id missing).trans continues
  · rw [altered.instances]
    intro key other otherFound
    cases fresh key other otherFound with
    | inr otherFree => exact Or.inr otherFree
    | inl entry =>
        rw [List.lookup_cons] at entry
        split at entry
        next same =>
          cases entry
          exact Or.inr free
        next different => exact Or.inl entry

/-- An instance that is not in the table yet is made and entered. -/
theorem builds_newInstance {depth levels : Nat}
    {exempt : List (TypeId × TypeId)} {heap : Heap} {builder : Builder} {generic : TypeId}
    {type : TypeDef} {fields : List FieldDef} {declaration : Declaration} {name : String}
    (tabled : Tabled old exempt heap builder) (named : Named heap argument argumentName)
    (missing : builder.instances.lookup (generic, argument) = none)
    (stored : HasType heap generic type) (hasFields : HasFields heap generic type fields)
    (is : type.Is heap declaration fields) (are : FieldsAre heap 0 declaration.members fields)
    (isGeneric : declaration.generic = true) (hasText : HasText heap type.name name)
    (short : name.utf8ByteSize ≤ 6) (nonempty : fields ≠ []) (few : fields.length ≤ 3)
    (inner : forall field, field ∈ fields -> forall inner, field.type = some inner ->
      Ready old heap depth inner)
    (constructs : forall {heap : Heap} {builder : Builder} {id : TypeId},
      Tabled old ((generic, argument) :: exempt) heap builder ->
      Named heap argument argumentName -> Ready old heap depth id ->
      Builds (instantiateWithin argument levels id) builder
        (instanceCost argumentName.utf8ByteSize depth) fun bound after => exists larger,
        Instantiated old ((generic, argument) :: exempt) heap builder larger after ∧
        Binds larger after.instances argument (some id) bound) :
    Builds (do
        let argumentDef ← query fun schema => schema.type argument
        let name ← query fun schema =>
          .ok (schema.name type ++ "<" ++ schema.name argumentDef ++ ">")
        let stored ← storeText name
        let id ← addType (instanceDef generic argument type stored)
        register generic argument id
        let fields ← query fun schema => schema.fields type
        let bound ← bindFields (instantiateWithin argument levels) argument fields
        let _ ← setFields id bound
        return id) builder (instanceCost argumentName.utf8ByteSize (depth + 1))
      fun id after => exists larger, Instantiated old exempt heap builder larger after ∧
        after.instances.lookup (generic, argument) = some id := by
  obtain ⟨argumentDef, argumentStored, argumentText⟩ := id named
  refine Builds.ask (tabled.holds.type argumentStored) ?_
  have label : (fun schema => .ok (schema.name type ++ "<" ++ schema.name argumentDef ++ ">") :
      Schema -> Except SchemaError String) ⟨builder.arena⟩ =
      .ok (name ++ "<" ++ argumentName ++ ">") := by
    beta_reduce
    rw [tabled.holds.name hasText, tabled.holds.name argumentText]
  refine Builds.ask label ?_
  refine Builds.andThen (builds_storeText tabled.holds _) _ ?_
    (cost_le_instanceCost (textCost_label argumentName short) few)
  rintro reference withName ⟨textHeap, textAdded, hasName⟩
  have genericNull := tabled.holds.ne_null stored
  have argumentNull := tabled.holds.ne_null argumentStored
  have genericFlag : type.isGeneric = true := is.generic.trans isGeneric
  have nonzero : type.fieldCount ≠ 0 := by
    intro zero
    have count := hasFields.1
    rw [zero] at count
    exact nonempty (List.length_eq_zero_iff.mp count.symm)
  refine Builds.andThen (builds_addType textAdded.holds
    (instanceDef generic argument type reference) ⟨?_, ?_⟩) _ ?_ (Nat.le_refl _)
  · rintro _ ⟨rfl⟩
    exact genericNull
  · rintro _ ⟨rfl⟩
    exact argumentNull
  rintro id withType ⟨textFree, typeHeap, typeAdded, idStored⟩
  have added := textAdded.trans typeAdded
  have free : heap id.offset.toNat = none := textAdded.kept.grows.free textFree
  refine Builds.andThen (builds_register generic argument id withType) _ ?_
    (Nat.le_of_eq (Nat.zero_add _))
  rintro _ _ rfl
  have registered := (tabled.added added).register
    (by rw [added.instances]; exact missing) (added.kept.hasType stored) genericFlag nonzero
    idStored (tabled.since.grows.free free)
  refine Builds.ask (registered.holds.fields (added.kept.hasFields hasFields)) ?_
  refine Builds.andThen (builds_bindFields registered (named.grows added.kept.grows) constructs
    (added.kept.grows.fieldsAre are) (fun field member innerId same =>
      (inner field member innerId same).grows added.kept.grows)) (fieldsCost fields.length) ?_
    (Nat.le_refl _)
  rintro bound withFields ⟨boundHeap, boundMembers, ⟨boundTabled, boundKept, continues,
    boundFresh⟩, allBound, boundAre, sameLength⟩
  have idBound := boundKept.hasType idStored
  have before := added.kept.trans boundKept
  refine Builds.andThen (builds_setFields boundTabled.holds idBound (storable_of_binds boundTabled
    (named.grows before.grows) allBound boundAre)) 0 ?_
    (by rw [sameLength]; exact Nat.le_refl _)
  rintro _ after ⟨larger, altered, ⟨place, rfl⟩, changedStored, changedFields⟩
  have different : generic ≠ id := by
    intro same
    subst same
    cases free.symm.trans stored
  have fewMembers : boundMembers.length ≤ 2 ^ 32 := by
    have length := boundAre.length
    omega
  have isInstance := isInstance_of_altered
    (before.grows.declares ⟨type, fields, stored, hasFields, is⟩) different is isGeneric idBound
    ((typeAdded.kept.trans boundKept).hasText hasName) allBound boundAre fewMembers altered
    changedStored changedFields (before.hasType stored) (before.hasText hasText)
    (named.grows before.grows) rfl
  simp only [added.instances] at continues boundFresh
  exact Builds.pure ⟨larger, instantiated_of_altered tabled free missing before boundTabled
    continues (fun key other found => (boundFresh key other found).imp_right added.kept.grows.free)
    idBound (fun _ => rfl) rfl rfl changedStored rfl rfl altered isInstance⟩

/-- The entry that is asked for is there afterwards, and all entries made on
the way are complete. -/
theorem builds_instantiateWithin {depth levels : Nat} (enough : depth ≤ levels)
    {exempt : List (TypeId × TypeId)} {heap : Heap} {builder : Builder} {generic : TypeId}
    (tabled : Tabled old exempt heap builder) (named : Named heap argument argumentName)
    (ready : Ready old heap depth generic) :
    Builds (instantiateWithin argument levels generic) builder
      (instanceCost argumentName.utf8ByteSize depth)
      fun id after => exists larger, Instantiated old exempt heap builder larger after ∧
        Binds larger after.instances argument (some generic) id := by
  induction depth generalizing levels exempt heap builder generic with
  | zero => exact ready.elim
  | succ depth ih =>
      match levels, enough with
      | levels + 1, enough =>
        have enough := Nat.le_of_succ_le_succ enough
        unfold instantiateWithin
        cases ready with
        | inl concrete =>
            obtain ⟨type, stored, plain⟩ := id concrete
            refine Builds.ask (tabled.holds.type stored) ?_
            rw [plain]
            exact Builds.pure ⟨heap, .refl tabled, .concrete concrete⟩
        | inr isReady =>
            obtain ⟨type, fields, declaration, name, new, stored, hasFields, is, are, isGeneric,
              hasText, short, nonempty, few, inner⟩ := isReady
            have genericFlag : type.isGeneric = true := is.generic.trans isGeneric
            refine Builds.ask (tabled.holds.type stored) ?_
            rw [genericFlag]
            refine Builds.andThen (builds_findInstance generic argument builder)
              (instanceCost argumentName.utf8ByteSize (depth + 1)) ?_ (Nat.le_of_eq (Nat.zero_add _))
            rintro _ _ ⟨rfl, rfl⟩
            cases found : builder.instances.lookup (generic, argument) with
            | some existing =>
                exact Builds.pure ⟨heap, .refl tabled,
                  .nested ⟨type, stored, genericFlag⟩ found⟩
            | none =>
                have make := builds_newInstance tabled named found stored hasFields is are
                  isGeneric hasText short nonempty few inner (fun tabled named ready =>
                    ih enough tabled named ready)
                refine make.imp ?_ (Nat.le_refl _)
                rintro id after ⟨larger, made, entered⟩
                exact ⟨larger, made, .nested ⟨type, made.kept.hasType stored, genericFlag⟩ entered⟩

/-- The entry that is asked for is there afterwards, for few levels of nesting. -/
theorem builds_instantiate {depth : Nat} (small : depth ≤ 3) {exempt : List (TypeId × TypeId)}
    {heap : Heap} {builder : Builder} {generic : TypeId}
    (tabled : Tabled old exempt heap builder) (named : Named heap argument argumentName)
    (ready : Ready old heap depth generic) :
    Builds (instantiate generic argument) builder
      (instanceCost argumentName.utf8ByteSize depth)
      fun id after => exists larger, Instantiated old exempt heap builder larger after ∧
        Binds larger after.instances argument (some generic) id :=
  builds_instantiateWithin (Nat.le_trans small (by decide)) tabled named ready

end Instantiate

/-! ### New entries -/

section Entries

variable {Result Next : Type} {builder : Builder} {argument : TypeId}

/-- All new entries of the table are for one argument. -/
def AddsFor (argument : TypeId) (builder after : Builder) : Prop :=
  forall key id, after.instances.lookup key = some id ->
    builder.instances.lookup key = some id ∨ key.2 = argument

theorem AddsFor.trans {middle after : Builder} (first : AddsFor argument builder middle)
    (second : AddsFor argument middle after) : AddsFor argument builder after :=
  fun key id found => (second key id found).elim (first key id) Or.inr

theorem AddsFor.of_instances {after : Builder} (same : after.instances = builder.instances) :
    AddsFor argument builder after :=
  fun _ _ found => Or.inl (same ▸ found)

/-- A computation makes entries for one argument only. -/
def MakesFor (argument : TypeId) (step : BuildM Result) : Prop :=
  forall builder, Run step builder (fun _ after => AddsFor argument builder after) fun _ _ => True

theorem MakesFor.pure (result : Result) : MakesFor argument (pure result : BuildM Result) :=
  fun _ => run_pure.mpr (.of_instances rfl)

theorem MakesFor.bind {first : BuildM Result} {second : Result -> BuildM Next}
    (makes : MakesFor argument first) (continues : forall result, MakesFor argument (second result)) :
    MakesFor argument (first >>= second) := by
  intro builder
  refine Run.andThen (makes builder) ?_ fun _ _ _ => trivial
  intro result middle adds
  exact Run.imp (continues result middle) (fun _ _ more => adds.trans more) fun _ _ _ => trivial

theorem MakesFor.query (question : Schema -> Except SchemaError Result) :
    MakesFor argument (Builder.query question) := by
  intro builder
  unfold Run Builder.query
  cases question ⟨builder.arena⟩ with
  | ok result => exact .of_instances rfl
  | error failure => trivial

theorem MakesFor.onArena (step : ArenaM Result) : MakesFor argument (Builder.onArena step) := by
  rintro ⟨arena, instances⟩
  unfold Run Builder.onArena
  dsimp only
  cases step arena with
  | ok result after => exact .of_instances rfl
  | error cause after => trivial

theorem MakesFor.storeText (text : String) : MakesFor argument (Builder.storeText text) := by
  unfold Builder.storeText
  split
  next => exact .pure _
  next =>
    split
    next => exact .bind (.onArena _) fun _ => .pure _
    next => exact fun _ => run_throw.mpr trivial

theorem MakesFor.writeFieldsAt (place : Offset) (fields : List FieldDef) :
    MakesFor argument (Builder.writeFieldsAt place fields) := by
  induction fields generalizing place with
  | nil => exact .pure _
  | cons field rest ih => exact .bind (.onArena _) fun _ => ih _

theorem MakesFor.setFields (id : TypeId) (fields : List FieldDef) :
    MakesFor argument (Builder.setFields id fields) := by
  have update (change : TypeDef -> TypeDef) : MakesFor argument (updateType id change) :=
    .bind (.query _) fun _ => .bind (.onArena _) fun _ => .pure _
  have continues (place : Offset) : MakesFor argument (do
      let type ← updateType id fun type =>
        { type with fields := place, fieldCount := UInt32.ofNat fields.length }
      writeFields type fields
      return type) :=
    .bind (update _) fun type => .bind (.writeFieldsAt type.fields fields) fun _ => .pure _
  unfold Builder.setFields
  dsimp only
  split
  next => exact .bind (.pure _) continues
  next => exact .bind (.onArena _) continues

theorem MakesFor.bindFields {construct : TypeId -> BuildM TypeId}
    (constructs : forall type, MakesFor argument (construct type)) (fields : List FieldDef) :
    MakesFor argument (Builder.bindFields construct argument fields) := by
  induction fields with
  | nil => exact .pure _
  | cons field rest ih =>
      have continues (type : TypeId) : MakesFor argument (do
          let bound ← Builder.bindFields construct argument rest
          return { field with type := some type } :: bound) := .bind ih fun bound => .pure _
      unfold Builder.bindFields
      dsimp only
      split
      next => exact .bind (.pure _) continues
      next type _ => exact .bind (constructs type) continues

theorem MakesFor.register (generic id : TypeId) :
    MakesFor argument (Builder.register generic argument id) := by
  intro builder key other found
  dsimp only at found
  rw [List.lookup_cons] at found
  cases same : key == (generic, argument) with
  | true => exact Or.inr (congrArg Prod.snd (eq_of_beq same))
  | false =>
      rw [same] at found
      exact Or.inl found

/-- Instantiating makes entries for the argument only. -/
theorem MakesFor.instantiateWithin (levels : Nat) (generic : TypeId) :
    MakesFor argument (Builder.instantiateWithin argument levels generic) := by
  induction levels generalizing generic with
  | zero => exact fun _ => run_throw.mpr trivial
  | succ levels ih =>
      unfold Builder.instantiateWithin
      refine .bind (.query _) fun prototype => ?_
      split
      next => exact .pure _
      next =>
        refine .bind (fun _ => Run.imp (.of_instances rfl) (fun _ _ => id) fun _ _ => id)
          fun found => ?_
        split
        next => exact .pure _
        next =>
          exact .bind (.query _) fun _ => .bind (.query _) fun _ => .bind (.storeText _) fun _ =>
            .bind (.bind (.onArena _) fun _ => .pure _) fun _ => .bind (.register _ _) fun _ =>
            .bind (.query _) fun _ => .bind (.bindFields ih _) fun _ =>
            .bind (.setFields _ _) fun _ => .pure _

theorem run_instantiate_addsFor {generic : TypeId} :
    Run (instantiate generic argument) builder (fun _ after => AddsFor argument builder after)
      fun _ _ => True :=
  MakesFor.instantiateWithin _ generic builder

end Entries

theorem Binds.of_isGeneric {heap : Heap} {instances : Instances} {argument generic id : TypeId}
    (binds : Binds heap instances argument (some generic) id) (isGeneric : IsGeneric heap generic) :
    instances.lookup (generic, argument) = some id := by
  cases binds with
  | concrete concrete => exact absurd isGeneric concrete.not_isGeneric
  | nested _ found => exact found

theorem Binds.of_concrete {heap : Heap} {instances : Instances} {argument type id : TypeId}
    (binds : Binds heap instances argument (some type) id) (concrete : Concrete heap type) :
    id = type := by
  cases binds with
  | concrete _ => rfl
  | nested isGeneric _ => exact absurd isGeneric concrete.not_isGeneric

end Builder
end PackedJson
