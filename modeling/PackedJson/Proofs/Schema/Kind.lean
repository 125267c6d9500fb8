import PackedJson.Proofs.Schema.Foundation

namespace PackedJson

/-!
The kinds of types that documents are packed into.

A kind says what a type is and which types it refers to.  It fixes the
declaration of the type, so that a type is of one kind only.  Instances of the
generic types of a context are of the kinds that their generic types are for.
-/

/-- What a type that is not generic is. -/
inductive Kind where
  | scalar (builtin : Builtin)
  | text
  | array (element : TypeId)
  /-- A map of values, and its parallel arrays. -/
  | map (value keys values strings : TypeId)
  | option (inner : TypeId)
  | result (inner : TypeId)
  | struct (members : List Member)
  | variant (alternatives : List Member)

namespace Kind

variable (context : Context)

/-- What a type of some kind says. -/
def declaration : Kind -> Declaration
  | scalar _ => ⟨.struct, none, none, true, false, []⟩
  | text => ⟨.array, some (context.builtin .array), some (context.builtin .char), true, false,
      context.arrayMembers⟩
  | array element => ⟨.array, some (context.builtin .array), some element, false, false,
      context.arrayMembers⟩
  | map value keys values strings => ⟨.map, some (context.builtin .map), some value, false, false,
      Context.mapMembers keys values strings⟩
  | option inner => ⟨.variant, some (context.builtin .option), some inner, false, false,
      context.optionMembers (some inner)⟩
  | result inner => ⟨.variant, some (context.builtin .result), some inner, false, false,
      context.resultMembers (some inner)⟩
  | struct members => ⟨.struct, some (context.builtin .structPrototype), none, false, false,
      members⟩
  | variant alternatives => ⟨.variant, some (context.builtin .variantPrototype), none, false, false,
      context.tagMember :: alternatives⟩

end Kind

/-- The parallel arrays of a map were not there before. -/
def Kind.IsNew (old : Heap) : Kind -> Prop
  | .map _ keys values strings => old keys.offset.toNat = none ∧ old values.offset.toNat = none ∧
      old strings.offset.toNat = none
  | _ => True

/-- The types that a declaration refers to. -/
def Declaration.successors (declaration : Declaration) : List TypeId :=
  declaration.members.filterMap Member.type ++ declaration.argument.toList

/-- The alternatives of a declared variant are chosen by their places. -/
def AreChoices (alternatives : List Member) : Prop :=
  alternatives ≠ [] ∧ alternatives.length ≤ 255 ∧
    forall index member, alternatives[index]? = some member -> member.choice = UInt8.ofNat index

namespace Builder

open Heap

/-- What a type of some kind is, apart from its declaration. -/
def KindDetails (heap : Heap) (target : Target) (context : Context) (id : TypeId) : Kind -> Prop
  | .scalar builtin => id = context.builtin builtin ∧
      exists size, (builtin, size) ∈ scalarSizes target ∧ IsScalar heap id builtin.name size
  | .text => id = context.builtin .string
  | .map value keys values strings =>
      Declares heap keys ((Kind.array (context.builtin .hash)).declaration context) ∧
      Declares heap values ((Kind.array value).declaration context) ∧
      Declares heap strings ((Kind.array (context.builtin .string)).declaration context)
  | .variant alternatives => AreChoices alternatives
  | _ => True

/-- A stored type is of some kind. -/
structure IsKind (heap : Heap) (target : Target) (context : Context) (id : TypeId) (kind : Kind) :
    Prop where
  declares : Declares heap id (kind.declaration context)
  details : KindDetails heap target context id kind

section Kinds

variable {old heap later : Heap} {target : Target} {context : Context} {id : TypeId} {kind : Kind}

theorem IsKind.grows (is : IsKind heap target context id kind) (grows : Grows heap later) :
    IsKind later target context id kind := by
  obtain ⟨declares, details⟩ := is
  refine ⟨grows.declares declares, ?_⟩
  cases kind with
  | scalar builtin =>
      obtain ⟨same, size, member, scalar⟩ := details
      exact ⟨same, size, member, scalar.grows grows⟩
  | map value keys values strings =>
      exact ⟨grows.declares details.1, grows.declares details.2.1, grows.declares details.2.2⟩
  | _ => exact details

/-- A type keeps its kind when another one, which is a declared type, gets its
fields. -/
theorem IsKind.change {type : TypeDef} {other : TypeId} (stored : HasType heap id type)
    (declared : type.IsDeclared) (kept : (heap.without id.offset.toNat).Extends later)
    (is : IsKind heap target context other kind) (different : other ≠ id) :
    IsKind later target context other kind := by
  obtain ⟨declares, details⟩ := is
  have keeps {inner : TypeId} {declaration : Declaration} (declares : Declares heap inner declaration)
      (apart : inner ≠ id) : Declares later inner declaration :=
    kept.grows.declares (declares_without stored declares apart)
  refine ⟨keeps declares different, ?_⟩
  cases kind with
  | scalar builtin =>
      obtain ⟨same, size, member, name, hasType, hasText⟩ := details
      exact ⟨same, size, member, name, kept.hasType (hasType_without hasType different),
        kept.hasText (hasText_without stored hasText)⟩
  | map value keys values strings =>
      obtain ⟨keysAre, valuesAre, stringsAre⟩ := details
      exact ⟨keeps keysAre (ne_of_declared stored declared keysAre (Or.inr rfl)),
        keeps valuesAre (ne_of_declared stored declared valuesAre (Or.inr rfl)),
        keeps stringsAre (ne_of_declared stored declared stringsAre (Or.inr rfl))⟩
  | _ => exact details

end Kinds

/-! ### Instances -/

section Instances

variable {old heap : Heap} {target : Target} {context : Context} {builder : Builder}
  {argument id : TypeId}

theorem BindsMember.of_parameter {instances : Instances} {generic bound : Member}
    (binds : BindsMember heap instances argument generic bound) (isParameter : generic.type = none) :
    bound = { generic with type := some argument } := by
  obtain ⟨bindsId, binds, same⟩ := binds
  rw [isParameter] at binds
  cases binds
  exact same

theorem BindsMember.of_concrete {instances : Instances} {generic bound : Member} {type : TypeId}
    (binds : BindsMember heap instances argument generic bound) (isType : generic.type = some type)
    (concrete : Concrete heap type) : bound = generic := by
  obtain ⟨bindsId, binds, same⟩ := binds
  rw [isType] at binds
  rw [same, binds.of_concrete concrete, ← isType]

theorem BindsMember.of_isGeneric {instances : Instances} {generic bound : Member} {type : TypeId}
    (binds : BindsMember heap instances argument generic bound) (isType : generic.type = some type)
    (isGeneric : IsGeneric heap type) :
    exists bindsId, instances.lookup (type, argument) = some bindsId ∧
      bound = { generic with type := some bindsId } := by
  obtain ⟨bindsId, binds, same⟩ := binds
  rw [isType] at binds
  exact ⟨bindsId, binds.of_isGeneric isGeneric, same⟩

theorem forall₂_three {First Second : Type} {relation : First -> Second -> Prop} {one two three : First}
    {others : List Second} (related : List.Forall₂ relation [one, two, three] others) :
    exists first second third, others = [first, second, third] ∧ relation one first ∧
      relation two second ∧ relation three third := by
  cases related with
  | cons first rest =>
      cases rest with
      | cons second rest =>
          cases rest with
          | cons third rest =>
              cases rest
              exact ⟨_, _, _, rfl, first, second, third⟩

/-- The declaration of an instance of a generic builtin. -/
theorem Tabled.bound {exempt : List (TypeId × TypeId)} (tabled : Tabled old exempt heap builder)
    {generic : TypeId} {shape : Shape} {name : String} {members : List Member}
    (is : IsGenericType old heap generic shape name members)
    (found : builder.instances.lookup (generic, argument) = some id)
    (notExempt : (generic, argument) ∉ exempt) :
    exists bound, List.Forall₂ (BindsMember heap builder.instances argument) members bound ∧
      Declares heap id ⟨shape, some generic, some argument, false, false, bound⟩ := by
  have new : old generic.offset.toNat = none := by
    obtain ⟨_, _, new, _⟩ := is
    exact new
  exact (tabled.complete generic argument id new found notExempt).bound is.declares

variable (tabled : Tabled old [context.textKey] heap builder)
  (founded : Founded old heap builder.instances target context)

include founded in
theorem Founded.not_textKey {builtin : Builtin} (different : builtin ≠ .array) :
    (context.builtin builtin, argument) ∉ [context.textKey] := by
  intro member
  have same := congrArg Prod.fst (List.mem_singleton.mp member)
  exact different (founded.builtin_inj same)

include tabled founded in
theorem array_isKind
    (found : builder.instances.lookup (context.builtin .array, argument) = some id)
    (notText : argument ≠ context.builtin .char) :
    IsKind heap target context id (.array argument) := by
  have notExempt : (context.builtin .array, argument) ∉ [context.textKey] := by
    intro member
    exact notText (congrArg Prod.snd (List.mem_singleton.mp member))
  obtain ⟨bound, allBound, declares⟩ := tabled.bound founded.basics.array found notExempt
  obtain ⟨pointer, capacity, length, rfl, bindsPointer, bindsCapacity, bindsLength⟩ :=
    forall₂_three allBound
  have size := founded.basics.scalars.concrete .size (by decide)
  have samePointer := bindsPointer.of_concrete rfl
    (founded.basics.scalars.concrete .pointer (by decide))
  have sameCapacity := bindsCapacity.of_concrete rfl size
  have sameLength := bindsLength.of_concrete rfl size
  subst samePointer sameCapacity sameLength
  exact ⟨declares, trivial⟩

include tabled founded in
theorem option_isKind
    (found : builder.instances.lookup (context.builtin .option, argument) = some id) :
    IsKind heap target context id (.option argument) := by
  obtain ⟨bound, allBound, declares⟩ := tabled.bound founded.option found
    (founded.not_textKey (by decide))
  obtain ⟨tag, absent, present, rfl, bindsTag, bindsAbsent, bindsPresent⟩ := forall₂_three allBound
  have sameTag := bindsTag.of_concrete rfl (founded.basics.scalars.concrete .tag (by decide))
  have sameAbsent := bindsAbsent.of_concrete rfl (founded.basics.scalars.concrete .unit (by decide))
  have samePresent := bindsPresent.of_parameter rfl
  subst sameTag sameAbsent samePresent
  exact ⟨declares, trivial⟩

include tabled founded in
theorem result_isKind
    (found : builder.instances.lookup (context.builtin .result, argument) = some id) :
    IsKind heap target context id (.result argument) := by
  obtain ⟨bound, allBound, declares⟩ := tabled.bound founded.result found
    (founded.not_textKey (by decide))
  obtain ⟨tag, success, failure, rfl, bindsTag, bindsSuccess, bindsFailure⟩ :=
    forall₂_three allBound
  have sameTag := bindsTag.of_concrete rfl (founded.basics.scalars.concrete .tag (by decide))
  have sameSuccess := bindsSuccess.of_parameter rfl
  have sameFailure := bindsFailure.of_concrete rfl
    (Declares.concrete founded.basics.string rfl)
  subst sameTag sameSuccess sameFailure
  exact ⟨declares, trivial⟩

include tabled founded in
/-- The instance of a map, with the entries of its parallel arrays. -/
theorem map_isKind
    (found : builder.instances.lookup (context.builtin .map, argument) = some id)
    (notText : argument ≠ context.builtin .char) :
    exists keys values strings,
      IsKind heap target context id (.map argument keys values strings) ∧
      builder.instances.lookup (context.builtin .array, context.builtin .hash) = some keys ∧
      builder.instances.lookup (context.builtin .array, argument) = some values ∧
      builder.instances.lookup (context.builtin .array, context.builtin .string) =
        some strings := by
  obtain ⟨keys, strings, keysFound, stringsFound, isMap⟩ := founded.map
  obtain ⟨bound, allBound, declares⟩ := tabled.bound isMap found
    (founded.not_textKey (by decide))
  obtain ⟨keysMember, valuesMember, stringsMember, rfl, bindsKeys, bindsValues, bindsStrings⟩ :=
    forall₂_three allBound
  have apart {builtin : Builtin} (different : builtin ≠ .char) :
      context.builtin builtin ≠ context.builtin .char :=
    fun same => different (founded.builtin_inj same)
  have keysKind := array_isKind tabled founded keysFound (apart (by decide))
  have stringsKind := array_isKind tabled founded stringsFound (apart (by decide))
  have isGeneric : IsGeneric heap (context.builtin .array) := by
    obtain ⟨type, _, _, stored, _, is, _⟩ := founded.basics.array
    exact ⟨type, stored, is.generic⟩
  have sameKeys := bindsKeys.of_concrete rfl (Declares.concrete keysKind.declares rfl)
  have sameStrings := bindsStrings.of_concrete rfl (Declares.concrete stringsKind.declares rfl)
  obtain ⟨values, valuesFound, sameValues⟩ := bindsValues.of_isGeneric rfl isGeneric
  subst sameKeys sameStrings sameValues
  have valuesKind := array_isKind tabled founded valuesFound notText
  exact ⟨keys, values, strings,
    ⟨declares, keysKind.declares, valuesKind.declares, stringsKind.declares⟩, keysFound,
    valuesFound, stringsFound⟩

end Instances

/-! ### Generic builtins -/

/-- The generic builtins that values may have instances of. -/
def genericBuiltins : List Builtin := [.array, .option, .result, .map]

section Generic

variable {old heap : Heap} {instances : Instances} {target : Target} {context : Context}

theorem IsGenericType.isGeneric {id : TypeId} {shape : Shape} {name : String}
    {members : List Member} (is : IsGenericType old heap id shape name members) :
    IsGeneric heap id := by
  obtain ⟨type, _, _, stored, _, is, _⟩ := is
  exact ⟨type, stored, is.generic⟩

theorem Founded.isGeneric (founded : Founded old heap instances target context)
    {generic : Builtin} (isGeneric : generic ∈ genericBuiltins) :
    IsGeneric heap (context.builtin generic) := by
  obtain ⟨_, _, _, _, map⟩ := founded.map
  simp only [genericBuiltins, List.mem_cons, List.not_mem_nil, or_false] at isGeneric
  rcases isGeneric with rfl | rfl | rfl | rfl
  · exact founded.basics.array.isGeneric
  · exact founded.option.isGeneric
  · exact founded.result.isGeneric
  · exact map.isGeneric

/-- Generic builtins bear the names of builtins. -/
theorem Founded.named_generic (founded : Founded old heap instances target context)
    {generic : Builtin} (isGeneric : generic ∈ genericBuiltins) :
    Named heap (context.builtin generic) generic.name := by
  have ofIs {shape : Shape} {name : String} {members : List Member} {id : TypeId}
      (is : IsGenericType old heap id shape name members) : Named heap id name := by
    obtain ⟨type, _, _, stored, _, _, _, hasText, _⟩ := is
    exact ⟨type, stored, hasText⟩
  obtain ⟨keys, strings, _, _, map⟩ := founded.map
  simp only [genericBuiltins, List.mem_cons, List.not_mem_nil, or_false] at isGeneric
  rcases isGeneric with rfl | rfl | rfl | rfl
  · exact ofIs founded.basics.array
  · exact ofIs founded.option
  · exact ofIs founded.result
  · exact ofIs map

theorem Founded.named_proper (founded : Founded old heap instances target context)
    {builtin : Builtin} (proper : builtin ∈ Builtin.string :: scalarBuiltins) :
    Named heap (context.builtin builtin) builtin.name := by
  cases List.mem_cons.mp proper with
  | inl same => exact same ▸ founded.basics.stringNamed
  | inr isScalar => exact founded.basics.scalars.named builtin isScalar

theorem IsInstance.declares {generic argument id : TypeId}
    (is : IsInstance heap instances generic argument id) : exists shape members,
      Declares heap id ⟨shape, some generic, some argument, false, false, members⟩ := by
  obtain ⟨declaration, members, _, _, _, declares, _⟩ := is
  exact ⟨declaration.shape, members, declares⟩

/-- An instance has no marks: those of its generic builtin are taken away. -/
theorem Labelled.flagged {generic argument id : TypeId}
    (labelled : Labelled heap generic argument id) {shape : Shape} {name : String}
    {members : List Member} (is : IsGenericType old heap generic shape name members) :
    Flagged heap id FlagSet.empty := by
  obtain ⟨genericType, type, _, _, genericStored, _, _, stored, _, flags⟩ := labelled
  obtain ⟨otherType, _, _, otherStored, _, _, _, _, genericFlagged⟩ := is
  cases hasType_inj genericStored otherStored
  refine ⟨type, stored, flags.trans ?_⟩
  rw [genericFlagged]
  decide

theorem Founded.readyOption (founded : Founded old heap instances target context) :
    Ready old heap 2 (context.builtin .option) := by
  refine founded.option.ready (by decide) (List.cons_ne_nil _ _) (Nat.le_refl 3) ?_
  refine List.forall_mem_cons.mpr ⟨?_, List.forall_mem_cons.mpr ⟨?_,
    List.forall_mem_singleton.mpr nofun⟩⟩
  · rintro _ ⟨rfl⟩
    exact .of_concrete (founded.basics.scalars.concrete .tag (by decide))
  · rintro _ ⟨rfl⟩
    exact .of_concrete (founded.basics.scalars.concrete .unit (by decide))

theorem Founded.readyResult (founded : Founded old heap instances target context) :
    Ready old heap 2 (context.builtin .result) := by
  refine founded.result.ready (by decide) (List.cons_ne_nil _ _) (Nat.le_refl 3) ?_
  refine List.forall_mem_cons.mpr ⟨?_, List.forall_mem_cons.mpr ⟨nofun,
    List.forall_mem_singleton.mpr ?_⟩⟩
  · rintro _ ⟨rfl⟩
    exact .of_concrete (founded.basics.scalars.concrete .tag (by decide))
  · rintro _ ⟨rfl⟩
    exact .of_concrete (Declares.concrete founded.basics.string rfl)

/-- A map of any values consists of arrays. -/
theorem Founded.readyMap {builder : Builder}
    (founded : Founded old heap builder.instances target context)
    (tabled : Tabled old [context.textKey] heap builder) :
    Ready old heap 3 (context.builtin .map) := by
  obtain ⟨keys, strings, keysFound, stringsFound, isMap⟩ := founded.map
  have apart {builtin : Builtin} (different : builtin ≠ .char) :
      context.builtin builtin ≠ context.builtin .char :=
    fun same => different (founded.builtin_inj same)
  have keysKind := array_isKind tabled founded keysFound (apart (by decide))
  have stringsKind := array_isKind tabled founded stringsFound (apart (by decide))
  refine isMap.ready (by decide) (List.cons_ne_nil _ _) (Nat.le_refl 3) ?_
  refine List.forall_mem_cons.mpr ⟨?_, List.forall_mem_cons.mpr ⟨?_,
    List.forall_mem_singleton.mpr ?_⟩⟩
  · rintro _ ⟨rfl⟩
    exact .of_concrete (Declares.concrete keysKind.declares rfl)
  · rintro _ ⟨rfl⟩
    exact founded.basics.ready
  · rintro _ ⟨rfl⟩
    exact .of_concrete (Declares.concrete stringsKind.declares rfl)

end Generic

/-! ### Making instances -/

section Making

variable {old heap : Heap} {target : Target} {context : Context} {builder : Builder}
  {argument : TypeId} {argumentName : String}

/-- An instance of some kind is there, named and new, and all entries of the
table are complete. -/
def MakesKind (old heap : Heap) (target : Target) (context : Context) (builder : Builder)
    (kindIs : Kind -> Prop) (id : TypeId) (after : Builder) : Prop :=
  exists larger kind name, Instantiated old [context.textKey] heap builder larger after ∧
    kindIs kind ∧ IsKind larger target context id kind ∧ Named larger id name ∧
    old id.offset.toNat = none

theorem builds_instance (tabled : Tabled old [context.textKey] heap builder)
    (founded : Founded old heap builder.instances target context)
    (named : Named heap argument argumentName) {generic : Builtin} {levels : Nat}
    (few : levels ≤ 3) (ready : Ready old heap levels (context.builtin generic))
    (isGeneric : IsGeneric heap (context.builtin generic))
    (notExempt : (context.builtin generic, argument) ∉ [context.textKey])
    {kindIs : Kind -> Prop}
    (isKind : forall {larger : Heap} {after : Builder} {id : TypeId},
      Tabled old [context.textKey] larger after ->
      Founded old larger after.instances target context ->
      after.instances.lookup (context.builtin generic, argument) = some id ->
      exists kind, kindIs kind ∧ IsKind larger target context id kind) :
    Builds (instantiate (context.builtin generic) argument) builder
      (instanceCost argumentName.utf8ByteSize levels)
      (MakesKind old heap target context builder kindIs) := by
  refine (builds_instantiate few tabled named ready).imp ?_ (Nat.le_refl _)
  rintro id after ⟨larger, made, binds⟩
  have found := binds.of_isGeneric (isGeneric.grows made.kept.grows)
  have new := founded.made.new generic generic.mem_all
  obtain ⟨name, isNamed⟩ := (made.tabled.complete _ _ _ new found notExempt).labelled.named
  obtain ⟨kind, isOne, is⟩ := isKind made.tabled
    (founded.grows made.kept.grows made.continues) found
  exact ⟨larger, kind, name, made, isOne, is, isNamed, made.tabled.new _ _ _ new found⟩

variable (tabled : Tabled old [context.textKey] heap builder)
  (founded : Founded old heap builder.instances target context)
  (named : Named heap argument argumentName)

include tabled founded named

theorem builds_arrayOf (notText : argument ≠ context.builtin .char) :
    Builds (arrayOf context argument) builder (instanceCost argumentName.utf8ByteSize 2)
      (MakesKind old heap target context builder (· = .array argument)) := by
  refine builds_instance tabled founded named (by decide) founded.basics.ready
    founded.basics.array.isGeneric ?_ ?_
  · intro member
    exact notText (congrArg Prod.snd (List.mem_singleton.mp member))
  · intro larger after id tabled founded found
    exact ⟨_, rfl, array_isKind tabled founded found notText⟩

theorem builds_optionOf :
    Builds (optionOf context argument) builder (instanceCost argumentName.utf8ByteSize 2)
      (MakesKind old heap target context builder (· = .option argument)) := by
  refine builds_instance tabled founded named (by decide) founded.readyOption
    founded.option.isGeneric (founded.not_textKey (by decide)) ?_
  intro larger after id tabled founded found
  exact ⟨_, rfl, option_isKind tabled founded found⟩

theorem builds_resultOf :
    Builds (resultOf context argument) builder (instanceCost argumentName.utf8ByteSize 2)
      (MakesKind old heap target context builder (· = .result argument)) := by
  refine builds_instance tabled founded named (by decide) founded.readyResult
    founded.result.isGeneric (founded.not_textKey (by decide)) ?_
  intro larger after id tabled founded found
  exact ⟨_, rfl, result_isKind tabled founded found⟩

theorem builds_mapOf (notText : argument ≠ context.builtin .char) :
    Builds (mapOf context argument) builder (instanceCost argumentName.utf8ByteSize 3)
      (MakesKind old heap target context builder (fun kind => kind.IsNew old ∧
        exists keys values strings, kind = .map argument keys values strings)) := by
  obtain ⟨_, _, _, _, isMap⟩ := founded.map
  refine builds_instance tabled founded named (Nat.le_refl 3) (founded.readyMap tabled)
    isMap.isGeneric (founded.not_textKey (by decide)) ?_
  intro larger after id tabled founded found
  obtain ⟨keys, values, strings, is, keysFound, valuesFound, stringsFound⟩ :=
    map_isKind tabled founded found notText
  have new := founded.made.new .array (Builtin.mem_all .array)
  exact ⟨.map argument keys values strings, ⟨⟨tabled.new _ _ _ new keysFound,
    tabled.new _ _ _ new valuesFound, tabled.new _ _ _ new stringsFound⟩,
    keys, values, strings, rfl⟩, is⟩

end Making

end Builder
end PackedJson
