import PackedJson.Proofs.TextSchema.Telling

namespace PackedJson
namespace TextSchema

open Heap Builder Layout Draft Text

/-!
Types of one name in two drafts with one listing.

What is listed is the type of texts, an instance of a generic type or a
declared type, and its shape and its parts tell which.  So two types that are
listed alike are of one kind, their parts have types of the same names, and the
same room is taken for both of them.
-/

/-! ### What is listed -/

/-- The outlines of what is listed. -/
inductive IsForm : Ref -> Outline -> Prop where
  | text : IsForm (.builtin .string) (builtinOutline .string)
  | applied {generic : Builtin} {argument : Ref} : generic ∈ genericBuiltins ->
      IsForm (.applied generic argument) (instanceOutline generic argument)
  | declared {index : Nat} {shape : Shape} {flags : TypeFlags} {parts : List Part} :
      Labelled shape parts ->
      IsForm (.declared index) ⟨shape, some (prototypeOf shape), none, false, flags, parts⟩

/-- The prototype of a type with a shape and with parts of some names and activations.  Only the
third part of a wrapper has an activation, and the second one tells options from results. -/
def prototypeFrom (shape : Shape) (parts : List (String × UInt8)) : Builtin :=
  match shape with
  | .struct => .structPrototype
  | .array => .array
  | .map => .map
  | .variant =>
      if parts[2]?.map Prod.snd = some 1 then
        if parts[1]?.map Prod.fst = some "None" then .option else .result
      else .variantPrototype

/-- An alternative is known by its number. -/
theorem Numbered.getElem {alternatives : List Part} {index : Nat}
    (numbered : Numbered index alternatives) {place : Nat} (bound : place < alternatives.length) :
    alternatives[place].activation = 0 ∧
      alternatives[place].choice = UInt8.ofNat (index + place) := by
  have same := List.getElem_of_eq numbered (show place < (alternatives.map _).length by
    rw [List.length_map]
    exact bound)
  rw [List.getElem_map, List.getElem_map, List.getElem_range', Nat.one_mul] at same
  exact ⟨congrArg Prod.fst same, congrArg Prod.snd same⟩

namespace IsForm

variable {ref : Ref} {outline : Outline}

/-- What is listed has a prototype, which its shape and its parts tell. -/
theorem prototype_eq (isForm : IsForm ref outline) : outline.prototype =
    some (prototypeFrom outline.shape (outline.parts.map fun part => (part.name, part.activation))) := by
  cases isForm with
  | text => rfl
  | @applied generic argument isGeneric =>
      simp only [genericBuiltins, List.mem_cons, List.not_mem_nil, or_false] at isGeneric
      rcases isGeneric with rfl | rfl | rfl | rfl <;> rfl
  | @declared _ _ _ _ labelled =>
      cases labelled with
      | struct => rfl
      | @variant alternatives _ numbered =>
          refine congrArg some (if_neg fun active => ?_).symm
          obtain ⟨entry, found, isActive⟩ := Option.map_eq_some_iff.mp active
          rw [List.getElem?_map, List.getElem?_cons_succ] at found
          obtain ⟨part, isPart, rfl⟩ := Option.map_eq_some_iff.mp found
          obtain ⟨bound, rfl⟩ := List.getElem?_eq_some_iff.mp isPart
          exact absurd ((numbered.getElem bound).1.symm.trans isActive) (by decide)

/-- The name and the shape of the type of texts are those of no other type. -/
theorem eq_string_iff (draft : Draft) (isForm : IsForm ref outline) :
    ref = .builtin .string ↔ outline.shape = .array ∧ draft.nameOf ref = Builtin.string.name := by
  cases isForm with
  | text => exact ⟨fun _ => ⟨rfl, rfl⟩, fun _ => rfl⟩
  | @applied generic argument isGeneric =>
      constructor
      · intro same
        cases same
      · rintro ⟨isArray, named⟩
        simp only [genericBuiltins, List.mem_cons, List.not_mem_nil, or_false] at isGeneric
        rcases isGeneric with rfl | rfl | rfl | rfl
        · have letters := congrArg String.toList named
          simp [nameOf, Builtin.name] at letters
        all_goals cases isArray
  | @declared _ _ _ _ labelled =>
      constructor
      · intro same
        cases same
      · rintro ⟨isArray, _⟩
        cases labelled <;> cases isArray

/-- The parts of variants are numbered, apart from the tag. -/
theorem choices (isForm : IsForm ref outline) (isVariant : outline.shape = .variant) :
    outline.parts.map Part.choice =
      0 :: (List.range' 0 (outline.parts.length - 1)).map UInt8.ofNat := by
  cases isForm with
  | text => cases isVariant
  | @applied generic argument isGeneric =>
      simp only [genericBuiltins, List.mem_cons, List.not_mem_nil, or_false] at isGeneric
      rcases isGeneric with rfl | rfl | rfl | rfl
      · cases isVariant
      · rfl
      · rfl
      · cases isVariant
  | @declared _ _ _ _ labelled =>
      cases labelled with
      | struct => cases isVariant
      | @variant alternatives _ numbered =>
          have same := congrArg (List.map Prod.snd) numbered
          rw [List.map_map, List.map_map] at same
          exact congrArg (0 :: ·) same

theorem argument_instanceOutline (generic : Builtin) (argument : Ref) :
    (instanceOutline generic argument).argument = some argument := by
  cases generic <;> rfl

theorem prototype_instanceOutline {generic : Builtin} (isGeneric : generic ∈ genericBuiltins)
    (argument : Ref) : (instanceOutline generic argument).prototype = some generic := by
  simp only [genericBuiltins, List.mem_cons, List.not_mem_nil, or_false] at isGeneric
  rcases isGeneric with rfl | rfl | rfl | rfl <;> rfl

theorem prototypeOf_not_generic (shape : Shape) : prototypeOf shape ∉ genericBuiltins := by
  cases shape <;> decide

/-- Two instances of one name have arguments of one name. -/
theorem argument_names {draft other : Draft} {otherRef : Ref} {otherOutline : Outline}
    (isForm : IsForm ref outline) (otherIsForm : IsForm otherRef otherOutline)
    (prototype : otherOutline.prototype = outline.prototype)
    (text : otherRef = .builtin .string ↔ ref = .builtin .string)
    (name : other.nameOf otherRef = draft.nameOf ref) :
    Option.Rel (fun inner otherInner => other.nameOf otherInner = draft.nameOf inner)
      outline.argument otherOutline.argument := by
  cases isForm with
  | text =>
      cases text.mpr rfl
      cases otherIsForm
      exact .some rfl
  | @applied generic argument isGeneric =>
      rw [prototype_instanceOutline isGeneric] at prototype
      cases otherIsForm with
      | text => cases text.mp rfl
      | @applied otherGeneric otherArgument otherIsGeneric =>
          rw [prototype_instanceOutline otherIsGeneric] at prototype
          cases prototype
          rw [argument_instanceOutline, argument_instanceOutline]
          have letters := congrArg String.toList name
          simp only [nameOf, String.toList_append, List.append_assoc] at letters
          exact .some (String.toList_inj.mp (List.append_cancel_right
            (List.append_cancel_left (List.append_cancel_left letters))))
      | @declared _ shape =>
          exact absurd (Option.some.inj prototype ▸ isGeneric) (prototypeOf_not_generic shape)
  | @declared _ shape =>
      cases otherIsForm with
      | text => cases text.mp rfl
      | applied otherIsGeneric =>
          rw [prototype_instanceOutline otherIsGeneric] at prototype
          exact absurd (Option.some.inj prototype ▸ otherIsGeneric) (prototypeOf_not_generic shape)
      | declared => exact .none

/-- Builtins that are listed are the type of texts. -/
theorem eq_string {builtin : Builtin} (isForm : IsForm (.builtin builtin) outline) :
    builtin = .string := by
  cases isForm
  rfl

end IsForm

/-! ### Drafts with one listing -/

/-- A draft that a text schema compiles to, its exact sizes, and the types that are listed for it. -/
structure Draft.Listable (draft : Draft) (sizesFor : Target -> Ref -> Variable) (slice : String)
    (root : Ref) (refs : List Ref) : Prop where
  complete : draft.Complete root
  named : draft.Named
  exact : forall target, draft.Exact target (sizesFor target)
  plain : draft.IsPlain slice root
  reached : forall ref, ref ∈ refs ↔ draft.Reaches root ref
  first : draft.isListed root = true -> (refs.filter draft.isListed).head? = some root
  proper : forall ref, draft.Reaches root ref -> ref.Proper
  bound : forall index, draft.Reaches root (.declared index) -> index < draft.sketches.length

namespace Draft.Listable

variable {draft : Draft} {sizesFor : Target -> Ref -> Variable} {slice : String} {root ref : Ref}
  {refs : List Ref} (listable : draft.Listable sizesFor slice root refs)

include listable

theorem isForm (reached : draft.Reaches root ref) (listed : draft.isListed ref = true) :
    IsForm ref (draft.outline ref) := by
  cases ref with
  | builtin builtin =>
      cases builtin with
      | string => exact .text
      | _ => cases listed
  | declared index =>
      obtain ⟨sketch, parts, isSketch, hasParts, _⟩ :=
        listable.complete.settles index (listable.bound index reached)
      rw [outline_of_some isSketch, Sketch.outline, hasParts]
      exact .declared (listable.named.labelled index sketch parts isSketch hasParts)
  | applied generic argument => exact .applied (listable.proper _ reached).1

/-- What is not listed is a scalar. -/
theorem eq_builtin (reached : draft.Reaches root ref) (unlisted : draft.isListed ref = false) :
    exists builtin, ref = .builtin builtin ∧ builtin ≠ .string := by
  cases ref with
  | builtin builtin =>
      refine ⟨builtin, rfl, ?_⟩
      rintro rfl
      cases unlisted
  | declared index =>
      obtain ⟨sketch, _, isSketch, _⟩ := listable.complete.settles index (listable.bound index reached)
      unfold isListed at unlisted
      rw [outline_of_some isSketch] at unlisted
      cases unlisted
  | applied generic argument => cases generic <;> cases unlisted

end Draft.Listable

/-- Two types that can be reached have one name. -/
structure Namesakes (draft other : Draft) (root otherRoot ref otherRef : Ref) : Prop where
  reached : draft.Reaches root ref
  otherReached : other.Reaches otherRoot otherRef
  name : other.nameOf otherRef = draft.nameOf ref

/-- Two parts of types of some shape say the same. -/
structure PartsResemble (related : Ref -> Ref -> Prop) (shape : Shape) (part other : Part) : Prop where
  name : other.name = part.name
  types : related part.type other.type
  activation : other.activation = part.activation
  choice : shape = .variant -> other.choice = part.choice

/-- Two types are of one kind, and refer to types that are related. -/
structure Resembles (draft other : Draft) (related : Ref -> Ref -> Prop) (ref otherRef : Ref) :
    Prop where
  builtin : forall builtin, otherRef = .builtin builtin ↔ ref = .builtin builtin
  shape : (other.outline otherRef).shape = (draft.outline ref).shape
  prototype : (other.outline otherRef).prototype = (draft.outline ref).prototype
  byReference : other.isByReference otherRef = draft.isByReference ref
  argument : Option.Rel related (draft.outline ref).argument (other.outline otherRef).argument
  parts : List.Forall₂ (PartsResemble related (draft.outline ref).shape) (draft.outline ref).parts
    (other.outline otherRef).parts

section Listings

variable {draft other : Draft} {sizesFor otherSizesFor : Target -> Ref -> Variable}
  {slice otherSlice : String} {root otherRoot ref otherRef : Ref} {refs otherRefs : List Ref}

theorem Namesakes.symm (namesakes : Namesakes draft other root otherRoot ref otherRef) :
    Namesakes other draft otherRoot root otherRef ref :=
  ⟨namesakes.otherReached, namesakes.reached, namesakes.name.symm⟩

/-- What types of one name refer to has one name as well, if the names are those of parts. -/
theorem Namesakes.next (namesakes : Namesakes draft other root otherRoot ref otherRef)
    {inner otherInner : Ref} (member : inner ∈ (draft.outline ref).successors)
    (otherMember : otherInner ∈ (other.outline otherRef).successors)
    (name : other.nameOf otherInner = draft.nameOf inner) :
    Namesakes draft other root otherRoot inner otherInner :=
  ⟨namesakes.reached.next member, namesakes.otherReached.next otherMember, name⟩

variable (listable : draft.Listable sizesFor slice root refs)
  (otherListable : other.Listable otherSizesFor otherSlice otherRoot otherRefs)
  (same : draft.layout sizesFor slice root refs =
    other.layout otherSizesFor otherSlice otherRoot otherRefs)

include listable otherListable same

/-- A type that is listed has the lines of the type of its name, for each target. -/
theorem Namesakes.typeLines_eq (namesakes : Namesakes draft other root otherRoot ref otherRef)
    (listed : draft.isListed ref = true) : other.isListed otherRef = true ∧ forall target,
      draft.typeLines target (sizesFor target) ref =
        other.typeLines target (otherSizesFor target) otherRef := by
  have member : ref ∈ refs.filter draft.isListed :=
    List.mem_filter.mpr ⟨(listable.reached ref).mpr namesakes.reached, listed⟩
  have each (target : Target) : otherRef ∈ otherRefs.filter other.isListed ∧
      draft.typeLines target (sizesFor target) ref =
        other.typeLines target (otherSizesFor target) otherRef := by
    obtain ⟨mate, isShown, sameLines⟩ := exists_of_mem_left
      (typeLines_eq_of_layout listable.plain (fun ref => (listable.reached ref).mp)
        otherListable.plain (fun ref => (otherListable.reached ref).mp) same target) member
    have mateReached := (otherListable.reached mate).mp (List.mem_of_mem_filter isShown)
    have name := (typeLine_inj (List.cons.inj sameLines).1).1
    -- There is no other type of the name.
    cases otherListable.plain.distinct otherRef mate namesakes.otherReached mateReached
      (name.symm.trans namesakes.name.symm)
    exact ⟨isShown, sameLines⟩
  exact ⟨List.of_mem_filter (each .wasm32).1, fun target => (each target).2⟩

/-- Two types of one name are the same scalar, or both of them are listed, with the same lines. -/
theorem Namesakes.cases (namesakes : Namesakes draft other root otherRoot ref otherRef) :
    (exists builtin, builtin ≠ .string ∧ ref = .builtin builtin ∧ otherRef = .builtin builtin) ∨
    (draft.isListed ref = true ∧ other.isListed otherRef = true ∧ forall target,
      draft.typeLines target (sizesFor target) ref =
        other.typeLines target (otherSizesFor target) otherRef) := by
  cases listed : draft.isListed ref with
  | true => exact .inr ⟨rfl, namesakes.typeLines_eq listable otherListable same listed⟩
  | false =>
      cases otherListed : other.isListed otherRef with
      | true =>
          have back := (namesakes.symm.typeLines_eq otherListable listable same.symm otherListed).1
          cases listed.symm.trans back
      | false =>
          obtain ⟨builtin, rfl, different⟩ := listable.eq_builtin namesakes.reached listed
          obtain ⟨otherBuiltin, rfl, _⟩ := otherListable.eq_builtin namesakes.otherReached otherListed
          cases Builtin.name_inj namesakes.name
          exact .inl ⟨builtin, different, rfl, rfl⟩

/-- Variables of types of one name take the same room. -/
theorem Namesakes.size_eq (namesakes : Namesakes draft other root otherRoot ref otherRef)
    (target : Target) : otherSizesFor target otherRef = sizesFor target ref := by
  rcases namesakes.cases listable otherListable same with
    ⟨builtin, different, rfl, rfl⟩ | ⟨_, _, lines⟩
  · rw [(listable.exact target).builtin different, (otherListable.exact target).builtin different]
  · have words := sameWords_of_eq (typeLine_inj (List.cons.inj (lines target)).1).2
    have align := words.align
    rw [listable.exact target ref, otherListable.exact target otherRef, words.byReference] at align ⊢
    cases pointer : draft.isByReference ref with
    | true => rfl
    | false =>
        rw [pointer] at align
        exact congrArg₂ Variable.mk words.size align

omit same in
/-- The parts of types with the same lines say the same, and their types have the same names. -/
theorem Namesakes.parts (namesakes : Namesakes draft other root otherRoot ref otherRef)
    {target : Target} (lines : draft.typeLines target (sizesFor target) ref =
      other.typeLines target (otherSizesFor target) otherRef) :
    List.Forall₂ (fun part otherPart => otherPart.name = part.name ∧
        Namesakes draft other root otherRoot part.type otherPart.type ∧
        otherPart.activation = part.activation)
      (draft.outline ref).parts (other.outline otherRef).parts := by
  have length := congrArg List.length lines
  rw [length_typeLines, length_typeLines, Nat.add_right_cancel_iff] at length
  refine List.forall₂_iff_get.mpr ⟨length, fun index bound otherBound => ?_⟩
  simp only [List.get_eq_getElem]
  have inParts := List.mem_append_left (draft.outline ref).argument.toList
    (List.mem_map_of_mem (f := Part.type) (List.getElem_mem bound))
  have inOthers := List.mem_append_left (other.outline otherRef).argument.toList
    (List.mem_map_of_mem (f := Part.type) (List.getElem_mem otherBound))
  have line := List.getElem_of_eq (List.cons.inj lines).2 (show index < _ by
    rw [List.length_zipWith, length_exactPlaces, List.length_map, Nat.min_self]
    exact bound)
  rw [List.getElem_zipWith, List.getElem_zipWith] at line
  obtain ⟨name, typeName, activation⟩ := fieldLine_inj
    (listable.plain.names _ (namesakes.reached.next inParts))
    (otherListable.plain.names _ (namesakes.otherReached.next inOthers)) line
  exact ⟨name, namesakes.next inParts inOthers typeName, activation⟩

/-- Types of one name are of one kind, and refer to types of the same names. -/
theorem Namesakes.resembles (namesakes : Namesakes draft other root otherRoot ref otherRef) :
    Resembles draft other (Namesakes draft other root otherRoot) ref otherRef := by
  rcases namesakes.cases listable otherListable same with
    ⟨builtin, different, rfl, rfl⟩ | ⟨listed, otherListed, lines⟩
  · have noParts : (builtinOutline builtin).parts = [] ∧ (builtinOutline builtin).argument = none := by
      cases builtin with
      | string => exact absurd rfl different
      | _ => exact ⟨rfl, rfl⟩
    refine ⟨fun _ => .rfl, rfl, rfl, rfl, ?_, ?_⟩
    · change Option.Rel _ (builtinOutline builtin).argument (builtinOutline builtin).argument
      rw [noParts.2]
      exact .none
    · change List.Forall₂ _ (builtinOutline builtin).parts (builtinOutline builtin).parts
      rw [noParts.1]
      exact .nil
  · have isForm := listable.isForm namesakes.reached listed
    have otherIsForm := otherListable.isForm namesakes.otherReached otherListed
    have words := sameWords_of_eq (typeLine_inj (List.cons.inj (lines .wasm32)).1).2
    have parts := namesakes.parts listable otherListable (lines .wasm32)
    have text : otherRef = .builtin .string ↔ ref = .builtin .string := by
      rw [otherIsForm.eq_string_iff other, isForm.eq_string_iff draft,
        words.shape, namesakes.name]
    have marks : (draft.outline ref).parts.map (fun part => (part.name, part.activation)) =
        (other.outline otherRef).parts.map fun part => (part.name, part.activation) := by
      rw [← List.forall₂_eq_eq_eq, List.forall₂_map_left_iff, List.forall₂_map_right_iff]
      exact parts.imp fun part otherPart ⟨name, _, activation⟩ =>
        Prod.ext name.symm activation.symm
    have prototype : (other.outline otherRef).prototype = (draft.outline ref).prototype := by
      rw [otherIsForm.prototype_eq, isForm.prototype_eq, words.shape, marks]
    have choices (isVariant : (draft.outline ref).shape = .variant) :
        (other.outline otherRef).parts.map Part.choice = (draft.outline ref).parts.map Part.choice := by
      rw [isForm.choices isVariant, otherIsForm.choices (words.shape.trans isVariant),
        parts.length_eq]
    refine ⟨fun builtin => ⟨?_, ?_⟩, words.shape, prototype, words.byReference, ?_, ?_⟩
    · rintro rfl
      cases otherIsForm.eq_string
      exact text.mp rfl
    · rintro rfl
      cases isForm.eq_string
      exact text.mpr rfl
    · have names := isForm.argument_names otherIsForm prototype text namesakes.name
      have successor {draft : Draft} {ref inner : Ref}
          (isArgument : (draft.outline ref).argument = some inner) :
          inner ∈ (draft.outline ref).successors :=
        List.mem_append_right _ (Option.mem_toList.mpr isArgument)
      generalize isArgument : (draft.outline ref).argument = argument at names ⊢
      generalize otherIsArgument : (other.outline otherRef).argument = otherArgument at names ⊢
      cases names with
      | none => exact .none
      | some name => exact .some (namesakes.next (successor isArgument) (successor otherIsArgument) name)
    · refine List.forall₂_iff_get.mpr ⟨parts.length_eq, fun index bound otherBound => ?_⟩
      obtain ⟨name, types, activation⟩ := (List.forall₂_iff_get.mp parts).2 index bound otherBound
      refine ⟨name, types, activation, fun isVariant => ?_⟩
      have choice := List.getElem_of_eq (choices isVariant) (show index < _ by
        rw [List.length_map]
        exact otherBound)
      rw [List.getElem_map, List.getElem_map] at choice
      exact choice

/-- The variables of the parts of types of one name take the same room. -/
theorem Namesakes.slots_eq (namesakes : Namesakes draft other root otherRoot ref otherRef)
    (target : Target) :
    (other.outline otherRef).parts.map (fun part => otherSizesFor target part.type) =
      (draft.outline ref).parts.map fun part => sizesFor target part.type := by
  symm
  rw [← List.forall₂_eq_eq_eq, List.forall₂_map_left_iff, List.forall₂_map_right_iff]
  exact (namesakes.resembles listable otherListable same).parts.imp fun part otherPart resembles =>
    (resembles.types.size_eq listable otherListable same target).symm

/-- Types of one name take the same room. -/
theorem Namesakes.room_eq (namesakes : Namesakes draft other root otherRoot ref otherRef)
    (target : Target) :
    other.room target (otherSizesFor target) otherRef = draft.room target (sizesFor target) ref := by
  rcases namesakes.cases listable otherListable same with
    ⟨builtin, different, rfl, rfl⟩ | ⟨listed, otherListed, _⟩
  · cases builtin with
    | string => exact absurd rfl different
    | _ => rfl
  · have composite {draft : Draft} {ref : Ref} (listed : draft.isListed ref = true)
        (isBuiltin : (draft.outline ref).builtin = true) : (draft.outline ref).parts ≠ [] := by
      intro noParts
      unfold isListed at listed
      rw [isBuiltin, noParts] at listed
      cases listed
    rw [room_of_parts target _ (composite listed), room_of_parts target _ (composite otherListed),
      namesakes.slots_eq listable otherListable same target,
      (namesakes.resembles listable otherListable same).shape]

/-! ### Roots -/

omit listable otherListable same in
/-- Nothing but itself can be reached from a scalar. -/
theorem eq_of_reaches_scalar {builtin : Builtin} (different : builtin ≠ .string)
    (reached : draft.Reaches (.builtin builtin) ref) : ref = .builtin builtin := by
  induction reached with
  | root => rfl
  | next _ member ih =>
      subst ih
      cases builtin with
      | string => exact absurd rfl different
      | _ => cases member

omit otherListable same in
/-- Where the root is not listed, nothing is. -/
theorem Draft.Listable.shown_eq_nil (unlisted : draft.isListed root = false) :
    refs.filter draft.isListed = [] := by
  obtain ⟨builtin, rfl, different⟩ := listable.eq_builtin .root unlisted
  refine List.filter_eq_nil_iff.mpr fun ref member listed => ?_
  cases eq_of_reaches_scalar different ((listable.reached ref).mp member)
  cases unlisted.symm.trans listed

omit listable otherListable same in
/-- A header tells the name of a root that is a word. -/
theorem header_inj {target : Target} {name otherName : String} (isWord : IsWord name)
    (otherIsWord : IsWord otherName)
    (same : target.name ++ " root " ++ name ++ (if slice.isEmpty then "" else " slice " ++ slice) =
      target.name ++ " root " ++ otherName ++
        (if otherSlice.isEmpty then "" else " slice " ++ otherSlice)) : name = otherName := by
  have spaced (slice : String) : exists rest,
      (if slice.isEmpty then "" else " slice " ++ slice).toList ++ [' '] = ' ' :: rest := by
    split
    · exact ⟨[], rfl⟩
    · rw [String.toList_append]
      exact ⟨_, rfl⟩
  simp only [String.append_assoc, String.append_right_inj] at same
  exact firstWord_inj isWord otherIsWord (spaced slice) (spaced otherSlice) same

/-- The roots of two drafts with one listing have one name. -/
theorem Draft.Listable.root_namesakes : Namesakes draft other root otherRoot root otherRoot := by
  have reached := fun ref => (listable.reached ref).mp
  have otherReached := fun ref => (otherListable.reached ref).mp
  have shown := typeLines_eq_of_layout listable.plain reached otherListable.plain otherReached same
    .wasm32
  refine ⟨.root, .root, ?_⟩
  cases listed : draft.isListed root <;> cases otherListed : other.isListed otherRoot
  -- Roots that are not listed are scalars, and the headers tell their names.
  · obtain ⟨builtin, rfl, _⟩ := listable.eq_builtin .root listed
    obtain ⟨otherBuiltin, rfl, _⟩ := otherListable.eq_builtin .root otherListed
    have headers := (List.cons.inj (contextLines_eq_of_layout listable.plain reached
      otherListable.plain otherReached same .wasm32)).1
    exact (header_inj builtin.isWord_name otherBuiltin.isWord_name headers).symm
  · rw [listable.shown_eq_nil listed, List.forall₂_nil_left_iff] at shown
    have first := otherListable.first otherListed
    rw [shown] at first
    cases first
  · rw [otherListable.shown_eq_nil otherListed, List.forall₂_nil_right_iff] at shown
    have first := listable.first listed
    rw [shown] at first
    cases first
  · have first := listable.first listed
    have otherFirst := otherListable.first otherListed
    generalize refs.filter draft.isListed = shownRefs at shown first
    generalize otherRefs.filter other.isListed = otherShownRefs at shown otherFirst
    cases shown with
    | nil => cases first
    | cons lines _ =>
        cases first
        cases otherFirst
        exact (typeLine_inj (List.cons.inj lines).1).1.symm

end Listings

end TextSchema
end PackedJson
