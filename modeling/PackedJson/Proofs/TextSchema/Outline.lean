import PackedJson.Proofs.TextSchema.Following

namespace PackedJson
namespace TextSchema

open Heap Builder

/-!
Outlines of types.

The outline of a type says all that its record and its fields say, except
where they are stored and how much room they take.  Other types are told by
references of a draft instead of identifiers.  What is found for a reference
has the outline that the draft gives to the reference, for both targets.
-/

/-- What a type is, with references in place of identifiers. -/
structure Outline where
  shape : Shape
  prototype : Option Builtin
  argument : Option Ref
  builtin : Bool
  flags : TypeFlags
  parts : List Part

/-- The parts of arrays. -/
def arrayParts : List Part :=
  [{ name := "ptr", type := .builtin .pointer }, { name := "cap", type := .builtin .size },
    { name := "len", type := .builtin .size }]

/-- The parts of options. -/
def optionParts (inner : Ref) : List Part :=
  [tagPart, { name := "None", type := .builtin .unit, activation := 0, choice := 0 },
    { name := "Some", type := inner, activation := 1, choice := 1 }]

/-- The parts of results. -/
def resultParts (inner : Ref) : List Part :=
  [tagPart, { name := "Ok", type := inner, activation := 0, choice := 0 },
    { name := "Err", type := .builtin .string, activation := 1, choice := 1 }]

/-- The parts of maps, which are arrays. -/
def mapParts (value : Ref) : List Part :=
  [{ name := "keys", type := .applied .array (.builtin .hash) },
    { name := "values", type := .applied .array value },
    { name := "strings", type := .applied .array (.builtin .string) }]

/-- The outline of an instance of a generic builtin. -/
def instanceOutline (generic : Builtin) (argument : Ref) : Outline :=
  let ofParts (shape : Shape) (parts : List Part) : Outline :=
    ⟨shape, some generic, some argument, false, FlagSet.empty, parts⟩
  match generic with
  | .option => ofParts .variant (optionParts argument)
  | .result => ofParts .variant (resultParts argument)
  | .map => ofParts .map (mapParts argument)
  | _ => ofParts .array arrayParts

/-- The outline of a builtin that is not generic. -/
def builtinOutline : Builtin -> Outline
  | .string => ⟨.array, some .array, some (.builtin .char), true, TypeFlags.builtin, arrayParts⟩
  | _ => ⟨.struct, none, none, true, TypeFlags.builtin, []⟩

/-- The outline of a declared type. -/
def Sketch.outline (sketch : Sketch) : Outline :=
  ⟨sketch.shape, some (prototypeOf sketch.shape), none, false, sketch.flags, sketch.parts.getD []⟩

/-- The outline of a type of a draft. -/
def Draft.outline (draft : Draft) : Ref -> Outline
  | .builtin builtin => builtinOutline builtin
  | .declared index =>
      ((draft.sketches[index]?).map Sketch.outline).getD (builtinOutline .unit)
  | .applied generic argument => instanceOutline generic argument

theorem Draft.outline_of_some {draft : Draft} {index : Nat} {sketch : Sketch}
    (found : draft.sketches[index]? = some sketch) :
    draft.outline (.declared index) = sketch.outline := by
  rw [outline, found]
  rfl

/-- A number that no declared type has stands for nothing. -/
theorem Draft.outline_of_none {draft : Draft} {index : Nat}
    (missing : draft.sketches[index]? = none) :
    draft.outline (.declared index) = builtinOutline .unit := by
  rw [outline, missing]
  rfl

/-- The types that a type refers to. -/
def Outline.successors (outline : Outline) : List Ref :=
  outline.parts.map Part.type ++ outline.argument.toList

/-- The same outline with other marks. -/
def Outline.withFlags (outline : Outline) (flags : TypeFlags) : Outline :=
  { outline with flags := flags }

/-- The types of a draft that can be reached from one of them. -/
inductive Draft.Reaches (draft : Draft) (root : Ref) : Ref -> Prop where
  | root : Reaches draft root root
  | next {ref successor : Ref} : Reaches draft root ref ->
      successor ∈ (draft.outline ref).successors -> Reaches draft root successor

/-- A stored type is what an outline says. -/
def IsOutlined (heap : Heap) (site : Site) (id : TypeId) (outline : Outline) : Prop :=
  Flagged heap id outline.flags ∧ exists argument members,
    Option.Rel site.Finds outline.argument argument ∧
    List.Forall₂ site.FindsPart outline.parts members ∧
    Declares heap id ⟨outline.shape, outline.prototype.map site.context.builtin, argument,
      outline.builtin, false, members⟩

/-- What a generic type says in place of a type that its instance at an argument refers to: nothing
for the argument, another generic type for its own instance at the argument, and the type itself
for any other. -/
inductive Site.Generalizes (site : Site) (argument : Ref) : Ref -> Option TypeId -> Prop where
  | parameter : Generalizes site argument argument none
  | nested {generic : Builtin} : generic ∈ genericBuiltins ->
      Generalizes site argument (.applied generic argument) (some (site.context.builtin generic))
  | kept {ref : Ref} {id : TypeId} : site.Finds ref id -> Generalizes site argument ref (some id)

/-- A member of a generic type is there for a part of its instance at an argument. -/
def Site.GeneralizesPart (site : Site) (argument : Ref) (part : Part) (member : Member) : Prop :=
  exists type, site.Generalizes argument part.type type ∧
    member = ⟨part.name, type, part.flags, part.activation, part.choice, part.companion⟩

/-- The generic types are those of their instances. -/
def AreGeneric (heap : Heap) (site : Site) : Prop :=
  forall generic argument, generic ∈ genericBuiltins -> exists members,
    List.Forall₂ (site.GeneralizesPart argument) (instanceOutline generic argument).parts members ∧
    Declares heap (site.context.builtin generic)
      ⟨(instanceOutline generic argument).shape, none, none, true, true, members⟩

theorem AreGeneric.mono {heap later : Heap} {site : Site} (are : AreGeneric heap site)
    (stays : forall {id declaration}, Declares heap id declaration -> Declares later id declaration) :
    AreGeneric later site := by
  intro generic argument isGeneric
  obtain ⟨members, stand, declares⟩ := are generic argument isGeneric
  exact ⟨members, stand, stays declares⟩

section Outlined

variable {setting : Setting} {draft : Draft} {ids : List TypeId} {heap : Heap} {state : State}
  {ref : Ref} {id : TypeId}

theorem finds_builtin (site : Site) {builtin : Builtin}
    (proper : builtin ∈ Builtin.string :: scalarBuiltins) :
    site.Finds (.builtin builtin) (site.context.builtin builtin) :=
  ⟨proper, rfl⟩

theorem finds_arrayParts (site : Site) :
    List.Forall₂ site.FindsPart arrayParts site.context.arrayMembers :=
  .cons ⟨_, finds_builtin site (by decide), rfl⟩ (.cons ⟨_, finds_builtin site (by decide), rfl⟩
    (.cons ⟨_, finds_builtin site (by decide), rfl⟩ .nil))

/-- The array of a type is found in the table. -/
theorem finds_array {site : Site} {element : Ref} {elementId array : TypeId}
    (finds : site.Finds element elementId) (different : element ≠ .builtin .char)
    (found : site.instances.lookup (site.context.builtin .array, elementId) = some array) :
    site.Finds (.applied .array element) array :=
  ⟨⟨by decide, different, finds.1⟩, Option.bind_eq_some_iff.mpr ⟨elementId, finds.2, found⟩⟩

/-- An instance of a generic builtin is what its outline says. -/
theorem Realizes.isOutlined_applied (realizes : Realizes setting draft ids heap state)
    {generic : Builtin} {argument : Ref}
    (finds : (siteOf setting ids state).Finds (.applied generic argument) id) :
    IsOutlined heap (siteOf setting ids state) id (instanceOutline generic argument) := by
  have tabled := realizes.tabled
  have founded := realizes.founded
  obtain ⟨isGeneric, different, _⟩ := finds.1
  obtain ⟨argumentId, argumentFinds, found, is⟩ := realizes.isInstance finds
  have notText := realizes.ne_char argumentFinds different
  simp only [genericBuiltins, List.mem_cons, List.not_mem_nil, or_false] at isGeneric
  rcases isGeneric with rfl | rfl | rfl | rfl
  · exact ⟨is.labelled.flagged founded.basics.array, some argumentId, _, .some argumentFinds,
      finds_arrayParts _, (array_isKind tabled founded found notText).declares⟩
  · refine ⟨is.labelled.flagged founded.option, some argumentId, _, .some argumentFinds, ?_,
      (option_isKind tabled founded found).declares⟩
    exact .cons ⟨_, finds_builtin _ (by decide), rfl⟩ (.cons ⟨_, finds_builtin _ (by decide), rfl⟩
      (.cons ⟨_, argumentFinds, rfl⟩ .nil))
  · refine ⟨is.labelled.flagged founded.result, some argumentId, _, .some argumentFinds, ?_,
      (result_isKind tabled founded found).declares⟩
    exact .cons ⟨_, finds_builtin _ (by decide), rfl⟩ (.cons ⟨_, argumentFinds, rfl⟩
      (.cons ⟨_, finds_builtin _ (by decide), rfl⟩ .nil))
  · obtain ⟨_, _, _, _, isMap⟩ := founded.map
    obtain ⟨keys, values, strings, mapIs, keysFound, valuesFound, stringsFound⟩ :=
      map_isKind tabled founded found notText
    -- The arrays that a map consists of are found in the table, too.
    have keysFinds := finds_array (finds_builtin (siteOf setting ids state) (by decide)) (by decide)
      keysFound
    have stringsFinds := finds_array (finds_builtin (siteOf setting ids state) (by decide))
      (by decide) stringsFound
    refine ⟨is.labelled.flagged isMap, some argumentId, _, .some argumentFinds, ?_, mapIs.declares⟩
    exact .cons ⟨keys, keysFinds, rfl⟩
      (.cons ⟨values, finds_array argumentFinds different valuesFound, rfl⟩
        (.cons ⟨strings, stringsFinds, rfl⟩ .nil))

/-- The generic types are those of their instances. -/
theorem Realizes.areGeneric (realizes : Realizes setting draft ids heap state) :
    AreGeneric heap (siteOf setting ids state) := by
  have founded := realizes.founded
  intro generic argument isGeneric
  have kept {builtin : Builtin} (proper : builtin ∈ Builtin.string :: scalarBuiltins) :
      (siteOf setting ids state).Generalizes argument (.builtin builtin)
        (some (setting.context.builtin builtin)) := .kept (finds_builtin _ proper)
  simp only [genericBuiltins, List.mem_cons, List.not_mem_nil, or_false] at isGeneric
  rcases isGeneric with rfl | rfl | rfl | rfl
  · refine ⟨_, ?_, founded.basics.array.declares⟩
    exact .cons ⟨_, kept (by decide), rfl⟩ (.cons ⟨_, kept (by decide), rfl⟩
      (.cons ⟨_, kept (by decide), rfl⟩ .nil))
  · refine ⟨_, ?_, founded.option.declares⟩
    exact .cons ⟨_, kept (by decide), rfl⟩ (.cons ⟨_, kept (by decide), rfl⟩
      (.cons ⟨_, .parameter, rfl⟩ .nil))
  · refine ⟨_, ?_, founded.result.declares⟩
    exact .cons ⟨_, kept (by decide), rfl⟩ (.cons ⟨_, .parameter, rfl⟩
      (.cons ⟨_, kept (by decide), rfl⟩ .nil))
  · obtain ⟨keys, strings, keysFound, stringsFound, isMap⟩ := founded.map
    refine ⟨_, ?_, isMap.declares⟩
    exact .cons ⟨_, .kept (finds_array (finds_builtin _ (by decide)) (by decide) keysFound), rfl⟩
      (.cons ⟨_, .nested (by decide), rfl⟩
        (.cons ⟨_, .kept (finds_array (finds_builtin _ (by decide)) (by decide) stringsFound), rfl⟩ .nil))

/-- What is found for a reference has the outline of the reference. -/
theorem Realizes.isOutlined (realizes : Realizes setting draft ids heap state)
    (finds : (siteOf setting ids state).Finds ref id) :
    IsOutlined heap (siteOf setting ids state) id (draft.outline ref) := by
  cases ref with
  | builtin builtin =>
      obtain ⟨proper, ⟨⟩⟩ := finds
      have basics := realizes.founded.basics
      cases List.mem_cons.mp proper with
      | inl isString =>
          cases isString
          exact ⟨basics.stringFlags, _, _, .some (finds_builtin _ (by decide)), finds_arrayParts _,
            basics.string⟩
      | inr isScalar =>
          obtain ⟨size, scalar⟩ := basics.scalars.scalar builtin isScalar
          have outline : builtinOutline builtin = ⟨.struct, none, none, true, TypeFlags.builtin, []⟩ := by
            simp only [scalarBuiltins, List.mem_cons, List.not_mem_nil, or_false] at isScalar
            rcases isScalar with rfl | rfl | rfl | rfl | rfl | rfl | rfl | rfl | rfl <;> rfl
          rw [Draft.outline, outline]
          have declares := scalar.declares
          obtain ⟨name, stored, _⟩ := scalar
          exact ⟨⟨_, stored, rfl⟩, none, [], .none, .nil, declares⟩
  | declared index =>
      obtain ⟨sketch, isSketch, _, type, members, stored, _, flags, finds, declares⟩ :=
        realizes.exists_sketch finds.2
      rw [Draft.outline_of_some isSketch]
      exact ⟨⟨type, stored, flags⟩, none, members, .none, finds, declares⟩
  | applied generic argument => exact realizes.isOutlined_applied finds

end Outlined

end TextSchema
end PackedJson
