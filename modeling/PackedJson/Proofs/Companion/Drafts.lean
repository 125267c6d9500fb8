import PackedJson.Proofs.Companion.Rooms
import PackedJson.Proofs.TextSchema.Spanning

namespace PackedJson
namespace TextSchema

open Companion Layout

/-!
The declarations for a draft.

Each type of a draft has an expression, and each declared type an item.  What
the items say about room agrees with the exact sizes of the draft: types that
are stored inline come to an end, so the sizes follow one from another in both
descriptions in the same order.
-/

/-- The expression of a builtin that is not generic. -/
def builtinExpression : Builtin -> Expression
  | .integer => .name "i64"
  | .number => .name "f64"
  | .boolean => .name "bool"
  | .char => .name "u8"
  | .tag => .name "u8"
  | .pointer => .name "usize"
  | .size => .name "usize"
  | .hash => .name "u32"
  | .string => .name "DeflateString"
  | _ => .unit

/-- The container for instances of a generic builtin. -/
def containerIdent : Builtin -> String
  | .option => "DeflateOption"
  | .result => "DeflateResult"
  | .map => "DeflateMap"
  | _ => "DeflateArray"

/-- A pointer in place of what is stored by reference. -/
def pointed (byReference : Bool) (expression : Expression) : Expression :=
  if byReference then .pointer expression else expression

namespace Draft

/-- How instances of a type are declared, given the identifiers of the declared
types. -/
def expression (draft : Draft) (identOf : Nat -> String) : Ref -> Expression
  | .builtin builtin => builtinExpression builtin
  | .declared index => .name (identOf index)
  | .applied generic argument => .applied (containerIdent generic)
      (pointed (draft.isByReference argument) (draft.expression identOf argument))

/-- How variables of a type are declared. -/
def variableExpression (draft : Draft) (identOf : Nat -> String) (ref : Ref) : Expression :=
  pointed (draft.isByReference ref) (draft.expression identOf ref)

/-- The alternative of a part. -/
def alternativeOf (draft : Draft) (identOf : Nat -> String) (part : Part) : Alternative :=
  ⟨part.companion, some (draft.variableExpression identOf part.type), part.choice⟩

/-- What the item of a declared type says.  The tag of a variant is left out. -/
def body (draft : Draft) (identOf : Nat -> String) (index : Nat) : Body :=
  match (draft.outline (.declared index)).shape with
  | .variant =>
      .enumeration ((draft.outline (.declared index)).parts.tail.map (draft.alternativeOf identOf))
  | _ => .struct ((draft.outline (.declared index)).parts.map fun part =>
      (part.companion, draft.variableExpression identOf part.type))

/-- The item of a declared type. -/
def item (draft : Draft) (identOf : Nat -> String) (index : Nat) : Item :=
  { ident := identOf index, body := draft.body identOf index }

/-- The places of the fields of a declared type, or of its alternatives. -/
def placement (draft : Draft) (target : Target) (sizeOf : Ref -> Variable) (index : Nat) :
    Placement :=
  let slots := (draft.outline (.declared index)).parts.map fun part => sizeOf part.type
  ⟨draft.room target sizeOf (.declared index),
    match (draft.outline (.declared index)).shape with
    | .variant => (exactPlaces .variant slots).tail
    | shape => exactPlaces shape slots⟩

/-- The types of a draft are declared: identifiers lead to the containers, to
the declared types, and to the types of the language where no item is meant. -/
structure Resolves (draft : Draft) (root : Ref) (identOf : Nat -> String) (items : List Item) :
    Prop where
  containers : forall container, container ∈ Companion.containers ->
    itemOf? items container.ident = some container
  declared : forall index, draft.Reaches root (.declared index) ->
    itemOf? items (identOf index) = some (draft.item identOf index)
  primitives : forall target ident room, primitiveRoom target ident = some room ->
    itemOf? items ident = none

variable {draft : Draft} {root ref : Ref} {identOf : Nat -> String} {items : List Item}
  {target : Target} {sizeOf : Ref -> Variable} {index : Nat}

theorem room_declared (target : Target) (sizeOf : Ref -> Variable) (index : Nat) :
    draft.room target sizeOf (.declared index) = exactRoom (draft.outline (.declared index)).shape
      ((draft.outline (.declared index)).parts.map fun part => sizeOf part.type) := rfl

theorem body_of_variant (isVariant : (draft.outline (.declared index)).shape = .variant)
    {tag : Part} {alternatives : List Part}
    (parts : (draft.outline (.declared index)).parts = tag :: alternatives) :
    draft.body identOf index = .enumeration (alternatives.map (draft.alternativeOf identOf)) := by
  unfold body
  rw [isVariant, parts]
  rfl

theorem body_of_ne (notVariant : (draft.outline (.declared index)).shape ≠ .variant) :
    draft.body identOf index = .struct ((draft.outline (.declared index)).parts.map fun part =>
      (part.companion, draft.variableExpression identOf part.type)) := by
  unfold body
  split
  next shape => exact absurd shape notVariant
  next => rfl

/-- Structs have the places of all of their fields. -/
theorem placement_of_ne (notVariant : (draft.outline (.declared index)).shape ≠ .variant) :
    draft.placement target sizeOf index = ⟨draft.room target sizeOf (.declared index),
      exactPlaces (draft.outline (.declared index)).shape
        ((draft.outline (.declared index)).parts.map fun part => sizeOf part.type)⟩ := by
  unfold placement
  split
  next shape => exact absurd shape notVariant
  next => rfl

/-- Variants have a tag, and alternatives behind it. -/
theorem Complete.parts_of_variant (complete : draft.Complete root)
    (isVariant : (draft.outline (.declared index)).shape = .variant) :
    exists first others, (draft.outline (.declared index)).parts = tagPart :: first :: others := by
  by_cases bound : index < draft.sketches.length
  · obtain ⟨sketch, parts, isSketch, hasParts, tagged, _⟩ := complete.settles index bound
    rw [outline_of_some isSketch] at isVariant ⊢
    rw [Sketch.outline, hasParts]
    exact tagged isVariant
  · rw [outline_of_none (List.getElem?_eq_none (Nat.le_of_not_lt bound))] at isVariant
    cases isVariant

theorem Exact.tag (exact : draft.Exact target sizeOf) : sizeOf (.builtin .tag) = byte :=
  (exact.builtin (by decide)).trans (by cases target <;> rfl)

/-- Variables are pointers or take the room of instances. -/
theorem Exact.hasRoom_variable (exact : draft.Exact target sizeOf)
    (inline : draft.isByReference ref = false ->
      HasRoom items target (draft.expression identOf ref) (draft.room target sizeOf ref)) :
    HasRoom items target (draft.variableExpression identOf ref) (sizeOf ref) := by
  unfold variableExpression pointed
  rw [exact ref]
  cases marked : draft.isByReference ref with
  | true => exact hasRoom_pointer _
  | false => exact inline marked

/-- What a declared type says takes room as its parts do. -/
theorem hasPlacement_body (complete : draft.Complete root) (exact : draft.Exact target sizeOf)
    (parts : forall part, part ∈ (draft.outline (.declared index)).parts ->
      HasRoom items target (draft.variableExpression identOf part.type) (sizeOf part.type)) :
    HasPlacement items target (draft.body identOf index) (draft.placement target sizeOf index) := by
  have measures := complete.measures exact
  have aligned {list : List Part} : forall slot, slot ∈ list.map (fun part => sizeOf part.type) ->
      IsAlign slot.align := by
    intro slot member
    obtain ⟨part, _, rfl⟩ := List.mem_map.mp member
    exact measures.aligned part.type
  have multiple {list : List Part} : forall slot, slot ∈ list.map (fun part => sizeOf part.type) ->
      slot.align ∣ slot.size := by
    intro slot member
    obtain ⟨part, _, rfl⟩ := List.mem_map.mp member
    exact measures.dvd part.type
  by_cases isVariant : (draft.outline (.declared index)).shape = .variant
  · obtain ⟨first, others, same⟩ := complete.parts_of_variant isVariant
    have tag : sizeOf tagPart.type = byte := exact.tag
    have placement : draft.placement target sizeOf index =
        enumPlacement ((first :: others).map fun part => sizeOf part.type) := by
      rw [enumPlacement_eq aligned multiple]
      unfold Draft.placement
      rw [room_declared, isVariant, same, List.map_cons, tag]
    rw [body_of_variant isVariant same, placement]
    refine hasPlacement_enumeration (List.forall₂_map_left_iff.mpr
      (List.forall₂_map_right_iff.mpr (List.forall₂_same.mpr fun part member => ?_)))
    exact parts part (same ▸ List.mem_cons_of_mem _ member)
  · rw [body_of_ne isVariant, placement_of_ne isVariant, room_declared,
      ← structPlacement_eq aligned isVariant]
    exact hasPlacement_struct (List.forall₂_map_left_iff.mpr
      (List.forall₂_map_right_iff.mpr (List.forall₂_same.mpr parts)))

namespace Resolves

variable (resolves : draft.Resolves root identOf items)

include resolves

/-- Arrays take the room of a pointer and two numbers, whatever their elements. -/
theorem hasRoom_array (element : Expression) : HasRoom items target (.applied "DeflateArray" element)
    ⟨3 * target.pointerWidth, target.pointerWidth⟩ := by
  have size : HasRoom items target (.name "usize") (word target) :=
    hasRoom_primitive (resolves.primitives target "usize" _ rfl) rfl
  have isBody : arrayItem.bodyOf? (some element) = some (.struct [("ptr", .pointer element),
      ("cap", .name "usize"), ("len", .name "usize")]) := by
    simp [arrayItem, Item.bodyOf?, Body.substitute, Expression.substitute]
  have room : (structPlacement [word target, word target, word target]).room =
      ⟨3 * target.pointerWidth, target.pointerWidth⟩ := by
    cases target <;> decide
  exact room ▸ hasRoom_applied (resolves.containers arrayItem (by decide)) isBody
    (hasPlacement_struct (.cons (hasRoom_pointer _) (.cons size (.cons size .nil))))

theorem hasRoom_string : HasRoom items target (.name "DeflateString")
    ⟨3 * target.pointerWidth, target.pointerWidth⟩ :=
  hasRoom_name (resolves.containers stringItem (by decide)) rfl
    (hasPlacement_synonym (resolves.hasRoom_array (.name "u8")))

theorem hasRoom_scalar {builtin : Builtin} (isScalar : builtin ∈ Builder.scalarBuiltins) :
    HasRoom items target (builtinExpression builtin) (scalarVariable target builtin) := by
  have named {ident : String} {room : Variable} (isPrimitive : primitiveRoom target ident = some room) :
      HasRoom items target (.name ident) room :=
    hasRoom_primitive (resolves.primitives target ident room isPrimitive) isPrimitive
  simp only [Builder.scalarBuiltins, List.mem_cons, List.not_mem_nil, or_false] at isScalar
  rcases isScalar with rfl | rfl | rfl | rfl | rfl | rfl | rfl | rfl | rfl
  all_goals first
    | exact hasRoom_unit
    | (cases target <;> exact named rfl)

/-- Builtins take the room that the draft gives them. -/
theorem hasRoom_builtin (exact : draft.Exact target sizeOf) {builtin : Builtin}
    (proper : Ref.Proper (.builtin builtin)) :
    HasRoom items target (draft.expression identOf (.builtin builtin))
      (draft.room target sizeOf (.builtin builtin)) := by
  cases List.mem_cons.mp (show builtin ∈ Builtin.string :: Builder.scalarBuiltins from proper) with
  | inl isString =>
      rw [isString, exact.room_string]
      exact resolves.hasRoom_string
  | inr isScalar =>
      have room : draft.room target sizeOf (.builtin builtin) = scalarVariable target builtin := by
        cases builtin with
        | string => exact absurd isScalar (by decide)
        | _ => rfl
      rw [room]
      exact resolves.hasRoom_scalar isScalar

/-- Options take the room that the draft gives them, if what may be there does. -/
theorem hasRoom_option (measures : draft.Measures target sizeOf) {argument : Ref}
    (inner : HasRoom items target (draft.variableExpression identOf argument) (sizeOf argument)) :
    HasRoom items target (draft.expression identOf (.applied .option argument))
      (draft.room target sizeOf (.applied .option argument)) := by
  have isBody (payload : Expression) : optionItem.bodyOf? (some payload) =
      some (.enumeration [⟨"None", none, 0⟩, ⟨"Some", some payload, 1⟩]) := by
    simp [optionItem, Item.bodyOf?, Body.substitute, Expression.substitute]
  have unit : sizeOf (.builtin .unit) = ⟨0, 1⟩ :=
    (measures.exact.builtin (by decide)).trans (by cases target <;> rfl)
  have room : draft.room target sizeOf (.applied .option argument) =
      (enumPlacement [⟨0, 1⟩, sizeOf argument]).room := by
    rw [enumPlacement_eq (by simpa using ⟨.one, measures.aligned argument⟩)
      (by simpa using measures.dvd argument), ← measures.exact.tag, ← unit]
    rfl
  rw [room]
  exact hasRoom_applied (resolves.containers optionItem (by decide)) (isBody _)
    (hasPlacement_enumeration (.cons hasRoom_unit (.cons inner .nil)))

/-- Results take the room that the draft gives them, if what may be there does. -/
theorem hasRoom_result (measures : draft.Measures target sizeOf) {argument : Ref}
    (inner : HasRoom items target (draft.variableExpression identOf argument) (sizeOf argument)) :
    HasRoom items target (draft.expression identOf (.applied .result argument))
      (draft.room target sizeOf (.applied .result argument)) := by
  have isBody (payload : Expression) : resultItem.bodyOf? (some payload) =
      some (.enumeration [⟨"Ok", some payload, 0⟩, ⟨"Err", some (.name "DeflateString"), 1⟩]) := by
    simp [resultItem, Item.bodyOf?, Body.substitute, Expression.substitute]
  have string : HasRoom items target (.name "DeflateString") (sizeOf (.builtin .string)) := by
    have same : sizeOf (.builtin .string) = draft.room target sizeOf (.builtin .string) :=
      measures.exact (.builtin .string)
    rw [same, measures.exact.room_string]
    exact resolves.hasRoom_string
  have room : draft.room target sizeOf (.applied .result argument) =
      (enumPlacement [sizeOf argument, sizeOf (.builtin .string)]).room := by
    rw [enumPlacement_eq (by simpa using ⟨measures.aligned argument, measures.aligned _⟩)
      (by simpa using ⟨measures.dvd argument, measures.dvd _⟩), ← measures.exact.tag]
    rfl
  rw [room]
  exact hasRoom_applied (resolves.containers resultItem (by decide)) (isBody _)
    (hasPlacement_enumeration (.cons inner (.cons string .nil)))

/-- Maps take the room that the draft gives them: they consist of arrays. -/
theorem hasRoom_map (exact : draft.Exact target sizeOf) (argument : Ref) :
    HasRoom items target (draft.expression identOf (.applied .map argument))
      (draft.room target sizeOf (.applied .map argument)) := by
  have isBody (value : Expression) : mapItem.bodyOf? (some value) =
      some (.struct [("keys", .applied "DeflateArray" (.name "u32")),
        ("values", .applied "DeflateArray" value),
        ("strings", .applied "DeflateArray" (.name "DeflateString"))]) := by
    simp [mapItem, Item.bodyOf?, Body.substitute, Expression.substitute]
  let slot : Variable := ⟨3 * target.pointerWidth, target.pointerWidth⟩
  have array (element : Ref) : sizeOf (.applied .array element) = slot :=
    (exact _).trans (exact.room_array element)
  have room : draft.room target sizeOf (.applied .map argument) =
      (structPlacement [slot, slot, slot]).room := by
    have parts : draft.room target sizeOf (.applied .map argument) = exactRoom .map
      [sizeOf (.applied .array (.builtin .hash)), sizeOf (.applied .array argument),
        sizeOf (.applied .array (.builtin .string))] := rfl
    rw [parts, array, array, array]
    cases target <;> decide
  have isArray (element : Expression) : HasRoom items target (.applied "DeflateArray" element) slot :=
    resolves.hasRoom_array element
  rw [room]
  exact hasRoom_applied (resolves.containers mapItem (by decide)) (isBody _)
    (hasPlacement_struct (.cons (isArray _) (.cons (isArray _) (.cons (isArray _) .nil))))

/-- Instances of generic builtins take the room that the draft gives them. -/
theorem hasRoom_instance (measures : draft.Measures target sizeOf) {generic : Builtin}
    (isGeneric : generic ∈ Builder.genericBuiltins) {argument : Ref}
    (inner : generic = .option ∨ generic = .result ->
      HasRoom items target (draft.variableExpression identOf argument) (sizeOf argument)) :
    HasRoom items target (draft.expression identOf (.applied generic argument))
      (draft.room target sizeOf (.applied generic argument)) := by
  simp only [Builder.genericBuiltins, List.mem_cons, List.not_mem_nil, or_false] at isGeneric
  rcases isGeneric with rfl | rfl | rfl | rfl
  · rw [measures.exact.room_array]
    exact resolves.hasRoom_array _
  · exact resolves.hasRoom_option measures (inner (.inl rfl))
  · exact resolves.hasRoom_result measures (inner (.inr rfl))
  · exact resolves.hasRoom_map measures.exact argument

/-- The expression of every type that can be reached takes the room that the
draft gives to its instances. -/
theorem hasRoom (complete : draft.Complete root) (exact : draft.Exact target sizeOf)
    (proper : forall ref, draft.Reaches root ref -> ref.Proper) (reached : draft.Reaches root ref) :
    HasRoom items target (draft.expression identOf ref) (draft.room target sizeOf ref) := by
  have measures := complete.measures exact
  -- Types that are stored inline come first.
  induction ref using complete.wellFounded.induction with
  | h ref ih =>
      have parts (part : Part) (member : part ∈ (draft.outline ref).parts) :
          HasRoom items target (draft.variableExpression identOf part.type) (sizeOf part.type) :=
        exact.hasRoom_variable fun inline => ih part.type ⟨List.mem_map_of_mem member, inline⟩
          (reached.next (List.mem_append_left _ (List.mem_map_of_mem member)))
      cases ref with
      | builtin builtin => exact resolves.hasRoom_builtin exact (proper _ reached)
      | declared index =>
          have placed := hasPlacement_body complete exact parts
          exact hasRoom_name (resolves.declared index reached) rfl placed
      | applied generic argument =>
          refine resolves.hasRoom_instance measures (proper _ reached).1 fun inside => ?_
          rcases inside with rfl | rfl
          · exact parts ⟨"Some", argument, FlagSet.empty, 1, 1, "Some"⟩
              (List.mem_cons_of_mem _ (List.mem_cons_of_mem _ List.mem_cons_self))
          · exact parts ⟨"Ok", argument, FlagSet.empty, 0, 0, "Ok"⟩
              (List.mem_cons_of_mem _ List.mem_cons_self)

end Resolves

end Draft

end TextSchema
end PackedJson
