import PackedJson.Proofs.TextSchema.Roster

namespace PackedJson
namespace TextSchema

open Heap Layout

/-!
What a listing says.

The lines for a type follow from the draft of the text schema and from the
sizes that the draft gives to its types.  Where types and texts are stored does
not show in them, and neither does how large the arena is.
-/

namespace Draft

variable (draft : Draft) (target : Target) (sizeOf : Ref -> Variable)

/-- The line of a type. -/
def typeLine (ref : Ref) : String :=
  let outline := draft.outline ref
  let storage := if draft.isByReference ref then "by-reference" else "inline"
  let openness := if outline.settledFlags.contains TypeFlags.nonExhaustive then " non-exhaustive" else ""
  let size := (draft.room target sizeOf ref).size
  let align := (sizeOf ref).align
  s!"{draft.nameOf ref} {outline.shape.name} size={size} align={align} {storage}{openness}"

/-- The line of a part at some place. -/
def fieldLine (part : Part) (place : Nat) : String :=
  let hash := Text.Hex.padded 8 (Checksum.nameHash part.name).toNat
  let typeName := draft.nameOf part.type
  let slot := (sizeOf part.type).size
  s!"  +{place} {part.name}: {typeName} size={slot} hash={hash} act={part.activation}"

/-- The lines of a type and its parts. -/
def typeLines (ref : Ref) : List String :=
  let parts := (draft.outline ref).parts
  draft.typeLine target sizeOf ref :: List.zipWith (draft.fieldLine sizeOf) parts
    (exactPlaces (draft.outline ref).shape (parts.map fun part => sizeOf part.type))

/-- The lines of one target, given the types that can be reached. -/
def contextLines (slice : String) (root : Ref) (refs : List Ref) : List String :=
  let header := target.name ++ " root " ++ draft.nameOf root ++
    (if slice.isEmpty then "" else " slice " ++ slice)
  header :: (refs.filter draft.isListed).flatMap (draft.typeLines target sizeOf)

/-- The whole text of a listing. -/
def layout (sizesFor : Target -> Ref -> Variable) (slice : String) (root : Ref) (refs : List Ref) :
    String :=
  String.join ((Target.all.flatMap fun target =>
    draft.contextLines target (sizesFor target) slice root refs).map (· ++ "\n"))

end Draft

section Lines

variable {draft : Draft} {root ref : Ref} {heap : Heap} {arena : Arena} {target : Target}
  {context : Context} {site : Site} {settled : TypeId -> Prop} {sizeOf : Ref -> Variable}

/-- Lines are read off fields as they are made of parts and places. -/
theorem forall₂_zipWith {read : FieldDef -> Except SchemaError String}
    {lineOf : Part -> Nat -> String} {parts : List Part} {fields : List FieldDef}
    (shown : List.Forall₂ (ShowsPart heap site settled) parts fields)
    (each : forall part field, ShowsPart heap site settled part field ->
      read field = .ok (lineOf part field.offset.toNat)) :
    List.Forall₂ (fun field line => read field = .ok line) fields
      (List.zipWith lineOf parts (fields.map fun field => field.offset.toNat)) := by
  induction shown with
  | nil => exact .nil
  | cons shows _ ih => exact .cons (each _ _ shows) ih

variable (embodies : Embodies draft root heap target context site settled) (holds : heap.Holds arena)
  (exact : draft.Exact target sizeOf)

include embodies holds exact

/-- The line of a field says what its part says. -/
theorem fieldLine_eq {part : Part} {field : FieldDef} (owner : TypeDef)
    (shows : ShowsPart heap site settled part field) :
    Listing.fieldLine ⟨arena⟩ owner field =
      .ok (draft.fieldLine sizeOf part field.offset.toNat) := by
  obtain ⟨inner, isField, finds, isSettled⟩ := shows.type
  obtain ⟨type, _, is⟩ := embodies.exists_isEmbodied finds isSettled
  have slot : type.slot.toNat = (sizeOf part.type).size :=
    congrArg Variable.size (embodies.variable_eq exact finds isSettled is.stored)
  unfold Listing.fieldLine Draft.fieldLine
  simp only [bind, Except.bind, Layout.fieldType_of owner isField, holds.type is.stored,
    holds.text shows.name, holds.name is.name, shows.hash, shows.activation, ← slot]
  rfl

/-- The lines of a type are those of its reference. -/
theorem typeLines_eq {entry : TypeId × TypeDef} (listed : Lists draft heap context site settled ref entry) :
    Listing.typeLines ⟨arena⟩ entry = .ok (draft.typeLines target sizeOf ref) := by
  obtain ⟨fields, is⟩ := listed.embodied
  obtain ⟨_, _, room, places⟩ := embodies.exists_room holds.told exact listed.finds listed.isSettled is
  have size : entry.2.size.toNat = (draft.room target sizeOf ref).size := congrArg Variable.size room
  have align : entry.2.align.toNat = (sizeOf ref).align :=
    congrArg Variable.align (embodies.variable_eq exact listed.finds listed.isSettled is.stored)
  have head : Listing.typeLine ⟨arena⟩ entry.2 = draft.typeLine target sizeOf ref := by
    unfold Listing.typeLine Draft.typeLine
    rw [holds.name is.name, is.shape, is.byReference, is.flags, ← size, ← align]
    rfl
  have lines : (Sorted.sortBy FieldDef.orderKey fields).mapM (Listing.fieldLine ⟨arena⟩ entry.2) =
      .ok (List.zipWith (draft.fieldLine sizeOf) (draft.outline ref).parts
        ((Sorted.sortBy FieldDef.orderKey fields).map fun field => field.offset.toNat)) :=
    Listing.mapM_eq_ok (forall₂_zipWith is.parts fun _ _ =>
      fieldLine_eq embodies holds exact entry.2)
  have inOrder : Schema.fieldsInOrder ⟨arena⟩ entry.2 =
      .ok (Sorted.sortBy FieldDef.orderKey fields) := holds.fieldsInOrder is.hasFields
  unfold Listing.typeLines Draft.typeLines
  simp only [bind, Except.bind, inOrder, lines, head, places]
  rfl

end Lines

section Listings

variable {draft : Draft} {root : Ref} {heap : Heap} {refs : List Ref} {slice : String}

/-- The lines of a target are those of the draft. -/
theorem IsRoster.contextLines_eq {arena : Arena} {target : Target} {context : Context} {site : Site}
    {settled : TypeId -> Prop} {rootId : TypeId} {types : List (TypeId × TypeDef)}
    {sizeOf : Ref -> Variable}
    (roster : IsRoster draft root heap arena target context refs site settled rootId types)
    (holds : heap.Holds arena) (exact : draft.Exact target sizeOf)
    (hasSlice : HasText heap context.slice slice) :
    Listing.contextLines ⟨arena⟩ context target =
      .ok (draft.contextLines target sizeOf slice root refs) := by
  obtain ⟨rootType, _, rootIs⟩ := roster.embodies.exists_isEmbodied roster.finds roster.isSettled
  have lines : types.mapM (Listing.typeLines ⟨arena⟩) =
      .ok ((refs.filter draft.isListed).map (draft.typeLines target sizeOf)) :=
    Listing.mapM_eq_ok (List.forall₂_map_right_iff.mpr (roster.lists.flip.imp fun _ _ listed =>
      typeLines_eq roster.embodies holds exact listed))
  unfold Listing.contextLines Draft.contextLines
  simp only [bind, Except.bind, roster.isRoot, holds.type rootIs.stored, holds.text hasSlice,
    roster.listed, lines, holds.name rootIs.name, List.flatMap_def]
  rfl

/-- The listing of a container is that of its draft. -/
theorem Rosters.layout_eq {container : Container} {sizesFor : Target -> Ref -> Variable}
    (rosters : Rosters draft root slice refs heap container)
    (exact : forall target, draft.Exact target (sizesFor target)) :
    Listing.layout container = .ok (draft.layout sizesFor slice root refs) := by
  have lines : Target.all.mapM (fun target =>
        Listing.contextLines container.schema (container.context target) target) =
      .ok (Target.all.map fun target =>
        draft.contextLines target (sizesFor target) slice root refs) := by
    refine Listing.mapM_eq_ok (List.forall₂_map_right_iff.mpr (List.forall₂_same.mpr
      fun target _ => ?_))
    obtain ⟨_, _, _, _, roster⟩ := rosters.each target
    exact roster.contextLines_eq rosters.holds (exact target) (rosters.slices target)
  unfold Listing.layout Draft.layout
  simp only [bind, Except.bind, lines, List.flatMap_def]
  rfl

end Listings

end TextSchema
end PackedJson
