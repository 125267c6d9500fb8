import PackedJson.Proofs.Companion.Source
import PackedJson.Proofs.TextSchema.Inferring

namespace PackedJson
namespace Companion

open TextSchema Heap Layout

/-!
The layout of a companion.

What the items of a companion take, by the rules of the language, is what the
types of the schema take that they are declared for.  This holds for each
target, although the items are written for the types of one of them: the types
of both targets come of one draft, and the room of a type follows from the
draft and from the width of pointers.
-/

/-- What a body declares stands for the fields of a type, at some places.  The
fields of a variant start with its tag, which an enumeration does not name. -/
def Body.StandsFor (schema : Schema) (fields : List FieldDef) (places : List Nat) : Body -> Prop
  | .struct members =>
      List.Forall₂ (fun member field => schema.text field.companionName = .ok member.1) members fields ∧
        places = fields.map fun field => field.offset.toNat
  | .enumeration alternatives => exists tag payloads, fields = tag :: payloads ∧ tag.offset.toNat = 0 ∧
      List.Forall₂ (fun alternative field =>
        schema.text field.companionName = .ok alternative.name ∧ field.choice = alternative.choice)
        alternatives payloads ∧
      places = payloads.map fun field => field.offset.toNat
  | .synonym _ => False

/-- An item is declared for a type: by the rules of the language it takes the
room of an instance, with its fields or payloads where those of the type are. -/
structure Item.Describes (item : Item) (items : List Item) (schema : Schema) (target : Target)
    (type : TypeDef) : Prop where
  declared : itemOf? items item.ident = some item
  layout : exists align fields places, schema.instanceAlign type = .ok align ∧
    schema.fieldsInOrder type = .ok fields ∧
    HasRoom items target (.name item.ident) ⟨type.size.toNat, align.toNat⟩ ∧
    HasPlacement items target item.body ⟨⟨type.size.toNat, align.toNat⟩, places⟩ ∧
    item.body.StandsFor schema fields places

section Types

variable {draft : Draft} {root : Ref} {heap : Heap} {arena : Arena} {target : Target}
  {context : Context} {site : Site} {settled : TypeId -> Prop} {name : Nat -> String}
  {items : List Item} {sizeOf : Ref -> Variable} {index : Nat} {id : TypeId} {type : TypeDef}
  {fields : List FieldDef}
  (embodies : Embodies draft root heap target context site settled) (holds : heap.Holds arena)
  (is : IsEmbodied draft heap context site settled (.declared index) id type fields)

include embodies holds

theorem proper_of_reaches {ref : Ref} (reached : draft.Reaches root ref) : ref.Proper := by
  obtain ⟨_, finds, _⟩ := embodies.exists_settled holds reached
  exact finds.1

/-- The item of a declared type takes the room that the draft gives to the type. -/
theorem hasPlacement_of_reaches (exact : draft.Exact target sizeOf)
    (resolves : draft.Resolves root name items) (reached : draft.Reaches root (.declared index)) :
    HasPlacement items target (draft.body name index) (draft.placement target sizeOf index) := by
  refine Draft.hasPlacement_body embodies.complete exact fun part member =>
    exact.hasRoom_variable fun _ => ?_
  have partReached : draft.Reaches root part.type :=
    reached.next (List.mem_append_left _ (List.mem_map_of_mem member))
  exact resolves.hasRoom embodies.complete exact (fun _ => proper_of_reaches embodies holds) partReached

include is in
/-- The item of a declared type stands for the fields of the type, where these
are. -/
theorem standsFor_of_isEmbodied
    (offsets : (Sorted.sortBy FieldDef.orderKey fields).map (fun field => field.offset.toNat) =
      exactPlaces (draft.outline (.declared index)).shape
        ((draft.outline (.declared index)).parts.map fun part => sizeOf part.type)) :
    (draft.body name index).StandsFor ⟨arena⟩ (Sorted.sortBy FieldDef.orderKey fields)
      (draft.placement target sizeOf index).places := by
  have shown := is.parts
  generalize Sorted.sortBy FieldDef.orderKey fields = ordered at shown offsets
  by_cases isVariant : (draft.outline (.declared index)).shape = .variant
  · obtain ⟨first, others, parts⟩ := embodies.complete.parts_of_variant isVariant
    rw [Draft.body_of_variant isVariant parts]
    have places : (draft.placement target sizeOf index).places =
        (exactPlaces .variant ((tagPart :: first :: others).map fun part => sizeOf part.type)).tail := by
      unfold Draft.placement
      rw [isVariant, parts]
    rw [parts] at shown
    rw [isVariant, parts] at offsets
    cases shown with
    | @cons _ tag _ payloads _ shown =>
        obtain ⟨atStart, behind⟩ := List.cons_eq_cons.mp offsets
        refine ⟨tag, payloads, rfl, atStart, List.forall₂_map_left_iff.mpr (shown.imp ?_), ?_⟩
        · exact fun part field shows => ⟨holds.text shows.companion, shows.choice⟩
        · rw [places, ← offsets]
          rfl
  · rw [Draft.body_of_ne isVariant, Draft.placement_of_ne isVariant, ← offsets]
    exact ⟨List.forall₂_map_left_iff.mpr (shown.imp fun part field shows => holds.text shows.companion),
      rfl⟩

/-- The item of a declared type describes the type. -/
theorem describes_of_lists (resolves : draft.Resolves root name items)
    (reached : draft.Reaches root (.declared index)) {entry : TypeId × TypeDef}
    (listed : Lists draft heap context site settled (.declared index) entry) :
    (draft.item name index).Describes items ⟨arena⟩ target entry.2 := by
  obtain ⟨sizeOf, exact⟩ := embodies.complete.exists_exact target
  obtain ⟨fields, is⟩ := listed.embodied
  obtain ⟨align, isAlign, room, offsets⟩ := embodies.exists_room holds.told exact
    listed.finds listed.isSettled is
  have placed := hasPlacement_of_reaches embodies holds exact resolves reached
  have same : draft.placement target sizeOf index =
      ⟨⟨entry.2.size.toNat, align.toNat⟩, (draft.placement target sizeOf index).places⟩ := by
    rw [room]
    rfl
  rw [same] at placed
  exact ⟨resolves.declared index reached, align, _, _, isAlign, holds.fieldsInOrder is.hasFields,
    hasRoom_name (resolves.declared index reached) rfl placed, placed,
    standsFor_of_isEmbodied embodies holds is offsets⟩

end Types

/-- The companion of an accepted text schema has the layout of its types.  Its
items are those for the declared types of each target, in the order in which
these are listed, and take the room that the types take for this target. -/
theorem describes_of_compile {document : Json} {options : CompileOptions} {container : Container}
    (accepted : compile document options = .ok container) : exists file : File,
    source container = .ok file.render ∧ forall target, exists root types,
      container.schema.root (container.context target) = .ok root ∧
      Listing.listedTypes container.schema root = .ok types ∧
      List.Forall₂ (fun item entry => Item.Describes item file.items container.schema target entry.2)
        file.declared (types.filter fun entry => isDeclared (container.context target) entry.2) := by
  obtain ⟨slice, ⟨root, draft, cost⟩, _, _, bodies⟩ := bodies_of_compile accepted
  choose sizesFor exact using bodies.complete.exists_exact
  obtain ⟨refs, rostersOf⟩ := bodies.exists_rosters
  obtain ⟨heap, rosters⟩ := rostersOf bodies
  refine ⟨_, source_eq_file rosters exact, fun target => ?_⟩
  obtain ⟨site, settled, rootId, types, roster⟩ := rosters.each target
  refine ⟨rootId, types, roster.isRoot, roster.listed, ?_⟩
  have resolves := @resolves_file _ _ _ _ _ _ _ _ _ _ _ sizesFor container.schemaHash roster
    rosters.holds
  have reached (index : Nat) (member : index ∈ declaredIn refs) :
      draft.Reaches root (.declared index) := (roster.mem_indices index).mp member
  refine List.forall₂_map_left_iff.mpr
    (((List.forall₂_and_left _ _).mpr ⟨reached, roster.listed_declared⟩).imp ?_)
  exact fun index entry ⟨isReached, isListed⟩ =>
    describes_of_lists roster.embodies rosters.holds resolves isReached isListed

/-- A declared type at the root is listed. -/
theorem declared_ne_nil {draft : Draft} {index : Nat} {slice : String} {container : Container}
    (bodies : Bodies draft (.declared index) slice container.context container.arena) {root : TypeId}
    {types : List (TypeId × TypeDef)} (isRoot : container.schema.root container.wasm = .ok root)
    (listed : Listing.listedTypes container.schema root = .ok types) :
    (types.filter fun entry => isDeclared container.wasm entry.2) ≠ [] := by
  obtain ⟨refs, rostersOf⟩ := bodies.exists_rosters
  obtain ⟨heap, rosters⟩ := rostersOf bodies
  obtain ⟨_, _, _, _, roster⟩ := rosters.each .wasm32
  cases isRoot.symm.trans roster.isRoot
  cases listed.symm.trans roster.listed
  obtain ⟨entry, member, _⟩ :=
    exists_of_mem_left roster.listed_declared ((roster.mem_indices index).mpr .root)
  exact List.ne_nil_of_mem member

/-- The schema of records with one number. -/
def recordSchema : Inferred := .object [("count", .integer)] ["count"]

/-- The companion of the schema of records has the layout of its types, and
declares one. -/
theorem describes_of_compile_record : exists container,
    compile recordSchema.toJson {} = .ok container ∧ exists file : File, file.declared ≠ [] ∧
    source container = .ok file.render ∧ forall target, exists root types,
      container.schema.root (container.context target) = .ok root ∧
      Listing.listedTypes container.schema root = .ok types ∧
      List.Forall₂ (fun item entry => Item.Describes item file.items container.schema target entry.2)
        file.declared (types.filter fun entry => isDeclared (container.context target) entry.2) := by
  have formed : recordSchema.Formed :=
    .object (by decide) (by simpa using .integer) (by simp)
  have clear : recordSchema.IsClear := .object (by simpa using .integer)
  obtain ⟨builder, isBuilder, spare⟩ : exists builder,
      Builder.ofConfig {} = .ok builder ∧ builder.arena.spare = 65535 := ⟨_, rfl, rfl⟩
  have room : recordSchema.typeRoom "Root" ≤ 65535 := by decide +kernel
  have result : (draftTarget recordSchema.toJson "Root" none Draft.empty).toOption.map
      Drafted.result = some (.declared 0) := by decide +kernel
  obtain ⟨⟨root, draft, cost⟩, container, drafts, accepted, bodies⟩ :=
    @Inferred.exists_bodies recordSchema formed clear {} builder isBuilder (spare ▸ room)
  rw [drafts] at result
  cases result
  obtain ⟨file, isSource, described⟩ := describes_of_compile accepted
  obtain ⟨root, types, isRoot, listed, describes⟩ := described .wasm32
  refine ⟨container, accepted, file, fun none => ?_, isSource, described⟩
  rw [none] at describes
  exact declared_ne_nil bodies isRoot listed (List.forall₂_nil_left_iff.mp describes)

end Companion
end PackedJson
