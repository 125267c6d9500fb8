import PackedJson.Proofs.Companion.Layout
import PackedJson.Proofs.TextSchema.Labels

namespace PackedJson
namespace Companion

open TextSchema Heap Layout Text.Identifier

/-!
The names in a companion.

The items of a companion have legal identifiers, no two of which are the same,
and so have the alternatives of an enumeration.  The fields of a struct have
names that differ, each of which is legal unless the language has set it aside,
and two of them mean the same word only if a number was put behind a raw
identifier.
-/

/-- What a body names is named as the language asks for, as far as the generator
sees to it. -/
def Body.IsLegal : Body -> Prop
  | .struct fields => AreFieldNames (fields.map Prod.fst)
  | .enumeration alternatives => AreLegal (alternatives.map Alternative.name)
  | .synonym _ => True

/-- The names in the containers are made as all others. -/
theorem isLegal_container {item : Item} (isContainer : item ∈ containers) : item.body.IsLegal := by
  have fields {members : List (String × Expression)}
      (same : members.map Prod.fst = freshNames ((members.map Prod.fst).map snakeCase) []) :
      Body.IsLegal (.struct members) := by
    change AreFieldNames (members.map Prod.fst)
    rw [same]
    exact areFieldNames_freshNames _ []
  have alternatives {members : List Alternative}
      (same : members.map Alternative.name =
        freshNames ((members.map Alternative.name).map pascalCase) []) :
      Body.IsLegal (.enumeration members) := by
    change AreLegal (members.map Alternative.name)
    rw [same]
    exact areLegal_freshNames _ []
  simp only [containers, List.mem_cons, List.not_mem_nil, or_false] at isContainer
  rcases isContainer with rfl | rfl | rfl | rfl | rfl
  · exact fields (by decide +kernel)
  · trivial
  · exact fields (by decide +kernel)
  · exact alternatives (by decide +kernel)
  · exact alternatives (by decide +kernel)

/-- The names in the item of a declared type are those of its parts. -/
theorem isLegal_body {draft : Draft} {root : Ref} (named : draft.Named) (complete : draft.Complete root)
    {index : Nat} (bound : index < draft.sketches.length) (identOf : Nat -> String) :
    (draft.body identOf index).IsLegal := by
  obtain ⟨sketch, parts, isSketch, hasParts, -, -⟩ := complete.settles index bound
  have labelled := named.labelled index sketch parts isSketch hasParts
  have outlined : (draft.outline (.declared index)).shape = sketch.shape ∧
      (draft.outline (.declared index)).parts = parts := by
    rw [Draft.outline_of_some isSketch, Sketch.outline, hasParts]
    exact ⟨rfl, rfl⟩
  generalize sketch.shape = shape at labelled outlined
  obtain ⟨isShape, areParts⟩ := outlined
  cases labelled with
  | struct companions =>
      rw [Draft.body_of_ne (by rw [isShape]; decide), areParts, Body.IsLegal, List.map_map]
      change AreFieldNames (parts.map Part.companion)
      rw [companions]
      exact areFieldNames_freshNames _ []
  | @variant alternatives companions =>
      rw [Draft.body_of_variant isShape areParts, Body.IsLegal, List.map_map]
      change AreLegal (alternatives.map Part.companion)
      rw [companions]
      exact areLegal_freshNames _ []

/-- Items have legal identifiers, no two of which are the same. -/
theorem File.IsNamed.areLegal {file : File} (named : file.IsNamed) :
    AreLegal (file.items.map Item.ident) := by
  refine ⟨fun ident member => ?_, named.nodup_ident⟩
  obtain ⟨item, isItem, rfl⟩ := List.mem_map.mp member
  rcases List.mem_append.mp isItem with isContainer | inRest
  · exact (by decide +kernel : forall item, item ∈ containers -> IsLegal item.ident) item isContainer
  · rcases List.mem_cons.mp inRest with isRoot | isDeclared
    · rw [isRoot]
      exact (by decide +kernel : IsLegal "DeflateRoot")
    · obtain ⟨names, same⟩ := named
      have assigned := List.mem_map_of_mem (f := Item.ident) isDeclared
      rw [same, identifiers_eq] at assigned
      exact (areLegal_freshNames names reserved).each _ assigned

/-- The companion of an accepted text schema names its items and alternatives
legally.  The names of fields are legal as far as the generator sees to it.
The items are those of the declared types for each target, and name what these
call their fields. -/
theorem isLegal_of_compile {document : Json} {options : CompileOptions} {container : Container}
    (accepted : compile document options = .ok container) : exists file : File,
    source container = .ok file.render ∧ AreLegal (file.items.map Item.ident) ∧
    (forall item, item ∈ file.items -> item.body.IsLegal) ∧
    forall target, exists root types,
      container.schema.root (container.context target) = .ok root ∧
      Listing.listedTypes container.schema root = .ok types ∧
      List.Forall₂ (fun item entry => exists fields places,
          container.schema.fieldsInOrder entry.2 = .ok fields ∧
          item.body.StandsFor container.schema fields places)
        file.declared (types.filter fun entry => isDeclared (container.context target) entry.2) := by
  obtain ⟨slice, ⟨root, draft, cost⟩, _, drafts, bodies⟩ := bodies_of_compile accepted
  have named := named_of_draftTarget drafts
  choose sizesFor exact using bodies.complete.exists_exact
  obtain ⟨refs, rostersOf⟩ := bodies.exists_rosters
  obtain ⟨heap, rosters⟩ := rostersOf bodies
  obtain ⟨site, settled, rootId, types, roster⟩ := rosters.each .wasm32
  have isNamed : (draft.file root refs sizesFor container.schemaHash).IsNamed :=
    isNamed_file roster rosters.holds
  refine ⟨_, source_eq_file rosters exact, isNamed.areLegal, fun item member => ?_, fun target => ?_⟩
  · rcases List.mem_append.mp member with isContainer | inRest
    · exact isLegal_container isContainer
    · rcases List.mem_cons.mp inRest with rfl | isDeclared
      · trivial
      · obtain ⟨index, isIndex, rfl⟩ := List.mem_map.mp isDeclared
        obtain ⟨id, finds, _⟩ := roster.embodies.exists_settled rosters.holds
          ((roster.mem_indices index).mp isIndex)
        exact isLegal_body named bodies.complete (roster.embodies.bound index id finds) _
  · obtain ⟨site, settled, rootId, types, roster⟩ := rosters.each target
    refine ⟨rootId, types, roster.isRoot, roster.listed, ?_⟩
    have resolves := @resolves_file _ _ _ _ _ _ _ _ _ _ _ sizesFor container.schemaHash roster
      rosters.holds
    refine List.forall₂_map_left_iff.mpr (((List.forall₂_and_left _ _).mpr
      ⟨fun index member => (roster.mem_indices index).mp member, roster.listed_declared⟩).imp ?_)
    rintro index entry ⟨isReached, isListed⟩
    obtain ⟨-, align, fields, places, -, inOrder, -, -, stands⟩ :=
      describes_of_lists roster.embodies rosters.holds resolves isReached isListed
    exact ⟨fields, places, inOrder, stands⟩

/-- A schema that fits the arena is compiled, and a type at its root is declared. -/
theorem exists_declared {schema : Inferred} (formed : schema.Formed) (clear : schema.IsClear)
    {rootName : String} (room : schema.typeRoom rootName ≤ 65535)
    (declares : (draftTarget schema.toJson rootName none Draft.empty).toOption.map Drafted.result =
      some (.declared 0)) :
    exists container, compile schema.toJson ⟨rootName, {}⟩ = .ok container ∧ forall root types,
      container.schema.root container.wasm = .ok root ->
      Listing.listedTypes container.schema root = .ok types ->
      (types.filter fun entry => isDeclared container.wasm entry.2) ≠ [] := by
  obtain ⟨builder, isBuilder, spare⟩ : exists builder,
      Builder.ofConfig {} = .ok builder ∧ builder.arena.spare = 65535 := ⟨_, rfl, rfl⟩
  obtain ⟨⟨root, draft, cost⟩, container, drafts, accepted, bodies⟩ :=
    @Inferred.exists_bodies schema formed clear ⟨rootName, {}⟩ builder isBuilder (spare ▸ room)
  rw [drafts] at declares
  cases declares
  exact ⟨container, accepted, fun _ _ => declared_ne_nil bodies⟩

/-- The schema of records whose properties are called as keywords are. -/
def keywordSchema : Inferred :=
  .object [("type", .integer), ("Type", .integer), ("type2", .integer), ("abstract", .integer)]
    ["type", "Type", "type2", "abstract"]

/-- The companion of this schema declares a type whose names are legal as far as
the generator sees to it. -/
theorem isLegal_of_compile_keywords : exists container,
    compile keywordSchema.toJson {} = .ok container ∧ exists file : File, file.declared ≠ [] ∧
    source container = .ok file.render ∧ AreLegal (file.items.map Item.ident) ∧
    forall item, item ∈ file.items -> item.body.IsLegal := by
  have formed : keywordSchema.Formed :=
    .object (by decide) (by simpa using .integer) (by simp)
  have clear : keywordSchema.IsClear := .object (by simpa using .integer)
  obtain ⟨container, accepted, declared⟩ :=
    @exists_declared keywordSchema formed clear "Root" (by decide +kernel) (by decide +kernel)
  obtain ⟨file, isSource, legal, bodies, named⟩ := isLegal_of_compile accepted
  obtain ⟨root, types, isRoot, listed, each⟩ := named .wasm32
  refine ⟨container, accepted, file, fun none => ?_, isSource, legal, bodies⟩
  rw [none] at each
  exact declared root types isRoot listed (List.forall₂_nil_left_iff.mp each)

end Companion
end PackedJson
