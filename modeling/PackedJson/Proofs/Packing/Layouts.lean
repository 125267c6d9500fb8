import PackedJson.Proofs.Packing.Integers
import PackedJson.Proofs.Packing.Matching
import PackedJson.Proofs.TextSchema.Acceptance
import PackedJson.Proofs.TextSchema.Belonging
import PackedJson.Proofs.TextSchema.Plainness

namespace PackedJson
namespace Packer

open TextSchema Heap Layout

/-!
A listing decides how documents are packed.

What a packer asks of its schema is said by the draft of the text schema and by
the exact sizes of its types.  So two packers whose containers have one listing
that can be read back agree about types of one name, and a document is packed
the same with both of them.
-/

/-! ### What a packer knows of a type -/

/-- A field is what the draft says of a part of a type of some shape. -/
structure TellsPart (draft : Draft) (packer : Packer) (site : Site) (shape : Shape)
    (part : TextSchema.Part) (field : FieldDef) : Prop where
  name : packer.schema.text field.jsonName = .ok part.name
  type : exists inner, field.type = some inner ∧ site.Finds part.type inner
  activation : field.activation = part.activation
  choice : field.choice = part.choice
  /-- Only options are not required. -/
  required : shape = .struct ->
    field.isRequired = !decide ((draft.outline part.type).prototype = some .option)

/-- A type is what the draft says of a reference. -/
structure Tells (draft : Draft) (sizeOf : Ref -> Variable) (packer : Packer) (site : Site)
    (ref : Ref) (id : TypeId) (type : TypeDef) (fields : List FieldDef) : Prop where
  found : packer.schema.type id = .ok type
  name : packer.schema.name type = draft.nameOf ref
  builtin : forall builtin, packer.context.builtinOf? id = some builtin ↔ ref = .builtin builtin
  isInstance : forall generic, packer.isInstance type generic =
    decide ((draft.outline ref).prototype = some generic)
  shape : type.shape = (draft.outline ref).shape
  size : type.size.toNat = (draft.room packer.target sizeOf ref).size
  takes : (⟨type.slot.toNat, type.align.toNat⟩ : Variable) = sizeOf ref
  byReference : type.isStoredByReference = draft.isByReference ref
  instanceAlign : exists align, packer.schema.instanceAlign type = .ok align ∧
    align.toNat = (draft.room packer.target sizeOf ref).align
  argument : Option.Rel site.Finds (draft.outline ref).argument type.argument
  inOrder : packer.schema.fieldsInOrder type = .ok fields
  places : fields.map (fun field => field.offset.toNat) = exactPlaces (draft.outline ref).shape
    ((draft.outline ref).parts.map fun part => sizeOf part.type)
  parts : List.Forall₂ (TellsPart draft packer site (draft.outline ref).shape)
    (draft.outline ref).parts fields

section Embodied

variable {draft : Draft} {root ref : Ref} {packer : Packer} {heap served : Heap} {site : Site}
  {settled alsoSettled : TypeId -> Prop} {document : Json} {promises : Promises}
  {sizeOf : Ref -> Variable}

/-- Types have the prototypes that their outlines say. -/
theorem prototype_iff
    (embodies : Embodies draft root heap packer.target packer.context site settled) {id : TypeId}
    {type : TypeDef} {fields : List FieldDef}
    (is : IsEmbodied draft heap packer.context site settled ref id type fields) (builtin : Builtin) :
    type.prototype = some (packer.context.builtin builtin) ↔
      (draft.outline ref).prototype = some builtin := by
  rw [is.prototype, Option.map_eq_some_iff]
  exact ⟨fun ⟨_, isPrototype, same⟩ => embodies.different _ _ same ▸ isPrototype,
    fun isPrototype => ⟨builtin, isPrototype, rfl⟩⟩

/-- Types are instances of what their outlines say. -/
theorem isInstance_eq
    (embodies : Embodies draft root heap packer.target packer.context site settled) {id : TypeId}
    {type : TypeDef} {fields : List FieldDef}
    (is : IsEmbodied draft heap packer.context site settled ref id type fields) (generic : Builtin) :
    packer.isInstance type generic = decide ((draft.outline ref).prototype = some generic) := by
  have known := prototype_iff embodies is generic
  unfold isInstance
  cases isPrototype : type.prototype with
  | none =>
      rw [isPrototype] at known
      exact (decide_eq_false fun said => nomatch known.mpr said).symm
  | some prototype =>
      rw [isPrototype, Option.some_inj] at known
      exact decide_eq_decide.mpr (eq_comm.trans known)

/-- What can be reached in the draft is there, as the draft says. -/
theorem exists_tells (embodies : Embodies draft root heap packer.target packer.context site settled)
    (holds : heap.Holds packer.schema.arena) (exact : draft.Exact packer.target sizeOf)
    (serving : Serving served packer.target packer.context document promises alsoSettled)
    (servedHolds : served.Holds packer.schema.arena) (reached : draft.Reaches root ref) :
    exists id type fields, site.Finds ref id ∧ Tells draft sizeOf packer site ref id type fields := by
  obtain ⟨id, type, fields, mentioned, finds, isSettled, is⟩ := embodies.exists_mentioned holds reached
  obtain ⟨rootId, isRoot, reaches, found⟩ := mentioned
  obtain ⟨align, isAlign, room, places⟩ :=
    embodies.exists_room holds.told exact finds isSettled is
  have inOrder := holds.fieldsInOrder is.hasFields
  refine ⟨id, type, _, finds, found, holds.name is.name, fun builtin => ?_,
    isInstance_eq embodies is, is.shape, congrArg Variable.size room,
    embodies.variable_eq exact finds isSettled is.stored, is.byReference,
    ⟨align, isAlign, congrArg Variable.align room⟩, ?_, inOrder, places, ?_⟩
  · rw [embodies.builtinOf?_eq holds.told finds is.stored]
    cases ref with
    | builtin other => exact ⟨fun same => congrArg _ (Option.some.inj same),
        fun same => congrArg some (Ref.builtin.inj same)⟩
    | _ => exact ⟨nofun, nofun⟩
  · have isArgument := is.argument
    generalize (draft.outline ref).argument = argument, type.argument = found at isArgument
    cases isArgument with
    | none => exact .none
    | some innerFinds => exact .some innerFinds.1
  · refine List.forall₂_iff_get.mpr ⟨is.parts.length_eq, fun index bound inFields => ?_⟩
    have shows := (List.forall₂_iff_get.mp is.parts).2 index bound inFields
    obtain ⟨inner, isType, innerFinds, innerSettled⟩ := shows.type
    obtain ⟨innerType, _, innerIs⟩ := embodies.exists_isEmbodied innerFinds innerSettled
    refine ⟨holds.text shows.name, ⟨inner, isType, innerFinds⟩, shows.activation, shows.choice,
      fun isStruct => ?_⟩
    have required := serving.isRequired_eq servedHolds isRoot reaches found inOrder
      (is.shape.trans isStruct) (List.getElem_mem inFields) isType
      (holds.told.type innerIs.stored)
    exact required.trans (congrArg (!·)
      (decide_eq_decide.mpr (prototype_iff embodies innerIs .option)))

end Embodied

/-! ### Types of one name -/

/-- The types of a packer are those of a draft that is listed. -/
structure Reflects (draft : Draft) (sizesFor : Target -> Ref -> Variable) (slice : String)
    (root : Ref) (refs : List Ref) (packer : Packer) (site : Site) : Prop where
  listable : draft.Listable sizesFor slice root refs
  distinct : forall ref other id, site.Finds ref id -> site.Finds other id -> ref = other
  tells : forall ref, draft.Reaches root ref -> exists id type fields, site.Finds ref id ∧
    Tells draft (sizesFor packer.target) packer site ref id type fields

/-- Two types are found for references of one name. -/
def OfOneName (draft other : Draft) (root otherRoot : Ref) (site otherSite : Site)
    (id otherId : TypeId) : Prop :=
  exists ref otherRef, Namesakes draft other root otherRoot ref otherRef ∧ site.Finds ref id ∧
    otherSite.Finds otherRef otherId

section Reflections

variable {draft other : Draft} {sizesFor otherSizesFor : Target -> Ref -> Variable}
  {slice otherSlice : String} {root otherRoot ref otherRef : Ref} {refs otherRefs : List Ref}
  {packer second : Packer} {site otherSite : Site} {id otherId : TypeId}

/-- What is found for a reference that can be reached is as the draft says. -/
theorem Reflects.exists_type (reflects : Reflects draft sizesFor slice root refs packer site)
    (reached : draft.Reaches root ref) (finds : site.Finds ref id) : exists type fields,
      Tells draft (sizesFor packer.target) packer site ref id type fields := by
  obtain ⟨found, type, fields, alsoFinds, tells⟩ := reflects.tells ref reached
  cases finds.2.symm.trans alsoFinds.2
  exact ⟨type, fields, tells⟩

/-- Arguments are of one name if their references are. -/
theorem argument_ofOneName {argument otherArgument : Option Ref} {found otherFound : Option TypeId}
    (names : Option.Rel (Namesakes draft other root otherRoot) argument otherArgument)
    (finds : Option.Rel site.Finds argument found)
    (otherFinds : Option.Rel otherSite.Finds otherArgument otherFound) :
    Option.Rel (OfOneName draft other root otherRoot site otherSite) found otherFound := by
  cases names with
  | none =>
      cases finds
      cases otherFinds
      exact .none
  | some namesakes =>
      cases finds with
      | some innerFinds =>
          cases otherFinds with
          | some otherInnerFinds => exact .some ⟨_, _, namesakes, innerFinds, otherInnerFinds⟩

variable (reflects : Reflects draft sizesFor slice root refs packer site)
  (otherReflects : Reflects other otherSizesFor otherSlice otherRoot otherRefs second otherSite)
  (same : draft.layout sizesFor slice root refs =
    other.layout otherSizesFor otherSlice otherRoot otherRefs)
  (target : second.target = packer.target)

include reflects otherReflects same target

/-- The fields of types of one name say the same. -/
theorem fieldsMatch_of_names (namesakes : Namesakes draft other root otherRoot ref otherRef)
    {type otherType : TypeDef} {fields others : List FieldDef}
    (tells : Tells draft (sizesFor packer.target) packer site ref id type fields)
    (otherTells : Tells other (otherSizesFor second.target) second otherSite otherRef otherId
      otherType others) :
    List.Forall₂ (FieldsMatch packer second (OfOneName draft other root otherRoot site otherSite)
      type.shape) fields others := by
  have resembles := namesakes.resembles reflects.listable otherReflects.listable same
  have slots := namesakes.slots_eq reflects.listable otherReflects.listable same packer.target
  have places : others.map (fun field => field.offset.toNat) =
      fields.map fun field => field.offset.toNat := by
    rw [otherTells.places, tells.places, target, slots, resembles.shape]
  have length := tells.parts.length_eq
  have otherLength := otherTells.parts.length_eq
  have sameLength := resembles.parts.length_eq
  refine List.forall₂_iff_get.mpr ⟨by omega, fun index bound otherBound => ?_⟩
  have part := (List.forall₂_iff_get.mp tells.parts).2 index (by omega) bound
  have otherPart := (List.forall₂_iff_get.mp otherTells.parts).2 index (by omega) otherBound
  have parts := (List.forall₂_iff_get.mp resembles.parts).2 index (by omega) (by omega)
  have offset := List.getElem_of_eq places (show index < _ by rwa [List.length_map])
  rw [List.getElem_map, List.getElem_map] at offset
  obtain ⟨inner, isType, finds⟩ := part.type
  obtain ⟨otherInner, isOtherType, otherFinds⟩ := otherPart.type
  refine ⟨⟨_, part.name, parts.name ▸ otherPart.name⟩,
    ⟨inner, otherInner, isType, isOtherType, _, _, parts.types, finds, otherFinds⟩,
    UInt32.toNat_inj.mp offset, ?_, fun isStruct => ?_, fun isVariant => ?_⟩
  · rw [otherPart.activation, part.activation, parts.activation]
  · have partTypes := parts.types.resembles reflects.listable otherReflects.listable same
    have shape := tells.shape.symm.trans isStruct
    rw [part.required shape, otherPart.required (resembles.shape.trans shape), partTypes.prototype]
  · rw [otherPart.choice, part.choice, parts.choice (tells.shape.symm.trans isVariant)]

/-- Types of one name say the same. -/
theorem typesMatch_of_names (names : OfOneName draft other root otherRoot site otherSite id otherId) :
    exists type otherType, TypesMatch packer second
      (OfOneName draft other root otherRoot site otherSite) id otherId type otherType := by
  obtain ⟨ref, otherRef, namesakes, finds, otherFinds⟩ := names
  obtain ⟨type, fields, tells⟩ := reflects.exists_type namesakes.reached finds
  obtain ⟨otherType, others, otherTells⟩ :=
    otherReflects.exists_type namesakes.otherReached otherFinds
  have resembles := namesakes.resembles reflects.listable otherReflects.listable same
  have room := namesakes.room_eq reflects.listable otherReflects.listable same packer.target
  have takes : (⟨otherType.slot.toNat, otherType.align.toNat⟩ : Variable) =
      ⟨type.slot.toNat, type.align.toNat⟩ := by
    rw [otherTells.takes, tells.takes, target]
    exact namesakes.size_eq reflects.listable otherReflects.listable same packer.target
  have fieldsMatch := fieldsMatch_of_names reflects otherReflects same target namesakes tells otherTells
  obtain ⟨align, isAlign, aligned⟩ := tells.instanceAlign
  obtain ⟨otherAlign, isOtherAlign, otherAligned⟩ := otherTells.instanceAlign
  refine ⟨type, otherType, tells.found, otherTells.found, ?_, ?_, ?_, ?_, ?_, ?_, ?_, ?_, ?_, ?_, ?_,
    ⟨fields, others, tells.inOrder, otherTells.inOrder, fieldsMatch⟩⟩
  · rw [otherTells.name, tells.name, namesakes.name]
  · exact Option.ext fun builtin => (otherTells.builtin builtin).trans
      ((resembles.builtin builtin).trans (tells.builtin builtin).symm)
  · rw [otherTells.isInstance, tells.isInstance, resembles.prototype]
  · rw [otherTells.isInstance, tells.isInstance, resembles.prototype]
  · rw [otherTells.shape, tells.shape, resembles.shape]
  · rw [← UInt32.toNat_inj, otherTells.size, tells.size, target, room]
  · exact UInt32.toNat_inj.mp (congrArg Variable.size takes)
  · exact UInt32.toNat_inj.mp (congrArg Variable.align takes)
  · rw [otherTells.byReference, tells.byReference, resembles.byReference]
  · have sameAlign : otherAlign = align := by
      rw [← UInt32.toNat_inj, otherAligned, aligned, target, room]
    rw [isAlign, isOtherAlign, sameAlign]
  · exact argument_ofOneName resembles.argument tells.argument otherTells.argument

/-- Two packers with one listing differ only in where they keep their types. -/
theorem matching_of_layout (pointerBase : second.pointerBase = packer.pointerBase)
    (maxDepth : second.maxDepth = packer.maxDepth) :
    Matching packer second (OfOneName draft other root otherRoot site otherSite) := by
  refine ⟨target, pointerBase, maxDepth, ?_,
    fun id otherId => typesMatch_of_names reflects otherReflects same target⟩
  rintro id otherId next otherNext ⟨ref, otherRef, namesakes, finds, otherFinds⟩
    ⟨nextRef, otherNextRef, nextNamesakes, nextFinds, otherNextFinds⟩
  have plain := reflects.listable.plain
  have otherPlain := otherReflects.listable.plain
  constructor
  · rintro rfl
    cases otherReflects.distinct otherRef otherNextRef otherId otherFinds otherNextFinds
    cases plain.distinct ref nextRef namesakes.reached nextNamesakes.reached
      (nextNamesakes.name.symm.trans namesakes.name)
    exact Option.some.inj (finds.2.symm.trans nextFinds.2)
  · rintro rfl
    cases reflects.distinct ref nextRef id finds nextFinds
    cases otherPlain.distinct otherRef otherNextRef namesakes.otherReached
      nextNamesakes.otherReached (nextNamesakes.name.trans namesakes.name.symm)
    exact Option.some.inj (otherFinds.2.symm.trans otherNextFinds.2)

end Reflections

/-! ### Containers with one listing -/

/-- What is known of a container with a listing that can be read back. -/
theorem exists_reflects {document : Json} {options : CompileOptions} {container : Container}
    (accepted : compile document options = .ok container) {target : Target}
    (plain : Listing.IsPlain container.schema (container.context target))
    (pointerBase maxDepth : Nat) : exists draft sizesFor slice root refs site rootId,
      Listing.layout container = .ok (Draft.layout draft sizesFor slice root refs) ∧
      container.schema.root (container.context target) = .ok rootId ∧ site.Finds root rootId ∧
      Reflects draft sizesFor slice root refs (container.packer target pointerBase maxDepth) site := by
  obtain ⟨slice, ⟨root, draft, cost⟩, _, drafts, bodies⟩ := bodies_of_compile accepted
  choose sizesFor exact using bodies.complete.exists_exact
  obtain ⟨refs, rostersOf⟩ := bodies.exists_rosters
  obtain ⟨heap, rosters⟩ := rostersOf bodies
  obtain ⟨site, settled, rootId, types, roster⟩ := rosters.each target
  obtain ⟨served, promises, alsoSettled, servedHolds, serving⟩ :=
    isCompiled_of_compile accepted target
  have isPlain := (roster.embodies.isPlain_iff rosters.holds (rosters.slices target)).mp plain
  exact ⟨draft, sizesFor, slice.getD "", root, refs, site, rootId, rosters.layout_eq exact,
    roster.isRoot, roster.finds, rosters.listable (named_of_draftTarget drafts) exact isPlain,
    roster.embodies.distinct, fun ref reached => exists_tells roster.embodies rosters.holds
      (exact target) serving servedHolds reached⟩

/-- A listing decides how documents are packed: two text schemas with one listing pack each document
the same, whatever the destination holds, if the names in the listing can be told from each other
and from the rest of its lines. -/
theorem pack_eq_of_layout {document otherDocument : Json} {options otherOptions : CompileOptions}
    {container other : Container} (accepted : compile document options = .ok container)
    (otherAccepted : compile otherDocument otherOptions = .ok other)
    (same : Listing.layout container = Listing.layout other) (target : Target)
    (plain : Listing.IsPlain container.schema (container.context target))
    (otherPlain : Listing.IsPlain other.schema (other.context target)) (pointerBase maxDepth : Nat) :
    exists root otherRoot, container.schema.root (container.context target) = .ok root ∧
      other.schema.root (other.context target) = .ok otherRoot ∧ forall value,
        (container.packer target pointerBase maxDepth).pack root value =
          (other.packer target pointerBase maxDepth).pack otherRoot value := by
  obtain ⟨draft, sizesFor, slice, rootRef, refs, site, root, layout, isRoot, finds, reflects⟩ :=
    exists_reflects accepted plain pointerBase maxDepth
  obtain ⟨otherDraft, otherSizesFor, otherSlice, otherRootRef, otherRefs, otherSite, otherRoot,
    otherLayout, isOtherRoot, otherFinds, otherReflects⟩ :=
    exists_reflects otherAccepted otherPlain pointerBase maxDepth
  have sameText := Except.ok.inj (layout.symm.trans (same.trans otherLayout))
  have matching := matching_of_layout reflects otherReflects sameText rfl rfl rfl
  have names := reflects.listable.root_namesakes otherReflects.listable sameText
  exact ⟨root, otherRoot, isRoot, isOtherRoot,
    matching.pack_eq ⟨rootRef, otherRootRef, names, finds, otherFinds⟩⟩

/-- The text schema of points. -/
def pointSchema : Json := .object
  [("title", .string "Point"),
    ("properties", .object [("x", .object [("type", .string "integer")])]),
    ("required", .array [.string "x"])]

/-- The same with a type and a description, in another order. -/
def describedPointSchema : Json := .object
  [("type", .string "object"), ("description", .string "A point."),
    ("required", .array [.string "x"]),
    ("properties", .object [("x", .object [("type", .string "integer")])]),
    ("title", .string "Point")]

/-- What both of them are drafted to. -/
def pointDraft : Draft :=
  ⟨[⟨"Point", .struct, FlagSet.empty, some
    [{ name := "x", type := .builtin .integer, flags := FlagSet.empty.insert FieldFlags.required }]⟩],
    ["Point"], [], []⟩

/-- A point and an integer can be reached, and have different names. -/
theorem isPlain_pointDraft : pointDraft.IsPlain "" (.declared 0) := by
  have known (ref : Ref) (reached : pointDraft.Reaches (.declared 0) ref) :
      ref = .declared 0 ∨ ref = .builtin .integer := by
    induction reached with
    | root => exact .inl rfl
    | next _ member ih =>
        rcases ih with rfl | rfl
        · exact .inr (List.mem_singleton.mp member)
        · cases member
  refine ⟨by decide, fun ref reached => ?_, fun ref part reached member => ?_,
    fun ref next reached nextReached same => ?_⟩
  · rcases known ref reached with rfl | rfl <;> decide +kernel
  · rcases known ref reached with rfl | rfl
    · cases List.mem_singleton.mp member
      decide
    · cases member
  · rcases known ref reached with rfl | rfl <;> rcases known next nextReached with rfl | rfl
    · rfl
    · exact absurd same (by decide +kernel)
    · exact absurd same (by decide +kernel)
    · rfl

/-- By default there is room for the text schema of points. -/
theorem exists_pointContainer {document : Json} {cost : Nat} (isSlice : sliceOf document = .ok none)
    (drafts : draftTarget document "Root" none Draft.empty = .ok ⟨.declared 0, pointDraft, cost⟩)
    (enough : 2 * cost ≤ 65535) : exists container, compile document {} = .ok container ∧
      Bodies pointDraft (.declared 0) "" container.context container.arena := by
  obtain ⟨builder, isBuilder, spare⟩ : exists builder,
      Builder.ofConfig {} = .ok builder ∧ builder.arena.spare = 65535 := ⟨_, rfl, rfl⟩
  have spansParts : pointDraft.SpansParts
      [{ name := "x", type := .builtin .integer, flags := FlagSet.empty.insert FieldFlags.required }]
      31 := ⟨24, 0, pointDraft.spans_builtin .integer, trivial, Nat.le_refl _⟩
  have spans : pointDraft.Spans (.declared 0) 39 := spansParts.declared rfl rfl (Nat.le_refl _)
  exact @exists_compiled document {} none builder isSlice isBuilder _ drafts (spare ▸ enough) _ spans
    (by decide)

/-- Points are packed the same in whichever way they are described. -/
theorem pack_eq_of_layout_point : exists container other,
    compile pointSchema {} = .ok container ∧ compile describedPointSchema {} = .ok other ∧
    Listing.layout container = Listing.layout other ∧
    Listing.IsPlain container.schema (container.context .wasm32) ∧
    Listing.IsPlain other.schema (other.context .wasm32) ∧
    exists root otherRoot, container.schema.root (container.context .wasm32) = .ok root ∧
      other.schema.root (other.context .wasm32) = .ok otherRoot ∧ forall value,
        (container.packer .wasm32 0 128).pack root value =
          (other.packer .wasm32 0 128).pack otherRoot value := by
  obtain ⟨cost, drafts, enough⟩ : exists cost, draftTarget pointSchema "Root" none Draft.empty =
      .ok ⟨.declared 0, pointDraft, cost⟩ ∧ 2 * cost ≤ 65535 := ⟨_, rfl, by decide +kernel⟩
  obtain ⟨otherCost, otherDrafts, otherEnough⟩ : exists cost,
      draftTarget describedPointSchema "Root" none Draft.empty =
        .ok ⟨.declared 0, pointDraft, cost⟩ ∧ 2 * cost ≤ 65535 := ⟨_, rfl, by decide +kernel⟩
  obtain ⟨container, accepted, bodies⟩ := exists_pointContainer rfl drafts enough
  obtain ⟨other, otherAccepted, otherBodies⟩ := exists_pointContainer rfl otherDrafts otherEnough
  choose sizesFor exact using bodies.complete.exists_exact
  obtain ⟨refs, rostersOf⟩ := bodies.exists_rosters
  obtain ⟨heap, rosters⟩ := rostersOf bodies
  obtain ⟨otherHeap, otherRosters⟩ := rostersOf otherBodies
  have same : Listing.layout container = Listing.layout other :=
    (rosters.layout_eq exact).trans (otherRosters.layout_eq exact).symm
  have plain {container : Container} {heap : Heap}
      (rosters : Rosters pointDraft (.declared 0) "" refs heap container) :
      Listing.IsPlain container.schema (container.context .wasm32) := by
    obtain ⟨_, _, _, _, roster⟩ := rosters.each .wasm32
    exact (roster.embodies.isPlain_iff rosters.holds (rosters.slices .wasm32)).mpr isPlain_pointDraft
  exact ⟨container, other, accepted, otherAccepted, same, plain rosters, plain otherRosters,
    pack_eq_of_layout accepted otherAccepted same .wasm32 (plain rosters) (plain otherRosters) 0 128⟩

end Packer
end PackedJson
