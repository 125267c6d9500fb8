import PackedJson.Proofs.TextSchema.Compiling
import PackedJson.Proofs.TextSchema.Draft

namespace PackedJson
namespace TextSchema

open Heap Builder

/-!
Drafts in a heap.

A reference of a draft leads to an identifier: builtins are looked up in the
context, declared types in a list of their identifiers, and instances in the
table of the builder.  A heap realizes a draft when the identifiers of the
declared types have the records that the draft says.  Each step of the
compiler keeps the heap and the draft in accord.
-/

/-- A type that values have, or that such types consist of.  The array of text
bytes is not among them; the text type has taken its place. -/
def Ref.Proper : Ref -> Prop
  | .builtin found => found ∈ Builtin.string :: scalarBuiltins
  | .declared _ => True
  | .applied generic argument =>
      generic ∈ genericBuiltins ∧ argument ≠ .builtin .char ∧ argument.Proper

/-- Where the types of a draft are to be found. -/
structure Site where
  context : Context
  /-- The declared types. -/
  ids : List TypeId
  instances : Instances

namespace Site

/-- The identifier of a type. -/
def locate (site : Site) : Ref -> Option TypeId
  | .builtin builtin => some (site.context.builtin builtin)
  | .declared index => site.ids[index]?
  | .applied generic argument => (site.locate argument).bind fun id =>
      site.instances.lookup (site.context.builtin generic, id)

/-- A proper type has an identifier. -/
def Finds (site : Site) (ref : Ref) (id : TypeId) : Prop :=
  ref.Proper ∧ site.locate ref = some id

/-- A later place of the same types. -/
structure Includes (later site : Site) : Prop where
  context : later.context = site.context
  ids : site.ids <+: later.ids
  instances : Continues site.instances later.instances

variable {site later last : Site} {ref : Ref} {id : TypeId}

theorem Includes.refl (site : Site) : site.Includes site :=
  ⟨rfl, List.prefix_rfl, .refl _⟩

theorem Includes.trans (more : later.Includes site) (most : last.Includes later) :
    last.Includes site :=
  ⟨most.context.trans more.context, more.ids.trans most.ids, more.instances.trans most.instances⟩

theorem Includes.locate (includes : later.Includes site) (found : site.locate ref = some id) :
    later.locate ref = some id := by
  induction ref generalizing id with
  | builtin builtin =>
      cases found
      exact congrArg (fun context : Context => some (context.builtin builtin)) includes.context
  | declared index =>
      obtain ⟨bound, rfl⟩ := List.getElem?_eq_some_iff.mp found
      obtain ⟨more, same⟩ := includes.ids
      rw [Site.locate, ← same]
      exact (List.getElem?_append_left bound).trans found
  | applied generic argument ih =>
      obtain ⟨argumentId, isArgument, isEntry⟩ := Option.bind_eq_some_iff.mp found
      refine Option.bind_eq_some_iff.mpr ⟨argumentId, ih isArgument, ?_⟩
      rw [includes.context]
      exact includes.instances _ _ isEntry

theorem Finds.mono (finds : site.Finds ref id) (includes : later.Includes site) :
    later.Finds ref id :=
  ⟨finds.1, includes.locate finds.2⟩

end Site

/-- The member that a part stands for, given its type. -/
def Part.member (part : Part) (type : TypeId) : Member where
  name := part.name
  type := some type
  flags := part.flags
  activation := part.activation
  choice := part.choice
  companion := part.companion

/-- A member is there for a part. -/
def Site.FindsPart (site : Site) (part : Part) (member : Member) : Prop :=
  exists id, site.Finds part.type id ∧ member = part.member id

theorem Site.FindsPart.mono {site later : Site} {part : Part} {member : Member}
    (finds : site.FindsPart part member) (includes : later.Includes site) :
    later.FindsPart part member := by
  obtain ⟨id, found, same⟩ := finds
  exact ⟨id, found.mono includes, same⟩

/-- The prototype of declared types of a shape. -/
def prototypeOf : Shape -> Builtin
  | .variant => .variantPrototype
  | _ => .structPrototype

/-- A new type has the record of a sketch. -/
def IsSketched (setting : Setting) (heap : Heap) (site : Site) (id : TypeId) (sketch : Sketch) :
    Prop :=
  setting.old id.offset.toNat = none ∧ exists type members, HasType heap id type ∧
    HasText heap type.name sketch.name ∧ type.flags = sketch.flags ∧
    List.Forall₂ site.FindsPart (sketch.parts.getD []) members ∧
    Declares heap id ⟨sketch.shape, some (setting.context.builtin (prototypeOf sketch.shape)),
      none, false, false, members⟩

/-- The types of a target while its text schema is compiled. -/
def siteOf (setting : Setting) (ids : List TypeId) (state : State) : Site :=
  ⟨setting.context, ids, state.builder.instances⟩

/-- What has been compiled is what has been drafted. -/
structure Realizes (setting : Setting) (draft : Draft) (ids : List TypeId) (heap : Heap)
    (state : State) : Prop where
  tabled : Tabled setting.old [setting.context.textKey] heap state.builder
  founded : Founded setting.old heap state.builder.instances setting.target setting.context
  names : state.names = draft.names
  inProgress : state.inProgress = draft.inProgress
  definitions : List.Forall₂ (fun entry drafted => entry.1 = drafted.1 ∧
      drafted.2 ≠ .builtin .char ∧ (siteOf setting ids state).Finds drafted.2 entry.2)
    state.definitions draft.definitions
  /-- A definition that is met inside of itself is a declared type. -/
  declared : forall reference ref, draft.definitions.lookup reference = some ref ->
    reference ∈ draft.inProgress -> exists index, ref = .declared index
  sketched : List.Forall₂ (IsSketched setting heap (siteOf setting ids state)) ids draft.sketches
  distinct : ids.Nodup
  once : draft.inProgress.Nodup

/-- A later state of the compilation. -/
structure Leads (setting : Setting) (ids : List TypeId) (heap : Heap) (state : State)
    (laterIds : List TypeId) (later : Heap) (after : State) : Prop where
  ids : ids <+: laterIds
  grows : Grows heap later
  instances : Continues state.builder.instances after.builder.instances
  inProgress : after.inProgress = state.inProgress

section Basics

variable {setting : Setting} {draft : Draft} {ids : List TypeId} {heap later : Heap}
  {state after : State} {ref other : Ref} {id : TypeId} {sketch : Sketch}

theorem Leads.refl (setting : Setting) (ids : List TypeId) (heap : Heap) (state : State) :
    Leads setting ids heap state ids heap state :=
  ⟨List.prefix_rfl, Grows.refl heap, .refl _, rfl⟩

theorem Leads.trans {laterIds lastIds : List TypeId} {last : Heap} {final : State}
    (first : Leads setting ids heap state laterIds later after)
    (second : Leads setting laterIds later after lastIds last final) :
    Leads setting ids heap state lastIds last final :=
  ⟨first.ids.trans second.ids, first.grows.trans second.grows,
    first.instances.trans second.instances, second.inProgress.trans first.inProgress⟩

theorem Leads.includes {laterIds : List TypeId}
    (leads : Leads setting ids heap state laterIds later after) :
    (siteOf setting laterIds after).Includes (siteOf setting ids state) :=
  ⟨rfl, leads.ids, leads.instances⟩

theorem IsSketched.extends {site laterSite : Site} (is : IsSketched setting heap site id sketch)
    (kept : heap.Extends later) (includes : laterSite.Includes site) :
    IsSketched setting later laterSite id sketch := by
  obtain ⟨new, type, members, stored, hasText, flags, found, declares⟩ := is
  exact ⟨new, type, members, kept.hasType stored, kept.hasText hasText, flags,
    found.imp fun _ _ finds => finds.mono includes, kept.grows.declares declares⟩

/-- The record of a sketch is that of a declared type. -/
theorem IsSketched.isDeclared {site : Site} (is : IsSketched setting heap site id sketch) :
    exists type, HasType heap id type ∧ type.IsDeclared ∧ type.shape = sketch.shape ∧
      type.flags = sketch.flags := by
  obtain ⟨new, type, members, stored, _, flags, _, declares⟩ := is
  obtain ⟨other, fields, otherStored, _, is⟩ := declares
  cases hasType_inj stored otherStored
  exact ⟨type, stored, ⟨is.builtin, is.generic, is.argument⟩, is.shape, flags⟩

theorem Realizes.exists_sketch (realizes : Realizes setting draft ids heap state) {index : Nat}
    (found : ids[index]? = some id) : exists sketch, draft.sketches[index]? = some sketch ∧
      IsSketched setting heap (siteOf setting ids state) id sketch := by
  obtain ⟨bound, rfl⟩ := List.getElem?_eq_some_iff.mp found
  have parts := List.forall₂_iff_get.mp realizes.sketched
  have inSketches : index < draft.sketches.length := parts.1 ▸ bound
  exact ⟨_, List.getElem?_eq_getElem inSketches, parts.2 index bound inSketches⟩

theorem Realizes.length (realizes : Realizes setting draft ids heap state) :
    ids.length = draft.sketches.length := realizes.sketched.length_eq

/-- A builtin is no type without the mark of builtins. -/
theorem Realizes.ne_builtin (realizes : Realizes setting draft ids heap state)
    {declaration : Declaration} (declares : Declares heap id declaration)
    (plain : declaration.builtin = false) (builtin : Builtin) :
    id ≠ setting.context.builtin builtin := by
  intro same
  obtain ⟨builtinType, builtinStored, isBuiltin⟩ :=
    realizes.founded.made.stored builtin builtin.mem_all
  obtain ⟨type, _, stored, _, is⟩ := declares
  rw [same] at stored
  cases hasType_inj stored builtinStored
  cases isBuiltin.symm.trans (is.builtin.trans plain)

/-- Instances found in the table are complete. -/
theorem Realizes.isInstance_of_ne (realizes : Realizes setting draft ids heap state)
    {generic : Builtin} {argument : TypeId}
    (found : state.builder.instances.lookup (setting.context.builtin generic, argument) = some id)
    (notText : argument ≠ setting.context.builtin .char) :
    IsInstance heap state.builder.instances (setting.context.builtin generic) argument id := by
  refine realizes.tabled.complete _ _ _ (realizes.founded.made.new generic generic.mem_all) found ?_
  intro member
  exact notText (congrArg Prod.snd (List.mem_singleton.mp member))

theorem Realizes.ne_char (realizes : Realizes setting draft ids heap state)
    (finds : (siteOf setting ids state).Finds ref id) (different : ref ≠ .builtin .char) :
    id ≠ setting.context.builtin .char := by
  obtain ⟨proper, found⟩ := finds
  induction ref generalizing id with
  | builtin builtin =>
      cases found
      intro same
      exact different (congrArg Ref.builtin (realizes.founded.builtin_inj same))
  | declared index =>
      obtain ⟨sketch, _, _, _, _, _, _, _, _, declares⟩ := realizes.exists_sketch found
      exact realizes.ne_builtin declares rfl .char
  | applied generic argument ih =>
      obtain ⟨_, notText, argumentProper⟩ := proper
      obtain ⟨argumentId, isArgument, isEntry⟩ := Option.bind_eq_some_iff.mp found
      have is := realizes.isInstance_of_ne isEntry (ih notText argumentProper isArgument)
      obtain ⟨shape, members, declares⟩ := is.declares
      exact realizes.ne_builtin declares rfl .char

/-- An instance that a reference leads to. -/
theorem Realizes.isInstance (realizes : Realizes setting draft ids heap state) {generic : Builtin}
    {argument : Ref} (finds : (siteOf setting ids state).Finds (.applied generic argument) id) :
    exists argumentId, (siteOf setting ids state).Finds argument argumentId ∧
      state.builder.instances.lookup (setting.context.builtin generic, argumentId) = some id ∧
      IsInstance heap state.builder.instances (setting.context.builtin generic) argumentId id := by
  obtain ⟨⟨_, notText, argumentProper⟩, found⟩ := finds
  obtain ⟨argumentId, isArgument, isEntry⟩ := Option.bind_eq_some_iff.mp found
  exact ⟨argumentId, ⟨argumentProper, isArgument⟩, isEntry,
    realizes.isInstance_of_ne isEntry (realizes.ne_char ⟨argumentProper, isArgument⟩ notText)⟩

/-- Types have the names that the draft gives them. -/
theorem Realizes.named (realizes : Realizes setting draft ids heap state)
    (finds : (siteOf setting ids state).Finds ref id) : Named heap id (draft.nameOf ref) := by
  induction ref generalizing id with
  | builtin builtin =>
      obtain ⟨proper, ⟨⟩⟩ := finds
      exact realizes.founded.named_proper proper
  | declared index =>
      obtain ⟨sketch, isSketch, _, type, _, stored, hasText, _⟩ := realizes.exists_sketch finds.2
      refine ⟨type, stored, ?_⟩
      rw [Draft.nameOf, isSketch]
      exact hasText
  | applied generic argument ih =>
      have isGeneric := finds.1.1
      obtain ⟨argumentId, argumentFinds, _, is⟩ := realizes.isInstance finds
      obtain ⟨genericType, type, genericName, argumentName, genericStored, genericText, named,
        stored, hasText, _⟩ := is.labelled
      have sameGeneric := Named.inj ⟨genericType, genericStored, genericText⟩
        (realizes.founded.named_generic isGeneric)
      have sameArgument := Named.inj named (ih argumentFinds)
      refine ⟨type, stored, ?_⟩
      rw [Draft.nameOf, ← sameGeneric, ← sameArgument]
      exact hasText

/-- Only the reference to a builtin leads to the builtin. -/
theorem Realizes.eq_builtin (realizes : Realizes setting draft ids heap state) {builtin : Builtin}
    (finds : (siteOf setting ids state).Finds ref (setting.context.builtin builtin)) :
    ref = .builtin builtin := by
  cases ref with
  | builtin other =>
      exact congrArg Ref.builtin (realizes.founded.builtin_inj (Option.some.inj finds.2))
  | declared index =>
      obtain ⟨_, _, _, _, _, _, _, _, _, declares⟩ := realizes.exists_sketch finds.2
      exact absurd rfl (realizes.ne_builtin declares rfl builtin)
  | applied generic argument =>
      obtain ⟨_, _, _, is⟩ := realizes.isInstance finds
      obtain ⟨_, _, declares⟩ := is.declares
      exact absurd rfl (realizes.ne_builtin declares rfl builtin)

/-- Different references lead to different types. -/
theorem Realizes.finds_inj (realizes : Realizes setting draft ids heap state)
    (finds : (siteOf setting ids state).Finds ref id)
    (otherFinds : (siteOf setting ids state).Finds other id) : ref = other := by
  induction ref generalizing id other with
  | builtin builtin =>
      obtain ⟨_, ⟨⟩⟩ := finds
      exact (realizes.eq_builtin otherFinds).symm
  | declared index =>
      obtain ⟨_, _, _, _, _, _, _, _, _, declares⟩ := realizes.exists_sketch finds.2
      cases other with
      | builtin builtin =>
          exact absurd (Option.some.inj otherFinds.2).symm (realizes.ne_builtin declares rfl builtin)
      | declared otherIndex =>
          obtain ⟨bound, _⟩ := List.getElem?_eq_some_iff.mp finds.2
          exact congrArg Ref.declared
            ((List.getElem?_inj bound realizes.distinct).mp (finds.2.trans otherFinds.2.symm))
      | applied generic argument =>
          obtain ⟨_, _, _, is⟩ := realizes.isInstance otherFinds
          obtain ⟨_, _, otherDeclares⟩ := is.declares
          cases congrArg Declaration.argument (declares_inj declares otherDeclares)
  | applied generic argument ih =>
      obtain ⟨argumentId, argumentFinds, _, is⟩ := realizes.isInstance finds
      obtain ⟨_, _, declares⟩ := is.declares
      cases other with
      | builtin builtin =>
          exact absurd (Option.some.inj otherFinds.2).symm (realizes.ne_builtin declares rfl builtin)
      | declared index =>
          obtain ⟨_, _, _, _, _, _, _, _, _, otherDeclares⟩ := realizes.exists_sketch otherFinds.2
          cases congrArg Declaration.argument (declares_inj declares otherDeclares)
      | applied otherGeneric otherArgument =>
          obtain ⟨otherId, otherArgumentFinds, _, otherIs⟩ := realizes.isInstance otherFinds
          obtain ⟨_, _, otherDeclares⟩ := otherIs.declares
          have same := declares_inj declares otherDeclares
          have sameGeneric := realizes.founded.builtin_inj
            (Option.some.inj (congrArg Declaration.prototype same))
          have sameArgument := Option.some.inj (congrArg Declaration.argument same)
          rw [← sameArgument] at otherArgumentFinds
          rw [sameGeneric, ih argumentFinds otherArgumentFinds]

/-- Types that references lead to are new. -/
theorem Realizes.new (realizes : Realizes setting draft ids heap state)
    (finds : (siteOf setting ids state).Finds ref id) : setting.old id.offset.toNat = none := by
  cases ref with
  | builtin builtin =>
      obtain ⟨_, ⟨⟩⟩ := finds
      exact realizes.founded.made.new builtin builtin.mem_all
  | declared index =>
      obtain ⟨_, _, new, _⟩ := realizes.exists_sketch finds.2
      exact new
  | applied generic argument =>
      obtain ⟨_, _, isEntry, _⟩ := realizes.isInstance finds
      exact realizes.tabled.new _ _ _ (realizes.founded.made.new generic generic.mem_all) isEntry

end Basics

/-! ### Steps -/

section Steps

variable {setting : Setting} {draft : Draft} {ids : List TypeId} {heap later : Heap}
  {state : State} {ref : Ref} {id : TypeId}

/-- Cells were added, and instances were entered. -/
theorem Realizes.moved (realizes : Realizes setting draft ids heap state) {builder : Builder}
    (tabled : Tabled setting.old [setting.context.textKey] later builder)
    (kept : heap.Extends later) (continues : Continues state.builder.instances builder.instances) :
    Realizes setting draft ids later { state with builder := builder } ∧
      Leads setting ids heap state ids later { state with builder := builder } := by
  have leads : Leads setting ids heap state ids later { state with builder := builder } :=
    ⟨List.prefix_rfl, kept.grows, continues, rfl⟩
  have includes := leads.includes
  exact ⟨⟨tabled, realizes.founded.grows kept.grows continues, realizes.names, realizes.inProgress,
    realizes.definitions.imp fun _ _ ⟨same, notText, finds⟩ =>
      ⟨same, notText, finds.mono includes⟩, realizes.declared,
    realizes.sketched.imp fun _ _ is => is.extends kept includes, realizes.distinct,
    realizes.once⟩, leads⟩

theorem Realizes.added (realizes : Realizes setting draft ids heap state) {builder : Builder}
    (added : Added heap state.builder later builder) :
    Realizes setting draft ids later { state with builder := builder } ∧
      Leads setting ids heap state ids later { state with builder := builder } := by
  refine realizes.moved (realizes.tabled.added added) added.kept ?_
  rw [added.instances]
  exact .refl _

theorem Realizes.instantiated (realizes : Realizes setting draft ids heap state)
    {builder : Builder}
    (made : Instantiated setting.old [setting.context.textKey] heap state.builder later builder) :
    Realizes setting draft ids later { state with builder := builder } ∧
      Leads setting ids heap state ids later { state with builder := builder } :=
  realizes.moved made.tabled made.kept made.continues

/-- A name was taken. -/
theorem Realizes.renamed (realizes : Realizes setting draft ids heap state) (names : List String) :
    Realizes setting { draft with names := names } ids heap { state with names := names } :=
  ⟨realizes.tabled, realizes.founded, rfl, realizes.inProgress, realizes.definitions,
    realizes.declared, realizes.sketched, realizes.distinct, realizes.once⟩

/-- The type of a definition was entered. -/
theorem Realizes.defined (realizes : Realizes setting draft ids heap state) (reference : String)
    (finds : (siteOf setting ids state).Finds ref id) (notText : ref ≠ .builtin .char)
    (declared : reference ∈ draft.inProgress -> exists index, ref = .declared index) :
    Realizes setting { draft with definitions := (reference, ref) :: draft.definitions } ids heap
      { state with definitions := (reference, id) :: state.definitions } := by
  refine ⟨realizes.tabled, realizes.founded, realizes.names, realizes.inProgress,
    .cons ⟨rfl, notText, finds⟩ realizes.definitions, ?_, realizes.sketched, realizes.distinct,
    realizes.once⟩
  intro other otherRef found
  rw [List.lookup_cons] at found
  split at found
  next same =>
    cases found
    cases eq_of_beq same
    exact declared
  next => exact realizes.declared other otherRef found

/-- The compilation of a definition has begun. -/
theorem Realizes.entered (realizes : Realizes setting draft ids heap state) {reference : String}
    (missing : draft.definitions.lookup reference = none) (new : reference ∉ draft.inProgress) :
    Realizes setting { draft with inProgress := reference :: draft.inProgress } ids heap
      { state with inProgress := reference :: state.inProgress } := by
  refine ⟨realizes.tabled, realizes.founded, realizes.names,
    congrArg (reference :: ·) realizes.inProgress, realizes.definitions, ?_, realizes.sketched,
    realizes.distinct, List.nodup_cons.mpr ⟨new, realizes.once⟩⟩
  intro other ref found member
  cases List.mem_cons.mp member with
  | inl same =>
      subst same
      cases missing.symm.trans found
  | inr earlier => exact realizes.declared other ref found earlier

/-- The compilation of a definition has ended. -/
theorem Realizes.left (realizes : Realizes setting draft ids heap state) (reference : String) :
    Realizes setting { draft with inProgress := draft.inProgress.erase reference } ids heap
      { state with inProgress := state.inProgress.erase reference } :=
  ⟨realizes.tabled, realizes.founded, realizes.names,
    congrArg (·.erase reference) realizes.inProgress, realizes.definitions,
    fun other ref found member => realizes.declared other ref found (List.mem_of_mem_erase member),
    realizes.sketched, realizes.distinct, realizes.once.erase reference⟩

/-- A definition is found in the compiler as in the draft. -/
theorem Realizes.lookup (realizes : Realizes setting draft ids heap state) (reference : String) :
    match state.definitions.lookup reference, draft.definitions.lookup reference with
    | some id, some ref => ref ≠ .builtin .char ∧ (siteOf setting ids state).Finds ref id
    | none, none => True
    | _, _ => False := by
  have entries := realizes.definitions
  generalize state.definitions = found at entries
  generalize draft.definitions = drafted at entries
  induction entries with
  | nil => trivial
  | @cons entry other _ _ related _ ih =>
      obtain ⟨sameReference, notText, finds⟩ := related
      obtain ⟨name, id⟩ := entry
      obtain ⟨otherName, ref⟩ := other
      cases sameReference
      rw [List.lookup_cons, List.lookup_cons]
      cases reference == name with
      | true => exact ⟨notText, finds⟩
      | false => exact ih

/-- A declared type was made. -/
theorem Realizes.opened (realizes : Realizes setting draft ids heap state) {builder : Builder}
    {name : String} {shape : Shape} {text : TextRef} (free : heap id.offset.toNat = none)
    (added : Added heap state.builder later builder) (hasText : HasText later text name)
    (stored : HasType later id { TypeDef.ofShape text shape with
      prototype := some (setting.context.builtin (prototypeOf shape)) }) :
    Realizes setting { draft with sketches := draft.sketches ++ [⟨name, shape, FlagSet.empty, none⟩] }
        (ids ++ [id]) later { state with builder := builder } ∧
      Leads setting ids heap state (ids ++ [id]) later { state with builder := builder } := by
  obtain ⟨moved, leads⟩ := realizes.added added
  have more : Leads setting ids later { state with builder := builder } (ids ++ [id]) later
      { state with builder := builder } :=
    ⟨List.prefix_append _ _, Grows.refl later, .refl _, rfl⟩
  have includes := more.includes
  have isNew := realizes.tabled.since.grows.free free
  refine ⟨⟨moved.tabled, moved.founded, moved.names, moved.inProgress, ?_, moved.declared, ?_, ?_,
    moved.once⟩, leads.trans more⟩
  · exact moved.definitions.imp fun _ _ ⟨same, notText, finds⟩ =>
      ⟨same, notText, finds.mono includes⟩
  · refine List.rel_append (moved.sketched.imp fun _ _ is =>
      is.extends (Extends.refl later) includes) (.cons ⟨isNew, _, [], stored, hasText, rfl, .nil, ?_⟩
      .nil)
    refine ⟨_, [], stored, ⟨rfl, fun nonempty => absurd rfl nonempty⟩, rfl, rfl, rfl, ?_, ?_, ?_, .nil⟩
    · change FlagSet.contains FlagSet.empty TypeFlags.builtin = false
      decide
    · change FlagSet.contains FlagSet.empty TypeFlags.generic = false
      decide
    · intro byReference
      have isNot : FlagSet.contains FlagSet.empty TypeFlags.storedByReference = false := by decide
      cases isNot.symm.trans byReference
  · refine List.nodup_append.mpr ⟨realizes.distinct, List.nodup_singleton id, ?_⟩
    rintro other inIds _ isId rfl
    cases List.mem_singleton.mp isId
    obtain ⟨index, found⟩ := List.mem_iff_getElem?.mp inIds
    obtain ⟨_, _, _, type, _, present, _⟩ := realizes.exists_sketch found
    cases free.symm.trans present

/-- The record of one declared type was replaced by that of a changed sketch. -/
theorem Realizes.changed (realizes : Realizes setting draft ids heap state) {builder : Builder}
    {index : Nat} (found : ids[index]? = some id)
    (tabled : Tabled setting.old [setting.context.textKey] later builder)
    (founded : Founded setting.old later builder.instances setting.target setting.context)
    (instances : builder.instances = state.builder.instances) {step : Sketch -> Sketch}
    (others : forall other sketch, other ≠ id ->
      IsSketched setting heap (siteOf setting ids state) other sketch ->
      IsSketched setting later (siteOf setting ids state) other sketch)
    (own : forall sketch, draft.sketches[index]? = some sketch ->
      IsSketched setting heap (siteOf setting ids state) id sketch ->
      IsSketched setting later (siteOf setting ids state) id (step sketch)) :
    Realizes setting (draft.change (.declared index) step) ids later
      { state with builder := builder } := by
  have sameSite : siteOf setting ids { state with builder := builder } =
      siteOf setting ids state := by
    unfold siteOf
    rw [instances]
  refine ⟨tabled, founded, realizes.names, realizes.inProgress, ?_, realizes.declared, ?_,
    realizes.distinct, realizes.once⟩
  · rw [sameSite]
    exact realizes.definitions
  · rw [sameSite]
    refine List.forall₂_iff_get.mpr ⟨?_, ?_⟩
    · rw [Draft.change, List.length_modify]
      exact realizes.length
    · intro place inIds inSketches
      have before : place < draft.sketches.length := realizes.length ▸ inIds
      have is := (List.forall₂_iff_get.mp realizes.sketched).2 place inIds before
      simp only [Draft.change, List.get_eq_getElem, List.getElem_modify] at is ⊢
      split
      next same =>
        subst same
        obtain ⟨_, isId⟩ := List.getElem?_eq_some_iff.mp found
        rw [isId] at is ⊢
        exact own _ (List.getElem?_eq_getElem before) is
      next apart =>
        refine others _ _ ?_ is
        intro same
        exact apart ((List.getElem?_inj inIds realizes.distinct).mp
          ((List.getElem?_eq_getElem inIds).trans ((congrArg some same).trans found.symm))).symm

/-- A declared type was marked. -/
theorem Realizes.marked (realizes : Realizes setting draft ids heap state) {builder : Builder}
    {index : Nat} (found : ids[index]? = some id) {type : TypeDef} (stored : HasType heap id type)
    {mark : TypeFlags -> TypeFlags}
    (marks : type.Remarks { type with flags := mark type.flags })
    (holds : (heap.set id.offset.toNat (.type { type with flags := mark type.flags })).Holds
      builder.arena)
    (instances : builder.instances = state.builder.instances) :
    exists later, Realizes setting (draft.change (.declared index) fun sketch =>
        { sketch with flags := mark sketch.flags }) ids later { state with builder := builder } ∧
      Leads setting ids heap state ids later { state with builder := builder } := by
  have grows := (Grows.refl heap).mark stored marks
  obtain ⟨_, _, new, _⟩ := realizes.exists_sketch found
  have continues : Continues state.builder.instances builder.instances := by
    rw [instances]
    exact .refl _
  refine ⟨_, realizes.changed found
    (realizes.tabled.grown (realizes.tabled.since.set _ new) holds grows instances)
    (realizes.founded.grows grows continues) instances ?_ ?_,
    ⟨List.prefix_rfl, grows, continues, rfl⟩⟩
  · rintro other sketch apart ⟨otherNew, otherType, members, otherStored, hasText, flags, are,
      declares⟩
    refine ⟨otherNew, otherType, members, (set_other heap _ ?_).trans otherStored,
      grows.hasText hasText, flags, are, grows.declares declares⟩
    intro same
    obtain ⟨otherOffset⟩ := other
    obtain ⟨offset⟩ := id
    exact apart (congrArg TypeId.mk (Offset.toNat_inj.mp same))
  · rintro sketch _ ⟨new, ownType, members, ownStored, hasText, flags, are, declares⟩
    cases hasType_inj stored ownStored
    exact ⟨new, _, members, set_same heap _ _, grows.hasText hasText, congrArg mark flags, are,
      grows.declares declares⟩

/-- A declared type was given its parts. -/
theorem Realizes.closed (realizes : Realizes setting draft ids heap state) {builder : Builder}
    {index : Nat} (found : ids[index]? = some id) {type changed : TypeDef} {parts : List Part}
    {members : List Member} {fields : List FieldDef} (stored : HasType heap id type)
    (finds : List.Forall₂ (siteOf setting ids state).FindsPart parts members)
    (are : FieldsAre heap 0 members fields) (altered : Altered heap state.builder id later builder)
    (isChanged : exists place, changed =
      { type with fields := place, fieldCount := UInt32.ofNat fields.length })
    (changedStored : HasType later id changed) (hasFields : HasFields later id changed fields) :
    Realizes setting (draft.change (.declared index) fun sketch =>
      { sketch with parts := some parts }) ids later { state with builder := builder } := by
  obtain ⟨sketch, _, is⟩ := realizes.exists_sketch found
  obtain ⟨ownType, ownStored, declared, _, _⟩ := is.isDeclared
  cases hasType_inj stored ownStored
  obtain ⟨place, rfl⟩ := isChanged
  have kept := altered.kept
  have unused : type.isGeneric = true -> type.fieldCount = 0 := by
    intro generic
    cases generic.symm.trans declared.generic
  have tabled : Tabled setting.old [setting.context.textKey] later builder := by
    refine ⟨?_, altered.holds, ?_, ?_, ?_⟩
    · intro position cell before
      refine kept position cell ((without_other heap ?_).trans
        (realizes.tabled.since position cell before))
      rintro rfl
      cases is.1.symm.trans before
    · rw [altered.instances]
      refine realizes.tabled.complete.change realizes.tabled.known stored unused changedStored
        rfl kept ?_ fun _ _ _ _ _ => rfl
      intro generic argument _ hasArgument
      cases declared.argument.symm.trans hasArgument
    · rw [altered.instances]
      exact realizes.tabled.known.change stored unused changedStored kept
    · rw [altered.instances]
      exact realizes.tabled.new
  have founded := realizes.founded.change stored declared kept
  rw [← altered.instances] at founded
  refine realizes.changed found tabled founded altered.instances ?_ ?_
  · rintro other sketch apart ⟨otherNew, otherType, otherMembers, otherStored, hasText, flags,
      otherFinds, declares⟩
    exact ⟨otherNew, otherType, otherMembers, kept.hasType (hasType_without otherStored apart),
      kept.hasText (hasText_without stored hasText), flags, otherFinds,
      kept.grows.declares (declares_without stored declares apart)⟩
  · rintro sketch _ ⟨new, ownType, ownMembers, ownStored, hasText, flags, _, declares⟩
    cases hasType_inj stored ownStored
    obtain ⟨otherType, _, otherStored, _, otherIs⟩ := declares
    cases hasType_inj stored otherStored
    have laterAre := kept.grows.fieldsAre (fieldsAre_without stored are)
    have few : 0 + members.length ≤ 2 ^ 32 := by
      have count := hasFields.1
      have length := are.length
      have bound := (UInt32.ofNat fields.length).toNat_lt
      simp only at count
      omega
    refine ⟨new, _, members, changedStored, kept.hasText (hasText_without stored hasText), flags,
      finds, _, fields, changedStored, hasFields, otherIs.shape, otherIs.prototype, otherIs.argument,
      otherIs.builtin, otherIs.generic, fun _ => ⟨declared.builtin, declared.generic,
        declared.argument⟩, ?_⟩
    rw [laterAre.sortBy_eq few]
    exact laterAre

end Steps

end TextSchema
end PackedJson
