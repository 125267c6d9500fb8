import PackedJson.Proofs.TextSchema.Draft

namespace PackedJson
namespace TextSchema

/-!
No type of a draft contains itself inline.

A type is grounded when the types of its parts are stored by reference or are
grounded in turn.  A definition is not entered for good before its type is
grounded; when it is met earlier, it is marked as stored by reference.  So
every declared type is grounded as soon as its parts are known, and marks that
are added later do no harm.
-/

namespace Draft

/-- Whether variables of a type are pointers. -/
def isByReference (draft : Draft) (ref : Ref) : Bool :=
  match draft.sketch? ref with
  | some sketch => sketch.flags.contains TypeFlags.storedByReference
  | none => false

/-- All that instances of a type contain inline comes to an end. -/
inductive Grounds (draft : Draft) : Ref -> Prop where
  | builtin (builtin : Builtin) : Grounds draft (.builtin builtin)
  | applied (generic : Builtin) {argument : Ref} :
      (draft.isByReference argument = false -> Grounds draft argument) ->
      Grounds draft (.applied generic argument)
  | declared {index : Nat} {sketch : Sketch} {parts : List Part} :
      draft.sketches[index]? = some sketch -> sketch.parts = some parts ->
      (forall part, part ∈ parts -> draft.isByReference part.type = false ->
        Grounds draft part.type) -> Grounds draft (.declared index)

/-- Variables of a type are pointers, or the type is grounded. -/
def Shelters (draft : Draft) (ref : Ref) : Prop :=
  draft.isByReference ref = false -> draft.Grounds ref

/-- A declared type has all its parts, and they are sheltered. -/
def Settles (draft : Draft) (index : Nat) : Prop :=
  exists sketch parts, draft.sketches[index]? = some sketch ∧ sketch.parts = some parts ∧
    (sketch.shape = .variant -> exists first others, parts = tagPart :: first :: others) ∧
    forall part, part ∈ parts -> draft.Shelters part.type

theorem Settles.grounds {draft : Draft} {index : Nat} (settles : draft.Settles index) :
    draft.Grounds (.declared index) := by
  obtain ⟨sketch, parts, isSketch, hasParts, _, sheltered⟩ := settles
  exact .declared isSketch hasParts sheltered

end Draft

/-- A sketch with more marks, and with parts once they are known. -/
structure Sketch.Becomes (sketch later : Sketch) : Prop where
  shape : later.shape = sketch.shape
  parts : forall parts, sketch.parts = some parts -> later.parts = some parts
  byReference : sketch.flags.contains TypeFlags.storedByReference = true ->
    later.flags.contains TypeFlags.storedByReference = true

theorem Sketch.Becomes.refl (sketch : Sketch) : sketch.Becomes sketch :=
  ⟨rfl, fun _ => id, id⟩

theorem Sketch.Becomes.trans {sketch later last : Sketch} (first : sketch.Becomes later)
    (second : later.Becomes last) : sketch.Becomes last :=
  ⟨second.shape.trans first.shape, fun parts hasParts => second.parts parts (first.parts parts hasParts),
    fun byReference => second.byReference (first.byReference byReference)⟩

namespace Draft

variable {draft later last : Draft} {ref : Ref} {index : Nat}

/-- Types stay as they are, apart from marks and from parts that are missing. -/
def Keeps (draft later : Draft) : Prop :=
  forall (index : Nat) (sketch : Sketch), draft.sketches[index]? = some sketch ->
    exists laterSketch, later.sketches[index]? = some laterSketch ∧ sketch.Becomes laterSketch

theorem Keeps.refl (draft : Draft) : draft.Keeps draft :=
  fun _ sketch found => ⟨sketch, found, .refl sketch⟩

theorem Keeps.of_eq (same : later.sketches = draft.sketches) : draft.Keeps later := by
  intro index sketch found
  rw [same]
  exact ⟨sketch, found, .refl sketch⟩

theorem Keeps.trans (first : draft.Keeps later) (second : later.Keeps last) : draft.Keeps last := by
  intro index sketch found
  obtain ⟨laterSketch, laterFound, becomes⟩ := first index sketch found
  obtain ⟨lastSketch, lastFound, more⟩ := second index laterSketch laterFound
  exact ⟨lastSketch, lastFound, becomes.trans more⟩

theorem Keeps.length (keeps : draft.Keeps later) : draft.sketches.length ≤ later.sketches.length := by
  by_contra fewer
  have bound : later.sketches.length < draft.sketches.length := by omega
  obtain ⟨_, found, _⟩ := keeps _ _ (List.getElem?_eq_getElem bound)
  rw [List.getElem?_eq_none (Nat.le_refl _)] at found
  cases found

theorem Keeps.isByReference (keeps : draft.Keeps later) (isMarked : draft.isByReference ref = true) :
    later.isByReference ref = true := by
  unfold Draft.isByReference at isMarked ⊢
  cases ref with
  | declared index =>
      rw [sketch?] at isMarked ⊢
      cases found : draft.sketches[index]? with
      | none =>
          rw [found] at isMarked
          cases isMarked
      | some sketch =>
          rw [found] at isMarked
          obtain ⟨laterSketch, laterFound, becomes⟩ := keeps index sketch found
          rw [laterFound]
          exact becomes.byReference isMarked
  | _ => exact isMarked

theorem Keeps.notByReference (keeps : draft.Keeps later)
    (unmarked : later.isByReference ref = false) : draft.isByReference ref = false := by
  cases isMarked : draft.isByReference ref with
  | false => rfl
  | true => cases unmarked.symm.trans (keeps.isByReference isMarked)

theorem Keeps.grounds (keeps : draft.Keeps later) (grounds : draft.Grounds ref) :
    later.Grounds ref := by
  induction grounds with
  | builtin builtin => exact .builtin builtin
  | applied generic _ ih => exact .applied generic fun unmarked => ih (keeps.notByReference unmarked)
  | declared isSketch hasParts _ ih =>
      obtain ⟨laterSketch, isLater, becomes⟩ := keeps _ _ isSketch
      exact .declared isLater (becomes.parts _ hasParts) fun part member unmarked =>
        ih part member (keeps.notByReference unmarked)

theorem Keeps.shelters (keeps : draft.Keeps later) (shelters : draft.Shelters ref) :
    later.Shelters ref :=
  fun unmarked => keeps.grounds (shelters (keeps.notByReference unmarked))

theorem Keeps.settles (keeps : draft.Keeps later) (settles : draft.Settles index) :
    later.Settles index := by
  obtain ⟨sketch, parts, isSketch, hasParts, tagged, sheltered⟩ := settles
  obtain ⟨laterSketch, isLater, becomes⟩ := keeps _ _ isSketch
  exact ⟨laterSketch, parts, isLater, becomes.parts parts hasParts,
    fun isVariant => tagged (becomes.shape.symm.trans isVariant),
    fun part member => keeps.shelters (sheltered part member)⟩

/-- Parts that are missing stay missing. -/
def Leaves (draft later : Draft) : Prop :=
  forall (index : Nat) (sketch : Sketch), draft.sketches[index]? = some sketch ->
    sketch.parts = none -> exists laterSketch, later.sketches[index]? = some laterSketch ∧
      laterSketch.parts = none

theorem Leaves.trans (first : draft.Leaves later) (second : later.Leaves last) :
    draft.Leaves last := by
  intro index sketch found missing
  obtain ⟨laterSketch, laterFound, laterMissing⟩ := first index sketch found missing
  exact second index laterSketch laterFound laterMissing

/-- A draft comes later than another one: types were marked, and others were
made and got their parts. -/
structure Evolves (draft later : Draft) : Prop where
  keeps : draft.Keeps later
  leaves : draft.Leaves later
  settles : forall index, draft.sketches.length ≤ index -> index < later.sketches.length ->
    later.Settles index
  inProgress : later.inProgress = draft.inProgress

theorem Evolves.of_eq (same : later.sketches = draft.sketches)
    (inProgress : later.inProgress = draft.inProgress) : draft.Evolves later := by
  refine ⟨.of_eq same, fun index sketch found missing => ⟨sketch, same ▸ found, missing⟩, ?_,
    inProgress⟩
  intro index atLeast atMost
  rw [same] at atMost
  exact absurd atMost (Nat.not_lt.mpr atLeast)

theorem Evolves.refl (draft : Draft) : draft.Evolves draft := .of_eq rfl rfl

theorem Evolves.trans (first : draft.Evolves later) (second : later.Evolves last) :
    draft.Evolves last := by
  refine ⟨first.keeps.trans second.keeps, first.leaves.trans second.leaves, ?_,
    second.inProgress.trans first.inProgress⟩
  intro index atLeast atMost
  by_cases early : index < later.sketches.length
  · exact second.keeps.settles (first.settles index atLeast early)
  · exact second.settles index (Nat.le_of_not_lt early) atMost

/-- The sketches after one of them was changed. -/
theorem getElem?_change (draft : Draft) (changed index : Nat) (step : Sketch -> Sketch) :
    (draft.change (.declared changed) step).sketches[index]? =
      if changed = index then (draft.sketches[index]?).map step else draft.sketches[index]? := by
  rw [Draft.change, List.getElem?_modify]
  split <;> simp

theorem length_change (draft : Draft) (ref : Ref) (step : Sketch -> Sketch) :
    (draft.change ref step).sketches.length = draft.sketches.length := by
  cases ref with
  | declared index => exact List.length_modify step draft.sketches index
  | _ => rfl

/-- A step that changes one sketch as sketches may change. -/
theorem Keeps.change {changed : Nat} {step : Sketch -> Sketch}
    (becomes : forall sketch, draft.sketches[changed]? = some sketch ->
      sketch.Becomes (step sketch)) : draft.Keeps (draft.change (.declared changed) step) := by
  intro index sketch found
  rw [getElem?_change, found]
  by_cases same : changed = index
  · subst same
    exact ⟨step sketch, if_pos rfl, becomes sketch found⟩
  · exact ⟨sketch, if_neg same, .refl sketch⟩

/-- More marks of one type. -/
theorem Evolves.mark (draft : Draft) (ref : Ref) {mark : TypeFlags -> TypeFlags}
    (marks : forall flags : TypeFlags, flags.contains TypeFlags.storedByReference = true ->
      (mark flags).contains TypeFlags.storedByReference = true) :
    draft.Evolves (draft.change ref fun sketch => { sketch with flags := mark sketch.flags }) := by
  cases ref with
  | declared changed =>
      refine ⟨.change fun sketch _ => ⟨rfl, fun _ => id, marks sketch.flags⟩, ?_, ?_, rfl⟩
      · intro index sketch found missing
        rw [getElem?_change, found]
        split
        · exact ⟨_, rfl, missing⟩
        · exact ⟨sketch, rfl, missing⟩
      · intro index atLeast atMost
        rw [length_change] at atMost
        exact absurd atMost (Nat.not_lt.mpr atLeast)
  | _ => exact .refl draft

/-- A declared type that is marked as stored by reference is sheltered. -/
theorem shelters_marked (draft : Draft) {index : Nat} (bound : index < draft.sketches.length) :
    Draft.Shelters (draft.change (.declared index) fun sketch =>
      { sketch with flags := sketch.flags.insert TypeFlags.storedByReference })
      (.declared index) := by
  intro unmarked
  rw [isByReference, sketch?, getElem?_change, if_pos rfl, List.getElem?_eq_getElem bound] at unmarked
  cases (TypeFlags.contains_byReference _).1.symm.trans unmarked

/-- A definition is of a sheltered type, or it is in progress and of a declared
type. -/
def Sound (draft : Draft) : Prop :=
  forall reference ref, draft.definitions.lookup reference = some ref ->
    draft.Shelters ref ∨
      reference ∈ draft.inProgress ∧ exists index, ref = .declared index ∧ index < draft.sketches.length

theorem Keeps.sound (keeps : draft.Keeps later) (definitions : later.definitions = draft.definitions)
    (inProgress : later.inProgress = draft.inProgress) (sound : draft.Sound) : later.Sound := by
  intro reference ref found
  rw [definitions] at found
  rw [inProgress]
  cases sound reference ref found with
  | inl shelters => exact .inl (keeps.shelters shelters)
  | inr isDeclared =>
      obtain ⟨member, index, same, bound⟩ := isDeclared
      exact .inr ⟨member, index, same, Nat.lt_of_lt_of_le bound keeps.length⟩

/-- Which names are taken does not count. -/
theorem Sound.renamed (sound : draft.Sound) (names : List String) :
    Draft.Sound { draft with names := names } := by
  have keeps : draft.Keeps { draft with names := names } := .of_eq rfl
  exact keeps.sound rfl rfl sound

/-- One more definition. -/
theorem Sound.define (sound : draft.Sound) {reference : String}
    (good : draft.Shelters ref ∨
      reference ∈ draft.inProgress ∧ exists index, ref = .declared index ∧ index < draft.sketches.length) :
    Draft.Sound { draft with definitions := (reference, ref) :: draft.definitions } := by
  have keeps : draft.Keeps { draft with definitions := (reference, ref) :: draft.definitions } :=
    .of_eq rfl
  intro other otherRef found
  rw [List.lookup_cons] at found
  split at found
  next same =>
    cases found
    cases eq_of_beq same
    exact good.imp_left keeps.shelters
  next => exact (sound other otherRef found).imp_left keeps.shelters

end Draft

/-- What drafting ends well with. -/
def Drafts {Result : Type} (plan : DraftM Result) (draft : Draft) (good : Result -> Draft -> Prop) :
    Prop :=
  forall drafted, plan draft = .ok drafted -> good drafted.result drafted.draft

section Combinators

variable {Result Next : Type} {plan : DraftM Result} {draft : Draft}
  {good weaker : Result -> Draft -> Prop}

theorem Drafts.andThen {rest : Result -> DraftM Next} {nextGood : Next -> Draft -> Prop}
    (drafts : Drafts plan draft good)
    (continued : forall result next, good result next -> Drafts (rest result) next nextGood) :
    Drafts (plan >>= rest) draft nextGood := by
  intro drafted ends
  obtain ⟨before, last, begins, finishes, rfl⟩ := DraftM.of_bind_ok ends
  exact continued _ _ (drafts before begins) last finishes

theorem Drafts.imp (drafts : Drafts plan draft good)
    (onGood : forall result next, good result next -> weaker result next) :
    Drafts plan draft weaker :=
  fun drafted ends => onGood _ _ (drafts drafted ends)

theorem drafts_of_ok {result : Result} {next : Draft} {cost : Nat}
    (ends : plan draft = .ok ⟨result, next, cost⟩) (isGood : good result next) :
    Drafts plan draft good := by
  intro drafted same
  cases ends.symm.trans same
  exact isGood

theorem drafts_pure {result : Result} (isGood : good result draft) :
    Drafts (pure result) draft good :=
  drafts_of_ok rfl isGood

theorem drafts_reject (pointer : String) (flaw : Flaw) :
    Drafts (draftReject pointer flaw) draft good :=
  fun _ never => nomatch never

theorem drafts_room (cost : Nat) : Drafts (draftRoom cost) draft fun _ next => draft = next :=
  drafts_of_ok rfl rfl

theorem drafts_query (question : Draft -> Result) :
    Drafts (draftQuery question) draft fun result next => question draft = result ∧ draft = next :=
  drafts_of_ok rfl ⟨rfl, rfl⟩

end Combinators

/-! ### Steps -/

section Steps

variable {draft : Draft} {ref : Ref}

/-- A sheltered type was drafted. -/
def Shapes (draft : Draft) (ref : Ref) (next : Draft) : Prop :=
  next.Sound ∧ draft.Evolves next ∧ next.Shelters ref

/-- Nodes are drafted as sheltered types.  A node that is a definition is
drafted while the definition is in progress. -/
def ShapesNodes (drafter : NodeDrafter) : Prop :=
  forall {draft : Draft} (node : Json) (pointer name : String) (definition : Option String),
    draft.Sound -> (forall reference, definition = some reference -> reference ∈ draft.inProgress) ->
    Drafts (drafter node pointer name definition) draft (Shapes draft)

/-- Sheltered parts were drafted. -/
def ShapesParts (draft : Draft) (parts : List Part) (next : Draft) : Prop :=
  next.Sound ∧ draft.Evolves next ∧ forall part, part ∈ parts -> next.Shelters part.type

theorem Shapes.after {middle next : Draft} (shapes : Shapes middle ref next)
    (evolves : draft.Evolves middle) : Shapes draft ref next :=
  ⟨shapes.1, evolves.trans shapes.2.1, shapes.2.2⟩

/-- An instance of a generic builtin at a sheltered type is grounded. -/
theorem drafts_instance (sound : draft.Sound) (generic : Builtin) (shelters : draft.Shelters ref) :
    Drafts (draftInstance generic ref) draft (Shapes draft) :=
  drafts_of_ok rfl ⟨sound, .refl draft, fun _ => .applied generic shelters⟩

theorem drafts_wrapped (sound : draft.Sound) (shelters : draft.Shelters ref) (flags : FieldFlags) :
    Drafts (draftWrapped ref flags) draft (Shapes draft) := by
  have outer (inner : Ref) (next : Draft) (shapes : Shapes draft inner next) :
      Drafts (if flags.contains FieldFlags.required then pure inner else
        draftInstance .option inner) next (Shapes draft) := by
    obtain ⟨sound, evolves, shelters⟩ := shapes
    split
    · exact drafts_pure ⟨sound, evolves, shelters⟩
    · exact (drafts_instance sound .option shelters).imp fun _ _ shapes => shapes.after evolves
  unfold draftWrapped
  cases flags.contains FieldFlags.canFail with
  | false =>
      have inner : Drafts (pure ref) draft (Shapes draft) :=
        drafts_pure ⟨sound, .refl draft, shelters⟩
      exact inner.andThen outer
  | true => exact (drafts_instance sound .result shelters).andThen outer

/-- The name in generated declarations says nothing about the type. -/
theorem drafts_companion (part : Part) (ident : String) (taken : List String) :
    Drafts (draftCompanion part ident taken) draft
      fun answer next => answer.1.type = part.type ∧ draft = next := by
  unfold draftCompanion
  dsimp only
  split
  · exact drafts_pure ⟨rfl, rfl⟩
  · exact (drafts_room _).andThen fun _ _ same => drafts_pure ⟨rfl, same⟩

/-- A sheltered part was drafted. -/
def ShapesPart (draft : Draft) (answer : Part × List String) (next : Draft) : Prop :=
  Shapes draft answer.1.type next

/-- A part and the parts after it. -/
theorem ShapesPart.cons {answer : Part × List String} {parts : List Part} {next last : Draft}
    (shapes : ShapesPart draft answer next) (others : ShapesParts next parts last) :
    ShapesParts draft (answer.1 :: parts) last := by
  obtain ⟨_, evolves, shelters⟩ := shapes
  obtain ⟨sound, more, sheltered⟩ := others
  exact ⟨sound, evolves.trans more,
    List.forall_mem_cons.mpr ⟨more.keeps.shelters shelters, sheltered⟩⟩

variable {drafter : NodeDrafter}

theorem drafts_property (drafts : ShapesNodes drafter) (sound : draft.Sound) (base owner : String)
    (required taken : List String) (property : String × Json) :
    Drafts (draftProperty drafter base owner required taken property) draft (ShapesPart draft) := by
  unfold draftProperty
  refine (drafts property.2 _ _ none sound nofun).andThen ?_
  rintro ref first ⟨firstSound, firstEvolves, firstShelters⟩
  refine (drafts_wrapped firstSound firstShelters _).andThen ?_
  rintro stored second shapes
  refine (drafts_room _).andThen ?_
  rintro _ _ rfl
  refine (drafts_companion _ _ _).imp ?_
  rintro answer next ⟨sameType, rfl⟩
  unfold ShapesPart
  rw [sameType]
  exact shapes.after firstEvolves

theorem drafts_properties (drafts : ShapesNodes drafter) (base owner : String)
    (required : List String) (properties : List (String × Json)) (taken : List String)
    (sound : draft.Sound) :
    Drafts (draftProperties drafter base owner required properties taken) draft
      (ShapesParts draft) := by
  induction properties generalizing draft taken with
  | nil => exact drafts_pure ⟨sound, .refl draft, nofun⟩
  | cons property rest ih =>
      unfold draftProperties
      refine (drafts_property drafts sound base owner required taken property).andThen ?_
      intro answer next shapes
      refine (ih answer.2 shapes.1).andThen ?_
      intro parts last others
      exact drafts_pure (shapes.cons others)

theorem drafts_propertyParts (drafts : ShapesNodes drafter) (sound : draft.Sound) (node : Json)
    (pointer owner : String) (required : List String) :
    Drafts (draftPropertyParts drafter node pointer owner required) draft (ShapesParts draft) := by
  unfold draftPropertyParts
  dsimp only
  cases node.member? "properties" with
  | none => exact drafts_pure ⟨sound, .refl draft, nofun⟩
  | some properties =>
      cases properties with
      | object properties => exact drafts_properties drafts _ _ _ properties [] sound
      | _ => exact drafts_reject _ _

theorem drafts_alternative (drafts : ShapesNodes drafter) (sound : draft.Sound)
    (pointer owner : String) (index : Nat) (taken : List String) (alternative : Json) :
    Drafts (draftAlternative drafter pointer owner index taken alternative) draft
      (ShapesPart draft) := by
  unfold draftAlternative
  refine (drafts alternative _ _ none sound nofun).andThen ?_
  rintro ref first shapes
  refine (drafts_query fun draft => draft.nameOf ref).andThen ?_
  rintro label _ ⟨-, rfl⟩
  refine (drafts_room _).andThen ?_
  rintro _ _ rfl
  refine (drafts_companion _ _ _).imp ?_
  rintro answer next ⟨sameType, rfl⟩
  unfold ShapesPart
  rw [sameType]
  exact shapes

theorem drafts_alternatives (drafts : ShapesNodes drafter) (pointer owner : String)
    (alternatives : List Json) (index : Nat) (taken : List String) (sound : draft.Sound) :
    Drafts (draftAlternatives drafter pointer owner alternatives index taken) draft
      fun parts next => ShapesParts draft parts next ∧ parts.length = alternatives.length := by
  induction alternatives generalizing draft index taken with
  | nil => exact drafts_pure ⟨⟨sound, .refl draft, nofun⟩, rfl⟩
  | cons alternative rest ih =>
      unfold draftAlternatives
      refine (drafts_alternative drafts sound pointer owner index taken alternative).andThen ?_
      intro answer next shapes
      refine (ih (index + 1) answer.2 shapes.1).andThen ?_
      rintro parts last ⟨others, length⟩
      exact drafts_pure ⟨shapes.cons others, congrArg (· + 1) length⟩

/-! ### Declared types -/

/-- A declared type was made, and its parts are missing. -/
structure Opens (draft : Draft) (shape : Shape) (next : Draft) : Prop where
  sound : next.Sound
  keeps : draft.Keeps next
  leaves : draft.Leaves next
  inProgress : next.inProgress = draft.inProgress
  length : next.sketches.length = draft.sketches.length + 1
  missing : exists sketch, next.sketches[draft.sketches.length]? = some sketch ∧
    sketch.shape = shape ∧ sketch.parts = none

theorem Opens.evolve {shape : Shape} {next last : Draft} (opens : Opens draft shape next)
    (evolves : next.Evolves last) (sound : last.Sound)
    (length : last.sketches.length = next.sketches.length) : Opens draft shape last := by
  obtain ⟨sketch, found, isShape, missing⟩ := opens.missing
  obtain ⟨keptSketch, keptFound, becomes⟩ := evolves.keeps _ sketch found
  obtain ⟨lastSketch, lastFound, lastMissing⟩ := evolves.leaves _ sketch found missing
  cases keptFound.symm.trans lastFound
  exact ⟨sound, opens.keeps.trans evolves.keeps, opens.leaves.trans evolves.leaves,
    evolves.inProgress.trans opens.inProgress, length.trans opens.length,
    keptSketch, keptFound, becomes.shape.trans isShape, lastMissing⟩

theorem nodeMarks_byReference (node : Json) (flags : TypeFlags)
    (marked : flags.contains TypeFlags.storedByReference = true) :
    (nodeMarks node flags).contains TypeFlags.storedByReference = true := by
  have kept := (TypeFlags.contains_byReference flags).2 marked
  have inserted := TypeFlags.contains_byReference flags
  have both := (TypeFlags.contains_byReference (flags.insert TypeFlags.storedByReference)).2 inserted.1
  unfold nodeMarks
  cases isSet node "x-by-reference" with
  | false =>
      cases isSet node "x-non-exhaustive" with
      | false => exact marked
      | true => exact kept
  | true =>
      cases isSet node "x-non-exhaustive" with
      | false => exact inserted.1
      | true => exact both

/-- A declared type is made, entered and marked before its parts are known. -/
theorem drafts_opened {Next : Type} (sound : draft.Sound) (title : String) (shape : Shape)
    {definition : Option String}
    (isDefinition : forall reference, definition = some reference -> reference ∈ draft.inProgress)
    (node : Json) {plan : String -> Ref -> DraftM Next} {good : Next -> Draft -> Prop}
    (drafts : forall name next, Opens draft shape next ->
      Drafts (plan name (.declared draft.sketches.length)) next good) :
    Drafts (do
      let name ← draftName title
      let ref ← draftDeclared name shape
      draftRegister definition ref
      draftMark ref (nodeMarks node)
      plan name ref) draft good := by
  have names : Drafts (draftName title) draft fun _ next => next.Sound ∧ draft.Evolves next ∧
      next.sketches.length = draft.sketches.length :=
    drafts_of_ok rfl ⟨sound.renamed _, .of_eq rfl rfl, rfl⟩
  refine names.andThen ?_
  rintro name named ⟨namedSound, namedEvolves, namedLength⟩
  have makes : Drafts (draftDeclared name shape) named fun ref next =>
      ref = .declared draft.sketches.length ∧ Opens draft shape next := by
    refine drafts_of_ok rfl ⟨congrArg Ref.declared namedLength, ?_⟩
    have keeps : named.Keeps { named with
        sketches := named.sketches ++ [⟨name, shape, FlagSet.empty, none⟩] } := by
      intro index sketch found
      obtain ⟨bound, _⟩ := List.getElem?_eq_some_iff.mp found
      exact ⟨sketch, (List.getElem?_append_left bound).trans found, .refl sketch⟩
    refine ⟨keeps.sound rfl rfl namedSound, namedEvolves.keeps.trans keeps, ?_,
      namedEvolves.inProgress, ?_, ⟨name, shape, FlagSet.empty, none⟩, ?_, rfl, rfl⟩
    · refine namedEvolves.leaves.trans fun index sketch found missing => ?_
      obtain ⟨bound, _⟩ := List.getElem?_eq_some_iff.mp found
      exact ⟨sketch, (List.getElem?_append_left bound).trans found, missing⟩
    · rw [List.length_append, namedLength]
      rfl
    · rw [← namedLength]
      exact List.getElem?_concat_length
  refine makes.andThen ?_
  rintro _ opened ⟨rfl, opens⟩
  have registers : Drafts (draftRegister definition (.declared draft.sketches.length)) opened
      fun _ next => Opens draft shape next := by
    cases definition with
    | none => exact drafts_pure opens
    | some reference =>
        have member : reference ∈ opened.inProgress := by
          rw [opens.inProgress]
          exact isDefinition reference rfl
        have bound : draft.sketches.length < opened.sketches.length := by
          rw [opens.length]
          exact Nat.lt_succ_self _
        exact drafts_of_ok rfl (opens.evolve (.of_eq rfl rfl)
          (opens.sound.define (.inr ⟨member, _, rfl, bound⟩)) rfl)
  refine registers.andThen ?_
  rintro _ registered isRegistered
  have evolves := Draft.Evolves.mark registered (.declared draft.sketches.length)
    (nodeMarks_byReference node)
  have marks : Drafts (draftMark (.declared draft.sketches.length) (nodeMarks node)) registered
      fun _ next => Opens draft shape next :=
    drafts_of_ok rfl (isRegistered.evolve evolves
      (evolves.keeps.sound rfl rfl isRegistered.sound) (Draft.length_change _ _ _))
  exact marks.andThen fun _ next opens => drafts name next opens

/-- The parts of a declared type are missing until it is closed. -/
theorem Opens.exists_missing {shape : Shape} {next last : Draft} (opens : Opens draft shape next)
    (evolves : next.Evolves last) : exists sketch,
      last.sketches[draft.sketches.length]? = some sketch ∧ sketch.shape = shape ∧
        sketch.parts = none := by
  obtain ⟨sketch, found, isShape, missing⟩ := opens.missing
  obtain ⟨lastSketch, lastFound, lastMissing⟩ := evolves.leaves _ sketch found missing
  obtain ⟨keptSketch, keptFound, becomes⟩ := evolves.keeps _ sketch found
  cases lastFound.symm.trans keptFound
  exact ⟨lastSketch, lastFound, becomes.shape.trans isShape, lastMissing⟩

/-- Types stay as they are when parts are given to one that has none. -/
theorem Draft.Keeps.close {index : Nat} {sketch : Sketch}
    (found : draft.sketches[index]? = some sketch) (missing : sketch.parts = none)
    (parts : List Part) : draft.Keeps (draft.change (.declared index) fun sketch =>
      { sketch with parts := some parts }) := by
  refine .change fun other otherFound => ⟨rfl, fun known hasParts => ?_, id⟩
  cases found.symm.trans otherFound
  cases missing.symm.trans hasParts

/-- A declared type is grounded once it has sheltered parts. -/
theorem Opens.close {shape : Shape} {next last : Draft} (opens : Opens draft shape next)
    {parts : List Part} (shapes : ShapesParts next parts last)
    (tagged : shape = .variant -> exists first others, parts = tagPart :: first :: others) :
    Drafts (do
      draftParts (.declared draft.sketches.length) parts
      return Ref.declared draft.sketches.length) last (Shapes draft) := by
  obtain ⟨sound, evolves, sheltered⟩ := shapes
  obtain ⟨lastSketch, lastFound, isShape, lastMissing⟩ := opens.exists_missing evolves
  have keeps := Draft.Keeps.close lastFound lastMissing parts
  have settles : Draft.Settles (last.change (.declared draft.sketches.length) fun sketch =>
      { sketch with parts := some parts }) draft.sketches.length := by
    refine ⟨{ lastSketch with parts := some parts }, parts, ?_, rfl,
      fun isVariant => tagged (isShape.symm.trans isVariant),
      fun part member => keeps.shelters (sheltered part member)⟩
    rw [Draft.getElem?_change, if_pos rfl, lastFound]
    rfl
  have closes : Drafts (draftParts (.declared draft.sketches.length) parts) last
      fun _ closed => Shapes draft (.declared draft.sketches.length) closed := by
    refine drafts_of_ok rfl ⟨keeps.sound rfl rfl sound, ⟨?_, ?_, ?_, ?_⟩, fun _ => settles.grounds⟩
    · exact (opens.keeps.trans evolves.keeps).trans keeps
    · -- Only the type that is closed gets parts.
      intro index other otherFound otherMissing
      obtain ⟨laterOther, laterFound, laterMissing⟩ :=
        opens.leaves.trans evolves.leaves index other otherFound otherMissing
      have bound := (List.getElem?_eq_some_iff.mp otherFound).1
      refine ⟨laterOther, ?_, laterMissing⟩
      rw [Draft.getElem?_change, if_neg (Nat.ne_of_gt bound)]
      exact laterFound
    · intro index atLeast atMost
      rw [Draft.length_change] at atMost
      by_cases same : index = draft.sketches.length
      · exact same ▸ settles
      · refine keeps.settles (evolves.settles index ?_ atMost)
        rw [opens.length]
        omega
    · exact evolves.inProgress.trans opens.inProgress
  exact closes.andThen fun _ _ shapes => drafts_pure shapes

/-! ### Nodes -/

variable {drafter : NodeDrafter} {definition : Option String}

theorem drafts_struct (drafts : ShapesNodes drafter) (sound : draft.Sound) (node : Json)
    (pointer title : String)
    (isDefinition : forall reference, definition = some reference -> reference ∈ draft.inProgress) :
    Drafts (draftStruct drafter node pointer title definition) draft (Shapes draft) := by
  refine drafts_opened sound title .struct isDefinition node ?_
  intro name next opens
  have requires : Drafts (draftRequired node pointer) next fun _ last => next = last := by
    unfold draftRequired
    cases node.member? "required" with
    | none => exact drafts_pure rfl
    | some names =>
        cases names with
        | array names =>
            dsimp only
            cases texts? names with
            | none => exact drafts_reject _ _
            | some names => exact drafts_pure rfl
        | _ => exact drafts_reject _ _
  refine requires.andThen ?_
  rintro required _ rfl
  refine (drafts_propertyParts drafts opens.sound node pointer name required).andThen ?_
  intro parts last shapes
  exact opens.close shapes nofun

theorem drafts_object (drafts : ShapesNodes drafter) (sound : draft.Sound) (node : Json)
    (pointer title : String)
    (isDefinition : forall reference, definition = some reference -> reference ∈ draft.inProgress) :
    Drafts (draftObject drafter node pointer title definition) draft (Shapes draft) := by
  have struct := drafts_struct drafts sound node pointer title isDefinition
  unfold draftObject
  cases node.member? "properties" with
  | some properties => exact struct
  | none =>
      cases node.member? "additionalProperties" with
      | none => exact struct
      | some values =>
          cases values with
          | object values =>
              refine (drafts (.object values) _ _ none sound nofun).andThen ?_
              rintro value next ⟨nextSound, evolves, shelters⟩
              exact (drafts_instance nextSound .map shelters).imp fun _ _ shapes =>
                shapes.after evolves
          | _ => exact struct

theorem drafts_variant (drafts : ShapesNodes drafter) (sound : draft.Sound)
    (node alternatives : Json) (pointer title : String)
    (isDefinition : forall reference, definition = some reference -> reference ∈ draft.inProgress) :
    Drafts (draftVariant drafter node alternatives pointer title definition) draft
      (Shapes draft) := by
  unfold draftVariant
  cases alternatives with
  | array alternatives =>
      dsimp only
      split
      · exact drafts_reject _ _
      · next counted =>
          refine drafts_opened sound title .variant isDefinition node ?_
          intro name next opens
          refine (drafts_room _).andThen ?_
          rintro _ _ rfl
          refine (drafts_alternatives drafts pointer name alternatives 0 [] opens.sound).andThen ?_
          rintro parts last ⟨⟨lastSound, evolves, sheltered⟩, length⟩
          have tagged : ShapesParts next (tagPart :: parts) last :=
            ⟨lastSound, evolves, List.forall_mem_cons.mpr ⟨fun _ => .builtin .tag, sheltered⟩⟩
          refine opens.close tagged fun _ => ?_
          have nonempty : alternatives ≠ [] := fun isEmpty =>
            counted (Or.inl (List.isEmpty_iff.mpr isEmpty))
          obtain ⟨first, others, rfl⟩ := List.exists_cons_of_length_pos
            (length ▸ List.length_pos_iff.mpr nonempty)
          exact ⟨first, others, rfl⟩
  | _ => exact drafts_reject _ _

theorem drafts_array (drafts : ShapesNodes drafter) (sound : draft.Sound) (node : Json)
    (pointer title : String) :
    Drafts (draftArray drafter node pointer title) draft (Shapes draft) := by
  unfold draftArray
  cases node.member? "items" with
  | none => exact drafts_reject _ _
  | some items =>
      refine (drafts items _ _ none sound nofun).andThen ?_
      rintro element next ⟨nextSound, evolves, shelters⟩
      exact (drafts_instance nextSound .array shelters).imp fun _ _ shapes => shapes.after evolves

theorem drafts_typed (drafts : ShapesNodes drafter) (sound : draft.Sound) (node : Json)
    (pointer title typeName : String)
    (isDefinition : forall reference, definition = some reference -> reference ∈ draft.inProgress) :
    Drafts (draftTyped drafter node pointer title definition typeName) draft (Shapes draft) := by
  have scalar (builtin : Builtin) : Drafts (pure (Ref.builtin builtin)) draft (Shapes draft) :=
    drafts_pure ⟨sound, .refl draft, fun _ => .builtin builtin⟩
  unfold draftTyped
  split
  · exact drafts_object drafts sound node pointer title isDefinition
  · exact drafts_array drafts sound node pointer title
  · exact scalar .string
  · exact scalar .integer
  · exact scalar .number
  · exact scalar .boolean
  · exact scalar .unit
  · exact drafts_reject _ _

theorem drafts_typeName (node : Json) (pointer : String) :
    Drafts (draftTypeName node pointer) draft fun _ next => draft = next := by
  unfold draftTypeName
  cases node.member? "type" with
  | none =>
      dsimp only
      split
      · exact drafts_pure rfl
      · exact drafts_reject _ _
  | some name =>
      cases name with
      | string name => exact drafts_pure rfl
      | _ => exact drafts_reject _ _

/-- A definition is entered with a sheltered type. -/
theorem drafts_definition (drafts : ShapesNodes drafter) (sound : draft.Sound) {reference : String}
    (target : Json) (pointer name : String) :
    Drafts (do
      draftStep fun draft => { draft with inProgress := reference :: draft.inProgress }
      let ref ← drafter target pointer name (some reference)
      draftStep fun draft => { draft with inProgress := draft.inProgress.erase reference }
      draftDefine reference ref
      return ref) draft (Shapes draft) := by
  have enters : Drafts
      (draftStep fun draft => { draft with inProgress := reference :: draft.inProgress }) draft
      fun _ next => next.Sound ∧ draft.Keeps next ∧ draft.Leaves next ∧
        next.sketches.length = draft.sketches.length ∧
        next.inProgress = reference :: draft.inProgress := by
    have evolves : draft.Evolves draft := .refl draft
    have keeps : draft.Keeps { draft with inProgress := reference :: draft.inProgress } := .of_eq rfl
    refine drafts_of_ok rfl ⟨?_, keeps, evolves.leaves, rfl, rfl⟩
    intro other ref found
    refine (sound other ref found).imp keeps.shelters ?_
    rintro ⟨member, isDeclared⟩
    exact ⟨List.mem_cons_of_mem reference member, isDeclared⟩
  refine enters.andThen ?_
  rintro _ entered ⟨enteredSound, keeps, leaves, length, inProgress⟩
  have isDefinition : forall other, some reference = some other -> other ∈ entered.inProgress := by
    rintro _ ⟨rfl⟩
    rw [inProgress]
    exact List.mem_cons_self
  refine (drafts target pointer name (some reference) enteredSound isDefinition).andThen ?_
  rintro ref next ⟨nextSound, evolves, shelters⟩
  have sameProgress : next.inProgress.erase reference = draft.inProgress := by
    rw [evolves.inProgress, inProgress, List.erase_cons_head]
  have done : next.Keeps { next with
      definitions := (reference, ref) :: next.definitions,
      inProgress := next.inProgress.erase reference } := .of_eq rfl
  refine drafts_of_ok rfl ⟨?_, ⟨(keeps.trans evolves.keeps).trans done, ?_, ?_, sameProgress⟩,
    done.shelters shelters⟩
  · intro other otherRef found
    rw [List.lookup_cons] at found
    split at found
    next same =>
      cases found
      exact .inl (done.shelters shelters)
    next different =>
      refine (nextSound other otherRef found).imp done.shelters ?_
      rintro ⟨member, isDeclared⟩
      have apart : other ≠ reference := fun same => by
        rw [same, beq_self_eq_true] at different
        cases different
      exact ⟨(List.mem_erase_of_ne apart).mpr member, isDeclared⟩
  · exact leaves.trans evolves.leaves
  · intro index atLeast atMost
    rw [← length] at atLeast
    exact done.settles (evolves.settles index atLeast atMost)

/-- A definition that is met inside of itself is stored by reference. -/
theorem drafts_markDefinition (sound : draft.Sound) {reference : String}
    (found : draft.definitions.lookup reference = some ref) :
    Drafts (do
      draftMark ref fun flags => flags.insert TypeFlags.storedByReference
      return ref) draft (Shapes draft) := by
  have evolves := Draft.Evolves.mark draft ref
    (fun flags _ => (TypeFlags.contains_byReference flags).1)
  have marks : Drafts (draftMark ref fun flags => flags.insert TypeFlags.storedByReference) draft
      fun _ next => Shapes draft ref next := by
    have definitions : (draft.change ref fun sketch => { sketch with
        flags := sketch.flags.insert TypeFlags.storedByReference }).definitions =
          draft.definitions := by
      cases ref <;> rfl
    refine drafts_of_ok rfl ⟨evolves.keeps.sound definitions evolves.inProgress sound, evolves, ?_⟩
    cases sound reference ref found with
    | inl shelters => exact evolves.keeps.shelters shelters
    | inr isOpen =>
        obtain ⟨_, index, rfl, bound⟩ := isOpen
        exact draft.shelters_marked bound
  exact marks.andThen fun _ _ shapes => drafts_pure shapes

theorem drafts_reference (drafts : ShapesNodes drafter) (sound : draft.Sound) (document : Json)
    (pointer : String) (reference : Json) :
    Drafts (draftReference drafter document pointer reference) draft (Shapes draft) := by
  unfold draftReference
  cases reference with
  | string reference =>
      dsimp only
      cases definitionName? reference with
      | none => exact drafts_reject _ _
      | some name =>
          refine (drafts_query _).andThen ?_
          rintro found _ ⟨isFound, rfl⟩
          cases found with
          | some ref =>
              refine (drafts_query _).andThen ?_
              rintro answer _ ⟨isAnswer, rfl⟩
              cases answer with
              | false =>
                  refine drafts_pure ⟨sound, .refl draft, ?_⟩
                  cases sound reference ref isFound with
                  | inl shelters => exact shelters
                  | inr isOpen => cases isAnswer.symm.trans (List.contains_iff_mem.mpr isOpen.1)
              | true => exact drafts_markDefinition sound isFound
          | none =>
              refine (drafts_query _).andThen ?_
              rintro answer _ ⟨isAnswer, rfl⟩
              cases answer with
              | true => exact drafts_reject _ _
              | false =>
                  cases Json.Pointer.resolve? (String.ofList (reference.toList.drop 1)) document with
                  | none => exact drafts_reject _ _
                  | some target => exact drafts_definition drafts sound target _ name
  | _ => exact drafts_reject _ _

theorem drafts_node (drafts : ShapesNodes drafter) (document : Json) :
    ShapesNodes (draftNode drafter document) := by
  intro draft node pointer name definition sound isDefinition
  unfold draftNode
  cases node with
  | object members =>
      dsimp only
      cases Json.member? (.object members) "$ref" with
      | some reference => exact drafts_reference drafts sound document pointer reference
      | none =>
          dsimp only
          cases Json.member? (.object members) "oneOf" with
          | some alternatives => exact drafts_variant drafts sound _ alternatives _ _ isDefinition
          | none =>
              cases Json.member? (.object members) "anyOf" with
              | some alternatives =>
                  exact drafts_variant drafts sound _ alternatives _ _ isDefinition
              | none =>
                  refine (drafts_typeName _ pointer).andThen ?_
                  rintro typeName _ rfl
                  exact drafts_typed drafts sound _ pointer _ typeName isDefinition
  | _ => exact drafts_reject _ _

theorem drafts_within (document : Json) (levels : Nat) :
    ShapesNodes (draftWithin document levels) := by
  induction levels with
  | zero =>
      intro draft node pointer name definition _ _
      exact drafts_reject _ _
  | succ levels ih => exact drafts_node ih document

end Steps

end TextSchema
end PackedJson
