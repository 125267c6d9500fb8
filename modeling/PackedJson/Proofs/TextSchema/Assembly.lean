import PackedJson.Proofs.TextSchema.Planning

namespace PackedJson
namespace TextSchema

open Heap Builder Layout

/-!
The types of a target before and after they are laid out.

Compiling a target assembles its types first, in accord with the draft of the
text schema, and then lays them out.
-/

/-- The types of one target before any of them is laid out. -/
def assembleTarget (document : Json) (rootName : String) (slice : Option String)
    (target : Target) : CompileM Context := do
  modify fun state => ⟨state.builder, [], [], []⟩
  let context ← build (Builder.newContext target)
  let root ← compileWithin context document (nestingBound document) document "" rootName none
  let stored ← build (Builder.storeSlice slice)
  return { context with root := some root, slice := stored }

/-- A target is assembled and then laid out. -/
theorem compileTarget_eq (document : Json) (rootName : String) (slice : Option String)
    (target : Target) : compileTarget document rootName slice target = do
      let context ← assembleTarget document rootName slice target
      build (Layout.arrangeContext context target)
      return context := by
  simp only [compileTarget, assembleTarget, bind_assoc, pure_bind]

/-- The draft of a target: its builtins, the types of the text schema, and the
reference to a part of documents. -/
def draftTarget (document : Json) (rootName : String) (slice : Option String) : DraftM Ref := do
  draftRoom contextCost
  let ref ← draftWithin document (nestingBound document) document "" rootName none
  draftRoom (textCost (slice.getD ""))
  return ref

/-- The types of a target have been assembled: they realize a complete draft. -/
structure Assembled (setting : Setting) (draft : Draft) (root : Ref) (ids : List TypeId)
    (heap : Heap) (state : State) (rootId : TypeId) (context : Context) : Prop where
  realizes : Realizes setting draft ids heap state
  complete : draft.Complete root
  finds : (siteOf setting ids state).Finds root rootId
  context : exists slice, context = { setting.context with root := some rootId, slice := slice }

/-- Assembling a target ends well with its types and the text of its slice. -/
def Assembles (old : Heap) (target : Target) (slice : String) (context : Context) (state : State)
    (root : Ref) (draft : Draft) : Prop :=
  exists setting ids heap rootId, setting.old = old ∧ setting.target = target ∧
    Assembled setting draft root ids heap state rootId context ∧ HasText heap context.slice slice

/-- What drafts end well with holds of what follows them. -/
theorem Follows.drafts {Result Planned : Type} {step : CompileM Result} {state : State}
    {plan : DraftM Planned} {draft : Draft} {good : Result -> State -> Planned -> Draft -> Prop}
    {also : Planned -> Draft -> Prop} (follows : Follows step state plan draft good)
    (drafts : Drafts plan draft also) :
    Follows step state plan draft fun result after planned next =>
      good result after planned next ∧ also planned next :=
  Run.imp follows
    (fun _ _ ⟨drafted, ends, room, isGood⟩ => ⟨drafted, ends, room, isGood, drafts drafted ends⟩)
    fun _ _ => id

/-- Nothing is drafted at the start. -/
theorem Realizes.start {setting : Setting} {heap : Heap} {builder : Builder}
    (tabled : Tabled setting.old [setting.context.textKey] heap builder)
    (founded : Founded setting.old heap builder.instances setting.target setting.context) :
    Realizes setting Draft.empty [] heap ⟨builder, [], [], []⟩ :=
  ⟨tabled, founded, rfl, rfl, .nil, nofun, .nil, List.nodup_nil, List.nodup_nil⟩

/-- Assembling a target follows its draft. -/
theorem follows_assembleTarget {old : Heap} {state : State}
    (holds : old.Holds state.builder.arena) (known : Known old state.builder.instances)
    (document : Json) (rootName : String) (slice : Option String) (target : Target) :
    Follows (assembleTarget document rootName slice target) state
      (draftTarget document rootName slice) Draft.empty
      (Assembles old target (slice.getD "")) := by
  unfold assembleTarget
  refine run_bind.mpr ?_
  change Follows (do
    let context ← build (Builder.newContext target)
    let root ← compileWithin context document (nestingBound document) document "" rootName none
    let stored ← build (Builder.storeSlice slice)
    return { context with root := some root, slice := stored }) ⟨state.builder, [], [], []⟩
    (draftTarget document rootName slice) Draft.empty (Assembles old target (slice.getD ""))
  have founds : Follows (build (Builder.newContext target)) ⟨state.builder, [], [], []⟩
      (draftRoom contextCost) Draft.empty _ := follows_room (builds_newContext target holds known)
  refine founds.andThen ?_
  rintro context _ _ _ ⟨rfl, builder, ⟨heap, tabled, founded⟩, rfl⟩
  let setting : Setting := ⟨old, target, context, document⟩
  have start : Realizes setting Draft.empty [] heap ⟨builder, [], [], []⟩ := .start tabled founded
  have sound : Draft.empty.Sound := nofun
  have follows := (follows_within setting (nestingBound document) document "" rootName none
    start).drafts (drafts_within document _ document "" rootName none sound nofun)
  refine follows.andThen ?_
  rintro rootId after root draft
    ⟨⟨ids, rootHeap, realizes, leads, _, finds⟩, draftSound, evolves, shelters⟩
  have slices := builds_storeSlice realizes.tabled.holds slice
  refine (follows_room slices).andThen ?_
  rintro stored _ _ _ ⟨rfl, sliced, ⟨larger, added, hasText⟩, rfl⟩
  obtain ⟨complete, more⟩ := realizes.added added
  exact follows_pure ⟨setting, ids, larger, rootId, rfl, rfl, ⟨complete,
    ⟨fun index bound => evolves.settles index (Nat.zero_le index) bound, shelters⟩,
    finds.mono more.includes, stored, rfl⟩, hasText⟩

/-! ### Laying out -/

/-- The marks of a type that may have been laid out: only structs are marked
then, when two of their names have the same hash. -/
def Outline.Marks (outline : Outline) (flags : TypeFlags) : Prop :=
  flags = outline.flags ∨ outline.shape = .struct ∧ outline.flags.Collides flags

/-- The types of a target are those of a draft, and those that can be reached
from the root are laid out. -/
structure Embodies (draft : Draft) (root : Ref) (heap : Heap) (target : Target) (context : Context)
    (site : Site) (settled : TypeId -> Prop) : Prop where
  complete : draft.Complete root
  builtins : forall builtin, context.builtin builtin = site.context.builtin builtin
  root : exists rootId, context.root = some rootId ∧ site.Finds root rootId ∧ settled rootId
  text : settled (context.builtin .string)
  unit : settled (context.builtin .unit)
  distinct : forall ref other id, site.Finds ref id -> site.Finds other id -> ref = other
  apart : forall ref builtin, site.Finds ref (site.context.builtin builtin) -> ref = .builtin builtin
  named : forall ref id, site.Finds ref id -> Named heap id (draft.nameOf ref)
  outlined : forall ref id, site.Finds ref id -> exists flags, (draft.outline ref).Marks flags ∧
    IsOutlined heap site id ((draft.outline ref).withFlags flags)
  generic : AreGeneric heap site
  layout : IsLayout heap target settled
  found : forall id, settled id -> exists ref, site.Finds ref id
  different : forall first second, context.builtin first = context.builtin second -> first = second
  bound : forall index id, site.Finds (.declared index) id -> index < draft.sketches.length
  /-- Variables take exactly the room that the draft gives them. -/
  exactly : forall sizeOf, draft.Exact target sizeOf -> forall ref id type, site.Finds ref id ->
    settled id -> HasType heap id type -> Variable.ofType target type = sizeOf ref

section Layouts

variable {draft : Draft} {root : Ref} {heap larger : Heap} {target : Target} {context : Context}
  {site : Site} {settled : TypeId -> Prop}

/-- The types of a target stay as they are when cells are added. -/
theorem Embodies.extends (embodies : Embodies draft root heap target context site settled)
    (kept : heap.Extends larger) : Embodies draft root larger target context site settled := by
  refine ⟨embodies.complete, embodies.builtins, embodies.root, embodies.text, embodies.unit,
    embodies.distinct, embodies.apart,
    fun ref id finds => (embodies.named ref id finds).grows kept.grows, ?_,
    embodies.generic.mono kept.grows.declares, IsLayout.extends embodies.layout kept,
    embodies.found, embodies.different, embodies.bound, ?_⟩
  · intro ref id finds
    obtain ⟨flags, marks, flagged, argument, members, isArgument, found, declares⟩ :=
      embodies.outlined ref id finds
    exact ⟨flags, marks, flagged.extends kept, argument, members, isArgument, found,
      kept.grows.declares declares⟩
  · intro sizeOf isExact ref id type finds isSettled stored
    obtain ⟨earlier, _, _, _, earlierStored, _⟩ := embodies.layout.laidOut id isSettled
    cases hasType_inj stored (kept.hasType earlierStored)
    exact embodies.exactly sizeOf isExact ref id type finds isSettled earlierStored

/-- A name is not changed by a layout. -/
theorem named_relaid {id : TypeId} {name : String} (named : Named heap id name)
    (relaid : Relaid heap larger) : Named larger id name := by
  obtain ⟨type, stored, hasText⟩ := named
  obtain ⟨laterType, laterStored, same | resizes⟩ := relaid.hasType stored
  · exact ⟨laterType, laterStored, same ▸ relaid.hasText hasText⟩
  · exact ⟨laterType, laterStored, resizes.name ▸ relaid.hasText hasText⟩

/-- A layout changes only marks of what is outlined. -/
theorem IsOutlined.relaid {id : TypeId} {outline : Outline} (is : IsOutlined heap site id outline)
    (relaid : Relaid heap larger) : exists flags, outline.Marks flags ∧
      IsOutlined larger site id (outline.withFlags flags) := by
  obtain ⟨⟨type, stored, flags⟩, argument, members, isArgument, found, declares⟩ := is
  have shape : type.shape = outline.shape := by
    obtain ⟨other, _, otherStored, _, said⟩ := declares
    cases hasType_inj stored otherStored
    exact said.shape
  have later := relaid.declares declares
  obtain ⟨laterType, laterStored, same | resizes⟩ := relaid.hasType stored
  · exact ⟨outline.flags, .inl rfl, ⟨laterType, laterStored, same ▸ flags⟩, argument, members,
      isArgument, found, later⟩
  · refine ⟨laterType.flags, ?_, ⟨laterType, laterStored, rfl⟩, argument, members, isArgument,
      found, later⟩
    rw [Outline.Marks, ← flags, ← shape]
    exact resizes.flags

variable {setting : Setting} {ids : List TypeId} {state : State} {rootId : TypeId}

/-- Laying out the types of a target ends well, or because of a cause that the
plan of the target has. -/
theorem Assembled.arranges
    (assembled : Assembled setting draft root ids heap state rootId context) {arena : Arena}
    (holds : setting.old.Holds arena) :
    Run (arrangeContext context setting.target) state.builder
      (fun _ after => exists later settled, later.Holds after.arena ∧ setting.old.Extends later ∧
        Known later after.instances ∧ state.builder.arena.spare ≤ after.arena.spare ∧
        Embodies draft root later setting.target context (siteOf setting ids state) settled ∧
        forall reference text, HasText heap reference text -> HasText later reference text)
      (fun failure _ => (targetPlan setting ids heap state rootId).Stops failure) := by
  obtain ⟨realizes, complete, finds, slice, rfl⟩ := assembled
  have tabled := realizes.tabled
  have types {builtin : Builtin} (proper : builtin ∈ Builtin.string :: scalarBuiltins) :
      (targetPlan setting ids heap state rootId).types (setting.context.builtin builtin) :=
    ⟨.builtin builtin, finds_builtin _ proper, .inr ⟨builtin, rfl⟩⟩
  have rootIsType : (targetPlan setting ids heap state rootId).types rootId :=
    ⟨root, finds, .inl .root⟩
  refine Run.imp (run_arrangeContext (realizes.plan_closed complete holds) tabled.holds tabled.since
    rfl rootIsType (types (by decide)) (types (by decide))) ?_ (fun _ _ => id)
  rintro _ after ⟨later, settled, held, relaid, kept, rests, layout, isSettled, textSettled,
    unitSettled, areTypes, exactly⟩
  refine ⟨later, settled, held, kept, ?_, rests.room, ⟨complete, fun _ => rfl,
    ⟨rootId, rfl, finds, isSettled⟩, textSettled, unitSettled,
    fun ref other id => realizes.finds_inj, fun ref builtin => realizes.eq_builtin,
    fun ref id found => named_relaid (realizes.named found) relaid,
    fun ref id found => (realizes.isOutlined found).relaid relaid,
    realizes.areGeneric.mono relaid.declares, layout, ?_,
    fun _ _ => realizes.founded.builtin_inj, fun _ _ => realizes.bound, ?_⟩,
    fun _ _ => relaid.hasText⟩
  · rw [rests.instances]
    exact tabled.known.relaid relaid
  · intro id idSettled
    obtain ⟨ref, found, _⟩ := areTypes id idSettled
    exact ⟨ref, found⟩
  · intro sizeOf isExact ref id type found idSettled stored
    obtain ⟨slotOf, sizes⟩ := realizes.exists_sizes sizeOf
    rw [← sizes ref id found]
    exact exactly slotOf (realizes.exact sizes isExact) id idSettled type stored

end Layouts

end TextSchema
end PackedJson
