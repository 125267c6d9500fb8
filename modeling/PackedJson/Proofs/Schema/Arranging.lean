import Mathlib.Data.List.Perm.Subperm
import Mathlib.Logic.Relation
import PackedJson.Proofs.Schema.Arrangement

namespace PackedJson

open Heap Builder

/-!
Laying types out.

`Arranging` holds between any two steps: the types that are done are laid out.
What a step leaves alone is part of `Proceeds`: the records of types that are
done, or being laid out further out, stay as they are.  A type that is done
refers only to types that are done, being laid out or put off, so that in the
end all types that can be reached are done.
-/

/-- The failures of laying types out: a type is too large, or contains itself. -/
def SchemaError.StopsLayout : SchemaError -> Prop
  | .infiniteSize _ => True
  | .malformed _ .layoutTooLarge => True
  | _ => False

namespace Layout

/-- What is fixed while types are laid out. -/
structure Plan where
  /-- Cells that are not touched. -/
  old : Heap
  /-- The heap before any type was laid out. -/
  start : Heap
  target : Target
  /-- The types that can be reached. -/
  types : TypeId -> Prop

/-- A type that can be laid out refers to others of its kind. -/
structure Plan.Sound (plan : Plan) (declaration : Declaration) : Prop where
  plain : declaration.generic = false
  members : forall member, member ∈ declaration.members ->
    exists type, member.type = some type ∧ plan.types type
  argument : forall type, declaration.argument = some type -> plan.types type
  /-- The argument of a variant or a struct is the type of a member. -/
  stored : forall type, declaration.argument = some type ->
    declaration.shape = .struct ∨ declaration.shape = .variant ->
    exists member, member ∈ declaration.members ∧ member.type = some type
  alternatives : declaration.shape = .variant -> 2 ≤ declaration.members.length

/-- A type stores instances of another one inline. -/
def Plan.Inlines (plan : Plan) (outer inner : TypeId) : Prop :=
  exists declaration type, Declares plan.start outer declaration ∧
    inner ∈ declaration.members.filterMap Member.type ∧ HasType plan.start inner type ∧
    type.isStoredByReference = false

/-- The room of an instance, given the variables of other types. -/
def exactInstance (target : Target) (slotOf : TypeId -> Variable) (type : TypeDef)
    (declaration : Declaration) : Variable :=
  if type.isBuiltin && type.fieldCount == 0 then Variable.ofType target type
  else exactRoom declaration.shape ((declaration.members.filterMap Member.type).map slotOf)

/-- The variables of all types take the room that the layout gives them, in
numbers of any size. -/
def Plan.Exact (plan : Plan) (slotOf : TypeId -> Variable) : Prop :=
  forall id type declaration, plan.types id -> HasType plan.start id type ->
    Declares plan.start id declaration ->
    slotOf id = if type.isStoredByReference then ⟨plan.target.pointerWidth, plan.target.pointerWidth⟩
      else exactInstance plan.target slotOf type declaration

/-- The size of the instances of a type exceeds 32 binary digits. -/
def Plan.Oversized (plan : Plan) (type : TypeDef) (declaration : Declaration) : Prop :=
  forall slotOf, plan.Exact slotOf ->
    2 ^ 32 ≤ (exactInstance plan.target slotOf type declaration).size

/-- The causes of failures: a type contains itself inline, or its exact size
is too large. -/
def Plan.Stops (plan : Plan) : SchemaError -> Prop
  | .infiniteSize _ => exists id, plan.types id ∧ Relation.TransGen plan.Inlines id id
  | .malformed name .layoutTooLarge => exists id type declaration, plan.types id ∧
      HasType plan.start id type ∧ Declares plan.start id declaration ∧
      plan.Oversized type declaration ∧
      forall text, HasText plan.start type.name text -> name = text
  | _ => False

theorem Plan.Stops.stopsLayout {plan : Plan} {failure : SchemaError} (stops : plan.Stops failure) :
    failure.StopsLayout := by
  unfold Plan.Stops at stops
  split at stops
  · trivial
  · trivial
  · exact stops.elim

/-- The types that can be reached are closed under what they refer to. -/
structure Plan.Closed (plan : Plan) : Prop where
  sound : forall id, plan.types id ->
    exists declaration, Declares plan.start id declaration ∧ plan.Sound declaration
  scalar : forall id declaration, plan.types id -> Declares plan.start id declaration ->
    declaration.builtin = true -> declaration.members = [] ->
    exists name size, (size = 0 ∨ IsAlign size) ∧
      HasType plan.start id (TypeDef.scalar name (UInt32.ofNat size))
  new : forall id, plan.types id -> plan.old id.offset.toNat = none
  owned : forall position owner records, plan.old position = some (.fields owner records) ->
    exists type, plan.old owner.offset.toNat = some (.type type)

/-- A type is done, being laid out, or put off. -/
def Reached (state : State) (id : TypeId) : Prop :=
  id ∈ state.done ∨ id ∈ state.inProgress ∨ id ∈ state.pending

/-- All types that a type refers to are taken care of. -/
def Covered (plan : Plan) (state : State) (id : TypeId) : Prop :=
  forall declaration, Declares plan.start id declaration ->
    forall successor, successor ∈ declaration.successors -> Reached state successor

/-- All types have fewer members than that. -/
def Plan.Bounds (plan : Plan) (most : Nat) : Prop :=
  forall id declaration, plan.types id -> Declares plan.start id declaration ->
    declaration.members.length < most

/-- A type is not a scalar. -/
def Plan.Composite (plan : Plan) (id : TypeId) : Prop :=
  forall type, HasType plan.start id type -> type.isBuiltin = true -> type.fieldCount ≠ 0

/-- What holds while types are laid out. -/
structure Arranging (plan : Plan) (heap : Heap) (state : State) : Prop where
  holds : heap.Holds state.builder.arena
  relaid : Relaid plan.start heap
  kept : plan.old.Extends heap
  done : forall id, id ∈ state.done ->
    plan.types id ∧ LaidOut heap plan.target (· ∈ state.done) id
  inProgress : forall id, id ∈ state.inProgress -> plan.types id ∧ plan.Composite id
  pending : forall id, id ∈ state.pending -> plan.types id
  distinct : (state.inProgress ++ state.done).Nodup
  /-- Types that are done take exactly the room that follows from the rules. -/
  exactly : forall slotOf, plan.Exact slotOf -> forall id, id ∈ state.done ->
    forall type, HasType heap id type -> Variable.ofType plan.target type = slotOf id

/-- The records of a type stay as they are. -/
def Untouched (heap later : Heap) (id : TypeId) : Prop :=
  forall type, HasType heap id type -> HasType later id type ∧
    forall fields, HasFields heap id type fields -> HasFields later id type fields

/-- What a layout leaves as it is: the table of instances, and the room in the
arena. -/
structure Rests (builder after : Builder) : Prop where
  instances : after.instances = builder.instances
  room : builder.arena.spare ≤ after.arena.spare

theorem Rests.refl (builder : Builder) : Rests builder builder :=
  ⟨rfl, Nat.le_refl _⟩

theorem Rests.trans {builder after last : Builder} (first : Rests builder after)
    (second : Rests after last) : Rests builder last :=
  ⟨second.instances.trans first.instances, Nat.le_trans first.room second.room⟩

/-- A later state.  The types being laid out further out are busy. -/
structure Proceeds (plan : Plan) (busy : List TypeId) (extra : Nat) (heap : Heap) (state : State)
    (later : Heap) (after : State) : Prop where
  arranging : Arranging plan later after
  relaid : Relaid heap later
  untouched : forall id, id ∈ state.done ∨ id ∈ busy -> Untouched heap later id
  done : forall id, id ∈ state.done -> id ∈ after.done
  inProgress : after.inProgress = state.inProgress
  reached : forall id, Reached state id -> Reached after id
  covered : forall id, id ∈ after.done -> id ∈ state.done ∨ Covered plan after id
  /-- Each type that is done has put off a bounded number of types. -/
  count : forall most, plan.Bounds most -> after.pending.length + most * state.done.length ≤
    state.pending.length + most * after.done.length + extra
  rests : Rests state.builder after.builder

section Steps

variable {plan : Plan} {busy : List TypeId} {extra more : Nat} {heap later : Heap}
  {state after : State} {id : TypeId}

theorem Untouched.refl (heap : Heap) (id : TypeId) : Untouched heap heap id :=
  fun _ stored => ⟨stored, fun _ hasFields => hasFields⟩

theorem Untouched.trans {last : Heap} (first : Untouched heap later id)
    (second : Untouched later last id) : Untouched heap last id := by
  intro type stored
  have laterStored := first type stored
  have lastStored := second type laterStored.1
  exact ⟨lastStored.1, fun fields has => lastStored.2 fields (laterStored.2 fields has)⟩

theorem Proceeds.refl (arranging : Arranging plan heap state) :
    Proceeds plan busy 0 heap state heap state :=
  ⟨arranging, Relaid.refl heap, fun id _ => Untouched.refl heap id, fun _ isDone => isDone, rfl,
    fun _ isReached => isReached, fun _ => Or.inl, fun _ _ => Nat.le_refl _, Rests.refl _⟩

theorem Proceeds.trans {last : Heap} {final : State}
    (first : Proceeds plan busy extra heap state later after)
    (second : Proceeds plan busy more later after last final) :
    Proceeds plan busy (extra + more) heap state last final := by
  refine ⟨second.arranging, first.relaid.trans second.relaid, ?_, ?_,
    second.inProgress.trans first.inProgress, ?_, ?_, ?_,
    first.rests.trans second.rests⟩
  · intro id kept
    refine (first.untouched id kept).trans (second.untouched id ?_)
    exact kept.imp_left (first.done id)
  · exact fun id isDone => second.done id (first.done id isDone)
  · exact fun id isReached => second.reached id (first.reached id isReached)
  · intro id isDone
    rcases second.covered id isDone with earlier | covered
    · rcases first.covered id earlier with before | covered
      · exact Or.inl before
      · exact Or.inr fun declaration declares successor member =>
          second.reached successor (covered declaration declares successor member)
    · exact Or.inr covered
  · intro most bounds
    have firstCount := first.count most bounds
    have secondCount := second.count most bounds
    omega

theorem Proceeds.weaken (proceeds : Proceeds plan busy extra heap state later after)
    (atMost : extra ≤ more) : Proceeds plan busy more heap state later after :=
  { proceeds with
    count := fun most bounds =>
      Nat.le_trans (proceeds.count most bounds) (Nat.add_le_add_left atMost _) }

/-! ### What stays -/

/-- A variable does not depend on the record of a type that is not settled. -/
theorem hasVariable_relaid {target : Target} {settled settledLater : TypeId -> Prop}
    {field : FieldDef} {slot : Variable} (takes : HasVariable heap target settled field slot)
    (relaid : Relaid heap later)
    (untouched : forall inner, settled inner -> Untouched heap later inner)
    (included : forall inner, settled inner -> settledLater inner) :
    HasVariable later target settledLater field slot := by
  obtain ⟨inner, type, isType, stored, isSlot, isAlign, byReference | isSettled⟩ := takes
  · obtain ⟨laterType, laterStored, same | resizes⟩ := relaid.hasType stored
    · exact ⟨inner, type, isType, same ▸ laterStored, isSlot, isAlign, Or.inl byReference⟩
    · have still : laterType.isStoredByReference = true := resizes.byReference.trans byReference
      refine ⟨inner, laterType, isType, laterStored, ?_, isAlign, Or.inl still⟩
      rw [isSlot, Variable.ofType, Variable.ofType, if_pos byReference, if_pos still]
  · exact ⟨inner, type, isType, (untouched inner isSettled type stored).1, isSlot, isAlign,
      Or.inr (included inner isSettled)⟩

theorem isArranged_relaid {target : Target} {settled settledLater : TypeId -> Prop}
    {type : TypeDef} {fields : List FieldDef} {slots : List Variable} {align : Nat}
    (arranged : IsArranged heap target settled type fields slots align)
    (relaid : Relaid heap later)
    (untouched : forall inner, settled inner -> Untouched heap later inner)
    (included : forall inner, settled inner -> settledLater inner) :
    IsArranged later target settledLater type fields slots align :=
  { arranged with
    takes := arranged.takes.imp fun _ _ takes =>
      hasVariable_relaid takes relaid untouched included }

theorem laidOut_relaid {target : Target} {settled settledLater : TypeId -> Prop}
    (laidOut : LaidOut heap target settled id) (relaid : Relaid heap later)
    (same : Untouched heap later id)
    (untouched : forall inner, settled inner -> Untouched heap later inner)
    (included : forall inner, settled inner -> settledLater inner) :
    LaidOut later target settledLater id := by
  obtain ⟨type, fields, slots, align, stored, hasFields, arranged⟩ := laidOut
  have laterStored := same type stored
  exact ⟨type, fields, slots, align, laterStored.1, laterStored.2 fields hasFields,
    isArranged_relaid arranged relaid untouched included⟩

/-! ### Changing the records of one type -/

/-- Only cells of one type were changed. -/
structure Alters (id : TypeId) (heap later : Heap) : Prop where
  stored : exists type, HasType heap id type
  relaid : Relaid heap later
  others : forall position cell, heap position = some cell -> position ≠ id.offset.toNat ->
    (forall records, cell ≠ .fields id records) -> later position = some cell

theorem Alters.untouched (alters : Alters id heap later) {other : TypeId} (different : other ≠ id) :
    Untouched heap later other := by
  intro type stored
  have elsewhere : other.offset.toNat ≠ id.offset.toNat := by
    intro same
    obtain ⟨offset⟩ := other
    obtain ⟨idOffset⟩ := id
    exact different (congrArg TypeId.mk (Offset.toNat_inj.mp same))
  refine ⟨alters.others _ _ stored elsewhere nofun, fun fields hasFields =>
    ⟨hasFields.1, fun nonempty => ?_⟩⟩
  have present := hasFields.2 nonempty
  refine alters.others _ _ present ?_ ?_
  · intro same
    obtain ⟨idType, idStored⟩ := alters.stored
    rw [same] at present
    cases idStored.symm.trans present
  · rintro records ⟨rfl⟩
    exact different rfl

theorem alters_type {type resized : TypeDef} (stored : HasType heap id type)
    (resizes : type.Resizes resized) :
    Alters id heap (heap.set id.offset.toNat (.type resized)) := by
  refine ⟨⟨type, stored⟩, ?_, fun position cell present different _ =>
    (set_other heap _ different).trans present⟩
  intro position cell present
  by_cases same : position = id.offset.toNat
  · subst same
    cases stored.symm.trans present
    exact ⟨_, set_same heap _ _, .type resizes⟩
  · exact ⟨cell, (set_other heap _ same).trans present, .same cell⟩

theorem alters_fields {type : TypeDef} (stored : HasType heap id type) {position : Nat}
    {fields moved : List FieldDef} (present : heap position = some (.fields id fields))
    (moves : FieldsMove fields moved) : Alters id heap (heap.set position (.fields id moved)) := by
  refine ⟨⟨type, stored⟩, ?_, ?_⟩
  · intro other cell otherPresent
    by_cases same : other = position
    · subst same
      cases present.symm.trans otherPresent
      exact ⟨_, set_same heap _ _, .fields id moves⟩
    · exact ⟨cell, (set_other heap _ same).trans otherPresent, .same cell⟩
  · intro other cell otherPresent _ notFields
    refine (set_other heap _ ?_).trans otherPresent
    intro same
    subst same
    cases present.symm.trans otherPresent
    exact notFields fields rfl

theorem Arranging.altered (closed : plan.Closed) (arranging : Arranging plan heap state)
    (isType : plan.types id) (notDone : id ∉ state.done) (alters : Alters id heap later)
    {builder : Builder} (holds : later.Holds builder.arena) :
    Arranging plan later { state with builder := builder } := by
  have untouched (other : TypeId) (isDone : other ∈ state.done) : Untouched heap later other := by
    refine alters.untouched ?_
    intro same
    subst same
    exact notDone isDone
  refine ⟨holds, arranging.relaid.trans alters.relaid, ?_, ?_, arranging.inProgress,
    arranging.pending, arranging.distinct, ?_⟩
  · intro position cell before
    have new := closed.new id isType
    refine alters.others _ _ (arranging.kept _ _ before) ?_ ?_
    · rintro rfl
      cases new.symm.trans before
    · rintro records rfl
      obtain ⟨type, owner⟩ := closed.owned _ _ _ before
      cases new.symm.trans owner
  · intro other isDone
    obtain ⟨otherIsType, laidOut⟩ := arranging.done other isDone
    exact ⟨otherIsType, laidOut_relaid laidOut alters.relaid (untouched other isDone) untouched
      fun _ isDone => isDone⟩
  · intro slotOf isExact other isDone type stored
    obtain ⟨_, before, _, _, _, beforeStored, _⟩ := arranging.done other isDone
    cases hasType_inj stored (untouched other isDone before beforeStored).1
    exact arranging.exactly slotOf isExact other isDone _ beforeStored

/-- The records of a type that is neither done nor busy may be changed. -/
theorem Proceeds.altered (closed : plan.Closed) (arranging : Arranging plan heap state)
    (isType : plan.types id) (notDone : id ∉ state.done) (notBusy : id ∉ busy)
    (alters : Alters id heap later) {builder : Builder} (holds : later.Holds builder.arena)
    (rests : Rests state.builder builder) :
    Proceeds plan busy 0 heap state later { state with builder := builder } := by
  refine ⟨arranging.altered closed isType notDone alters holds, alters.relaid, ?_,
    fun _ isDone => isDone, rfl, fun _ isReached => isReached, fun _ => Or.inl,
    fun _ _ => Nat.le_refl _, rests⟩
  intro other kept
  refine alters.untouched ?_
  rintro rfl
  exact kept.elim notDone notBusy

end Steps

/-! ### Single steps -/

section Single

variable {plan : Plan} {Result Next : Type} {state : State}

/-- Failures that stop the layout, whatever the state. -/
def Stops (plan : Plan) (failure : SchemaError) (_ : State) : Prop := plan.Stops failure

theorem run_ask {question : Schema -> Except SchemaError Result} {result : Result}
    {next : Result -> LayoutM Next} {good : Next -> State -> Prop}
    {bad : SchemaError -> State -> Prop}
    (answer : question ⟨state.builder.arena⟩ = .ok result)
    (continued : Run (next result) state good bad) :
    Run (query question >>= next) state good bad := by
  have ends : query question state = .ok result state := by
    obtain ⟨builder, done, inProgress, pending⟩ := state
    simp only [query, onBuilder, Builder.query, answer]
  exact run_bind.mpr ((run_of_ok ends).mpr continued)

theorem run_onBuilder {step : BuildM Result} {good : Result -> Builder -> Prop}
    (builds : Builds step state.builder 0 good) {bad : SchemaError -> State -> Prop} :
    Run (onBuilder step) state
      (fun result after => exists builder, after = { state with builder := builder } ∧
        good result builder) bad := by
  obtain ⟨builder, done, inProgress, pending⟩ := state
  unfold Builds Run at builds
  unfold Run onBuilder
  cases ends : step builder with
  | ok result after =>
      simp only [ends] at builds ⊢
      exact ⟨after, rfl, builds.1⟩
  | error failure after =>
      simp only [ends] at builds
      exact absurd builds.2 (Nat.not_lt_zero _)

section Marks

variable {good : Next -> State -> Prop} {bad : SchemaError -> State -> Prop} {id : TypeId}

theorem run_isDone {next : Bool -> LayoutM Next} :
    Run (isDone id >>= next) state good bad ↔
      Run (next (state.done.contains id)) state good bad :=
  Iff.rfl

theorem run_isInProgress {next : Bool -> LayoutM Next} :
    Run (isInProgress id >>= next) state good bad ↔
      Run (next (state.inProgress.contains id)) state good bad :=
  Iff.rfl

theorem run_start {next : Unit -> LayoutM Next} :
    Run (start id >>= next) state good bad ↔
      Run (next ()) { state with inProgress := id :: state.inProgress } good bad :=
  Iff.rfl

theorem run_finish {next : Unit -> LayoutM Next} :
    Run (finish id >>= next) state good bad ↔
      Run (next ()) { state with
        done := id :: state.done, inProgress := state.inProgress.erase id } good bad :=
  Iff.rfl

end Marks

theorem run_checkSize {type : TypeDef} {value : Nat}
    (stops : 2 ^ 32 ≤ value ->
      Stops plan (Schema.malformed ⟨state.builder.arena⟩ type .layoutTooLarge) state) :
    Run (checkSize type value) state
      (fun size after => size = value ∧ value < 2 ^ 32 ∧ after = state) (Stops plan) := by
  unfold checkSize
  split
  next small => exact ⟨rfl, small, rfl⟩
  next large =>
    obtain ⟨builder, done, inProgress, pending⟩ := state
    exact stops (Nat.le_of_not_lt large)

end Single

/-! ### Variables -/

/-- A type lies inline inside of others. -/
def Nested (plan : Plan) (busy : List TypeId) (id : TypeId) : Prop :=
  forall outer, outer ∈ busy -> Relation.TransGen plan.Inlines outer id

/-- A function lays types out inside of at least some number of others, and
takes care of the types they refer to. -/
def Arranges (plan : Plan) (depth : Nat) (arrange : TypeId -> LayoutM TypeDef) : Prop :=
  forall heap state id, Arranging plan heap state -> depth ≤ state.inProgress.length ->
    plan.types id -> Nested plan state.inProgress id ->
    Run (arrange id) state
      (fun type after => exists later, Proceeds plan state.inProgress 0 heap state later after ∧
        HasType later id type ∧ id ∈ after.done) (Stops plan)

section Fields

variable {plan : Plan} {depth : Nat} {arrange : TypeId -> LayoutM TypeDef} {heap : Heap}
  {state : State}

/-- A type is put off. -/
theorem Proceeds.postponed {busy : List TypeId} (arranging : Arranging plan heap state)
    {id : TypeId} (isType : plan.types id) :
    Proceeds plan busy 1 heap state heap { state with pending := id :: state.pending } := by
  refine ⟨⟨arranging.holds, arranging.relaid, arranging.kept, arranging.done,
    arranging.inProgress, ?_, arranging.distinct, arranging.exactly⟩, Relaid.refl heap,
    fun id _ => Untouched.refl heap id, fun _ isDone => isDone, rfl, ?_, fun _ => Or.inl, ?_,
    Rests.refl _⟩
  · exact List.forall_mem_cons.mpr ⟨isType, arranging.pending⟩
  · exact fun other isReached =>
      isReached.imp_right fun later => later.imp_right (List.mem_cons_of_mem id)
  · intro most _
    simp only [List.length_cons]
    omega

/-- Types that are done have sizes and alignments that fit together. -/
theorem LaidOut.isAlign {settled : TypeId -> Prop} {target : Target} {id : TypeId} {type : TypeDef}
    (laidOut : LaidOut heap target settled id) (stored : HasType heap id type) :
    IsAlign (Variable.ofType target type).align := by
  obtain ⟨other, fields, slots, align, otherStored, _, arranged⟩ := laidOut
  cases hasType_inj stored otherStored
  have sizes := arranged.sizes
  unfold HasSizes at sizes
  unfold Variable.ofType
  split
  · exact .pointerWidth target
  next inline =>
    rw [if_neg inline] at sizes
    have positive := arranged.isAlign.pos
    have atLeast : (max type.align 1).toNat = align := by
      have unit : (1 : UInt32).toNat = 1 := rfl
      rw [UInt32.toNat_max, sizes.2, unit]
      omega
    rw [atLeast]
    exact arranged.isAlign

/-- The variables of a type lie inside of others, unless they are pointers. -/
def NestedInline (plan : Plan) (busy : List TypeId) (id : TypeId) : Prop :=
  forall type, HasType plan.start id type -> type.isStoredByReference = false ->
    Nested plan busy id

theorem run_variableWith (arranges : Arranges plan depth arrange) (closed : plan.Closed)
    (arranging : Arranging plan heap state) (deep : depth ≤ state.inProgress.length) {id : TypeId}
    (isType : plan.types id) (nested : NestedInline plan state.inProgress id) {field : FieldDef}
    (isField : field.type = some id) :
    Run (variableWith arrange plan.target id) state
      (fun slot after => exists later, Proceeds plan state.inProgress 1 heap state later after ∧
        HasVariable later plan.target (· ∈ after.done) field slot ∧ Reached after id ∧
        forall slotOf, plan.Exact slotOf -> slot = slotOf id) (Stops plan) := by
  obtain ⟨declaration, declares, _⟩ := closed.sound id isType
  have ⟨startType, _, startStored, _⟩ := declares
  obtain ⟨type, stored, sameOrResizes⟩ := arranging.relaid.hasType startStored
  have sameReference : type.isStoredByReference = startType.isStoredByReference := by
    rcases sameOrResizes with same | resizes
    · rw [same]
    · exact resizes.byReference
  unfold variableWith
  refine run_ask (arranging.holds.type stored) ?_
  split
  next byReference =>
    have takes (after : State) :
        HasVariable heap plan.target (· ∈ after.done) field
          ⟨plan.target.pointerWidth, plan.target.pointerWidth⟩ :=
      ⟨id, type, isField, stored, by rw [Variable.ofType, if_pos byReference],
        .pointerWidth plan.target, Or.inl byReference⟩
    have exactly (slotOf : TypeId -> Variable) (isExact : plan.Exact slotOf) :
        ⟨plan.target.pointerWidth, plan.target.pointerWidth⟩ = slotOf id := by
      rw [isExact id startType declaration isType startStored declares,
        if_pos (sameReference.symm.trans byReference)]
    refine run_isDone.mpr (run_isInProgress.mpr ?_)
    split
    next =>
      exact ⟨heap, .postponed arranging isType, takes _, Or.inr (Or.inr List.mem_cons_self),
        exactly⟩
    next known =>
      refine ⟨heap, (Proceeds.refl arranging).weaken (Nat.zero_le 1), takes _, ?_, exactly⟩
      simp only [Bool.and_eq_true, Bool.not_eq_true', not_and, Bool.not_eq_false,
        List.contains_iff_mem] at known
      by_cases isDone : id ∈ state.done
      · exact Or.inl isDone
      · refine Or.inr (Or.inl (known ?_))
        simpa using isDone
  next inline =>
    have isNested := nested startType startStored
      (Bool.eq_false_iff.mpr fun byReference => inline (sameReference.trans byReference))
    refine Run.andThen (arranges heap state id arranging deep isType isNested) ?_
      (fun _ _ stops => stops)
    rintro arranged after ⟨later, proceeds, laterStored, isDone⟩
    have sameSlot : (⟨arranged.slot.toNat, (max arranged.align 1).toNat⟩ : Variable) =
        Variable.ofType plan.target arranged := by
      obtain ⟨_, otherStored, same | resizes⟩ := proceeds.relaid.hasType stored
      · cases hasType_inj laterStored otherStored
        rw [same, Variable.ofType, if_neg inline]
      · cases hasType_inj laterStored otherStored
        rw [Variable.ofType, resizes.byReference, if_neg inline]
    refine run_pure.mpr ⟨later, proceeds.weaken (Nat.zero_le 1), ⟨id, arranged, isField,
      laterStored, sameSlot, ?_, Or.inr isDone⟩, Or.inl isDone, fun slotOf isExact =>
        sameSlot.trans (proceeds.arranging.exactly slotOf isExact id isDone arranged laterStored)⟩
    · have isAlign := LaidOut.isAlign (proceeds.arranging.done id isDone).2 laterStored
      obtain ⟨_, otherStored, same | resizes⟩ := proceeds.relaid.hasType stored
      · cases hasType_inj laterStored otherStored
        rw [same, Variable.ofType, if_neg inline] at isAlign
        rw [same]
        exact isAlign
      · cases hasType_inj laterStored otherStored
        rw [Variable.ofType, resizes.byReference, if_neg inline] at isAlign
        exact isAlign

/-- Variables are taken, what they refer to is taken care of, and they are
exactly as large as the rules say. -/
structure Takes (plan : Plan) (later : Heap) (after : State) (fields : List FieldDef)
    (slots : List Variable) : Prop where
  taken : List.Forall₂ (HasVariable later plan.target (· ∈ after.done)) fields slots
  reached : forall field, field ∈ fields -> forall type, field.type = some type ->
    Reached after type
  exactly : forall slotOf, plan.Exact slotOf ->
    slots = (fields.filterMap FieldDef.type).map slotOf

theorem Takes.cons {later last : Heap} {busy : List TypeId} {extra : Nat} {after final : State}
    {field : FieldDef} {fields : List FieldDef} {slot : Variable} {slots : List Variable}
    (takes : HasVariable later plan.target (· ∈ after.done) field slot) {id : TypeId}
    (isField : field.type = some id) (isReached : Reached after id)
    (exactly : forall slotOf, plan.Exact slotOf -> slot = slotOf id)
    (proceeds : Proceeds plan busy extra later after last final)
    (others : Takes plan last final fields slots) :
    Takes plan last final (field :: fields) (slot :: slots) := by
  refine ⟨.cons ?_ others.taken, List.forall_mem_cons.mpr ⟨?_, others.reached⟩,
    fun slotOf isExact => ?_⟩
  · exact hasVariable_relaid takes proceeds.relaid
      (fun inner isDone => proceeds.untouched inner (Or.inl isDone)) proceeds.done
  · intro type isType
    cases isField.symm.trans isType
    exact proceeds.reached id isReached
  · rw [List.filterMap_cons_some isField, List.map_cons, exactly slotOf isExact, others.exactly slotOf isExact]

/-- The fields of a type have types that can be laid out inside of others. -/
def AreTyped (plan : Plan) (busy : List TypeId) (fields : List FieldDef) : Prop :=
  forall field, field ∈ fields -> exists type, field.type = some type ∧ plan.types type ∧
    NestedInline plan busy type

theorem fieldType_of {schema : Schema} (owner : TypeDef) {field : FieldDef} {type : TypeId}
    (isField : field.type = some type) : schema.fieldType owner field = .ok type := by
  unfold Schema.fieldType
  rw [isField]

/-- The failure that a type is too large is justified when its fields reach a
certain position. -/
def StopsAt (plan : Plan) (owner : TypeDef) (fields : List FieldDef) (position : Nat) : Prop :=
  forall (heap : Heap) (state : State), Arranging plan heap state ->
    (forall slotOf, plan.Exact slotOf ->
      2 ^ 32 ≤ sequenceEnd ((fields.filterMap FieldDef.type).map slotOf) position) ->
    Stops plan (Schema.malformed ⟨state.builder.arena⟩ owner .layoutTooLarge) state

theorem run_placeFields (arranges : Arranges plan depth arrange) (closed : plan.Closed)
    (owner : TypeDef) {fields : List FieldDef} (areTyped : AreTyped plan state.inProgress fields)
    (arranging : Arranging plan heap state) (deep : depth ≤ state.inProgress.length)
    {position : Nat} (stops : StopsAt plan owner fields position) (align : Nat) :
    Run (placeFields (variableWith arrange plan.target) owner fields position align) state
      (fun placed after => exists later slots,
        Proceeds plan state.inProgress fields.length heap state later after ∧
        Takes plan later after fields slots ∧ List.Forall₂ FieldDef.Moves fields placed.1 ∧
        InSequence (placed.1.zip slots) position placed.2.1 ∧
        placed.2.2 = greatestAlign slots align ∧ placed.2.1 = sequenceEnd slots position ∧
        placed.1.map (fun field => field.offset.toNat) = sequencePlaces slots position)
      (Stops plan) := by
  induction fields generalizing heap state position align with
  | nil =>
      exact ⟨heap, [], .refl arranging, ⟨.nil, nofun, fun _ _ => rfl⟩, .nil, Nat.le_refl _, rfl, rfl,
        rfl⟩
  | cons field rest ih =>
      obtain ⟨⟨id, isField, isType, nested⟩, othersTyped⟩ := List.forall_mem_cons.mp areTyped
      unfold placeFields
      refine run_ask (fieldType_of owner isField) ?_
      refine Run.andThen (run_variableWith arranges closed arranging deep isType nested isField) ?_
        (fun _ _ stops => stops)
      rintro slot middle ⟨later, proceeds, takes, isReached, exactly⟩
      have isAlign : IsAlign slot.align := by
        obtain ⟨_, _, _, _, _, isAlign, _⟩ := takes
        exact isAlign
      have further : StopsAt plan owner rest (alignUp position slot.align + slot.size) := by
        intro heap state arranging large
        refine stops heap state arranging fun slotOf isExact => ?_
        rw [List.filterMap_cons_some isField, List.map_cons, ← exactly slotOf isExact]
        exact large slotOf isExact
      have stopsBehind {value : Nat} (within : value ≤ alignUp position slot.align + slot.size)
          (large : 2 ^ 32 ≤ value) :
          Stops plan (Schema.malformed ⟨middle.builder.arena⟩ owner .layoutTooLarge) middle :=
        further later middle proceeds.arranging fun slotOf _ =>
          Nat.le_trans (Nat.le_trans large within) (le_sequenceEnd _ _)
      refine Run.andThen (run_checkSize (stopsBehind (Nat.le_add_right _ _))) ?_
        (fun _ _ stops => stops)
      rintro start _ ⟨rfl, startSmall, rfl⟩
      refine Run.andThen (run_checkSize (stopsBehind (Nat.le_refl _))) ?_ (fun _ _ stops => stops)
      rintro stop _ ⟨rfl, _, rfl⟩
      have next := ih (proceeds.inProgress ▸ othersTyped) proceeds.arranging
        (proceeds.inProgress ▸ deep) further (max align slot.align)
      rw [proceeds.inProgress] at next
      refine Run.andThen next ?_ (fun _ _ stops => stops)
      rintro ⟨placed, last, greatest⟩ after
        ⟨lastHeap, slots, more, othersTake, moves, inSequence, same, sameEnd, places⟩
      have offset : (UInt32.ofNat (alignUp position slot.align)).toNat =
          alignUp position slot.align := by
        rw [UInt32.toNat_ofNat']
        exact Nat.mod_eq_of_lt startSmall
      refine run_pure.mpr ⟨lastHeap, slot :: slots, ?_,
        .cons takes isField isReached exactly more othersTake, .cons ⟨_, rfl⟩ moves, ?_, same, sameEnd,
        congrArg₂ List.cons offset places⟩
      · exact (proceeds.trans more).weaken (Nat.le_of_eq (Nat.add_comm _ _))
      · refine ⟨?_, ?_, ?_⟩
        · exact Nat.le_trans (isAlign.le_alignUp position) (Nat.le_of_eq offset.symm)
        · change slot.align ∣ (UInt32.ofNat (alignUp position slot.align)).toNat
          rw [offset]
          exact isAlign.dvd_alignUp position
        · change InSequence (placed.zip slots)
            ((UInt32.ofNat (alignUp position slot.align)).toNat + slot.size) last
          rw [offset]
          exact inSequence

theorem run_greatest (arranges : Arranges plan depth arrange) (closed : plan.Closed)
    (owner : TypeDef) {fields : List FieldDef} (areTyped : AreTyped plan state.inProgress fields)
    (arranging : Arranging plan heap state) (deep : depth ≤ state.inProgress.length)
    (bound : Variable) :
    Run (greatest (variableWith arrange plan.target) owner fields bound) state
      (fun found after => exists later slots,
        Proceeds plan state.inProgress fields.length heap state later after ∧
        Takes plan later after fields slots ∧ found.align = greatestAlign slots bound.align ∧
        bound.size ≤ found.size ∧ (forall slot, slot ∈ slots -> slot.size ≤ found.size) ∧
        found.size = greatestSize slots bound.size) (Stops plan) := by
  induction fields generalizing heap state bound with
  | nil =>
      exact ⟨heap, [], .refl arranging, ⟨.nil, nofun, fun _ _ => rfl⟩, rfl, Nat.le_refl _, nofun, rfl⟩
  | cons field rest ih =>
      obtain ⟨⟨id, isField, isType, nested⟩, othersTyped⟩ := List.forall_mem_cons.mp areTyped
      unfold greatest
      refine run_ask (fieldType_of owner isField) ?_
      refine Run.andThen (run_variableWith arranges closed arranging deep isType nested isField) ?_
        (fun _ _ stops => stops)
      rintro slot middle ⟨later, proceeds, takes, isReached, exactly⟩
      have next := ih (proceeds.inProgress ▸ othersTyped) proceeds.arranging
        (proceeds.inProgress ▸ deep) ⟨max bound.size slot.size, max bound.align slot.align⟩
      rw [proceeds.inProgress] at next
      refine next.imp ?_ (fun _ _ stops => stops)
      rintro found after ⟨lastHeap, slots, more, othersTake, sameAlign, atLeast, larger, sameSize⟩
      have parts := Nat.max_le.mp atLeast
      refine ⟨lastHeap, slot :: slots, ?_, .cons takes isField isReached exactly more othersTake,
        sameAlign, parts.1, List.forall_mem_cons.mpr ⟨parts.2, larger⟩, sameSize⟩
      exact (proceeds.trans more).weaken (Nat.le_of_eq (Nat.add_comm _ _))

end Fields

/-! ### Sizes -/

/-- A type takes the given room, and says what it said before. -/
structure Sizes (target : Target) (type : TypeDef) (size align : Nat) (arranged : TypeDef) :
    Prop where
  size : arranged.size.toNat = size
  hasSizes : HasSizes target arranged align
  resizes : type.Resizes arranged

/-- A type that is neither generic nor a scalar. -/
structure IsComposite (type : TypeDef) : Prop where
  plain : type.isGeneric = false
  composite : type.isBuiltin = true -> type.fieldCount ≠ 0

theorem sizes_withSize (target : Target) {type : TypeDef} (isComposite : IsComposite type)
    {size align : Nat} (isAlign : IsAlign align) (small : size < 2 ^ 32) :
    Sizes target type size align (withSize target type size align) := by
  have smallAlign := isAlign.le_eight
  have sizeToNat : (UInt32.ofNat size).toNat = size := by
    rw [UInt32.toNat_ofNat']
    exact Nat.mod_eq_of_lt small
  have alignToNat : (UInt32.ofNat align).toNat = align := by
    rw [UInt32.toNat_ofNat']
    exact Nat.mod_eq_of_lt (by omega)
  have widthToNat : (UInt32.ofNat target.pointerWidth).toNat = target.pointerWidth := by
    cases target <;> rfl
  unfold withSize
  split
  next byReference =>
    refine ⟨sizeToNat, ?_, ⟨rfl, rfl, rfl, rfl, rfl, rfl, rfl, rfl, rfl, Or.inl rfl, isComposite.plain,
      isComposite.composite⟩⟩
    exact (if_pos byReference).mpr ⟨widthToNat, widthToNat⟩
  next inline =>
    refine ⟨sizeToNat, ?_, ⟨rfl, rfl, rfl, rfl, rfl, rfl, rfl, rfl, rfl, Or.inl rfl, isComposite.plain,
      isComposite.composite⟩⟩
    exact (if_neg inline).mpr ⟨rfl, alignToNat⟩

/-- The mark of equal hashes leaves the other properties as they are. -/
theorem contains_set_collisions (flags : TypeFlags) (present : Bool) :
    (flags.set TypeFlags.hasHashCollisions present).contains TypeFlags.builtin =
      flags.contains TypeFlags.builtin ∧
    (flags.set TypeFlags.hasHashCollisions present).contains TypeFlags.generic =
      flags.contains TypeFlags.generic ∧
    (flags.set TypeFlags.hasHashCollisions present).contains TypeFlags.storedByReference =
      flags.contains TypeFlags.storedByReference := by
  obtain ⟨bits⟩ := flags
  change BitVec 5 at bits
  revert bits present
  decide

theorem contains_set_self (flags : TypeFlags) (present : Bool) :
    (flags.set TypeFlags.hasHashCollisions present).contains TypeFlags.hasHashCollisions =
      present := by
  obtain ⟨bits⟩ := flags
  change BitVec 5 at bits
  revert bits present
  decide

theorem set_contains_self (flags : TypeFlags) :
    flags.set TypeFlags.hasHashCollisions (flags.contains TypeFlags.hasHashCollisions) = flags := by
  obtain ⟨bits⟩ := flags
  change BitVec 5 at bits
  revert bits
  decide

theorem Sizes.flagged {target : Target} {type sized : TypeDef} {size align : Nat}
    (sizes : Sizes target type size align sized) (isStruct : type.shape = .struct)
    (present : Bool) :
    Sizes target type size align
      { sized with flags := sized.flags.set TypeFlags.hasHashCollisions present } := by
  obtain ⟨size, hasSizes, resizes⟩ := sizes
  obtain ⟨builtin, generic, byReference⟩ := contains_set_collisions sized.flags present
  have collides : type.flags.Collides
      (sized.flags.set TypeFlags.hasHashCollisions present) := by
    rcases resizes.flags with same | ⟨_, earlier⟩
    · rw [same]
      exact ⟨present, rfl⟩
    · exact earlier.trans ⟨present, rfl⟩
  refine ⟨size, ?_, ⟨resizes.name, resizes.fields, resizes.fieldCount, resizes.prototype,
    resizes.argument, resizes.shape, builtin.trans resizes.builtin,
    generic.trans resizes.generic, byReference.trans resizes.byReference,
    Or.inr ⟨isStruct, collides⟩, resizes.plain, resizes.composite⟩⟩
  unfold HasSizes TypeDef.isStoredByReference at hasSizes ⊢
  rw [byReference]
  exact hasSizes

/-- The variables of a type of known sizes. -/
theorem Sizes.ofType_eq {target : Target} {type sized : TypeDef} {size align : Nat}
    (sizes : Sizes target type size align sized) (isAlign : IsAlign align) :
    Variable.ofType target sized =
      if type.isStoredByReference then ⟨target.pointerWidth, target.pointerWidth⟩
      else ⟨size, align⟩ := by
  obtain ⟨sameSize, hasSizes, resizes⟩ := sizes
  unfold HasSizes at hasSizes
  unfold Variable.ofType
  rw [resizes.byReference] at hasSizes ⊢
  split
  · rfl
  next inline =>
    rw [if_neg inline] at hasSizes
    have positive := isAlign.pos
    have atLeast : (max sized.align 1).toNat = align := by
      have unit : (1 : UInt32).toNat = 1 := rfl
      rw [UInt32.toNat_max, hasSizes.2, unit]
      omega
    rw [atLeast, hasSizes.1, sameSize]

/-- Fields that are sorted by hash have equal neighbours when two of the
hashes are equal. -/
theorem hasEqualNeighbours_iff {fields : List FieldDef}
    (sorted : fields.Pairwise fun first second => first.hash.toNat ≤ second.hash.toNat) :
    hasEqualNeighbours fields = true ↔ ¬ (fields.map FieldDef.hash).Nodup := by
  induction fields with
  | nil => exact ⟨nofun, fun repeated => absurd List.nodup_nil repeated⟩
  | cons first rest ih =>
      have parts := List.pairwise_cons.mp sorted
      cases rest with
      | nil => exact ⟨nofun, fun repeated => absurd (List.nodup_singleton _) repeated⟩
      | cons second others =>
          have more := ih parts.2
          have behind := (List.pairwise_cons.mp parts.2).1
          have cons : ((first :: second :: others).map FieldDef.hash).Nodup ↔
              first.hash ∉ (second :: others).map FieldDef.hash ∧
                ((second :: others).map FieldDef.hash).Nodup := List.nodup_cons
          rw [hasEqualNeighbours, Bool.or_eq_true, beq_iff_eq, more, cons, not_and_or, not_not]
          refine or_congr_left ⟨fun same => ?_, fun member => ?_⟩
          · rw [same]
            exact List.mem_cons_self
          · -- a later field of equal hash is not before the second one
            obtain ⟨other, inRest, same⟩ := List.mem_map.mp member
            have firstLe := parts.1 second List.mem_cons_self
            have secondLe : second.hash.toNat ≤ other.hash.toNat := by
              cases List.mem_cons.mp inRest with
              | inl equal => exact Nat.le_of_eq (by rw [equal])
              | inr later => exact behind other later
            rw [same] at secondLe
            exact UInt32.toNat_inj.mp (Nat.le_antisymm firstLe secondLe)

/-! ### Writing positions -/

section Writing

variable {plan : Plan} {busy : List TypeId} {extra : Nat} {heap : Heap} {state : State}
  {id : TypeId} {type : TypeDef} {fields moved : List FieldDef}

theorem run_writeFields (closed : plan.Closed) (arranging : Arranging plan heap state)
    (isType : plan.types id) (notDone : id ∉ state.done) (notBusy : id ∉ busy)
    (stored : HasType heap id type) (hasFields : HasFields heap id type fields)
    (moves : FieldsMove fields moved) {sized : TypeDef} (samePlace : sized.fields = type.fields) :
    Run (onBuilder (Builder.writeFields sized moved)) state
      (fun _ after => after.done = state.done ∧
        exists later, Proceeds plan busy 0 heap state later after ∧
          HasType later id type ∧ HasFields later id type moved) (Stops plan) := by
  have sameLength := moves.length
  unfold Builder.writeFields
  rw [samePlace]
  by_cases isEmpty : fields = []
  · subst isEmpty
    have none : moved = [] := List.length_eq_zero_iff.mp sameLength
    subst none
    exact ⟨rfl, heap, Proceeds.refl arranging, stored, hasFields⟩
  · have present := hasFields.2 isEmpty
    have storable := (arranging.holds.storable _ _ present).2
    have write := builds_writeFieldsAt [] moved arranging.holds present sameLength.symm (by
      intro field member
      obtain ⟨earlier, inFields, offset, rfl⟩ := moves.mem member
      exact storable earlier inFields)
    rw [List.length_nil, Nat.mul_zero, Nat.add_zero, Offset.ofNat_toNat] at write
    refine (run_onBuilder write.withSpare).imp ?_ (fun _ _ stops => stops)
    rintro _ after ⟨builder, rfl, ⟨instances, holds⟩, room⟩
    have alters := alters_fields stored present moves
    refine ⟨rfl, _, .altered closed arranging isType notDone notBusy alters holds ⟨instances, room⟩,
      ?_,
      hasFields.1.trans sameLength.symm, fun _ => set_same heap _ _⟩
    refine (set_other heap _ ?_).trans stored
    intro same
    rw [← same] at present
    cases stored.symm.trans present

end Writing

/-! ### Shapes -/

section Shapes

variable {plan : Plan} {depth : Nat} {arrange : TypeId -> LayoutM TypeDef} {heap later : Heap}
  {state after : State} {id : TypeId} {rest : List TypeId} {type : TypeDef}
  {fields : List FieldDef} {declaration : Declaration}

/-- A type that is being laid out, inside of some others. -/
structure Current (plan : Plan) (rest : List TypeId) (id : TypeId) (type : TypeDef)
    (fields : List FieldDef) (declaration : Declaration) (heap : Heap) (state : State) : Prop where
  arranging : Arranging plan heap state
  isType : plan.types id
  inProgress : state.inProgress = id :: rest
  stored : HasType heap id type
  hasFields : HasFields heap id type fields
  declares : Declares plan.start id declaration
  is : type.Is heap declaration fields
  sound : plan.Sound declaration
  isComposite : IsComposite type
  nested : Nested plan rest id

/-- The positions of the fields of a type are written, and its new record is
known. -/
structure Places (plan : Plan) (rest : List TypeId) (id : TypeId) (type : TypeDef)
    (declaration : Declaration) (heap : Heap) (state : State) (arranged : TypeDef) (later : Heap)
    (after : State) : Prop where
  proceeds : Proceeds plan rest declaration.members.length heap state later after
  stored : HasType later id type
  resizes : type.Resizes arranged
  exactly : forall slotOf, plan.Exact slotOf -> Variable.ofType plan.target arranged = slotOf id
  arranged : exists fields slots align, HasFields later id type fields ∧
    IsArranged later plan.target (· ∈ after.done) arranged fields slots align
  reached : forall member, member ∈ declaration.members ->
    forall type, member.type = some type -> Reached after type

theorem Arranging.notDone (arranging : Arranging plan heap state)
    (inProgress : state.inProgress = id :: rest) : id ∉ state.done ∧ id ∉ rest := by
  have distinct := arranging.distinct
  rw [inProgress, List.cons_append] at distinct
  have absent := (List.nodup_cons.mp distinct).1
  exact ⟨fun isDone => absent (List.mem_append_right _ isDone),
    fun isBusy => absent (List.mem_append_left _ isBusy)⟩

theorem Proceeds.within {busy : List TypeId} {extra : Nat}
    (proceeds : Proceeds plan busy extra heap state later after)
    (included : forall id, id ∈ rest -> id ∈ busy) : Proceeds plan rest extra heap state later after :=
  { proceeds with untouched := fun id kept => proceeds.untouched id (kept.imp_right (included id)) }

theorem Current.length (current : Current plan rest id type fields declaration heap state) :
    fields.length = declaration.members.length := by
  have same := current.is.members.length
  rw [Sorted.length_sortBy] at same
  exact same

/-- What lies inline in a type that is being laid out lies inside of all
others that are. -/
theorem nestedInline_of_member (declares : Declares plan.start id declaration)
    (nested : Nested plan rest id) {inner : TypeId}
    (isInner : inner ∈ declaration.members.filterMap Member.type) :
    NestedInline plan (id :: rest) inner := by
  intro innerType stored inline outer isBusy
  have edge : plan.Inlines id inner := ⟨declaration, innerType, declares, isInner, stored, inline⟩
  cases List.mem_cons.mp isBusy with
  | inl same => exact same ▸ .single edge
  | inr further => exact (nested outer further).tail edge

theorem Current.nestedInline (current : Current plan rest id type fields declaration heap state)
    {inner : TypeId} (isInner : inner ∈ declaration.members.filterMap Member.type) :
    NestedInline plan state.inProgress inner :=
  current.inProgress ▸ nestedInline_of_member current.declares current.nested isInner

theorem Current.areTyped (current : Current plan rest id type fields declaration heap state) :
    AreTyped plan state.inProgress (Sorted.sortBy FieldDef.orderKey fields) := by
  intro field member
  obtain ⟨index, bound, rfl⟩ := List.getElem_of_mem member
  have inMembers : index < declaration.members.length := by
    have same := current.is.members.length
    omega
  obtain ⟨type, isType, known⟩ := current.sound.members _ (List.getElem_mem inMembers)
  exact ⟨type, (current.is.members.get inMembers bound).type.trans isType, known,
    current.nestedInline (List.mem_filterMap.mpr ⟨_, List.getElem_mem inMembers, isType⟩)⟩

/-- The fields have the types that the members have. -/
theorem Current.types_eq (current : Current plan rest id type fields declaration heap state) :
    (Sorted.sortBy FieldDef.orderKey fields).filterMap FieldDef.type =
      declaration.members.filterMap Member.type :=
  current.is.members.types_eq

/-- The record of the current type from before the layout. -/
theorem Current.exists_start (current : Current plan rest id type fields declaration heap state) :
    exists startType, HasType plan.start id startType ∧ type.name = startType.name ∧
      type.isStoredByReference = startType.isStoredByReference ∧
      ¬ (startType.isBuiltin && startType.fieldCount == 0) = true := by
  have ⟨startType, _, startStored, _⟩ := current.declares
  obtain ⟨later, laterStored, sameOrResizes⟩ := current.arranging.relaid.hasType startStored
  cases hasType_inj current.stored laterStored
  refine ⟨startType, startStored, ?_⟩
  rw [Bool.and_eq_true, beq_iff_eq]
  rcases sameOrResizes with rfl | resizes
  · exact ⟨rfl, rfl, fun ⟨isBuiltin, noFields⟩ => current.isComposite.composite isBuiltin noFields⟩
  · exact ⟨resizes.name, resizes.byReference,
      fun ⟨isBuiltin, noFields⟩ => resizes.composite isBuiltin noFields⟩

/-- A failure is justified when the exact size of the current type is too
large. -/
theorem Current.stops (current : Current plan rest id type fields declaration heap state)
    {middleHeap : Heap} {middle : State} (arranging : Arranging plan middleHeap middle)
    (large : forall slotOf, plan.Exact slotOf -> 2 ^ 32 ≤
      (exactRoom declaration.shape ((declaration.members.filterMap Member.type).map slotOf)).size) :
    Stops plan (Schema.malformed ⟨middle.builder.arena⟩ type .layoutTooLarge) middle := by
  obtain ⟨startType, startStored, sameName, _, composite⟩ := current.exists_start
  refine ⟨id, startType, declaration, current.isType, startStored, current.declares,
    fun slotOf isExact => ?_, fun text hasText => ?_⟩
  · rw [exactInstance, if_neg composite]
    exact large slotOf isExact
  · exact arranging.holds.name (sameName ▸ arranging.relaid.hasText hasText)

/-- The current type takes exactly the room that follows from the rules. -/
theorem Current.ofType_eq (current : Current plan rest id type fields declaration heap state)
    {size align : Nat} {arranged : TypeDef}
    (sizes : Sizes plan.target type size align arranged) (isAlign : IsAlign align)
    (room : forall slotOf, plan.Exact slotOf -> (⟨size, align⟩ : Variable) =
      exactRoom declaration.shape ((declaration.members.filterMap Member.type).map slotOf)) :
    forall slotOf, plan.Exact slotOf -> Variable.ofType plan.target arranged = slotOf id := by
  intro slotOf isExact
  obtain ⟨startType, startStored, _, sameReference, composite⟩ := current.exists_start
  rw [isExact id startType declaration current.isType startStored current.declares,
    sizes.ofType_eq isAlign, sameReference, exactInstance, if_neg composite, room slotOf isExact]

theorem Current.ascending (current : Current plan rest id type fields declaration heap state) :
    (Sorted.sortBy FieldDef.orderKey fields).Pairwise
      fun first second => first.orderKey < second.orderKey := by
  refine current.is.members.ascending ?_
  have few := type.fieldCount.toNat_lt
  have count := current.hasFields.1
  have same := current.length
  omega

theorem hasVariable_moves {target : Target} {settled : TypeId -> Prop} {placed : List FieldDef}
    {slots : List Variable} (takes : List.Forall₂ (HasVariable heap target settled) fields slots)
    (moves : List.Forall₂ FieldDef.Moves fields placed) :
    List.Forall₂ (HasVariable heap target settled) placed slots := by
  induction moves generalizing slots with
  | nil => exact takes
  | cons move _ ih =>
      cases takes with
      | cons take others =>
          obtain ⟨offset, rfl⟩ := move
          exact .cons take (ih others)

theorem map_orderKey_moves {placed : List FieldDef} (moves : List.Forall₂ FieldDef.Moves fields placed) :
    placed.map FieldDef.orderKey = fields.map FieldDef.orderKey := by
  induction moves with
  | nil => rfl
  | cons move _ ih =>
      obtain ⟨offset, rfl⟩ := move
      rw [List.map_cons, List.map_cons, ih]
      rfl

theorem ascending_moves {placed : List FieldDef} (moves : List.Forall₂ FieldDef.Moves fields placed)
    (ascending : fields.Pairwise fun first second => first.orderKey < second.orderKey) :
    placed.Pairwise fun first second => first.orderKey < second.orderKey :=
  List.pairwise_map.mp (map_orderKey_moves moves ▸ List.pairwise_map.mpr ascending)

/-- The positions of fields are written, in the order of storage. -/
theorem run_place (closed : plan.Closed)
    (current : Current plan rest id type fields declaration heap state)
    (proceeds : Proceeds plan state.inProgress declaration.members.length heap state later after)
    {slots : List Variable} {placed moved : List FieldDef}
    (takes : Takes plan later after (Sorted.sortBy FieldDef.orderKey fields) slots)
    (moves : List.Forall₂ FieldDef.Moves (Sorted.sortBy FieldDef.orderKey fields) placed)
    (filed : moved = storageOrder type.shape placed) {size align : Nat} {sized arranged : TypeDef}
    (samePlace : sized.fields = type.fields)
    (sizes : Sizes plan.target type size align arranged)
    (isPlaced : Placed type.shape (placed.zip slots) size) (isAlign : IsAlign align)
    (multiple : align ∣ size) (room : (⟨size, align⟩ : Variable) = exactRoom type.shape slots)
    (places : placed.map (fun field => field.offset.toNat) = exactPlaces type.shape slots)
    (mark : type.shape = .struct -> (arranged.flags.contains TypeFlags.hasHashCollisions = true ↔
      ¬ (moved.map FieldDef.hash).Nodup)) :
    Run (onBuilder (Builder.writeFields sized moved)) after
      (fun _ last => exists final, Places plan rest id type declaration heap state arranged final last)
      (Stops plan) := by
  have stillCurrent := proceeds.inProgress.trans current.inProgress
  obtain ⟨notDone, notBusy⟩ := proceeds.arranging.notDone stillCurrent
  have busy : id ∈ state.inProgress := current.inProgress ▸ List.mem_cons_self
  have laterStored := proceeds.untouched id (Or.inr busy) type current.stored
  have inOrder : Sorted.sortBy FieldDef.orderKey moved = placed :=
    Sorted.sortBy_of_perm (ascending_moves moves current.ascending)
      (filed ▸ storageOrder_perm type.shape placed)
  have fieldsMove : FieldsMove fields moved := by
    unfold FieldsMove
    rw [inOrder]
    exact moves
  refine (run_writeFields closed proceeds.arranging current.isType notDone notBusy laterStored.1
    (laterStored.2 fields current.hasFields) fieldsMove samePlace).imp ?_ (fun _ _ stops => stops)
  rintro _ last ⟨sameDone, final, more, finalStored, finalFields⟩
  have inside : forall id, id ∈ rest -> id ∈ state.inProgress := by
    rw [current.inProgress]
    exact fun _ => List.mem_cons_of_mem _
  have strictest : align = greatestAlign slots 1 :=
    (congrArg Variable.align room).trans (align_exactRoom type.shape slots)
  refine ⟨final, (proceeds.within inside).trans more, finalStored, sizes.resizes,
    current.ofType_eq sizes isAlign fun slotOf isExact => ?_,
    ⟨moved, slots, align, finalFields, ?_, ?_, sizes.hasSizes, isAlign, ?_, Or.inr strictest,
      Or.inr ⟨?_, ?_⟩, fun isStruct => mark (sizes.resizes.shape.symm.trans isStruct), ?_⟩, ?_⟩
  · rw [room, ← current.types_eq, ← takes.exactly slotOf isExact, current.is.shape]
  · rw [inOrder]
    refine hasVariable_moves (takes.taken.imp fun _ _ takes => ?_) moves
    exact hasVariable_relaid takes more.relaid
      (fun inner isDone => more.untouched inner (Or.inl isDone)) more.done
  · rw [inOrder, sizes.resizes.shape, sizes.size]
    exact isPlaced
  · rw [sizes.size]
    exact multiple
  · rw [sizes.size, sizes.resizes.shape, ← room]
  · rw [inOrder, sizes.resizes.shape]
    exact places
  · rw [inOrder, sizes.resizes.shape]
    exact filed
  · intro member inMembers type isType
    obtain ⟨index, bound, rfl⟩ := List.getElem_of_mem inMembers
    have inFields : index < (Sorted.sortBy FieldDef.orderKey fields).length := by
      have same := current.is.members.length
      omega
    have is := current.is.members.get bound inFields
    exact more.reached _ (takes.reached _ (List.getElem_mem inFields) _ (is.type.trans isType))

theorem InSequence.mono {entries : List Entry} {position stop limit : Nat}
    (inSequence : InSequence entries position stop) (below : stop ≤ limit) :
    InSequence entries position limit := by
  induction entries generalizing position with
  | nil => exact Nat.le_trans inSequence below
  | cons entry others ih => exact ⟨inSequence.1, inSequence.2.1, ih inSequence.2.2⟩

theorem Takes.areAligns {slots : List Variable} (takes : Takes plan later after fields slots) :
    forall slot, slot ∈ slots -> IsAlign slot.align := by
  intro slot member
  obtain ⟨index, bound, rfl⟩ := List.getElem_of_mem member
  have parts := List.forall₂_iff_get.mp takes.taken
  have inFields : index < fields.length := by
    have same := parts.1
    omega
  obtain ⟨_, _, _, _, _, isAlign, _⟩ := parts.2 index inFields bound
  exact isAlign

theorem run_arrangeInSequence (arranges : Arranges plan depth arrange) (closed : plan.Closed)
    (current : Current plan rest id type fields declaration heap state)
    (deep : depth ≤ state.inProgress.length) (notVariant : type.shape ≠ .variant) {byHash : Bool}
    (isStruct : byHash = true ↔ type.shape = .struct) :
    Run (arrangeInSequence arrange plan.target type byHash) state
      (fun arranged after => exists later,
        Places plan rest id type declaration heap state arranged later after) (Stops plan) := by
  have sameLength := current.is.members.length
  unfold arrangeInSequence
  refine run_ask (current.arranging.holds.fieldsInOrder current.hasFields) ?_
  have declaredShape : declaration.shape ≠ .variant := current.is.shape ▸ notVariant
  have stopsAt : StopsAt plan type (Sorted.sortBy FieldDef.orderKey fields) 0 := by
    intro middleHeap middle arranging large
    refine current.stops arranging fun slotOf isExact => ?_
    rw [exactRoom_of_ne declaredShape, ← current.types_eq]
    exact Nat.le_trans (large slotOf isExact) (le_alignUp_of_any _ _)
  refine Run.andThen (run_placeFields arranges closed type current.areTyped current.arranging
    deep stopsAt 1) ?_ (fun _ _ stops => stops)
  rintro ⟨placed, stop, align⟩ after
    ⟨later, slots, proceeds, takes, moves, inSequence, same, sameEnd, places⟩
  simp only at moves inSequence same sameEnd places
  subst same sameEnd
  have isAlign : IsAlign (greatestAlign slots 1) := isAlign_greatestAlign .one takes.areAligns
  have room (slotOf : TypeId -> Variable) (isExact : plan.Exact slotOf) :
      (⟨alignUp (sequenceEnd slots 0) (greatestAlign slots 1), greatestAlign slots 1⟩ : Variable) =
        exactRoom declaration.shape ((declaration.members.filterMap Member.type).map slotOf) := by
    rw [exactRoom_of_ne declaredShape, ← current.types_eq, ← takes.exactly slotOf isExact]
  refine Run.andThen (run_checkSize fun large => current.stops proceeds.arranging
    fun slotOf isExact => room slotOf isExact ▸ large) ?_ (fun _ _ stops => stops)
  rintro size after ⟨rfl, small, rfl⟩
  have sizes := sizes_withSize plan.target current.isComposite isAlign small
  have isPlaced : Placed type.shape (placed.zip slots)
      (alignUp (sequenceEnd slots 0) (greatestAlign slots 1)) := by
    have inside := inSequence.mono (isAlign.le_alignUp (sequenceEnd slots 0))
    unfold Placed
    cases shape : type.shape with
    | variant => exact absurd shape notVariant
    | _ => exact inside
  have isRoom := (exactRoom_of_ne notVariant slots).symm
  have arePlaces := places.trans (exactPlaces_of_ne notVariant slots).symm
  have all : Proceeds plan state.inProgress declaration.members.length heap state later _ :=
    proceeds.weaken (Nat.le_of_eq sameLength)
  cases byHash with
  | true =>
      have isStored : Sorted.sortBy (fun field => field.hash.toNat) placed =
          storageOrder type.shape placed := by
        rw [isStruct.mp rfl]
        rfl
      refine Run.andThen (run_place closed current all takes moves isStored
        sizes.resizes.fields (sizes.flagged (isStruct.mp rfl) (hasEqualNeighbours
          (Sorted.sortBy (fun field => field.hash.toNat) placed)))
        isPlaced isAlign (isAlign.dvd_alignUp _) isRoom arePlaces fun _ => ?_) ?_
        (fun _ _ stops => stops)
      · rw [← hasEqualNeighbours_iff (Sorted.pairwise_sortBy _ placed)]
        exact Bool.eq_iff_iff.mp (contains_set_self _ _)
      · exact fun _ _ places => places
  | false =>
      have notStruct : type.shape ≠ .struct := fun shape => Bool.noConfusion (isStruct.mpr shape)
      refine Run.andThen (run_place closed current all takes moves
        (storageOrder_of_ne notStruct placed).symm sizes.resizes.fields sizes isPlaced isAlign (isAlign.dvd_alignUp _) isRoom arePlaces
        fun shape => absurd shape notStruct) ?_
        (fun _ _ stops => stops)
      exact fun _ _ places => places

theorem le_greatestAlign (slots : List Variable) (least : Nat) :
    least ≤ greatestAlign slots least := by
  induction slots generalizing least with
  | nil => exact Nat.le_refl least
  | cons slot others ih => exact Nat.le_trans (Nat.le_max_left _ _) (ih _)

theorem align_le_greatestAlign {slots : List Variable} {least : Nat} {slot : Variable}
    (member : slot ∈ slots) : slot.align ≤ greatestAlign slots least := by
  induction slots generalizing least with
  | nil => cases member
  | cons head others ih =>
      cases List.mem_cons.mp member with
      | inl same =>
          subst same
          exact Nat.le_trans (Nat.le_max_right _ _) (le_greatestAlign others _)
      | inr later => exact ih later

theorem exists_tagged {fields : List FieldDef} (several : 2 ≤ fields.length) :
    exists tag first others, fields = tag :: first :: others := by
  cases fields with
  | nil => cases several
  | cons tag alternatives =>
      cases alternatives with
      | nil => exact absurd several (Nat.not_le_of_lt Nat.one_lt_two)
      | cons first others => exact ⟨tag, first, others, rfl⟩

/-- A variant has a tag and at least one alternative. -/
theorem Current.exists_alternatives
    (current : Current plan rest id type fields declaration heap state)
    (isVariant : type.shape = .variant) :
    exists tag first others, Sorted.sortBy FieldDef.orderKey fields = tag :: first :: others := by
  refine exists_tagged ?_
  rw [current.is.members.length]
  exact current.sound.alternatives (current.is.shape.symm.trans isVariant)

theorem run_arrangeVariant (arranges : Arranges plan depth arrange) (closed : plan.Closed)
    (current : Current plan rest id type fields declaration heap state)
    (deep : depth ≤ state.inProgress.length) (isVariant : type.shape = .variant) :
    Run (arrangeVariant arrange plan.target type) state
      (fun arranged after => exists later,
        Places plan rest id type declaration heap state arranged later after) (Stops plan) := by
  have sameLength := current.is.members.length
  have areTyped := current.areTyped
  unfold arrangeVariant
  refine run_ask (current.arranging.holds.fieldsInOrder current.hasFields) ?_
  obtain ⟨tag, first, others, inOrder⟩ := current.exists_alternatives isVariant
  rw [inOrder] at areTyped sameLength
  obtain ⟨⟨tagId, isTag, tagIsType, tagNested⟩, othersTyped⟩ := List.forall_mem_cons.mp areTyped
  rw [show Sorted.sortBy (fun field => field.order.toNat) fields = tag :: first :: others from
    inOrder]
  refine run_ask (fieldType_of type isTag) ?_
  refine Run.andThen (run_variableWith arranges closed current.arranging deep tagIsType tagNested
    isTag) ?_ (fun _ _ stops => stops)
  rintro tagSlot middle ⟨middleHeap, tagProceeds, tagTakes, tagReached, tagExactly⟩
  have more := run_greatest arranges closed type (tagProceeds.inProgress ▸ othersTyped)
    tagProceeds.arranging (tagProceeds.inProgress ▸ deep) ⟨0, 1⟩
  rw [tagProceeds.inProgress] at more
  refine Run.andThen more ?_ (fun _ _ stops => stops)
  rintro payload after ⟨later, slots, proceeds, othersTake, sameAlign, _, larger, sameSize⟩
  have takes := Takes.cons tagTakes isTag tagReached tagExactly proceeds othersTake
  rw [← inOrder] at takes
  have all : Proceeds plan state.inProgress declaration.members.length heap state later after :=
    (tagProceeds.trans proceeds).weaken (by rw [← sameLength]; exact Nat.le_of_eq (Nat.add_comm _ _))
  have payloadAlign : IsAlign payload.align := by
    rw [sameAlign]
    exact isAlign_greatestAlign .one othersTake.areAligns
  have isAlign : IsAlign (max tagSlot.align payload.align) :=
    (takes.areAligns tagSlot List.mem_cons_self).maximum payloadAlign
  have isRoom : (⟨alignUp (alignUp tagSlot.size payload.align + payload.size)
      (max tagSlot.align payload.align), max tagSlot.align payload.align⟩ : Variable) =
        exactRoom type.shape (tagSlot :: slots) := by
    rw [isVariant, exactRoom, sameAlign, sameSize]
  have room (slotOf : TypeId -> Variable) (isExact : plan.Exact slotOf) :
      exactRoom type.shape (tagSlot :: slots) =
        exactRoom declaration.shape ((declaration.members.filterMap Member.type).map slotOf) := by
    rw [← current.types_eq, ← takes.exactly slotOf isExact, current.is.shape]
  have stopsWithin {value : Nat} (within : value ≤
      alignUp (alignUp tagSlot.size payload.align + payload.size)
        (max tagSlot.align payload.align)) (large : 2 ^ 32 ≤ value) :
      Stops plan (Schema.malformed ⟨after.builder.arena⟩ type .layoutTooLarge) after :=
    current.stops proceeds.arranging fun slotOf isExact => by
      rw [← room slotOf isExact, ← isRoom]
      exact Nat.le_trans large within
  have inside := le_alignUp_of_any (alignUp tagSlot.size payload.align + payload.size)
    (max tagSlot.align payload.align)
  refine Run.andThen (run_checkSize (stopsWithin (by omega))) ?_ (fun _ _ stops => stops)
  rintro place _ ⟨rfl, placeSmall, rfl⟩
  refine Run.andThen (run_checkSize (stopsWithin inside)) ?_ (fun _ _ stops => stops)
  rintro stop _ ⟨rfl, _, rfl⟩
  refine Run.andThen (run_checkSize (stopsWithin (Nat.le_refl _))) ?_ (fun _ _ stops => stops)
  rintro size _ ⟨rfl, small, rfl⟩
  have sizes := sizes_withSize plan.target current.isComposite isAlign small
  have tagBefore := payloadAlign.le_alignUp tagSlot.size
  have moves : List.Forall₂ FieldDef.Moves (Sorted.sortBy FieldDef.orderKey fields)
      ({ tag with offset := 0 } :: (first :: others).map fun field =>
        { field with offset := UInt32.ofNat (alignUp tagSlot.size payload.align) }) := by
    rw [inOrder]
    refine .cons ⟨0, rfl⟩ (List.forall₂_map_right_iff.mpr (List.forall₂_same.mpr ?_))
    exact fun field _ => ⟨_, rfl⟩
  have notStruct : type.shape ≠ .struct := fun shape => Shape.noConfusion (isVariant.symm.trans shape)
  refine Run.andThen (run_place closed current all takes moves (storageOrder_of_ne notStruct _).symm
    sizes.resizes.fields sizes ?_ isAlign (isAlign.dvd_alignUp _) isRoom ?_
    fun isStruct => absurd isStruct notStruct) ?_
    (fun _ _ stops => stops)
  · rw [isVariant]
    refine ⟨rfl, by omega, alignUp tagSlot.size payload.align, tagBefore, ?_⟩
    intro entry member
    obtain ⟨inFields, inSlots⟩ := List.of_mem_zip member
    obtain ⟨field, _, same⟩ := List.mem_map.mp inFields
    refine ⟨?_, ?_, ?_⟩
    · rw [← same, UInt32.toNat_ofNat']
      exact Nat.mod_eq_of_lt placeSmall
    · refine Nat.dvd_trans ?_ (payloadAlign.dvd_alignUp tagSlot.size)
      refine (othersTake.areAligns _ inSlots).dvd_of_le payloadAlign ?_
      rw [sameAlign]
      exact align_le_greatestAlign inSlots
    · have slotSize := larger _ inSlots
      omega
  · have sameCount := othersTake.taken.length_eq
    have offset : (UInt32.ofNat (alignUp tagSlot.size payload.align)).toNat =
        alignUp tagSlot.size (greatestAlign slots 1) := by
      rw [UInt32.toNat_ofNat', ← sameAlign]
      exact Nat.mod_eq_of_lt placeSmall
    rw [isVariant, List.map_cons, List.map_map]
    change 0 :: (first :: others).map (fun _ =>
      (UInt32.ofNat (alignUp tagSlot.size payload.align)).toNat) = 0 :: slots.map fun _ => _
    rw [offset, List.map_const', List.map_const', sameCount]
  · exact fun _ _ places => places

/-- All that a type refers to is taken care of, and its new record is known. -/
structure Shaped (plan : Plan) (rest : List TypeId) (id : TypeId) (type : TypeDef)
    (declaration : Declaration) (heap : Heap) (state : State) (arranged : TypeDef) (later : Heap)
    (after : State) : Prop where
  proceeds : Proceeds plan rest (declaration.members.length + 1) heap state later after
  stored : HasType later id type
  resizes : type.Resizes arranged
  exactly : forall slotOf, plan.Exact slotOf -> Variable.ofType plan.target arranged = slotOf id
  arranged : exists fields slots align, HasFields later id type fields ∧
    IsArranged later plan.target (· ∈ after.done) arranged fields slots align
  covered : Covered plan after id

theorem Places.shaped {arranged : TypeDef} {last : State}
    (current : Current plan rest id type fields declaration heap state)
    (places : Places plan rest id type declaration heap state arranged later after)
    (proceeds : Proceeds plan rest 1 later after later last)
    (argument : forall type, declaration.argument = some type -> Reached last type) :
    Shaped plan rest id type declaration heap state arranged later last := by
  obtain ⟨fields, slots, align, hasFields, isArranged⟩ := places.arranged
  refine ⟨places.proceeds.trans proceeds, places.stored, places.resizes, places.exactly,
    ⟨fields, slots, align, hasFields, isArranged_relaid isArranged (Relaid.refl later)
      (fun inner _ => Untouched.refl later inner) proceeds.done⟩, ?_⟩
  intro other declares successor refers
  cases declares_inj current.declares declares
  cases List.mem_append.mp refers with
  | inl isMember =>
      obtain ⟨member, inMembers, isType⟩ := List.mem_filterMap.mp isMember
      exact proceeds.reached _ (places.reached member inMembers successor isType)
  | inr isArgument => exact argument successor (Option.mem_toList.mp isArgument)

theorem run_postponeArgument (busy : List TypeId) (arranging : Arranging plan heap state)
    {argument : Option TypeId} (areTypes : forall type, argument = some type -> plan.types type) :
    Run (postponeArgument argument) state
      (fun _ after => Proceeds plan busy 1 heap state heap after ∧
        forall type, argument = some type -> Reached after type) (Stops plan) := by
  unfold postponeArgument
  cases argument with
  | none => exact ⟨(Proceeds.refl arranging).weaken (Nat.zero_le 1), nofun⟩
  | some id =>
      refine run_isDone.mpr ?_
      split
      next isDone =>
        refine ⟨(Proceeds.refl arranging).weaken (Nat.zero_le 1), ?_⟩
        rintro _ ⟨rfl⟩
        exact Or.inl (List.contains_iff_mem.mp isDone)
      next =>
        refine ⟨.postponed arranging (areTypes id rfl), ?_⟩
        rintro _ ⟨rfl⟩
        exact Or.inr (Or.inr List.mem_cons_self)

theorem run_arrangeShape (arranges : Arranges plan depth arrange) (closed : plan.Closed)
    (current : Current plan rest id type fields declaration heap state)
    (deep : depth ≤ state.inProgress.length) :
    Run (arrangeShape arrange plan.target type) state
      (fun arranged after => exists later,
        Shaped plan rest id type declaration heap state arranged later after)
      (Stops plan) := by
  have sameShape := current.is.shape
  have inside {arranged : TypeDef} {later : Heap} {after : State}
      (places : Places plan rest id type declaration heap state arranged later after)
      (isInside : declaration.shape = .struct ∨ declaration.shape = .variant) :
      exists later, Shaped plan rest id type declaration heap state arranged later after := by
    refine ⟨later, places.shaped current
      ((Proceeds.refl places.proceeds.arranging).weaken (Nat.zero_le 1)) ?_⟩
    intro argument isArgument
    obtain ⟨member, inMembers, isType⟩ := current.sound.stored argument isArgument isInside
    exact places.reached member inMembers argument isType
  have apart (notVariant : type.shape ≠ .variant) (notStruct : type.shape ≠ .struct) :
      Run (do
          let arranged ← arrangeInSequence arrange plan.target type false
          postponeArgument type.argument
          return arranged : LayoutM TypeDef) state
        (fun arranged after => exists later,
          Shaped plan rest id type declaration heap state arranged later after) (Stops plan) := by
    refine Run.andThen (run_arrangeInSequence arranges closed current deep notVariant
      ⟨nofun, fun isStruct => absurd isStruct notStruct⟩) ?_ (fun _ _ stops => stops)
    rintro arranged middle ⟨later, places⟩
    refine Run.andThen (run_postponeArgument rest places.proceeds.arranging ?_) ?_
      (fun _ _ stops => stops)
    · intro argument isArgument
      exact current.sound.argument argument (current.is.argument.symm.trans isArgument)
    · rintro _ after ⟨proceeds, isReached⟩
      refine run_pure.mpr ⟨later, places.shaped current proceeds ?_⟩
      intro argument isArgument
      exact isReached argument (current.is.argument.trans isArgument)
  unfold arrangeShape
  cases shape : type.shape with
  | struct =>
      refine (run_arrangeInSequence arranges closed current deep (by rw [shape]; nofun)
        ⟨fun _ => shape, fun _ => rfl⟩).imp ?_ (fun _ _ stops => stops)
      exact fun _ _ ⟨_, places⟩ => inside places (Or.inl (sameShape.symm.trans shape))
  | variant =>
      refine (run_arrangeVariant arranges closed current deep shape).imp ?_
        (fun _ _ stops => stops)
      exact fun _ _ ⟨_, places⟩ => inside places (Or.inr (sameShape.symm.trans shape))
  | array => exact apart (by rw [shape]; nofun) (by rw [shape]; nofun)
  | map => exact apart (by rw [shape]; nofun) (by rw [shape]; nofun)

/-! ### Types -/

theorem Covered.mono (covered : Covered plan state id)
    (reached : forall other, Reached state other -> Reached after other) : Covered plan after id :=
  fun declaration declares successor member =>
    reached successor (covered declaration declares successor member)

/-- The new record of a type is stored, and the type is done. -/
theorem Shaped.finish (closed : plan.Closed) {arranged : TypeDef} {builder : Builder}
    (isType : plan.types id)
    (declares : Declares plan.start id declaration)
    (shaped : Shaped plan state.inProgress id type declaration heap
      { state with inProgress := id :: state.inProgress } arranged later after)
    (holds : (later.set id.offset.toNat (.type arranged)).Holds builder.arena)
    (rests : Rests after.builder builder) :
    Proceeds plan state.inProgress 0 heap state (later.set id.offset.toNat (.type arranged))
      { after with
        builder := builder
        done := id :: after.done
        inProgress := after.inProgress.erase id } := by
  have proceeds := shaped.proceeds
  have inProgress : after.inProgress = id :: state.inProgress := proceeds.inProgress
  obtain ⟨notDone, notBusy⟩ := proceeds.arranging.notDone inProgress
  have alters := alters_type shaped.stored shaped.resizes
  have arranging := proceeds.arranging.altered closed isType notDone alters holds
  have others (other : TypeId) (isDone : other ∈ after.done) :
      Untouched later (later.set id.offset.toNat (.type arranged)) other :=
    alters.untouched fun same => notDone (same ▸ isDone)
  have erased : after.inProgress.erase id = state.inProgress := by
    rw [inProgress, List.erase_cons_head]
  have mono (other : TypeId) (isReached : Reached after other) :
      Reached { after with
        builder := builder
        done := id :: after.done
        inProgress := after.inProgress.erase id } other := by
    rcases isReached with isDone | isBusy | isPending
    · exact Or.inl (List.mem_cons_of_mem id isDone)
    · rw [inProgress] at isBusy
      cases List.mem_cons.mp isBusy with
      | inl same => exact Or.inl (same ▸ List.mem_cons_self)
      | inr isBusy => exact Or.inr (Or.inl (erased.symm ▸ isBusy))
    · exact Or.inr (Or.inr isPending)
  refine ⟨⟨holds, arranging.relaid, arranging.kept, ?_, ?_, arranging.pending, ?_, ?_⟩,
    proceeds.relaid.trans alters.relaid, ?_, ?_, erased, ?_, ?_, ?_,
    proceeds.rests.trans rests⟩
  · refine List.forall_mem_cons.mpr ⟨⟨isType, ?_⟩, fun other isDone => ?_⟩
    · obtain ⟨fields, slots, align, hasFields, isArranged⟩ := shaped.arranged
      refine ⟨arranged, fields, slots, align, set_same later _ _, ?_,
        isArranged_relaid isArranged alters.relaid others fun _ => List.mem_cons_of_mem id⟩
      refine ⟨(congrArg UInt32.toNat shaped.resizes.fieldCount).trans hasFields.1,
        fun nonempty => ?_⟩
      rw [shaped.resizes.fields]
      have present := hasFields.2 nonempty
      refine (set_other later _ ?_).trans present
      intro same
      rw [same] at present
      cases shaped.stored.symm.trans present
    · obtain ⟨otherIsType, laidOut⟩ := arranging.done other isDone
      exact ⟨otherIsType, laidOut_relaid laidOut (Relaid.refl _) (Untouched.refl _ _)
        (fun inner _ => Untouched.refl _ inner) fun _ => List.mem_cons_of_mem id⟩
  · intro other isBusy
    exact arranging.inProgress other (List.mem_of_mem_erase isBusy)
  · have distinct := arranging.distinct
    simp only [inProgress, List.cons_append] at distinct
    simp only [erased]
    exact (List.perm_middle.nodup_iff).mpr distinct
  · intro slotOf isExact
    refine List.forall_mem_cons.mpr ⟨fun type stored => ?_, arranging.exactly slotOf isExact⟩
    cases hasType_inj stored (set_same later _ _)
    exact shaped.exactly slotOf isExact
  · intro other kept
    refine (proceeds.untouched other kept).trans (alters.untouched ?_)
    rintro rfl
    exact kept.elim (fun isDone => notDone (proceeds.done _ isDone)) notBusy
  · exact fun other isDone => List.mem_cons_of_mem id (proceeds.done other isDone)
  · intro other isReached
    refine mono other (proceeds.reached other ?_)
    exact isReached.imp_right fun later => later.imp_left (List.mem_cons_of_mem id)
  · refine List.forall_mem_cons.mpr ⟨Or.inr (shaped.covered.mono mono), fun other isDone => ?_⟩
    exact (proceeds.covered other isDone).imp_right fun covered => covered.mono mono
  · intro most bounds
    have few := bounds id declaration isType declares
    have count := proceeds.count most bounds
    simp only [List.length_cons, Nat.mul_succ]
    simp only at count
    omega

/-- Different types below some position are no more than the positions. -/
theorem length_le_of_offsets {ids : List TypeId} {bound : Nat} (distinct : ids.Nodup)
    (below : forall id, id ∈ ids -> id.offset.toNat < bound) : ids.length ≤ bound := by
  have offsets : (ids.map fun id => id.offset.toNat).Nodup := by
    refine distinct.map ?_
    rintro ⟨offset⟩ ⟨other⟩ same
    exact congrArg TypeId.mk (Offset.toNat_inj.mp same)
  have included : (ids.map fun id => id.offset.toNat) ⊆ List.range bound := by
    intro position member
    obtain ⟨id, isOne, rfl⟩ := List.mem_map.mp member
    exact List.mem_range.mpr (below id isOne)
  have short := (List.subperm_of_subset offsets included).length_le
  rwa [List.length_map, List.length_range] at short

/-- Different stored types are no more than the used bytes. -/
theorem length_le_used {arena : Arena} (holds : heap.Holds arena) {ids : List TypeId}
    (distinct : ids.Nodup) (stored : forall id, id ∈ ids -> exists type, HasType heap id type) :
    ids.length ≤ arena.used := by
  refine length_le_of_offsets distinct fun id isOne => ?_
  obtain ⟨type, isStored⟩ := stored id isOne
  have inUse := (holds.within _ _ isStored).2.1
  have size := Cell.size_type type
  omega

theorem Plan.Closed.stored (closed : plan.Closed) (arranging : Arranging plan heap state)
    (isType : plan.types id) : exists type, HasType heap id type := by
  obtain ⟨declaration, declares, _⟩ := closed.sound id isType
  obtain ⟨type, _, stored, _⟩ := arranging.relaid.declares declares
  exact ⟨type, stored⟩

theorem laidOut_scalar {target : Target} {settled : TypeId -> Prop} {name : TextRef} {size : Nat}
    (isSize : size = 0 ∨ IsAlign size)
    (stored : HasType heap id (TypeDef.scalar name (UInt32.ofNat size))) :
    LaidOut heap target settled id := by
  have notByReference := TypeDef.isStoredByReference_scalar name (UInt32.ofNat size)
  have small : size ≤ 8 := isSize.elim (fun isEmpty => isEmpty ▸ Nat.zero_le 8) IsAlign.le_eight
  have sizeToNat : (UInt32.ofNat size).toNat = size := by
    rw [UInt32.toNat_ofNat']
    exact Nat.mod_eq_of_lt (by omega)
  refine ⟨_, [], [], if size = 0 then 1 else size, stored,
    ⟨rfl, fun nonempty => absurd rfl nonempty⟩, .nil, Nat.zero_le _, ?_, ?_, ?_,
    Or.inl ⟨rfl, TypeDef.isBuiltin_scalar _ _⟩, Or.inl ⟨rfl, TypeDef.isBuiltin_scalar _ _⟩,
    fun _ => ?_, rfl⟩
  · unfold HasSizes
    rw [if_neg (by rw [notByReference]; nofun)]
    refine ⟨rfl, ?_⟩
    change UInt32.toNat (if UInt32.ofNat size = 0 then 1 else UInt32.ofNat size) = _
    by_cases isEmpty : size = 0
    · subst isEmpty
      rfl
    · have nonzero : ¬ UInt32.ofNat size = 0 := by
        intro zero
        rw [zero] at sizeToNat
        exact isEmpty sizeToNat.symm
      rw [if_neg nonzero, if_neg isEmpty, sizeToNat]
  · split
    · exact .one
    next nonzero => exact isSize.resolve_left nonzero
  · change (if size = 0 then 1 else size) ∣ (UInt32.ofNat size).toNat
    rw [sizeToNat]
    split
    · exact Nat.one_dvd size
    · exact Nat.dvd_refl size
  · have unmarked : FlagSet.contains TypeFlags.builtin TypeFlags.hasHashCollisions = false := by
      decide
    exact ⟨fun marked => Bool.noConfusion (unmarked.symm.trans marked),
      fun repeated => absurd List.nodup_nil repeated⟩

/-- A scalar is done at once. -/
theorem Proceeds.scalar {busy : List TypeId} (closed : plan.Closed)
    (arranging : Arranging plan heap state) (isType : plan.types id)
    (notDone : id ∉ state.done) (declares : Declares plan.start id declaration)
    (isBuiltin : declaration.builtin = true) (isScalar : declaration.members = []) :
    Proceeds plan busy 0 heap state heap
      { state with done := id :: state.done, inProgress := state.inProgress.erase id } := by
  obtain ⟨name, size, isSize, startStored⟩ :=
    closed.scalar id declaration isType declares isBuiltin isScalar
  have stored := arranging.relaid.hasType_of_scalar startStored (TypeDef.isBuiltin_scalar _ _) rfl
  have notBusy : id ∉ state.inProgress := fun isBusy =>
    (arranging.inProgress id isBusy).2 _ startStored (TypeDef.isBuiltin_scalar _ _) rfl
  rw [List.erase_of_not_mem notBusy]
  refine ⟨⟨arranging.holds, arranging.relaid, arranging.kept, ?_, arranging.inProgress,
    arranging.pending, ?_, ?_⟩, Relaid.refl heap, fun other _ => Untouched.refl heap other,
    fun _ => List.mem_cons_of_mem id, rfl, ?_, ?_, ?_, Rests.refl _⟩
  · refine List.forall_mem_cons.mpr ⟨⟨isType, laidOut_scalar isSize stored⟩, fun other isDone => ?_⟩
    obtain ⟨otherIsType, laidOut⟩ := arranging.done other isDone
    exact ⟨otherIsType, laidOut_relaid laidOut (Relaid.refl heap) (Untouched.refl heap other)
      (fun inner _ => Untouched.refl heap inner) fun _ => List.mem_cons_of_mem id⟩
  · refine List.perm_middle.nodup_iff.mpr (List.nodup_cons.mpr ⟨?_, arranging.distinct⟩)
    rw [List.mem_append]
    exact not_or.mpr ⟨notBusy, notDone⟩
  · intro slotOf isExact
    refine List.forall_mem_cons.mpr ⟨fun type typeStored => ?_, arranging.exactly slotOf isExact⟩
    cases hasType_inj typeStored stored
    have byReference := TypeDef.isStoredByReference_scalar name (UInt32.ofNat size)
    rw [isExact id _ declaration isType startStored declares, if_neg (by rw [byReference]; nofun),
      exactInstance, if_pos (by rw [TypeDef.isBuiltin_scalar]; rfl)]
  · exact fun other isReached => isReached.imp_left (List.mem_cons_of_mem id)
  · refine List.forall_mem_cons.mpr ⟨Or.inr ?_, fun _ => Or.inl⟩
    intro other otherDeclares successor refers
    cases declares_inj declares otherDeclares
    obtain ⟨type, _, typeStored, _, is⟩ := declares
    cases hasType_inj startStored typeStored
    have noArgument : declaration.argument = none := is.argument.symm
    rw [Declaration.successors, isScalar, noArgument] at refers
    cases refers
  · exact fun most _ => Nat.add_le_add_left (Nat.mul_le_mul_left most (Nat.le_succ _)) _

/-- A type that is neither done nor being laid out is begun. -/
theorem Current.started (arranging : Arranging plan heap state) (isType : plan.types id)
    (notDone : id ∉ state.done) (notBusy : id ∉ state.inProgress) (stored : HasType heap id type)
    (hasFields : HasFields heap id type fields) (declares : Declares plan.start id declaration)
    (is : type.Is heap declaration fields) (sound : plan.Sound declaration)
    (isComposite : IsComposite type) (nested : Nested plan state.inProgress id) :
    Current plan state.inProgress id type fields declaration heap
      { state with inProgress := id :: state.inProgress } := by
  refine ⟨⟨arranging.holds, arranging.relaid, arranging.kept, arranging.done, ?_,
    arranging.pending, ?_, arranging.exactly⟩, isType, rfl, stored, hasFields, declares, is, sound,
    isComposite, nested⟩
  · refine List.forall_mem_cons.mpr ⟨⟨isType, ?_⟩, arranging.inProgress⟩
    intro startType startStored isBuiltin isZero
    have still := arranging.relaid.hasType_of_scalar startStored isBuiltin isZero
    cases hasType_inj stored still
    exact isComposite.composite isBuiltin isZero
  · refine List.nodup_cons.mpr ⟨?_, arranging.distinct⟩
    exact fun member => (List.mem_append.mp member).elim notBusy notDone

/-- Types are laid out in the order of their nesting. -/
theorem arranges_within (closed : plan.Closed) (levels depth : Nat)
    (enough : Offset.spaceSize ≤ depth + levels) :
    Arranges plan depth (arrangeWithin plan.target levels) := by
  induction levels generalizing depth with
  | zero =>
      -- there are not as many types as offsets
      intro heap state id arranging deep _ _
      have distinct := (List.nodup_append.mp arranging.distinct).1
      have few := length_le_used arranging.holds distinct fun other isBusy =>
        closed.stored arranging (arranging.inProgress other isBusy).1
      have bound := arranging.holds.used_lt
      omega
  | succ levels ih =>
      intro heap state id arranging deep isType nested
      obtain ⟨declaration, declares, sound⟩ := closed.sound id isType
      obtain ⟨type, fields, stored, hasFields, is⟩ := arranging.relaid.declares declares
      have sameLength : fields.length = declaration.members.length := by
        have same := is.members.length
        rw [Sorted.length_sortBy] at same
        exact same
      unfold arrangeWithin
      refine run_ask (arranging.holds.type stored) (run_isDone.mpr ?_)
      split
      next isDone =>
        exact ⟨heap, .refl arranging, stored, List.contains_iff_mem.mp isDone⟩
      next notDone =>
        have absent : id ∉ state.done := fun isDone =>
          notDone (List.contains_iff_mem.mpr isDone)
        have plain : type.isGeneric = false := is.generic.trans sound.plain
        rw [plain, Bool.false_or]
        split
        next isScalar =>
          obtain ⟨isBuiltin, noFields⟩ := (Bool.and_eq_true _ _).mp isScalar
          have count := hasFields.1
          rw [eq_of_beq noFields] at count
          refine run_finish.mpr ⟨heap, .scalar closed arranging isType absent declares
            (is.builtin.symm.trans isBuiltin) ?_, stored, List.mem_cons_self⟩
          exact List.length_eq_zero_iff.mp (sameLength.symm.trans count.symm)
        next notScalar =>
          have composite : type.isBuiltin = true -> type.fieldCount ≠ 0 := fun isBuiltin isZero =>
            notScalar ((Bool.and_eq_true _ _).mpr ⟨isBuiltin, beq_iff_eq.mpr isZero⟩)
          refine run_isInProgress.mpr ?_
          split
          next isBusy =>
            have cycle := nested id (List.contains_iff_mem.mp isBusy)
            obtain ⟨builder, done, inProgress, pending⟩ := state
            exact ⟨id, isType, cycle⟩
          next fresh =>
            have notBusy : id ∉ state.inProgress := fun isBusy =>
              fresh (List.contains_iff_mem.mpr isBusy)
            have current := Current.started arranging isType absent notBusy stored hasFields
              declares is sound ⟨plain, composite⟩ nested
            refine run_start.mpr ?_
            refine Run.andThen (run_arrangeShape (ih (depth + 1) (by omega)) closed current
              (Nat.succ_le_succ deep)) ?_ (fun _ _ stops => stops)
            rintro arranged middle ⟨later, shaped⟩
            have storable := shaped.proceeds.arranging.holds.storable _ _ shaped.stored
            refine Run.andThen (run_onBuilder (builds_writeType shaped.proceeds.arranging.holds
              shaped.stored arranged ⟨shaped.resizes.prototype ▸ storable.prototype,
                shaped.resizes.argument ▸ storable.argument⟩).withSpare) ?_ (fun _ _ stops => stops)
            rintro _ _ ⟨builder, rfl, ⟨holds, instances⟩, room⟩
            have proceeds := shaped.finish closed isType declares holds ⟨instances, room⟩
            exact run_finish.mpr ⟨_, proceeds, set_same later _ _, List.mem_cons_self⟩

theorem arranges_type (closed : plan.Closed) : Arranges plan 0 (arrangeType plan.target) :=
  arranges_within closed Offset.spaceSize 0 (Nat.le_of_eq (Nat.zero_add _).symm)

end Shapes

/-! ### All types -/

section All

variable {plan : Plan} {heap : Heap} {state : State}

/-- No type is being laid out, and nothing is forgotten. -/
structure Draining (plan : Plan) (heap : Heap) (state : State) : Prop where
  arranging : Arranging plan heap state
  idle : state.inProgress = []
  covered : forall id, id ∈ state.done -> Covered plan state id

theorem Draining.postponed (draining : Draining plan heap state) {id : TypeId}
    (isType : plan.types id) : Draining plan heap { state with pending := id :: state.pending } := by
  have proceeds : Proceeds plan [] 1 heap state heap _ := .postponed draining.arranging isType
  exact ⟨proceeds.arranging, draining.idle, fun other isDone =>
    (draining.covered other isDone).mono proceeds.reached⟩

/-- The type put off last is laid out. -/
theorem run_arrangeNext (closed : plan.Closed) {id : TypeId}
    (draining : Draining plan heap { state with pending := id :: state.pending }) :
    Run (arrangeType plan.target id) state
      (fun _ after => exists later, Draining plan later after ∧
        Proceeds plan [] 0 heap state later after ∧ id ∈ after.done) (Stops plan) := by
  have idle : state.inProgress = [] := draining.idle
  have isType := draining.arranging.pending id List.mem_cons_self
  have arranging : Arranging plan heap state :=
    { draining.arranging with
      pending := fun other isPending =>
        draining.arranging.pending other (List.mem_cons_of_mem id isPending) }
  have nested : Nested plan state.inProgress id := by
    rw [idle]
    exact nofun
  refine (arranges_type closed heap state id arranging (Nat.zero_le _) isType nested).imp ?_
    (fun _ _ stops => stops)
  rintro type after ⟨later, proceeds, _, isDone⟩
  rw [idle] at proceeds
  have reached (other : TypeId)
      (isReached : Reached { state with pending := id :: state.pending } other) :
      Reached after other := by
    rcases isReached with isDone | isBusy | isPending
    · exact proceeds.reached other (Or.inl isDone)
    · exact proceeds.reached other (Or.inr (Or.inl isBusy))
    · cases List.mem_cons.mp isPending with
      | inl same => exact Or.inl (same ▸ isDone)
      | inr later => exact proceeds.reached other (Or.inr (Or.inr later))
  refine ⟨later, ⟨proceeds.arranging, proceeds.inProgress.trans idle, ?_⟩, proceeds, isDone⟩
  intro other otherDone
  rcases proceeds.covered other otherDone with earlier | covered
  · exact (draining.covered other earlier).mono reached
  · exact covered

/-- All types put off are laid out in the end.  Each step takes one of them,
and a type that is done has put off a bounded number of types. -/
theorem run_drain (closed : plan.Closed) (draining : Draining plan heap state) {most total : Nat}
    (bounds : plan.Bounds most)
    (few : forall ids : List TypeId, ids.Nodup -> (forall id, id ∈ ids -> plan.types id) ->
      ids.length ≤ total) {steps : Nat}
    (enough : state.pending.length + most * total ≤ steps + most * state.done.length) :
    Run (drain plan.target steps) state
      (fun _ after => exists later, Draining plan later after ∧ after.pending = [] ∧
        (forall id, id ∈ state.done -> id ∈ after.done) ∧
        Rests state.builder after.builder) (Stops plan) := by
  induction steps generalizing heap state with
  | zero =>
      have distinct := (List.nodup_append.mp draining.arranging.distinct).2.1
      have atMost := few state.done distinct fun id isDone =>
        (draining.arranging.done id isDone).1
      have product := Nat.mul_le_mul_left most atMost
      exact ⟨heap, draining, List.length_eq_zero_iff.mp (by omega), fun _ isDone => isDone,
        Rests.refl _⟩
  | succ steps ih =>
      obtain ⟨builder, done, inProgress, pending⟩ := state
      cases pending with
      | nil =>
          exact ⟨heap, draining, rfl, fun _ isDone => isDone, Rests.refl _⟩
      | cons id rest =>
          have next : Run (arrangeType plan.target id) ⟨builder, done, inProgress, rest⟩ _ (Stops plan) :=
            run_arrangeNext closed draining
          change Run (arrangeType plan.target id >>= fun _ => drain plan.target steps)
            ⟨builder, done, inProgress, rest⟩ _ (Stops plan)
          refine Run.andThen next ?_ (fun _ _ stops => stops)
          rintro _ middle ⟨later, drained, proceeds, _⟩
          have count := proceeds.count most bounds
          simp only [List.length_cons] at enough count
          refine (ih drained (by omega)).imp ?_ (fun _ _ stops => stops)
          rintro _ after ⟨last, finished, isEmpty, more, rests⟩
          exact ⟨last, finished, isEmpty, fun other isDone => more other (proceeds.done other isDone),
            proceeds.rests.trans rests⟩

/-- Types have fewer members than the arena has bytes. -/
theorem Arranging.bounds (arranging : Arranging plan heap state) :
    plan.Bounds (state.builder.arena.used + 1) := by
  intro id declaration _ declares
  obtain ⟨type, fields, _, hasFields, is⟩ := arranging.relaid.declares declares
  have sameLength := is.members.length
  rw [Sorted.length_sortBy] at sameLength
  have atMost := arranging.holds.length_fields_le hasFields
  omega

/-- Types are laid out one after another, each with what it stores inline. -/
structure Advances (plan : Plan) (start : Builder) (state : State) (heap : Heap) (after : State) :
    Prop where
  draining : Draining plan heap after
  few : forall most, plan.Bounds most -> after.pending.length ≤ most * after.done.length
  done : forall id, id ∈ state.done -> id ∈ after.done
  rests : Rests start after.builder

theorem run_arrangeFirst (closed : plan.Closed) {start : Builder} {earlier : State}
    (advances : Advances plan start earlier heap state) {id : TypeId} (isType : plan.types id) :
    Run (arrangeType plan.target id) state
      (fun _ after => exists later, Advances plan start state later after ∧ id ∈ after.done)
      (Stops plan) := by
  refine (run_arrangeNext closed (advances.draining.postponed isType)).imp ?_
    (fun _ _ stops => stops)
  rintro _ after ⟨later, draining, proceeds, isDone⟩
  refine ⟨later, ⟨draining, ?_, proceeds.done, advances.rests.trans proceeds.rests⟩, isDone⟩
  intro most bounds
  have before := advances.few most bounds
  have count := proceeds.count most bounds
  omega

theorem run_drainAll (closed : plan.Closed) {start : Builder} {earlier : State}
    (advances : Advances plan start earlier heap state) :
    Run (drainAll plan.target) state
      (fun _ after => exists later, Advances plan start state later after ∧ after.pending = [])
      (Stops plan) := by
  have arranging := advances.draining.arranging
  have bounds := arranging.bounds
  have atMost (ids : List TypeId) (distinct : ids.Nodup)
      (areTypes : forall id, id ∈ ids -> plan.types id) : ids.length ≤ state.builder.arena.used :=
    length_le_used arranging.holds distinct fun id member =>
      closed.stored arranging (areTypes id member)
  have postponed := advances.few _ bounds
  have room : (state.builder.arena.used + 1) * state.builder.arena.used ≤
      (state.builder.arena.used + 2) * (state.builder.arena.used + 2) :=
    Nat.mul_le_mul (Nat.le_succ _) (Nat.le_add_right _ 2)
  refine (run_drain closed advances.draining bounds atMost (by omega)).imp ?_
    (fun _ _ stops => stops)
  rintro _ after ⟨later, draining, isEmpty, done, rests⟩
  refine ⟨later, ⟨draining, ?_, done, advances.rests.trans rests⟩, isEmpty⟩
  rw [isEmpty]
  exact fun _ _ => Nat.zero_le _

end All

end Layout

namespace Heap

/-- Some types are laid out, and refer to none but themselves. -/
structure IsLayout (heap : Heap) (target : Target) (settled : TypeId -> Prop) : Prop where
  laidOut : forall id, settled id -> LaidOut heap target settled id
  declared : forall id, settled id -> exists declaration, Declares heap id declaration ∧
    forall successor, successor ∈ declaration.successors -> settled successor

end Heap

namespace Layout

section Contexts

variable {plan : Plan} {builder : Builder}

theorem run_run {Result : Type} {step : LayoutM Result} {good : Result -> Builder -> Prop}
    {bad : SchemaError -> Builder -> Prop} :
    Run (Layout.run step) builder good bad ↔
      Run step ⟨builder, [], [], []⟩ (fun result after => good result after.builder)
        (fun failure after => bad failure after.builder) := by
  unfold Run Layout.run
  cases step ⟨builder, [], [], []⟩ <;> rfl

theorem advances_start (holds : plan.start.Holds builder.arena)
    (kept : plan.old.Extends plan.start) :
    Advances plan builder ⟨builder, [], [], []⟩ plan.start ⟨builder, [], [], []⟩ :=
  ⟨⟨⟨holds, Relaid.refl plan.start, kept, nofun, nofun, nofun, List.nodup_nil, fun _ _ => nofun⟩,
    rfl, nofun⟩,
    fun _ _ => Nat.zero_le _, fun _ isDone => isDone, Rests.refl _⟩

/-- The types of a context are laid out: the root, the text type, the type
without content, and all that can be reached from them. -/
theorem run_arrangeContext (closed : plan.Closed) (holds : plan.start.Holds builder.arena)
    (kept : plan.old.Extends plan.start) {context : Context} {root : TypeId}
    (isRoot : context.root = some root) (rootIsType : plan.types root)
    (stringIsType : plan.types (context.builtin .string))
    (unitIsType : plan.types (context.builtin .unit)) :
    Run (arrangeContext context plan.target) builder
      (fun _ after => exists later settled, later.Holds after.arena ∧ Relaid plan.start later ∧
        plan.old.Extends later ∧ Rests builder after ∧
        IsLayout later plan.target settled ∧ settled root ∧ settled (context.builtin .string) ∧
        settled (context.builtin .unit) ∧ (forall id, settled id -> plan.types id) ∧
        forall slotOf, plan.Exact slotOf -> forall id, settled id ->
          forall type, HasType later id type -> Variable.ofType plan.target type = slotOf id)
      (fun failure _ => plan.Stops failure) := by
  unfold arrangeContext
  refine run_run.mpr ?_
  rw [isRoot]
  refine Run.andThen (run_arrangeFirst closed (advances_start holds kept) rootIsType) ?_
    (fun _ _ stops => stops)
  rintro _ first ⟨firstHeap, firstAdvances, rootDone⟩
  refine Run.andThen (run_arrangeFirst closed firstAdvances stringIsType) ?_
    (fun _ _ stops => stops)
  rintro _ second ⟨secondHeap, secondAdvances, stringDone⟩
  refine Run.andThen (run_arrangeFirst closed secondAdvances unitIsType) ?_
    (fun _ _ stops => stops)
  rintro _ third ⟨thirdHeap, thirdAdvances, unitDone⟩
  refine (run_drainAll closed thirdAdvances).imp ?_ (fun _ _ stops => stops)
  rintro _ after ⟨later, advances, isEmpty⟩
  have arranging := advances.draining.arranging
  refine ⟨later, (· ∈ after.done), arranging.holds, arranging.relaid, arranging.kept,
    advances.rests, ⟨fun id isDone => (arranging.done id isDone).2, ?_⟩,
    advances.done _ (thirdAdvances.done _ (secondAdvances.done _ rootDone)),
    advances.done _ (thirdAdvances.done _ stringDone), advances.done _ unitDone,
    fun id isDone => (arranging.done id isDone).1, arranging.exactly⟩
  intro id isDone
  obtain ⟨declaration, declares, _⟩ := closed.sound id (arranging.done id isDone).1
  refine ⟨declaration, arranging.relaid.declares declares, fun successor refers => ?_⟩
  rcases advances.draining.covered id isDone declaration declares successor refers with
    isDone | isBusy | isPending
  · exact isDone
  · rw [advances.draining.idle] at isBusy
    cases isBusy
  · rw [isEmpty] at isPending
    cases isPending

end Contexts

end Layout
end PackedJson
