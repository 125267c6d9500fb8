import PackedJson.Proofs.Schema.Operations

namespace PackedJson

open Heap Builder

/-!
Structs that are laid out, whatever else is.

A run that lays types out may fail, for a type that is too large or contains
itself.  The structs that are done by then are in order all the same: their
fields are stored by hash, and the mark of equal hashes is right.  What a run
has begun and not ended is as it was.
-/

namespace Layout

/-- A struct that is neither generic nor a scalar is in order. -/
structure Settled (heap : Heap) (id : TypeId) : Prop where
  stored : IsStored heap id
  filed : forall type fields, HasType heap id type -> HasFields heap id type fields ->
    type.shape = .struct -> type.isGeneric = false -> type.isBuiltin = false -> Filed type fields

/-- A type that is laid out has fields, or is a declared one. -/
def Composite (heap : Heap) (id : TypeId) : Prop :=
  exists type, HasType heap id type ∧
    (type.isGeneric || (type.isBuiltin && type.fieldCount == 0)) = false

/-- What holds at any time while types are laid out. -/
structure Stage (heap : Heap) (state : State) : Prop where
  stands : Stands heap state.builder
  done : forall id, id ∈ state.done -> Settled heap id
  pending : forall id, id ∈ state.pending -> IsStored heap id

/-- Some types are being laid out further out. -/
def Busy (busy : List TypeId) (heap : Heap) (state : State) : Prop :=
  forall id, id ∈ busy -> id ∈ state.inProgress ∧ Composite heap id

/-- Steps that leave alone what is being laid out further out.  What is done
stays done. -/
def settling (busy : List TypeId) : Course Heap State where
  Leads heap state later after := Stage later after ∧ Upholds (fun _ => False) heap later ∧
    (forall id, id ∈ state.done -> id ∈ after.done) ∧
    forall id, id ∈ busy -> id ∈ after.inProgress ∧ Untouched heap later id
  trans := by
    rintro _ _ _ _ _ _ ⟨_, firstUpholds, firstDone, firstKept⟩ ⟨stage, upholds, done, kept⟩
    exact ⟨stage, firstUpholds.trans upholds, fun id isDone => done id (firstDone id isDone),
      fun id isBusy => ⟨(kept id isBusy).1, (firstKept id isBusy).2.trans (kept id isBusy).2⟩⟩

variable {Result Next : Type} {heap later : Heap} {state after : State} {busy : List TypeId}
  {id : TypeId}

/-- A step of a layout that is followed from a heap on. -/
abbrev Settles (busy : List TypeId) (step : LayoutM Result) (heap : Heap) (state : State)
    (good : Result -> Heap -> State -> Prop) : Prop :=
  (settling busy).Takes step heap state good

/-- Only notes are taken. -/
theorem settling_of_notes (stage : Stage heap after)
    (done : forall id, id ∈ state.done -> id ∈ after.done)
    (kept : forall id, id ∈ busy -> id ∈ after.inProgress) :
    (settling busy).Leads heap state heap after :=
  ⟨stage, .refl _ heap, done, fun id member => ⟨kept id member, .refl heap id⟩⟩

theorem settling_refl (stage : Stage heap state) (isBusy : Busy busy heap state) :
    (settling busy).Leads heap state heap state :=
  settling_of_notes stage (fun _ isDone => isDone) fun id member => (isBusy id member).1

theorem Busy.leads (isBusy : Busy busy heap state)
    (leads : (settling busy).Leads heap state later after) : Busy busy later after := by
  intro id member
  obtain ⟨_, type, stored, composite⟩ := isBusy id member
  have kept := leads.2.2.2 id member
  exact ⟨kept.1, type, (kept.2 type stored).1, composite⟩

theorem Busy.release (isBusy : Busy (id :: busy) heap state)
    (leads : (settling busy).Leads heap state later after) (isInProgress : id ∈ after.inProgress)
    (untouched : Untouched heap later id) : Busy (id :: busy) later after :=
  isBusy.leads ⟨leads.1, leads.2.1, leads.2.2.1,
    List.forall_mem_cons.mpr ⟨⟨isInProgress, untouched⟩, leads.2.2.2⟩⟩

/-- A struct that is in order stays so until it is given other fields. -/
theorem Settled.upholds (settled : Settled heap id) {builder : Builder} {changed : TypeId -> Prop}
    (stands : Stands heap builder) (upholds : Upholds changed heap later) (unchanged : ¬ changed id) :
    Settled later id := by
  refine ⟨upholds.isStored settled.stored, fun type fields stored hasFields isStruct plain own => ?_⟩
  obtain ⟨before, beforeStored⟩ := settled.stored
  obtain ⟨same, sameStored, sameShape⟩ := upholds.shape id before.shape ⟨before, beforeStored, rfl⟩
  cases hasType_inj stored sameStored
  have wasStruct : before.shape = .struct := sameShape.symm.trans isStruct
  obtain ⟨⟨beforeFields, beforeHas, _⟩, _⟩ := stands.types id before beforeStored
  obtain ⟨laterType, laterFields, laterStored, laterHas, refiles⟩ :=
    upholds.structs id unchanged ⟨before, beforeStored, wasStruct⟩ before beforeFields beforeStored
      beforeHas
  cases hasType_inj stored laterStored
  cases hasFields_inj hasFields laterHas
  exact refiles.filed (settled.filed before beforeFields beforeStored beforeHas wasStruct
    (refiles.generic.symm.trans plain) (refiles.builtin.symm.trans own))

/-- The stage after the types under construction changed. -/
theorem Stage.upholds (stage : Stage heap state) {builder : Builder} (stands : Stands later builder)
    (upholds : Upholds (fun _ => False) heap later) :
    Stage later { state with builder := builder } :=
  ⟨stands, fun id isDone => (stage.done id isDone).upholds stage.stands upholds not_false,
    fun id isPending => upholds.isStored (stage.pending id isPending)⟩

theorem Stage.postponed (stage : Stage heap state) (isStored : IsStored heap id) :
    Stage heap { state with pending := id :: state.pending } :=
  ⟨stage.stands, stage.done, List.forall_mem_cons.mpr ⟨isStored, stage.pending⟩⟩

/-! ### Single steps -/

theorem settles_ask (stage : Stage heap state) (isBusy : Busy busy heap state)
    {question : Schema -> Except SchemaError Result} {next : Result -> LayoutM Next}
    {good : Next -> Heap -> State -> Prop}
    (continued : forall result, question ⟨state.builder.arena⟩ = .ok result ->
      Settles busy (next result) heap state good) :
    Settles busy (query question >>= next) heap state good := by
  refine run_bind.mpr ?_
  cases answer : question ⟨state.builder.arena⟩ with
  | ok result =>
      have ends : query question state = .ok result state := by
        obtain ⟨builder, done, inProgress, pending⟩ := state
        simp only [query, onBuilder, Builder.query, answer]
      exact (run_of_ok ends).mpr (continued result answer)
  | error failure =>
      have ends : query question state = .error failure state := by
        obtain ⟨builder, done, inProgress, pending⟩ := state
        simp only [query, onBuilder, Builder.query, answer]
      exact (run_of_error ends).mpr ⟨heap, settling_refl stage isBusy⟩

theorem settles_fail (stage : Stage heap state) (isBusy : Busy busy heap state)
    {failure : Schema -> SchemaError} {good : Result -> Heap -> State -> Prop} :
    Settles busy (query fun schema => .error (failure schema)) heap state good :=
  ⟨heap, settling_refl stage isBusy⟩

theorem settles_checkSize (stage : Stage heap state) (isBusy : Busy busy heap state) (type : TypeDef)
    (value : Nat) :
    Settles busy (checkSize type value) heap state
      fun _ later after => later = heap ∧ after = state := by
  unfold checkSize
  split
  · exact .pure (settling_refl stage isBusy) ⟨rfl, rfl⟩
  · exact settles_fail stage isBusy

/-- A step that leaves also a further type alone. -/
theorem settles_release {step : LayoutM Result} {good : Result -> Heap -> State -> Prop}
    (settles : Settles (id :: busy) step heap state good) :
    Settles busy step heap state fun result later after => good result later after ∧
      id ∈ after.inProgress ∧ Untouched heap later id := by
  refine Run.imp settles ?_ ?_
  · rintro result after ⟨later, ⟨stage, upholds, done, kept⟩, holds⟩
    exact ⟨later, ⟨stage, upholds, done, fun other member =>
      kept other (List.mem_cons_of_mem _ member)⟩, holds, kept id List.mem_cons_self⟩
  · rintro failure after ⟨later, stage, upholds, done, kept⟩
    exact ⟨later, stage, upholds, done, fun other member =>
      kept other (List.mem_cons_of_mem _ member)⟩

/-- Records of a type that is not busy are written. -/
theorem settles_onBuilder (stage : Stage heap state) (isBusy : Busy busy heap state)
    (notBusy : id ∉ busy) {step : BuildM Result} {good : Result -> Heap -> Prop}
    (writes : Run step state.builder
      (fun result builder => exists later, Stands later builder ∧
        Upholds (fun _ => False) heap later ∧ (forall other, other ≠ id -> Untouched heap later other) ∧
        good result later) (fun _ _ => False)) :
    Settles busy (onBuilder step) heap state fun result later after => good result later ∧
      exists builder, after = { state with builder := builder } := by
  obtain ⟨builder, done, inProgress, pending⟩ := state
  unfold Run at writes
  unfold Settles Course.Takes Run onBuilder
  cases ends : step builder with
  | error failure after =>
      simp only [ends] at writes
  | ok result after =>
      simp only [ends] at writes ⊢
      obtain ⟨later, stands, upholds, untouched, holds⟩ := writes
      refine ⟨later, ⟨stage.upholds stands upholds, upholds, fun _ isDone => isDone,
        fun other member => ⟨(isBusy other member).1, untouched other ?_⟩⟩, holds, after, rfl⟩
      rintro rfl
      exact notBusy member

/-! ### Variables -/

/-- Types are laid out, whatever is busy. -/
def Arranger (busy : List TypeId) (arrange : TypeId -> LayoutM Result) : Prop :=
  forall heap state id, Stage heap state -> Busy busy heap state -> IsStored heap id ->
    Settles busy (arrange id) heap state fun _ _ _ => True

theorem settles_variableWith {arrange : TypeId -> LayoutM TypeDef} (target : Target)
    (arranges : Arranger busy arrange) : Arranger busy (variableWith arrange target) := by
  intro heap state id stage isBusy isStored
  refine settles_ask stage isBusy fun type _ => ?_
  split
  · refine run_isDone.mpr (run_isInProgress.mpr ?_)
    split
    · exact ⟨heap, settling_of_notes (stage.postponed isStored) (fun _ isDone => isDone)
        fun other member => (isBusy other member).1, trivial⟩
    · exact ⟨heap, settling_refl stage isBusy, trivial⟩
  · refine Course.Takes.andThen (arranges heap state id stage isBusy isStored) ?_
    intro arranged later after leads _
    exact .pure (settling_refl leads.1 (isBusy.leads leads)) trivial

theorem isStored_fieldType {owner : TypeDef} {field : FieldDef} {inner : TypeId} {schema : Schema}
    (stands : FieldStands heap field) (isInner : schema.fieldType owner field = .ok inner) :
    IsStored heap inner := by
  refine stands.type inner ?_
  unfold Schema.fieldType at isInner
  cases isType : field.type with
  | none =>
      rw [isType] at isInner
      cases isInner
  | some type =>
      rw [isType] at isInner
      cases isInner
      rfl

/-- Fields are placed one after another. -/
theorem settles_placeFields {variableOf : TypeId -> LayoutM Variable}
    (arranges : Arranger busy variableOf) (owner : TypeDef) (fields : List FieldDef)
    (position align : Nat) (stage : Stage heap state) (isBusy : Busy busy heap state)
    (fieldsStand : forall field, field ∈ fields -> FieldStands heap field) :
    Settles busy (placeFields variableOf owner fields position align) heap state
      fun result _ _ => List.Forall₂ FieldDef.Moves fields result.1 := by
  induction fields generalizing position align heap state with
  | nil => exact .pure (settling_refl stage isBusy) .nil
  | cons field rest ih =>
      refine settles_ask stage isBusy fun inner isInner => ?_
      have innerStored := isStored_fieldType (fieldsStand field List.mem_cons_self) isInner
      refine Course.Takes.andThen (arranges heap state inner stage isBusy innerStored) ?_
      intro layout second secondState leads _
      have secondBusy := isBusy.leads leads
      refine Course.Takes.andThen (settles_checkSize leads.1 secondBusy owner _) ?_
      rintro start _ _ _ ⟨rfl, rfl⟩
      refine Course.Takes.andThen (settles_checkSize leads.1 secondBusy owner _) ?_
      rintro stop _ _ _ ⟨rfl, rfl⟩
      refine Course.Takes.andThen (ih stop _ leads.1 secondBusy fun other member =>
        leads.2.1.fieldStands (fieldsStand other (List.mem_cons_of_mem _ member))) ?_
      rintro ⟨placed, end_, greatest⟩ third thirdState thirdLeads moves
      exact .pure (settling_refl thirdLeads.1 (secondBusy.leads thirdLeads))
        (.cons ⟨_, rfl⟩ moves)

theorem settles_greatest {variableOf : TypeId -> LayoutM Variable}
    (arranges : Arranger busy variableOf) (owner : TypeDef) (fields : List FieldDef)
    (bound : Variable) (stage : Stage heap state) (isBusy : Busy busy heap state)
    (fieldsStand : forall field, field ∈ fields -> FieldStands heap field) :
    Settles busy (greatest variableOf owner fields bound) heap state fun _ _ _ => True := by
  induction fields generalizing bound heap state with
  | nil => exact .pure (settling_refl stage isBusy) trivial
  | cons field rest ih =>
      refine settles_ask stage isBusy fun inner isInner => ?_
      have innerStored := isStored_fieldType (fieldsStand field List.mem_cons_self) isInner
      refine Course.Takes.andThen (arranges heap state inner stage isBusy innerStored) ?_
      intro layout second secondState leads _
      exact ih _ leads.1 (isBusy.leads leads) fun other member =>
        leads.2.1.fieldStands (fieldsStand other (List.mem_cons_of_mem _ member))

/-! ### Structs and other types -/

section Shapes

variable {type : TypeDef} {fields placed : List FieldDef} {arrange : TypeId -> LayoutM TypeDef}
  {target : Target}

theorem withSize_eq (target : Target) (type : TypeDef) (size align : Nat) :
    exists bytes slot strictest, withSize target type size align =
      { type with size := bytes, slot := slot, align := strictest } := by
  unfold withSize
  split
  · exact ⟨_, _, _, rfl⟩
  · exact ⟨_, _, _, rfl⟩

theorem fieldStands_moves (moves : List.Forall₂ FieldDef.Moves fields placed)
    (fieldsStand : forall field, field ∈ fields -> FieldStands heap field) :
    forall field, field ∈ placed -> FieldStands heap field := by
  induction moves with
  | nil => exact fieldsStand
  | cons move _ ih =>
      obtain ⟨offset, rfl⟩ := move
      have standing := fieldsStand _ List.mem_cons_self
      exact List.forall_mem_cons.mpr ⟨⟨standing.name, standing.type⟩,
        ih fun other member => fieldsStand other (List.mem_cons_of_mem _ member)⟩

theorem declared_moves
    (moves : List.Forall₂ FieldDef.Moves (Sorted.sortBy FieldDef.orderKey fields) placed) :
    placed.Pairwise fun first second => first.orderKey ≤ second.orderKey :=
  List.pairwise_map.mp (map_orderKey_moves moves ▸
    List.pairwise_map.mpr (Sorted.pairwise_sortBy FieldDef.orderKey fields))

/-- The fields of a struct are stored by hash before the struct is marked.  The
hashes are the same, so that an earlier mark is still right. -/
theorem refiles_placed
    (moves : List.Forall₂ FieldDef.Moves (Sorted.sortBy FieldDef.orderKey fields) placed) :
    Refiles type fields type (Sorted.sortBy FieldDef.hashKey placed) := by
  have declared := declared_moves moves
  have runs := SameRuns.of_placed moves declared
  refine ⟨rfl, rfl, rfl, runs, fun filed => ⟨Sorted.pairwise_sortBy _ _, fun hash => ?_, ?_⟩⟩
  · rw [ofHash_sortBy_hashKey]
    exact declared.sublist List.filter_sublist
  · exact filed.mark.trans (not_congr runs.perm_hash.nodup_iff)

/-- The record of a type is ready to be written. -/
structure Prepared (heap : Heap) (id : TypeId) (type arranged : TypeDef) : Prop where
  stored : HasType heap id type
  shape : arranged.shape = type.shape
  builtin : arranged.isBuiltin = type.isBuiltin
  generic : arranged.isGeneric = type.isGeneric
  prototype : arranged.prototype = type.prototype
  argument : arranged.argument = type.argument
  fields : exists fields, HasFields heap id arranged fields ∧
    forall field, field ∈ fields -> FieldStands heap field
  filed : type.shape = .struct -> forall fields, HasFields heap id type fields ->
    HasFields heap id arranged fields ∧ Filed arranged fields

/-- Field records of a type that is laid out are written. -/
theorem settles_writeRecords (stage : Stage heap state) (isBusy : Busy busy heap state)
    (notBusy : id ∉ busy) (stored : HasType heap id type) {records : List FieldDef}
    (hasFields : HasFields heap id type fields) (sameLength : records.length = fields.length)
    (recordsStand : forall field, field ∈ records -> FieldStands heap field)
    (refiles : type.shape = .struct -> Refiles type fields type records) {written : TypeDef}
    (samePlace : written.fields = type.fields) :
    Settles busy (onBuilder (writeFields written records)) heap state fun _ later after =>
      (HasType later id type ∧ HasFields later id type records ∧
        forall field, field ∈ records -> FieldStands later field) ∧
      exists builder, after = { state with builder := builder } := by
  have writes := @run_writeRecords _ _ (fun _ => False) _ _ stage.stands stored _ _ hasFields
    sameLength recordsStand (fun _ => refiles) _ samePlace
  refine settles_onBuilder stage isBusy notBusy (writes.imp ?_ (fun _ _ impossible => impossible))
  rintro _ after ⟨later, stands, upholds, laterStored, laterFields, untouched⟩
  exact ⟨later, stands, upholds, untouched, laterStored, laterFields, fun field member =>
    upholds.fieldStands (recordsStand field member)⟩

theorem settles_arrangeInSequence (arranges : Arranger (id :: busy) arrange)
    (stage : Stage heap state) (isBusy : Busy (id :: busy) heap state) (notBusy : id ∉ busy)
    (stored : HasType heap id type) {byHash : Bool}
    (isHashed : type.shape = .struct -> byHash = true) :
    Settles busy (arrangeInSequence arrange target type byHash) heap state
      fun arranged later after => id ∈ after.inProgress ∧ Prepared later id type arranged := by
  obtain ⟨⟨fields, hasFields, fieldsStand⟩, _⟩ := stage.stands.types id type stored
  have outer : Busy busy heap state := fun other member =>
    isBusy other (List.mem_cons_of_mem _ member)
  refine settles_ask stage outer fun inOrder isInOrder => ?_
  cases (stage.stands.holds.fieldsInOrder hasFields).symm.trans isInOrder
  have inOrderStand (field : FieldDef) (member : field ∈ Sorted.sortBy FieldDef.orderKey fields) :
      FieldStands heap field :=
    fieldsStand field ((Sorted.sortBy_perm FieldDef.orderKey fields).mem_iff.mp member)
  refine Course.Takes.andThen (settles_release (settles_placeFields
    (settles_variableWith target arranges) type _ 0 1 stage isBusy inOrderStand)) ?_
  rintro ⟨placed, stop, align⟩ second secondState leads ⟨moves, isInProgress, untouched⟩
  have secondBusy := outer.leads leads
  refine Course.Takes.andThen (settles_checkSize leads.1 secondBusy type _) ?_
  rintro size _ _ _ ⟨rfl, rfl⟩
  obtain ⟨bytes, slot, strictest, isSized⟩ := withSize_eq target type size align
  have stillStored := (untouched type stored).1
  have stillFields := (untouched type stored).2 fields hasFields
  have sameLength : placed.length = fields.length :=
    moves.length_eq.symm.trans (Sorted.length_sortBy _ _)
  have placedStand := fieldStands_moves moves fun field member =>
    leads.2.1.fieldStands (inOrderStand field member)
  simp only [isSized]
  cases byHash with
  | true =>
      refine Course.Takes.andThen (@settles_writeRecords _ _ _ _ type fields leads.1 secondBusy notBusy
        stillStored (Sorted.sortBy FieldDef.hashKey placed) stillFields
        ((Sorted.length_sortBy _ _).trans sameLength)
        (fun field member => placedStand field
          ((Sorted.sortBy_perm FieldDef.hashKey placed).mem_iff.mp member))
        (fun _ => refiles_placed moves) _ rfl) ?_
      rintro _ third _ thirdLeads ⟨⟨laterStored, laterFields, recordsStand⟩, builder, rfl⟩
      obtain ⟨builtin, generic, _⟩ := contains_set_collisions type.flags
        (hasEqualNeighbours (Sorted.sortBy FieldDef.hashKey placed))
      refine .pure (settling_refl thirdLeads.1 (secondBusy.leads thirdLeads)) ⟨isInProgress,
        laterStored, rfl, builtin, generic, rfl, rfl, ⟨_, laterFields, recordsStand⟩, ?_⟩
      intro _ others hasOthers
      cases hasFields_inj laterFields hasOthers
      exact ⟨laterFields, filed_sortBy (declared_moves moves) (contains_set_self _ _)⟩
  | false =>
      have notStruct : type.shape ≠ .struct := fun isStruct => nomatch isHashed isStruct
      refine Course.Takes.andThen (@settles_writeRecords _ _ _ _ type fields leads.1 secondBusy notBusy
        stillStored placed stillFields sameLength placedStand
        (fun isStruct => absurd isStruct notStruct) _ rfl) ?_
      rintro _ third _ thirdLeads ⟨⟨laterStored, laterFields, recordsStand⟩, builder, rfl⟩
      exact .pure (settling_refl thirdLeads.1 (secondBusy.leads thirdLeads)) ⟨isInProgress,
        laterStored, rfl, rfl, rfl, rfl, rfl, ⟨_, laterFields, recordsStand⟩,
        fun isStruct => absurd isStruct notStruct⟩

theorem settles_arrangeVariant (arranges : Arranger (id :: busy) arrange) (stage : Stage heap state)
    (isBusy : Busy (id :: busy) heap state) (notBusy : id ∉ busy) (stored : HasType heap id type)
    (isVariant : type.shape = .variant) :
    Settles busy (arrangeVariant arrange target type) heap state
      fun arranged later after => id ∈ after.inProgress ∧ Prepared later id type arranged := by
  obtain ⟨⟨fields, hasFields, fieldsStand⟩, _⟩ := stage.stands.types id type stored
  have notStruct : type.shape ≠ .struct := fun isStruct => nomatch isVariant.symm.trans isStruct
  have outer : Busy busy heap state := fun other member =>
    isBusy other (List.mem_cons_of_mem _ member)
  have collapsed : Settles busy (pure (withSize target
        { type with fields := Offset.null, fieldCount := 0 } 0 1)) heap state
      fun arranged later after => id ∈ after.inProgress ∧ Prepared later id type arranged := by
    obtain ⟨bytes, slot, strictest, isSized⟩ :=
      withSize_eq target { type with fields := Offset.null, fieldCount := 0 } 0 1
    rw [isSized]
    exact .pure (settling_refl stage outer) ⟨(isBusy id List.mem_cons_self).1, stored, rfl, rfl, rfl,
      rfl, rfl, ⟨[], ⟨rfl, fun nonempty => absurd rfl nonempty⟩, nofun⟩,
      fun isStruct => absurd isStruct notStruct⟩
  refine settles_ask stage outer fun inOrder isInOrder => ?_
  have sameOrder := Except.ok.inj ((stage.stands.holds.fieldsInOrder hasFields).symm.trans isInOrder)
  have sameLength : inOrder.length = fields.length :=
    sameOrder ▸ Sorted.length_sortBy (fun field => field.order.toNat) fields
  have inOrderStand (field : FieldDef) (member : field ∈ inOrder) : FieldStands heap field :=
    fieldsStand field ((Sorted.sortBy_perm _ fields).mem_iff.mp (sameOrder ▸ member))
  clear sameOrder isInOrder
  cases inOrder with
  | nil => exact collapsed
  | cons tag alternatives =>
  cases alternatives with
  | nil => exact collapsed
  | cons first others =>
      refine settles_ask stage outer fun tagType isTagType => ?_
      have tagStored := isStored_fieldType (inOrderStand tag List.mem_cons_self) isTagType
      refine Course.Takes.andThen (settles_release (settles_variableWith target arranges heap state
        tagType stage isBusy tagStored)) ?_
      rintro tagLayout second secondState leads ⟨_, isInProgress, untouched⟩
      have secondBusy := isBusy.release leads isInProgress untouched
      refine Course.Takes.andThen (settles_release (settles_greatest
        (settles_variableWith target arranges) type (first :: others) ⟨0, 1⟩ leads.1 secondBusy
        fun field member => leads.2.1.fieldStands
          (inOrderStand field (List.mem_cons_of_mem _ member)))) ?_
      rintro payload third thirdState more ⟨_, stillInProgress, stillUntouched⟩
      have thirdBusy := (outer.leads leads).leads more
      refine Course.Takes.andThen (settles_checkSize more.1 thirdBusy type _) ?_
      rintro place _ _ _ ⟨rfl, rfl⟩
      refine Course.Takes.andThen (settles_checkSize more.1 thirdBusy type _) ?_
      rintro stop _ _ _ ⟨rfl, rfl⟩
      refine Course.Takes.andThen (settles_checkSize more.1 thirdBusy type _) ?_
      rintro size _ _ _ ⟨rfl, rfl⟩
      have kept := untouched.trans stillUntouched type stored
      have moves : List.Forall₂ FieldDef.Moves (tag :: first :: others)
          ({ tag with offset := 0 } :: (first :: others).map fun field =>
            { field with offset := UInt32.ofNat place }) :=
        .cons ⟨0, rfl⟩ (List.forall₂_map_right_iff.mpr
          (List.forall₂_same.mpr fun _ _ => ⟨_, rfl⟩))
      have upholds := leads.2.1.trans more.2.1
      obtain ⟨bytes, slot, strictest, isSized⟩ :=
        withSize_eq target type size (max tagLayout.align payload.align)
      simp only [isSized]
      refine Course.Takes.andThen (@settles_writeRecords _ _ _ _ type fields more.1 thirdBusy notBusy
        kept.1 _ (kept.2 fields hasFields) (moves.length_eq.symm.trans sameLength)
        (fieldStands_moves moves fun field member => upholds.fieldStands (inOrderStand field member))
        (fun isStruct => absurd isStruct notStruct) _ rfl) ?_
      rintro _ fourth _ fourthLeads ⟨⟨laterStored, laterFields, recordsStand⟩, builder, rfl⟩
      exact .pure (settling_refl fourthLeads.1 (thirdBusy.leads fourthLeads)) ⟨stillInProgress,
        laterStored, rfl, rfl, rfl, rfl, rfl, ⟨_, laterFields, recordsStand⟩,
        fun isStruct => absurd isStruct notStruct⟩

/-- The argument of a type is put off. -/
theorem settles_postponeArgument (stage : Stage heap state) (isBusy : Busy busy heap state)
    {argument : Option TypeId} (isStored : forall id, argument = some id -> IsStored heap id) :
    Settles busy (postponeArgument argument) heap state
      fun _ later after => later = heap ∧ after.inProgress = state.inProgress := by
  unfold postponeArgument
  cases argument with
  | none => exact .pure (settling_refl stage isBusy) ⟨rfl, rfl⟩
  | some id =>
      refine run_isDone.mpr ?_
      split
      · exact ⟨heap, settling_refl stage isBusy, rfl, rfl⟩
      · exact ⟨heap, settling_of_notes (stage.postponed (isStored id rfl)) (fun _ isDone => isDone)
          fun other member => (isBusy other member).1, rfl, rfl⟩

theorem settles_arrangeShape (arranges : Arranger (id :: busy) arrange) (stage : Stage heap state)
    (isBusy : Busy (id :: busy) heap state) (notBusy : id ∉ busy) (stored : HasType heap id type) :
    Settles busy (arrangeShape arrange target type) heap state
      fun arranged later after => id ∈ after.inProgress ∧ Prepared later id type arranged := by
  have others (notStruct : type.shape ≠ .struct) : Settles busy (do
        let arranged ← arrangeInSequence arrange target type false
        postponeArgument type.argument
        return arranged) heap state
      fun arranged later after => id ∈ after.inProgress ∧ Prepared later id type arranged := by
    have outer : Busy busy heap state := fun other member =>
      isBusy other (List.mem_cons_of_mem _ member)
    refine Course.Takes.andThen (settles_arrangeInSequence arranges stage isBusy notBusy stored
      fun isStruct => absurd isStruct notStruct) ?_
    rintro arranged second secondState leads ⟨isInProgress, prepared⟩
    refine Course.Takes.andThen (settles_postponeArgument leads.1 (outer.leads leads)
      (leads.1.stands.types id type prepared.stored).argument) ?_
    rintro _ _ after more ⟨rfl, same⟩
    exact .pure (settling_refl more.1 ((outer.leads leads).leads more)) ⟨same ▸ isInProgress, prepared⟩
  unfold arrangeShape
  cases shape : type.shape with
  | struct => exact settles_arrangeInSequence arranges stage isBusy notBusy stored fun _ => rfl
  | variant => exact settles_arrangeVariant arranges stage isBusy notBusy stored shape
  | array => exact others fun isStruct => nomatch shape.symm.trans isStruct
  | map => exact others fun isStruct => nomatch shape.symm.trans isStruct

/-- The record of a type that is laid out is written. -/
theorem settles_writeType {arranged : TypeDef} (stage : Stage heap state)
    (isBusy : Busy busy heap state) (notBusy : id ∉ busy) (prepared : Prepared heap id type arranged) :
    Settles busy (onBuilder (writeType id arranged)) heap state fun _ later after =>
      Settled later id ∧ exists builder, after = { state with builder := builder } := by
  have stored := prepared.stored
  have storable := stage.stands.holds.storable _ _ stored
  have fits := Fits.of_type stored prepared.shape
  have written : HasType (heap.set id.offset.toNat (.type arranged)) id arranged := set_same heap _ _
  have typed : TypeStands (heap.set id.offset.toNat (.type arranged)) id arranged := by
    obtain ⟨fields, hasFields, fieldsStand⟩ := prepared.fields
    refine ⟨⟨fields, hasFields_set stored hasFields, fun field member =>
      fits.keeps.fieldStands (fieldsStand field member)⟩, fun argument isArgument => ?_⟩
    rw [prepared.argument] at isArgument
    exact fits.keeps.isStored ((stage.stands.types id type stored).argument argument isArgument)
  have continued (isStruct : type.shape = .struct) :
      Continued heap (heap.set id.offset.toNat (.type arranged)) id := by
    intro other fields otherStored hasFields
    cases hasType_inj stored otherStored
    obtain ⟨arrangedFields, filed⟩ := prepared.filed isStruct fields hasFields
    exact ⟨arranged, fields, written, hasFields_set stored arrangedFields, prepared.shape,
      prepared.builtin, prepared.generic, .refl fields, fun _ => filed⟩
  have settled : Settled (heap.set id.offset.toNat (.type arranged)) id := by
    refine ⟨⟨arranged, written⟩, fun other fields otherStored hasFields isStruct _ _ => ?_⟩
    cases hasType_inj written otherStored
    obtain ⟨⟨before, beforeHas, _⟩, _⟩ := stage.stands.types id type stored
    have wasStruct := prepared.shape.symm.trans isStruct
    obtain ⟨arrangedFields, filed⟩ := prepared.filed wasStruct before beforeHas
    cases hasFields_inj (hasFields_set stored arrangedFields) hasFields
    exact filed
  have writes := @run_writeType _ _ (fun _ => False) _ _ arranged stage.stands stored
    ⟨prepared.prototype ▸ storable.prototype, prepared.argument ▸ storable.argument⟩ prepared.shape
    typed fun _ => continued
  refine @settles_onBuilder _ heap state busy id stage isBusy notBusy _
    (fun _ later => Settled later id)
    (writes.imp ?_ (fun _ _ impossible => impossible))
  rintro _ after ⟨stands, upholds⟩
  refine ⟨_, stands, upholds, fun other different => ?_, settled⟩
  refine fits.untouched (fun same => different (TypeId.toNat_inj.mp same)) fun old before => ?_
  cases stored.symm.trans before

/-- A type that is in order is done. -/
theorem settles_finish {result : TypeDef} (stage : Stage heap state) (isBusy : Busy busy heap state)
    (notBusy : id ∉ busy) (settled : Settled heap id) :
    Settles busy (do
        finish id
        return result) heap state fun _ _ after => id ∈ after.done := by
  have finished : Stage heap { state with
      done := id :: state.done, inProgress := state.inProgress.erase id } :=
    ⟨stage.stands, List.forall_mem_cons.mpr ⟨settled, stage.done⟩, stage.pending⟩
  refine run_finish.mpr ⟨heap, settling_of_notes finished
    (fun _ isDone => List.mem_cons_of_mem _ isDone) fun other member => ?_, List.mem_cons_self⟩
  have different : other ≠ id := by
    rintro rfl
    exact notBusy member
  exact (List.mem_erase_of_ne different).mpr (isBusy other member).1

/-- A type is laid out, or the layout fails; what is done is in order. -/
theorem settles_arrangeWithin (target : Target) (levels : Nat) (stage : Stage heap state)
    (isBusy : Busy busy heap state) (isStored : IsStored heap id) :
    Settles busy (arrangeWithin target levels id) heap state fun _ _ after => id ∈ after.done := by
  induction levels generalizing busy heap state id with
  | zero => exact settles_fail stage isBusy
  | succ levels ih =>
      obtain ⟨type, stored⟩ := isStored
      refine settles_ask stage isBusy fun found isFound => run_isDone.mpr ?_
      cases (stage.stands.holds.type stored).symm.trans isFound
      split
      next isDone => exact ⟨heap, settling_refl stage isBusy, List.contains_iff_mem.mp isDone⟩
      split
      next isScalar =>
        -- a type that is being laid out is neither generic nor a scalar
        have notBusy : id ∉ busy := by
          intro member
          obtain ⟨_, other, otherStored, composite⟩ := isBusy id member
          cases hasType_inj stored otherStored
          exact Bool.false_ne_true (composite.symm.trans isScalar)
        refine settles_finish stage isBusy notBusy ⟨⟨type, stored⟩,
          fun other _ otherStored _ _ plain own => ?_⟩
        cases hasType_inj stored otherStored
        rw [plain, own] at isScalar
        exact absurd isScalar Bool.false_ne_true
      next notScalar =>
        refine run_isInProgress.mpr ?_
        split
        · exact settles_fail stage isBusy
        next fresh =>
          have notBusy : id ∉ busy := fun member =>
            fresh (List.contains_iff_mem.mpr (isBusy id member).1)
          have composite : Composite heap id := ⟨type, stored, by simpa using notScalar⟩
          have started : Stage heap { state with inProgress := id :: state.inProgress } :=
            ⟨stage.stands, stage.done, stage.pending⟩
          have outer : Busy busy heap { state with inProgress := id :: state.inProgress } :=
            fun other member => ⟨List.mem_cons_of_mem _ (isBusy other member).1,
              (isBusy other member).2⟩
          have startedBusy : Busy (id :: busy) heap
              { state with inProgress := id :: state.inProgress } :=
            List.forall_mem_cons.mpr ⟨⟨List.mem_cons_self, composite⟩, outer⟩
          have arranges : Arranger (id :: busy) (arrangeWithin target levels) :=
            fun _ _ _ stage isBusy isStored => (ih stage isBusy isStored).imp fun _ _ _ _ _ => trivial
          have continued : Settles busy (do
              let arranged ← arrangeShape (arrangeWithin target levels) target type
              onBuilder (Builder.writeType id arranged)
              finish id
              return arranged) heap { state with inProgress := id :: state.inProgress }
              fun _ _ after => id ∈ after.done := by
            refine Course.Takes.andThen (settles_arrangeShape arranges started startedBusy notBusy
              stored) ?_
            rintro arranged second secondState leads ⟨_, prepared⟩
            have secondBusy := outer.leads leads
            refine Course.Takes.andThen (settles_writeType leads.1 secondBusy notBusy prepared) ?_
            rintro _ third thirdState more ⟨settled, _⟩
            exact settles_finish more.1 (secondBusy.leads more) notBusy settled
          exact run_start.mpr continued

end Shapes

/-! ### Whole runs -/

section Runs

variable {builder : Builder} {target : Target}

/-- Nothing is laid out at the start of a run. -/
theorem stage_start (stands : Stands heap builder) : Stage heap ⟨builder, [], [], []⟩ :=
  ⟨stands, nofun, nofun⟩

theorem settles_arrangeType (stage : Stage heap state) (isStored : IsStored heap id) :
    Settles [] (arrangeType target id) heap state fun _ _ after => id ∈ after.done :=
  settles_arrangeWithin target Offset.spaceSize stage nofun isStored

theorem settles_drain (steps : Nat) (stage : Stage heap state) :
    Settles [] (drain target steps) heap state fun _ _ _ => True := by
  induction steps generalizing heap state with
  | zero => exact .pure (settling_refl stage nofun) trivial
  | succ steps ih =>
      obtain ⟨builder, done, inProgress, pending⟩ := state
      cases pending with
      | nil => exact ⟨heap, settling_refl stage nofun, trivial⟩
      | cons id rest =>
          have popped : Stage heap ⟨builder, done, inProgress, rest⟩ :=
            ⟨stage.stands, stage.done, fun other member =>
              stage.pending other (List.mem_cons_of_mem _ member)⟩
          have next : Settles [] (do
              let _ ← arrangeType target id
              drain target steps) heap ⟨builder, done, inProgress, rest⟩ fun _ _ _ => True := by
            have isStored := stage.pending id List.mem_cons_self
            refine Course.Takes.andThen (settles_arrangeType popped isStored) ?_
            intro _ later after leads _
            exact ih leads.1
          exact next

theorem settles_drainAll (stage : Stage heap state) :
    Settles [] (drainAll target) heap state fun _ _ _ => True :=
  settles_drain _ stage

/-- What `arrangeDeep` runs. -/
def arrangeReachable (target : Target) (id : TypeId) : LayoutM TypeDef := do
  let type ← arrangeType target id
  drainAll target
  return type

theorem settles_arrangeReachable (stage : Stage heap state) (isStored : IsStored heap id) :
    Settles [] (arrangeReachable target id) heap state fun _ _ after => id ∈ after.done := by
  refine Course.Takes.andThen (settles_arrangeType stage isStored) ?_
  intro type second secondState leads isDone
  refine Course.Takes.andThen (settles_drainAll leads.1) ?_
  intro _ third thirdState more _
  exact .pure (settling_refl more.1 nofun) (more.2.2.1 id isDone)

/-- What `arrangeContext` runs. -/
def arrangeAll (context : Context) (target : Target) : LayoutM Unit := do
  match context.root with
  | some root => let _ ← arrangeType target root
  | none => pure ()
  let _ ← arrangeType target (context.builtin .string)
  let _ ← arrangeType target (context.builtin .unit)
  drainAll target

theorem settles_arrangeAll {context : Context} (stage : Stage heap state)
    (root : forall root, context.root = some root -> IsStored heap root)
    (builtins : forall builtin, IsStored heap (context.builtin builtin)) :
    Settles [] (arrangeAll context target) heap state
      fun _ _ after => forall root, context.root = some root -> root ∈ after.done := by
  have rest {second : Heap} {secondState : State}
      (leads : (settling []).Leads heap state second secondState) :
      Settles [] (do
        let _ ← arrangeType target (context.builtin .string)
        let _ ← arrangeType target (context.builtin .unit)
        drainAll target) second secondState
        fun _ _ after => forall id, id ∈ secondState.done -> id ∈ after.done := by
    refine Course.Takes.andThen (settles_arrangeType leads.1
      (leads.2.1.isStored (builtins .string))) ?_
    intro _ third thirdState more _
    have stored := (leads.2.1.trans more.2.1).isStored (builtins .unit)
    refine Course.Takes.andThen (settles_arrangeType more.1 stored) ?_
    intro _ fourth fourthState further _
    refine (settles_drainAll further.1).imp ?_
    intro _ last lastState ending _ id isDone
    exact ending.2.2.1 id (further.2.2.1 id (more.2.2.1 id isDone))
  unfold arrangeAll
  cases isRoot : context.root with
  | none =>
      exact (rest (settling_refl stage nofun)).imp fun _ _ _ _ _ => nofun
  | some id =>
      refine Course.Takes.andThen (settles_arrangeType stage (root id isRoot)) ?_
      intro _ second secondState leads isDone
      refine (rest leads).imp ?_
      rintro _ last lastState _ kept _ ⟨rfl⟩
      exact kept _ isDone

/-- The types that are done when a run ends, also when it fails. -/
def doneAfter (step : LayoutM Result) (builder : Builder) : List TypeId :=
  match step ⟨builder, [], [], []⟩ with
  | .ok _ state => state.done
  | .error _ state => state.done

/-- A run lays types out, as far as it gets. -/
theorem run_settles {step : LayoutM Result} {good : Result -> Heap -> State -> Prop}
    (settles : Settles [] step heap ⟨builder, [], [], []⟩ good) :
    Run (run step) builder
      (fun _ after => exists later, Stands later after ∧ Upholds (fun _ => False) heap later ∧
        forall id, id ∈ doneAfter step builder -> Settled later id)
      (fun _ after => exists later, Stands later after ∧ Upholds (fun _ => False) heap later ∧
        forall id, id ∈ doneAfter step builder -> Settled later id) := by
  unfold Settles Course.Takes Run at settles
  unfold Run run doneAfter
  cases ends : step ⟨builder, [], [], []⟩ with
  | ok result state =>
      simp only [ends] at settles ⊢
      obtain ⟨later, ⟨stage, upholds, _⟩, _⟩ := settles
      exact ⟨later, stage.stands, upholds, stage.done⟩
  | error failure state =>
      simp only [ends] at settles ⊢
      obtain ⟨later, stage, upholds, _⟩ := settles
      exact ⟨later, stage.stands, upholds, stage.done⟩

/-- The type that a run is for is done when it succeeds. -/
theorem run_mem_doneAfter {step : LayoutM Result}
    (settles : Settles [] step heap ⟨builder, [], [], []⟩ fun _ _ after => id ∈ after.done) :
    Run (run step) builder (fun _ _ => id ∈ doneAfter step builder) (fun _ _ => True) := by
  unfold Settles Course.Takes Run at settles
  unfold Run run doneAfter
  cases ends : step ⟨builder, [], [], []⟩ with
  | ok result state =>
      simp only [ends] at settles ⊢
      obtain ⟨_, _, isDone⟩ := settles
      exact isDone
  | error failure state => trivial

end Runs

end Layout
end PackedJson
