import PackedJson.Proofs.Schema.Heap
import PackedJson.Schema.Builder

namespace PackedJson

/-!
What the operations on types do to the heap.

Every operation fails only when the arena refuses, and that only when less
room is left than the operation may take.  An operation either adds cells or
replaces the record of one known type.
-/

namespace Heap

/-- One heap has every cell of another one. -/
def Extends (heap larger : Heap) : Prop :=
  forall position cell, heap position = some cell -> larger position = some cell

namespace Extends

variable {heap larger : Heap}

theorem refl (heap : Heap) : Extends heap heap := fun _ _ => id

theorem trans {largest : Heap} (first : Extends heap larger) (second : Extends larger largest) :
    Extends heap largest :=
  fun position cell stored => second position cell (first position cell stored)

theorem set (extends_ : Extends heap larger) {position : Nat} (cell : Cell)
    (free : heap position = none) : Extends heap (larger.set position cell) := by
  intro other otherCell stored
  have different : other ≠ position := by
    intro same
    subst same
    rw [free] at stored
    cases stored
  rw [set_other larger cell different]
  exact extends_ other otherCell stored

theorem hasType (extends_ : Extends heap larger) {id : TypeId} {type : TypeDef}
    (stored : HasType heap id type) : HasType larger id type :=
  extends_ _ _ stored

theorem hasFields (extends_ : Extends heap larger) {id : TypeId} {type : TypeDef}
    {fields : List FieldDef} (stored : HasFields heap id type fields) :
    HasFields larger id type fields :=
  ⟨stored.1, fun nonempty => extends_ _ _ (stored.2 nonempty)⟩

theorem hasText (extends_ : Extends heap larger) {reference : TextRef} {text : String}
    (stored : HasText heap reference text) : HasText larger reference text :=
  ⟨stored.1, fun nonempty => extends_ _ _ (stored.2 nonempty)⟩

end Extends

theorem set_eq_self {heap : Heap} {position : Nat} {cell : Cell}
    (stored : heap position = some cell) : heap.set position cell = heap := by
  funext other
  by_cases same : other = position
  · subst same
    rw [set_same, stored]
  · exact set_other heap cell same

theorem set_set (heap : Heap) (position : Nat) (first second : Cell) :
    (heap.set position first).set position second = heap.set position second := by
  funext other
  by_cases same : other = position
  · subst same
    rw [set_same, set_same]
  · rw [set_other _ _ same, set_other _ _ same, set_other _ _ same]

theorem of_without {heap : Heap} {position other : Nat} {cell : Cell}
    (stored : heap.without position other = some cell) :
    other ≠ position ∧ heap other = some cell := by
  by_cases same : other = position
  · rw [without, if_pos same] at stored
    cases stored
  · rw [without, if_neg same] at stored
    exact ⟨same, stored⟩

end Heap

namespace Builder

open Heap

variable {Result Next : Type}

/-! ### Operations and the room they take -/

/-- An operation on types ends well and takes no more room than `cost`, or
the arena refuses it and has less room than that. -/
def Builds (step : BuildM Result) (builder : Builder) (cost : Nat)
    (good : Result -> Builder -> Prop) : Prop :=
  Run step builder
    (fun result after => good result after ∧ builder.arena.spare ≤ after.arena.spare + cost)
    (fun failure _ => (exists cause, failure = .arena cause ∧ cause.IsShortage) ∧
      builder.arena.spare < cost)

variable {builder : Builder} {cost : Nat}

theorem Builds.pure {result : Result} {good : Result -> Builder -> Prop}
    (holds : good result builder) : Builds (pure result) builder cost good :=
  run_pure.mpr ⟨holds, Nat.le_add_right _ _⟩

theorem Builds.imp {step : BuildM Result} {good weaker : Result -> Builder -> Prop} {more : Nat}
    (builds : Builds step builder cost good)
    (onGood : forall result after, good result after -> weaker result after)
    (atMost : cost ≤ more) : Builds step builder more weaker :=
  Run.imp builds
    (fun result after ends => ⟨onGood result after ends.1, by have room := ends.2; omega⟩)
    (fun _ _ ends => ⟨ends.1, by have room := ends.2; omega⟩)

theorem Builds.withSpare {step : BuildM Result} {good : Result -> Builder -> Prop}
    (builds : Builds step builder cost good) : Builds step builder cost fun result after =>
      good result after ∧ builder.arena.spare ≤ after.arena.spare + cost :=
  Run.imp builds (fun _ _ ends => ⟨ends, ends.2⟩) (fun _ _ ends => ends)

/-- The room that two operations take adds up. -/
theorem Builds.andThen {first : BuildM Result} {second : Result -> BuildM Next}
    {good : Result -> Builder -> Prop} {nextGood : Next -> Builder -> Prop}
    {firstCost : Nat} (builds : Builds first builder firstCost good) (remaining : Nat)
    (continued : forall result after, good result after ->
      Builds (second result) after remaining nextGood)
    (total : firstCost + remaining ≤ cost) :
    Builds (first >>= second) builder cost nextGood := by
  refine Run.andThen builds ?_ ?_
  · intro result after ends
    refine Run.imp (continued result after ends.1) ?_ ?_
    · intro next last nextEnds
      have room := ends.2
      have nextRoom := nextEnds.2
      exact ⟨nextEnds.1, by omega⟩
    · intro failure last nextEnds
      have room := ends.2
      have nextRoom := nextEnds.2
      exact ⟨nextEnds.1, by omega⟩
  · intro failure after ends
    have room := ends.2
    exact ⟨ends.1, by omega⟩

/-- A question that has an answer. -/
theorem Builds.query {question : Schema -> Except SchemaError Result} {result : Result}
    {good : Result -> Builder -> Prop} (answer : question ⟨builder.arena⟩ = .ok result)
    (holds : good result builder) : Builds (Builder.query question) builder cost good := by
  unfold Builds Run Builder.query
  rw [answer]
  exact ⟨holds, Nat.le_add_right _ _⟩

/-- A question that has an answer, and what is done with it. -/
theorem Builds.ask {question : Schema -> Except SchemaError Result} {result : Result}
    {next : Result -> BuildM Next} {good : Next -> Builder -> Prop}
    (answer : question ⟨builder.arena⟩ = .ok result)
    (continued : Builds (next result) builder cost good) :
    Builds (Builder.query question >>= next) builder cost good := by
  have builds : Builds (Builder.query question) builder 0
      fun found after => result = found ∧ builder = after := Builds.query answer ⟨rfl, rfl⟩
  refine Builds.andThen builds cost ?_ (Nat.le_of_eq (Nat.zero_add cost))
  rintro _ _ ⟨rfl, rfl⟩
  exact continued

/-- An operation on the arena alone. -/
theorem Builds.onArena {step : ArenaM Result} {good : Result -> Arena -> Prop}
    (run : Run step builder.arena
      (fun result after => good result after ∧ builder.arena.spare ≤ after.spare + cost)
      (fun cause _ => cause.IsShortage ∧ builder.arena.spare < cost)) :
    Builds (Builder.onArena step) builder cost
      (fun result after => good result after.arena ∧ after.instances = builder.instances) := by
  obtain ⟨arena, instances⟩ := builder
  unfold Builds Run Builder.onArena
  unfold Run at run
  cases ends : step arena with
  | ok result after =>
      simp only [ends] at run ⊢
      exact ⟨⟨run.1, trivial⟩, run.2⟩
  | error cause after =>
      simp only [ends] at run ⊢
      exact ⟨⟨cause, rfl, run.1⟩, run.2⟩

variable {heap : Heap}

/-! ### New cells -/

/-- A region is handed out and filled with a cell. -/
theorem run_alloc_write (holds : heap.Holds builder.arena) (cell : Cell) (source : ByteArray)
    (alignment : Nat) (storable : cell.Storable) (positive : 0 < alignment)
    (supported : Arena.isAlignment alignment = true) (fits : source.size ≤ cell.size)
    (content : source.data.toList ++ List.replicate (cell.size - source.size) 0 = cell.bytes)
    (unowned : forall owner records, cell ≠ .fields owner records) :
    Run (do
        let place ← Arena.alloc cell.size alignment
        Arena.write place source
        return place : ArenaM Offset) builder.arena
      (fun place after => (heap place.toNat = none ∧ (heap.set place.toNat cell).Holds after) ∧
        builder.arena.spare ≤ after.spare + (cell.size + alignment))
      (fun cause _ => cause.IsShortage ∧ builder.arena.spare < cell.size + alignment) := by
  have unit : max alignment 1 = alignment := by omega
  have cellPositive := Cell.size_pos storable
  have alloc := (Arena.run_alloc cell.size alignment holds.writable
      (by rw [unit]; exact supported)).both
    (Arena.alloc_spare cell.size alignment holds.writable (by rw [unit]; exact supported))
  rw [unit] at alloc
  refine Run.andThen alloc ?_ (fun cause after ends => ⟨ends.1.2, ends.2⟩)
  intro place middle ends
  obtain ⟨allocated, room⟩ := ends
  have write := Arena.run_write place source (allocated.grown.writable holds.writable)
    allocated.within (Nat.le_refl _) (by omega) (by omega)
  refine Run.andThen write ?_ (fun _ _ impossible => impossible.elim)
  intro _ after written
  have free := holds.none_of_used allocated.start
  have sourceSize : source.data.toList.length = source.size := rfl
  refine run_pure.mpr ⟨⟨free, ?_⟩, by rw [written.spare]; exact room⟩
  refine holds.push (allocated.grown.trans written.grown) storable allocated.start
    (written.within_iff.mpr allocated.within) ?_ ?_
    fun owner records same => absurd same (unowned owner records)
  · rw [← content]
    apply List.ext_getElem
    · simp only [Arena.length_load, List.length_append, List.length_replicate]
      omega
    · intro index inLoad inContent
      have bound : index < cell.size := by simpa only [Arena.length_load] using inLoad
      simp only [Arena.load, List.getElem_map, List.getElem_range, written.byteAt,
        Nat.add_sub_cancel_left, List.getElem_append, List.getElem_replicate]
      by_cases inSource : index < source.size
      · rw [if_pos (by omega), List.getElem?_eq_getElem (by omega), Option.getD_some,
          dif_pos (by omega)]
      · rw [if_neg (by omega), dif_neg (by omega)]
        exact allocated.zero _ (by omega) (by omega)
  · intro other below
    rw [written.byteAt_of_apart (Or.inl below)]
    exact allocated.kept other (Or.inl below)

/-- The heap after an operation that adds cells. -/
structure Added (heap : Heap) (builder : Builder) (larger : Heap) (after : Builder) : Prop where
  holds : larger.Holds after.arena
  kept : heap.Extends larger
  instances : after.instances = builder.instances

theorem Added.refl (holds : heap.Holds builder.arena) : Added heap builder heap builder :=
  ⟨holds, Extends.refl heap, rfl⟩

theorem Added.trans {larger largest : Heap} {middle after : Builder}
    (first : Added heap builder larger middle) (second : Added larger middle largest after) :
    Added heap builder largest after :=
  ⟨second.holds, first.kept.trans second.kept, second.instances.trans first.instances⟩

/-- The room that a text may take. -/
def textCost (text : String) : Nat := text.utf8ByteSize + 2

theorem builds_storeText (holds : heap.Holds builder.arena) (text : String) :
    Builds (storeText text) builder (textCost text)
      (fun reference after => exists larger, Added heap builder larger after ∧
        HasText larger reference text) := by
  unfold storeText
  split
  next isEmpty =>
    have same : text = "" := String.isEmpty_iff.mp isEmpty
    subst same
    exact Builds.pure ⟨heap, Added.refl holds, hasText_empty heap⟩
  next nonempty =>
    have different : text ≠ "" := fun same => nonempty (String.isEmpty_iff.mpr same)
    have cellSize := Cell.size_text text
    have sourceSize : text.toUTF8.size = text.utf8ByteSize := rfl
    split
    next small =>
      have content : text.toUTF8.data.toList ++
          List.replicate ((Cell.text text).size - text.toUTF8.size) 0 = (Cell.text text).bytes := by
        rw [cellSize, sourceSize, Nat.add_sub_cancel_left]
        rfl
      have run := run_alloc_write holds (.text text) text.toUTF8 1 different Nat.one_pos rfl
        (by omega) content nofun
      rw [cellSize] at run
      refine Builds.andThen (Builds.onArena run) 0 ?_ (Nat.le_refl _)
      intro place after ends
      obtain ⟨⟨free, held⟩, instances⟩ := ends
      refine Builds.pure ⟨_, ⟨held, (Extends.refl heap).set _ free, instances⟩, ?_, ?_⟩
      · simp only [UInt32.toNat_ofNat']
        exact Nat.mod_eq_of_lt small
      · intro _
        exact set_same heap _ _
    next large =>
      unfold Builds
      rw [run_throw]
      refine ⟨⟨_, rfl, trivial⟩, ?_⟩
      have bound := Arena.spare_lt holds.writable
      unfold textCost
      omega

/-- The room that the record of a type may take. -/
def typeCost : Nat := 44

theorem builds_addType (holds : heap.Holds builder.arena) (type : TypeDef)
    (storable : type.Storable) :
    Builds (addType type) builder typeCost
      (fun id after => heap id.offset.toNat = none ∧
        exists larger, Added heap builder larger after ∧ HasType larger id type) := by
  have cellSize := Cell.size_type type
  have sourceSize := Record.size_toBytes type
  have content : (Record.toBytes type).data.toList ++
      List.replicate ((Cell.type type).size - (Record.toBytes type).size) 0 =
        (Cell.type type).bytes := by
    rw [cellSize, sourceSize]
    exact List.append_nil _
  have run := run_alloc_write holds (.type type) (Record.toBytes type) Record.alignment storable
    (by decide) rfl (Nat.le_of_eq (sourceSize.trans cellSize.symm)) content nofun
  rw [cellSize] at run
  refine Builds.andThen (Builds.onArena run) 0 ?_ (Nat.le_refl _)
  intro place after ends
  obtain ⟨⟨free, held⟩, instances⟩ := ends
  exact Builds.pure ⟨free, _, ⟨held, (Extends.refl heap).set _ free, instances⟩, set_same heap _ _⟩

theorem TypeId.storable_none : TypeId.Storable none := nofun

theorem builds_newType (holds : heap.Holds builder.arena) (name : String) (shape : Shape) :
    Builds (newType name shape) builder (textCost name + typeCost)
      (fun id after => heap id.offset.toNat = none ∧
        exists larger stored, Added heap builder larger after ∧ HasText larger stored name ∧
          HasType larger id (TypeDef.ofShape stored shape)) := by
  refine Builds.andThen (builds_storeText holds name) typeCost ?_ (Nat.le_refl _)
  intro stored middle ends
  obtain ⟨larger, added, hasText⟩ := ends
  refine (builds_addType added.holds (TypeDef.ofShape stored shape)
    ⟨TypeId.storable_none, TypeId.storable_none⟩).imp ?_ (Nat.le_refl _)
  intro id after ends
  obtain ⟨free, largest, more, hasType⟩ := ends
  refine ⟨?_, largest, stored, added.trans more, more.kept.hasText hasText, hasType⟩
  cases occupied : heap id.offset.toNat with
  | none => rfl
  | some cell =>
      rw [added.kept _ _ occupied] at free
      cases free

theorem builds_field (holds : heap.Holds builder.arena) (name : String) (type : Option TypeId)
    (order : Nat) :
    Builds (field name type order) builder (textCost name)
      (fun field after => exists larger stored, Added heap builder larger after ∧
        HasText larger stored name ∧
        field = FieldDef.ofName stored (Checksum.nameHash name) type (UInt32.ofNat order)) := by
  refine Builds.andThen (builds_storeText holds name) 0 ?_ (Nat.le_refl _)
  intro stored after ends
  obtain ⟨larger, added, hasText⟩ := ends
  exact Builds.pure ⟨larger, stored, added, hasText, rfl⟩

/-! ### Records that change -/

/-- The record of a type is replaced by another one. -/
theorem builds_writeType (holds : heap.Holds builder.arena) {id : TypeId} {old : TypeDef}
    (stored : HasType heap id old) (type : TypeDef) (storable : type.Storable) :
    Builds (writeType id type) builder 0
      (fun _ after => (heap.set id.offset.toNat (.type type)).Holds after.arena ∧
        after.instances = builder.instances) := by
  have sourceSize := Record.size_toBytes type
  have recordSize : Record.size TypeDef = 40 := rfl
  have cellSize := Cell.size_type old
  have newSize := Cell.size_type type
  have length : (Record.toBytes type).data.toList.length = 40 := sourceSize
  have write := Arena.run_write id.offset (Record.toBytes type) holds.writable
    (holds.within _ _ stored) (Nat.le_refl _) (by omega) (by omega)
  refine Builds.onArena (Run.imp write ?_ (fun _ _ impossible => impossible.elim))
  intro _ after written
  refine ⟨?_, by rw [written.spare]; omega⟩
  refine holds.replace stored (.type old type) (newSize.trans cellSize.symm) storable written
    (Nat.le_refl _) (by omega) ?_
  rw [newSize, ← length]
  exact written.load_source

/-- The record of a type is changed. -/
theorem builds_updateType (holds : heap.Holds builder.arena) {id : TypeId} {type : TypeDef}
    (change : TypeDef -> TypeDef) (stored : HasType heap id type)
    (storable : (change type).Storable) :
    Builds (updateType id change) builder 0
      (fun changed after => changed = change type ∧ after.instances = builder.instances ∧
        (heap.set id.offset.toNat (.type (change type))).Holds after.arena) := by
  refine Builds.ask (holds.type stored) ?_
  refine Builds.andThen (builds_writeType holds stored (change type) storable) 0 ?_ (Nat.le_refl _)
  intro _ after ends
  exact Builds.pure ⟨rfl, ends.2, ends.1⟩

/-- The field without a name and a type. -/
def blankField : FieldDef := FieldDef.ofName TextRef.empty 0 none 0

theorem bytes_blankField : (Record.toBytes blankField).data.toList = List.replicate 36 0 := by
  decide +kernel

theorem bytes_blankFields (owner : TypeId) (count : Nat) :
    (Cell.fields owner (List.replicate count blankField)).bytes = List.replicate (36 * count) 0 := by
  induction count with
  | zero => rfl
  | succ count ih =>
      change (Record.toBytes blankField).data.toList ++
        (Cell.fields owner (List.replicate count blankField)).bytes = _
      rw [ih, bytes_blankField, List.replicate_append_replicate]
      congr 1
      omega

/-- One of the field records of a cell is replaced. -/
theorem run_writeField {arena : Arena} {position : Nat} {owner : TypeId} {done others : List FieldDef}
    {replaced field : FieldDef} (holds : heap.Holds arena)
    (stored : heap position = some (.fields owner (done ++ replaced :: others)))
    (storable : field.Storable) :
    Run (Record.write (Offset.ofNat (position + 36 * done.length)) field) arena
      (fun _ after => (heap.set position (.fields owner (done ++ field :: others))).Holds after ∧
        arena.spare ≤ after.spare + 0)
      (fun cause _ => cause.IsShortage ∧ arena.spare < 0) := by
  have within := holds.within _ _ stored
  have space := holds.used_lt
  have inUse := within.2.1
  have oldSize := Cell.size_fields owner (done ++ replaced :: others)
  have newSize := Cell.size_fields owner (done ++ field :: others)
  rw [List.length_append, List.length_cons] at oldSize newSize
  have toNat : (Offset.ofNat (position + 36 * done.length)).toNat =
      position + 36 * done.length := Offset.toNat_ofNat (by omega)
  have sourceSize := Record.size_toBytes field
  have recordSize : Record.size FieldDef = 36 := rfl
  have length := Cell.length_toBytes field
  have write := Arena.run_write (Offset.ofNat (position + 36 * done.length))
    (Record.toBytes field) holds.writable within (by omega) (by omega) (by omega)
  rw [toNat] at write
  refine Run.imp write ?_ (fun _ _ impossible => impossible.elim)
  intro _ after written
  refine ⟨?_, by rw [written.spare]; omega⟩
  have oldStorable := (holds.storable _ _ stored).2
  refine holds.replace stored (.fields owner _ _) (newSize.trans oldSize.symm) ⟨by simp, ?_⟩ written
    (by omega) (by omega) ?_
  · intro other member
    cases List.mem_append.mp member with
    | inl early => exact oldStorable other (List.mem_append_left _ early)
    | inr late =>
        cases List.mem_cons.mp late with
        | inl same => exact same ▸ storable
        | inr after =>
            exact oldStorable other (List.mem_append_right _ (List.mem_cons_of_mem _ after))
  · have skipped : 36 * done.length + 36 = 36 * (done.length + 1) := by omega
    rw [newSize, written.load_inside (36 * done.length) rfl (by omega),
      ← oldSize, holds.load _ _ stored, length, skipped, take_bytes_fields,
      drop_bytes_fields, List.take_left' rfl, List.drop_append,
      List.drop_eq_nil_of_le (by omega), Nat.add_sub_cancel_left]
    exact (bytes_fields_append owner done (field :: others)).symm ▸ List.append_assoc _ _ _

/-- Field records written one after another replace those of a cell from some
place on. -/
theorem builds_writeFieldsAt {position : Nat} {owner : TypeId} (done fields : List FieldDef)
    {old : List FieldDef} (holds : heap.Holds builder.arena)
    (stored : heap position = some (.fields owner (done ++ old)))
    (sameLength : old.length = fields.length)
    (storable : forall field, field ∈ fields -> field.Storable) :
    Builds (writeFieldsAt (Offset.ofNat (position + 36 * done.length)) fields) builder 0
      (fun _ after => after.instances = builder.instances ∧
        (heap.set position (.fields owner (done ++ fields))).Holds after.arena) := by
  induction fields generalizing builder heap done old with
  | nil =>
      have none : old = [] := List.length_eq_zero_iff.mp sameLength
      subst none
      refine Builds.pure ⟨rfl, ?_⟩
      rw [set_eq_self stored]
      exact holds
  | cons field rest ih =>
      cases old with
      | nil => cases sameLength
      | cons replaced others =>
          have inUse := (holds.within _ _ stored).2.1
          have space := holds.used_lt
          have size := Cell.size_fields owner (done ++ replaced :: others)
          rw [List.length_append, List.length_cons] at size
          have toNat : (Offset.ofNat (position + 36 * done.length)).toNat =
              position + 36 * done.length := Offset.toNat_ofNat (by omega)
          refine Builds.andThen (Builds.onArena (run_writeField holds stored
            (storable field List.mem_cons_self))) 0 ?_ (Nat.le_refl _)
          intro _ after ends
          have next := ih (done ++ [field]) ends.1
            (by rw [List.append_assoc]; exact set_same heap _ _)
            (Nat.succ.inj sameLength)
            (fun other member => storable other (List.mem_cons_of_mem _ member))
          have place : Offset.ofNat ((Offset.ofNat (position + 36 * done.length)).toNat +
              Schema.fieldSize) = Offset.ofNat (position + 36 * (done ++ [field]).length) := by
            rw [toNat, List.length_append]
            rfl
          rw [place]
          refine next.imp ?_ (Nat.le_refl _)
          intro _ last nextEnds
          refine ⟨nextEnds.1.trans ends.2, ?_⟩
          have held := nextEnds.2
          rw [set_set, List.append_assoc] at held
          exact held

/-- The room that the records of some fields may take. -/
def fieldsCost (count : Nat) : Nat := 36 * count + 4

theorem builds_allocFields (holds : heap.Holds builder.arena) {owner : TypeId} {type : TypeDef}
    (stored : HasType heap owner type) {count : Nat} (positive : 0 < count) :
    Builds (onArena (Arena.allocArray count Schema.fieldSize Record.alignment)) builder
      (fieldsCost count)
      (fun place after => (heap place.toNat = none ∧
        (heap.set place.toNat (.fields owner (List.replicate count blankField))).Holds after.arena) ∧
        after.instances = builder.instances) := by
  have size : Schema.fieldSize = 36 := rfl
  have bound := Arena.spare_lt holds.writable
  have cellSize := Cell.size_fields owner (List.replicate count blankField)
  rw [List.length_replicate] at cellSize
  have total : count * Schema.fieldSize = 36 * count := by rw [size, Nat.mul_comm]
  have run : Run (Arena.allocArray count Schema.fieldSize Record.alignment) builder.arena
      (fun place after => (heap place.toNat = none ∧
        (heap.set place.toNat (.fields owner (List.replicate count blankField))).Holds after) ∧
        builder.arena.spare ≤ after.spare + fieldsCost count)
      (fun cause _ => cause.IsShortage ∧ builder.arena.spare < fieldsCost count) := by
    unfold Arena.allocArray fieldsCost
    split
    next small =>
      have alloc := (Arena.run_alloc (count * Schema.fieldSize) Record.alignment holds.writable
          rfl).both
        (Arena.alloc_spare (count * Schema.fieldSize) Record.alignment holds.writable rfl)
      have unit : max Record.alignment 1 = 4 := rfl
      rw [unit] at alloc
      refine alloc.imp ?_ ?_
      · intro place after ends
        obtain ⟨allocated, room⟩ := ends
        rw [total] at allocated room
        refine ⟨⟨holds.none_of_used allocated.start, ?_⟩, by omega⟩
        refine holds.push allocated.grown ?_ allocated.start ?_ ?_ ?_ ?_
        · refine ⟨fun none => ?_, fun field member => ?_⟩
          · rw [List.replicate_eq_nil_iff] at none
            omega
          · rw [List.eq_of_mem_replicate member]
            exact TypeId.storable_none
        · rw [cellSize]
          exact allocated.within
        · rw [cellSize, bytes_blankFields]
          apply List.ext_getElem
          · simp only [Arena.length_load, List.length_replicate]
          · intro index inLoad inZeros
            have inside : index < 36 * count := by simpa only [Arena.length_load] using inLoad
            simp only [Arena.load, List.getElem_map, List.getElem_range, List.getElem_replicate]
            exact allocated.zero _ (by omega) (by omega)
        · intro other below
          exact allocated.kept other (Or.inl below)
        · rintro _ _ ⟨rfl, rfl⟩
          exact ⟨type, stored⟩
      · intro cause after ends
        exact ⟨ends.1.2, by have room := ends.2; omega⟩
    next large =>
      rw [run_throw]
      exact ⟨trivial, by omega⟩
  exact Builds.onArena run

/-- The heap after the record of one type was replaced, and cells were added. -/
structure Altered (heap : Heap) (builder : Builder) (id : TypeId) (larger : Heap)
    (after : Builder) : Prop where
  holds : larger.Holds after.arena
  kept : (heap.without id.offset.toNat).Extends larger
  instances : after.instances = builder.instances

/-- A type is given new fields. -/
theorem builds_setFields (holds : heap.Holds builder.arena) {id : TypeId} {type : TypeDef}
    {fields : List FieldDef} (stored : HasType heap id type)
    (storable : forall field, field ∈ fields -> field.Storable) :
    Builds (setFields id fields) builder (fieldsCost fields.length)
      (fun changed after => exists larger, Altered heap builder id larger after ∧
        (exists place, changed =
          { type with fields := place, fieldCount := UInt32.ofNat fields.length }) ∧
        HasType larger id changed ∧ HasFields larger id changed fields) := by
  have typeStorable := holds.storable _ _ stored
  unfold setFields
  cases fields with
  | nil =>
      have nowhere : Builds (pure Offset.null) builder 0
          fun place after => Offset.null = place ∧ builder = after := Builds.pure ⟨rfl, rfl⟩
      refine Builds.andThen nowhere 0 ?_ (Nat.zero_le _)
      rintro _ _ ⟨rfl, rfl⟩
      refine Builds.andThen (builds_updateType holds
        (fun type => { type with fields := Offset.null, fieldCount := 0 }) stored
        ⟨typeStorable.prototype, typeStorable.argument⟩) 0 ?_ (Nat.le_refl _)
      rintro changed after ⟨rfl, instances, held⟩
      refine Builds.pure ⟨_, ⟨held, ?_, instances⟩, ⟨_, rfl⟩, set_same heap _ _, rfl, ?_⟩
      · intro position cell stored
        obtain ⟨different, present⟩ := of_without stored
        rw [set_other heap _ different]
        exact present
      · intro nonempty
        exact absurd rfl nonempty
  | cons field rest =>
      refine Builds.andThen (builds_allocFields holds stored (Nat.succ_pos rest.length))
        0 ?_ (Nat.le_refl _)
      rintro place middle ⟨⟨free, held⟩, instances⟩
      have apart : place.toNat ≠ id.offset.toNat := by
        intro same
        rw [same] at free
        cases free.symm.trans stored
      have extended := (Extends.refl heap).set
        (.fields id (List.replicate (rest.length + 1) blankField)) free
      refine Builds.andThen (builds_updateType held (fun type => { type with
          fields := place, fieldCount := UInt32.ofNat (rest.length + 1) })
        (extended.hasType stored) ⟨typeStorable.prototype, typeStorable.argument⟩) 0 ?_
        (Nat.le_refl _)
      rintro changed next ⟨rfl, nextInstances, nextHeld⟩
      have blank := (set_other (heap.set place.toNat
        (.fields id (List.replicate (rest.length + 1) blankField))) (.type
          { type with fields := place, fieldCount := UInt32.ofNat (rest.length + 1) }) apart).trans
        (set_same heap _ _)
      have write := builds_writeFieldsAt [] (field :: rest) nextHeld blank
        (congrArg (· + 1) List.length_replicate) storable
      rw [List.length_nil, Nat.mul_zero, Nat.add_zero, Offset.ofNat_toNat] at write
      refine Builds.andThen write 0 ?_ (Nat.le_refl _)
      rintro _ after ⟨lastInstances, lastHeld⟩
      have within := lastHeld.within _ _ (set_same _ place.toNat _)
      have space := lastHeld.used_lt
      have inUse := within.2.1
      have cellSize := Cell.size_fields id ([] ++ field :: rest)
      rw [List.nil_append, List.length_cons] at cellSize
      rw [List.nil_append] at inUse
      have spaceSize : Offset.spaceSize = 2 ^ 32 := rfl
      refine Builds.pure ⟨_, ⟨lastHeld, ?_, ?_⟩, ⟨_, rfl⟩, ?_, ?_, ?_⟩
      · intro position cell stored
        obtain ⟨different, present⟩ := of_without stored
        have elsewhere : position ≠ place.toNat := by
          intro same
          subst same
          cases free.symm.trans present
        rw [set_other _ _ elsewhere, set_other _ _ different, set_other _ _ elsewhere]
        exact present
      · exact lastInstances.trans (nextInstances.trans instances)
      · exact (set_other _ _ (Ne.symm apart)).trans (set_same _ _ _)
      · simp only [UInt32.toNat_ofNat', List.length_cons]
        omega
      · intro _
        exact set_same _ _ _

end Builder
end PackedJson
