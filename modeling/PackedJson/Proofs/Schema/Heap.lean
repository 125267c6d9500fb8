import PackedJson.Proofs.Arena.Allocation
import PackedJson.Proofs.Schema.Record
import PackedJson.Schema.View

namespace PackedJson

/-!
The contents of an arena that holds types.

A heap says which cells there are and where: the record of a type, the
records of its fields, or a text.  `Holds` relates it to the bytes of an
arena.  The operations on types are described by what they do to the heap,
and what a schema answers is read off from the cells.
-/

/-- What is stored at some position of an arena with types. -/
inductive Cell where
  | type (record : TypeDef)
  /-- The records of the fields of one type. -/
  | fields (owner : TypeId) (records : List FieldDef)
  | text (content : String)

namespace Cell

/-- The bytes of a cell.  A zero byte ends a text. -/
def bytes : Cell -> List UInt8
  | .type record => (Record.toBytes record).data.toList
  | .fields _ records => records.flatMap fun field => (Record.toBytes field).data.toList
  | .text content => content.toUTF8.data.toList ++ [0]

/-- The number of bytes of a cell. -/
def size (cell : Cell) : Nat := cell.bytes.length

/-- A cell that can be read back: references are not null, and what would be
empty is not stored at all. -/
def Storable : Cell -> Prop
  | .type record => record.Storable
  | .fields _ records => records ≠ [] ∧ forall field, field ∈ records -> field.Storable
  | .text content => content ≠ ""

@[simp] theorem size_type (record : TypeDef) : (Cell.type record).size = 40 :=
  Record.size_toBytes record

theorem length_toBytes (field : FieldDef) : (Record.toBytes field).data.toList.length = 36 :=
  Record.size_toBytes field

@[simp] theorem size_fields (owner : TypeId) (records : List FieldDef) :
    (Cell.fields owner records).size = 36 * records.length := by
  induction records with
  | nil => rfl
  | cons field rest ih =>
      change ((Record.toBytes field).data.toList ++ (Cell.fields owner rest).bytes).length = _
      change (Cell.fields owner rest).bytes.length = _ at ih
      rw [List.length_append, ih, length_toBytes, List.length_cons]
      omega

@[simp] theorem size_text (content : String) :
    (Cell.text content).size = content.utf8ByteSize + 1 := by
  unfold size bytes
  rw [List.length_append]
  rfl

theorem size_pos {cell : Cell} (storable : cell.Storable) : 0 < cell.size := by
  cases cell with
  | type record =>
      rw [size_type]
      omega
  | fields owner records =>
      have positive := List.length_pos_iff.mpr storable.1
      rw [size_fields]
      omega
  | text content =>
      rw [size_text]
      omega

/-- Cells of one sort; fields belong to one type. -/
inductive SameSort : Cell -> Cell -> Prop where
  | type (first second : TypeDef) : SameSort (.type first) (.type second)
  | fields (owner : TypeId) (first second : List FieldDef) :
      SameSort (.fields owner first) (.fields owner second)

end Cell

/-- The cells of an arena by their positions. -/
abbrev Heap := Nat -> Option Cell

namespace Heap

/-- The heap in which nothing is stored. -/
def empty : Heap := fun _ => none

/-- Put a cell at a position. -/
def set (heap : Heap) (position : Nat) (cell : Cell) : Heap :=
  fun other => if other = position then some cell else heap other

@[simp] theorem set_same (heap : Heap) (position : Nat) (cell : Cell) :
    heap.set position cell position = some cell :=
  if_pos rfl

theorem set_other (heap : Heap) {position other : Nat} (cell : Cell) (different : other ≠ position) :
    heap.set position cell other = heap other :=
  if_neg different

/-- Leave out the cell at a position. -/
def without (heap : Heap) (position : Nat) : Heap :=
  fun other => if other = position then none else heap other

theorem without_other (heap : Heap) {position other : Nat} (different : other ≠ position) :
    heap.without position other = heap other :=
  if_neg different

/-- The cells of a heap are what an arena stores. -/
structure Holds (heap : Heap) (arena : Arena) : Prop where
  isOwned : arena.isOwned = true
  writable : arena.Writable
  within : forall position cell, heap position = some cell -> arena.Within position cell.size
  load : forall position cell, heap position = some cell ->
    arena.load position cell.size = cell.bytes
  storable : forall position cell, heap position = some cell -> cell.Storable
  apart : forall position other cell otherCell, heap position = some cell ->
    heap other = some otherCell -> position ≠ other ->
    position + cell.size ≤ other ∨ other + otherCell.size ≤ position
  /-- Fields belong to stored types. -/
  owned : forall position owner records, heap position = some (.fields owner records) ->
    exists type, heap owner.offset.toNat = some (.type type)

theorem holds_empty {arena : Arena} (isOwned : arena.isOwned = true) (writable : arena.Writable) :
    Holds empty arena :=
  ⟨isOwned, writable, nofun, nofun, nofun, nofun, nofun⟩

namespace Holds

variable {heap : Heap} {arena after : Arena}

theorem used_lt (holds : Holds heap arena) : arena.used < Offset.spaceSize := by
  obtain ⟨_, shape⟩ := holds.writable
  have limit : Arena.positionLimit = 2 ^ 32 - 1 := rfl
  have space : Offset.spaceSize = 2 ^ 32 := rfl
  cases kind : arena.storage with
  | owned capacity buffers growable =>
      simp only [kind] at shape
      omega
  | borrowed =>
      simp only [kind] at shape
      omega
  | absent => simp only [kind] at shape
  | readOnly => simp only [kind] at shape

/-- The arena changed in a region that is a cell afterwards, and that no
other cell has a part in. -/
theorem put (holds : Holds heap arena) (grown : Arena.Grown arena after) {position : Nat}
    {cell : Cell} (storable : cell.Storable) (within : after.Within position cell.size)
    (load : after.load position cell.size = cell.bytes)
    (kept : forall other, other < arena.used ->
      other < position ∨ position + cell.size ≤ other -> after.byteAt other = arena.byteAt other)
    (apart : forall other otherCell, heap other = some otherCell -> other ≠ position ->
      other + otherCell.size ≤ position ∨ position + cell.size ≤ other)
    (typed : forall type, heap position = some (.type type) -> exists later, cell = .type later)
    (owned : forall owner records, cell = .fields owner records ->
      exists type, heap owner.offset.toNat = some (.type type)) :
    Holds (heap.set position cell) after := by
  have keepsOwner {owner : TypeId} (stored : exists type, heap owner.offset.toNat = some (.type type)) :
      exists type, heap.set position cell owner.offset.toNat = some (.type type) := by
    obtain ⟨type, stored⟩ := stored
    by_cases same : owner.offset.toNat = position
    · rw [same] at stored ⊢
      obtain ⟨later, isType⟩ := typed type stored
      exact ⟨later, (set_same heap position cell).trans (congrArg some isType)⟩
    · exact ⟨type, (set_other heap cell same).trans stored⟩
  refine ⟨grown.isOwned.trans holds.isOwned, grown.writable holds.writable, ?_, ?_, ?_, ?_, ?_⟩
  · intro other otherCell stored
    by_cases same : other = position
    · subst same
      cases (set_same heap other cell).symm.trans stored
      exact within
    · rw [set_other heap cell same] at stored
      exact grown.within _ _ (holds.within other otherCell stored)
  · intro other otherCell stored
    by_cases same : other = position
    · subst same
      cases (set_same heap other cell).symm.trans stored
      exact load
    · rw [set_other heap cell same] at stored
      have inside := holds.within other otherCell stored
      have separate := apart other otherCell stored same
      rw [← holds.load other otherCell stored]
      apply Arena.load_congr
      intro index above below
      have inUse := inside.2.1
      exact kept index (by omega) (by omega)
  · intro other otherCell stored
    by_cases same : other = position
    · subst same
      cases (set_same heap other cell).symm.trans stored
      exact storable
    · rw [set_other heap cell same] at stored
      exact holds.storable other otherCell stored
  · intro first second firstCell secondCell firstStored secondStored different
    by_cases firstSame : first = position
    · subst firstSame
      cases (set_same heap first cell).symm.trans firstStored
      rw [set_other heap cell (Ne.symm different)] at secondStored
      exact (apart second secondCell secondStored (Ne.symm different)).symm
    · rw [set_other heap cell firstSame] at firstStored
      by_cases secondSame : second = position
      · subst secondSame
        cases (set_same heap second cell).symm.trans secondStored
        exact apart first firstCell firstStored different
      · rw [set_other heap cell secondSame] at secondStored
        exact holds.apart first second firstCell secondCell firstStored secondStored different
  · intro other owner records stored
    by_cases same : other = position
    · subst same
      cases (set_same heap other cell).symm.trans stored
      exact keepsOwner (owned owner records rfl)
    · rw [set_other heap cell same] at stored
      exact keepsOwner (holds.owned other owner records stored)

/-- No cell lies behind the used part. -/
theorem none_of_used (holds : Holds heap arena) {position : Nat} (beyond : arena.used ≤ position) :
    heap position = none := by
  cases stored : heap position with
  | none => rfl
  | some cell =>
      have inside := holds.within position cell stored
      have positive := Cell.size_pos (holds.storable position cell stored)
      have inUse := inside.2.1
      omega

/-- No cell lies at the null offset. -/
theorem ne_null (holds : Holds heap arena) {offset : Offset} {cell : Cell}
    (stored : heap offset.toNat = some cell) : offset ≠ Offset.null := by
  intro null
  have positive := (holds.within _ _ stored).1
  rw [null] at positive
  exact Nat.lt_irrefl 0 positive

/-- A new cell at the end. -/
theorem push (holds : Holds heap arena) (grown : Arena.Grown arena after) {position : Nat}
    {cell : Cell} (storable : cell.Storable) (beyond : arena.used ≤ position)
    (within : after.Within position cell.size)
    (load : after.load position cell.size = cell.bytes)
    (kept : forall other, other < position -> after.byteAt other = arena.byteAt other)
    (owned : forall owner records, cell = .fields owner records ->
      exists type, heap owner.offset.toNat = some (.type type)) :
    Holds (heap.set position cell) after := by
  have free := holds.none_of_used beyond
  refine holds.put grown storable within load ?_ ?_
    (fun type stored => by cases free.symm.trans stored) owned
  · intro other inUse _
    exact kept other (by omega)
  · intro other otherCell stored _
    have inside := holds.within other otherCell stored
    have inUse := inside.2.1
    exact Or.inl (by omega)

/-- Another cell of the same size in the place of a cell. -/
theorem replace (holds : Holds heap arena) {position : Nat} {old cell : Cell}
    (stored : heap position = some old) (sameSort : Cell.SameSort old cell)
    (sameSize : cell.size = old.size) (storable : cell.Storable) {start : Nat}
    {source : List UInt8} (written : Arena.Written arena start source after) (above : position ≤ start)
    (below : start + source.length ≤ position + cell.size)
    (load : after.load position cell.size = cell.bytes) :
    Holds (heap.set position cell) after := by
  refine holds.put written.grown storable ?_ load ?_ ?_ ?_ ?_
  · rw [sameSize]
    exact written.within_iff.mpr (holds.within position old stored)
  · intro other _ outside
    exact written.byteAt_of_apart (by omega)
  · intro other otherCell otherStored different
    have separate := holds.apart other position otherCell old otherStored stored different
    omega
  · intro type typeStored
    cases stored.symm.trans typeStored
    cases sameSort
    exact ⟨_, rfl⟩
  · intro owner records same
    subst same
    cases sameSort
    exact holds.owned position owner _ stored

end Holds

/-! ### What a schema answers -/

/-- A type is stored where its identifier says. -/
def HasType (heap : Heap) (id : TypeId) (type : TypeDef) : Prop :=
  heap id.offset.toNat = some (.type type)

/-- A type has some fields, in the order of their storage. -/
def HasFields (heap : Heap) (id : TypeId) (type : TypeDef) (fields : List FieldDef) : Prop :=
  type.fieldCount.toNat = fields.length ∧
    (fields ≠ [] -> heap type.fields.toNat = some (.fields id fields))

/-- A reference leads to a text. -/
def HasText (heap : Heap) (stored : TextRef) (text : String) : Prop :=
  stored.length.toNat = text.utf8ByteSize ∧
    (text ≠ "" -> heap stored.offset.toNat = some (.text text))

theorem hasText_empty (heap : Heap) : HasText heap TextRef.empty "" :=
  ⟨rfl, fun nonempty => absurd rfl nonempty⟩

theorem hasType_inj {heap : Heap} {id : TypeId} {type other : TypeDef}
    (stored : HasType heap id type) (otherStored : HasType heap id other) : type = other := by
  cases stored.symm.trans otherStored
  rfl

namespace Holds

variable {heap : Heap} {arena : Arena}

/-- A type has fewer fields than there are used bytes. -/
theorem length_fields_le (holds : Holds heap arena) {id : TypeId} {type : TypeDef}
    {fields : List FieldDef} (hasFields : HasFields heap id type fields) :
    fields.length ≤ arena.used := by
  by_cases isEmpty : fields = []
  · rw [isEmpty]
    exact Nat.zero_le _
  · have inUse := (holds.within _ _ (hasFields.2 isEmpty)).2.1
    have size := Cell.size_fields id fields
    omega

theorem get?_cell (holds : Holds heap arena) (part : Offset) (start length : Nat)
    {offset : Offset} {cell : Cell} (stored : heap offset.toNat = some cell)
    (placed : part.toNat = offset.toNat + start) (fits : start + length ≤ cell.size)
    (before : start < cell.size) :
    exists bytes, arena.get? part length = some bytes ∧
      bytes.data.toList = (cell.bytes.drop start).take length := by
  have within := holds.within _ _ stored
  obtain ⟨bytes, found, content⟩ := Arena.get?_of_within part length holds.writable within
    (by omega) (by omega) (by omega)
  refine ⟨bytes, found, content.trans ?_⟩
  have load := holds.load _ _ stored
  rw [← load]
  apply List.ext_getElem
  · simp only [Arena.length_load, List.length_take, List.length_drop]
    omega
  · intro index inLoad inPart
    simp only [Arena.load, List.getElem_map, List.getElem_range, List.getElem_take,
      List.getElem_drop, placed, Nat.add_assoc]

theorem record (holds : Holds heap arena) {Value : Type} [Record Value] (part : Offset)
    (start : Nat) (value : Value) {offset : Offset} {cell : Cell}
    (stored : heap offset.toNat = some cell)
    (placed : part.toNat = offset.toNat + start)
    (content : (cell.bytes.drop start).take (Record.size Value) =
      (Record.toBytes value).data.toList)
    (before : start < cell.size)
    (fits : start + Record.size Value ≤ cell.size) :
    Record.read Value arena part = Record.ofBytes part (Record.toBytes value) := by
  obtain ⟨bytes, found, same⟩ := holds.get?_cell part start _ stored placed fits before
  unfold Record.read
  rw [found]
  have equal : bytes = Record.toBytes value := by
    apply ByteArray.ext
    exact Array.toList_inj.mp (same.trans content)
  rw [equal]

/-- A stored type is found. -/
theorem type (holds : Holds heap arena) {id : TypeId} {type : TypeDef}
    (stored : HasType heap id type) : Schema.type ⟨arena⟩ id = .ok type := by
  have within := holds.within _ _ stored
  have present : id.offset.isNull = false := Offset.isNull_eq_false_iff.mpr within.1
  have size : Record.size TypeDef = 40 := rfl
  have cellSize := Cell.size_type type
  unfold Schema.type
  rw [present]
  refine (holds.record id.offset 0 type stored rfl ?_
    (by omega) (by omega)).trans (TypeDef.ofBytes_toBytes _ (holds.storable _ _ stored))
  rw [List.drop_zero]
  exact List.take_of_length_le (Nat.le_of_eq cellSize)

end Holds

theorem bytes_fields_append (owner : TypeId) (first second : List FieldDef) :
    (Cell.fields owner (first ++ second)).bytes =
      (Cell.fields owner first).bytes ++ (Cell.fields owner second).bytes :=
  List.flatMap_append

theorem drop_bytes_fields (owner : TypeId) (fields : List FieldDef) (index : Nat) :
    (Cell.fields owner fields).bytes.drop (36 * index) =
      (Cell.fields owner (fields.drop index)).bytes := by
  induction index generalizing fields with
  | zero => rfl
  | succ index ih =>
      cases fields with
      | nil => exact List.drop_nil
      | cons field rest =>
          have length := Cell.length_toBytes field
          have next : 36 * (index + 1) = (Record.toBytes field).data.toList.length + 36 * index := by
            omega
          rw [List.drop_succ_cons, ← ih rest, next]
          exact List.drop_length_add_append (36 * index)

theorem take_bytes_fields (owner : TypeId) (fields : List FieldDef) (index : Nat) :
    (Cell.fields owner fields).bytes.take (36 * index) =
      (Cell.fields owner (fields.take index)).bytes := by
  induction index generalizing fields with
  | zero => rfl
  | succ index ih =>
      cases fields with
      | nil => exact List.take_nil
      | cons field rest =>
          have length := Cell.length_toBytes field
          have next : 36 * (index + 1) = (Record.toBytes field).data.toList.length + 36 * index := by
            omega
          rw [List.take_succ_cons, next]
          change List.take _ ((Record.toBytes field).data.toList ++ (Cell.fields owner rest).bytes) =
            (Record.toBytes field).data.toList ++ (Cell.fields owner (rest.take index)).bytes
          rw [List.take_length_add_append, ih]

namespace Holds

variable {heap : Heap} {arena : Arena}

theorem field (holds : Holds heap arena) {type : TypeDef} {fields : List FieldDef}
    {id : TypeId} (stored : HasFields heap id type fields) {index : Nat}
    (bound : index < fields.length) :
    Schema.field ⟨arena⟩ type index = .ok fields[index] := by
  obtain ⟨count, cell⟩ := stored
  have nonempty : fields ≠ [] := by
    intro isEmpty
    subst isEmpty
    exact Nat.not_lt_zero _ bound
  have present := cell nonempty
  have within := holds.within _ _ present
  have storable := (holds.storable _ _ present).2 fields[index] (List.getElem_mem bound)
  have cellSize := Cell.size_fields id fields
  have fieldSize : Schema.fieldSize = 36 := rfl
  have recordSize : Record.size FieldDef = 36 := rfl
  have space := holds.used_lt
  have inUse := within.2.1
  have place : type.fields.add? (index * Schema.fieldSize % Offset.spaceSize) =
      some (Offset.ofNat (type.fields.toNat + index * 36)) := by
    rw [fieldSize, Nat.mod_eq_of_lt (by omega)]
    unfold Offset.add? Offset.ofNat?
    rw [if_pos (by omega)]
  have toNat : (Offset.ofNat (type.fields.toNat + index * 36)).toNat =
      type.fields.toNat + 36 * index := by
    rw [Offset.toNat_ofNat (by omega)]
    omega
  unfold Schema.field
  rw [if_neg (by omega), place]
  refine (holds.record _ _ fields[index] present toNat ?_ (by omega) (by omega)).trans
    (FieldDef.ofBytes_toBytes _ storable)
  rw [drop_bytes_fields, List.drop_eq_getElem_cons bound]
  exact List.take_left' (Cell.length_toBytes _)

/-- Stored fields are found in the order of their storage. -/
theorem fields (holds : Holds heap arena) {type : TypeDef} {fields : List FieldDef}
    {id : TypeId} (stored : HasFields heap id type fields) :
    Schema.fields ⟨arena⟩ type = .ok fields := by
  have last (count : Nat) (bound : count ≤ fields.length) :
      Schema.lastFields ⟨arena⟩ type count = .ok (fields.drop (fields.length - count)) := by
    induction count with
    | zero => rw [Nat.sub_zero, List.drop_length]; rfl
    | succ count ih =>
        have inside : fields.length - (count + 1) < fields.length := by omega
        have rest : fields.length - (count + 1) + 1 = fields.length - count := by omega
        unfold Schema.lastFields
        rw [stored.1, holds.field stored inside, ih (by omega),
          List.drop_eq_getElem_cons inside, rest]
        rfl
  unfold Schema.fields
  rw [stored.1, last fields.length (Nat.le_refl _), Nat.sub_self]
  rfl

/-- A stored text is found. -/
theorem text (holds : Holds heap arena) {reference : TextRef} {text : String}
    (stored : HasText heap reference text) : Schema.text ⟨arena⟩ reference = .ok text := by
  obtain ⟨length, cell⟩ := stored
  by_cases isEmpty : text = ""
  · subst isEmpty
    have zero : reference.length = 0 := UInt32.toNat_inj.mp length
    unfold Schema.text
    rw [if_pos zero]
  · have present := cell isEmpty
    have positive : text.utf8ByteSize ≠ 0 := by
      rw [Ne, String.utf8ByteSize_eq_zero_iff]
      exact isEmpty
    have nonzero : ¬ reference.length = 0 := by
      intro zero
      rw [zero] at length
      exact positive length.symm
    have cellSize := Cell.size_text text
    obtain ⟨bytes, found, content⟩ := holds.get?_cell reference.offset 0
      text.utf8ByteSize present rfl (by omega) (by omega)
    have equal : bytes = text.toUTF8 := by
      apply ByteArray.ext
      apply Array.toList_inj.mp
      rw [content, List.drop_zero]
      exact List.take_left' rfl
    unfold Schema.text
    rw [if_neg nonzero, length]
    unfold Arena.slice
    rw [found, equal]
    simp only [String.fromUTF8?, String.toUTF8_eq_toByteArray, text.isValidUTF8, dite_true]
    rfl

theorem name (holds : Holds heap arena) {type : TypeDef} {text : String}
    (stored : HasText heap type.name text) : Schema.name ⟨arena⟩ type = text := by
  unfold Schema.name
  rw [holds.text stored]

end Holds

/-- What the cells of a heap say is what a schema answers.  The schema may work
on a copy of the arena that stores the cells. -/
structure ToldBy (heap : Heap) (schema : Schema) : Prop where
  ne_null : forall {offset : Offset} {cell : Cell}, heap offset.toNat = some cell ->
    offset ≠ Offset.null
  type : forall {id : TypeId} {type : TypeDef}, HasType heap id type ->
    schema.type id = .ok type
  fields : forall {id : TypeId} {type : TypeDef} {fields : List FieldDef},
    HasFields heap id type fields -> schema.fields type = .ok fields
  text : forall {reference : TextRef} {text : String}, HasText heap reference text ->
    schema.text reference = .ok text

theorem Holds.told {heap : Heap} {arena : Arena} (holds : Holds heap arena) :
    ToldBy heap ⟨arena⟩ :=
  ⟨holds.ne_null, holds.type, holds.fields, holds.text⟩

theorem ToldBy.fieldsInOrder {heap : Heap} {schema : Schema} (told : ToldBy heap schema)
    {id : TypeId} {type : TypeDef} {fields : List FieldDef}
    (stored : HasFields heap id type fields) :
    schema.fieldsInOrder type =
      .ok (Sorted.sortBy (fun field => field.order.toNat) fields) := by
  unfold Schema.fieldsInOrder
  rw [told.fields stored]
  rfl

theorem Holds.fieldsInOrder {heap : Heap} {arena : Arena} (holds : Holds heap arena) {id : TypeId}
    {type : TypeDef} {fields : List FieldDef} (stored : HasFields heap id type fields) :
    Schema.fieldsInOrder ⟨arena⟩ type =
      .ok (Sorted.sortBy (fun field => field.order.toNat) fields) :=
  holds.told.fieldsInOrder stored

end Heap
end PackedJson
