import PackedJson.Proofs.Packing.Types

namespace PackedJson
namespace Packer

open Arena TextSchema

/-!
Writing values without parts, and reading them back.

A scalar is one number.  A text is an array of bytes: its record holds a
pointer to the bytes and their number.
-/

/-- The reader of the instances that a packer writes. -/
def reader (packer : Packer) (data : Arena) : Reader :=
  ⟨packer.schema, packer.context, packer.target, data, packer.pointerBase⟩

/-- The region of a variable. -/
def variableOf (place : Offset) (type : TypeDef) : Extent := ⟨place.toNat, type.slot.toNat⟩

/-- An instance is read as a value. -/
def ReadsInstance (packer : Packer) (id : TypeId) (type : TypeDef) (place : Offset)
    (value : Value) (data : Arena) : Prop :=
  Reads (packer.reader data) ⟨id, type, place⟩ value

/-- The instance that a variable holds or points to is read as a value. -/
def ReadsVariable (packer : Packer) (id : TypeId) (place : Offset) (value : Value)
    (data : Arena) : Prop :=
  exists found, (packer.reader data).variableAt id place = .ok found ∧
    Reads (packer.reader data) found value

/-- A step writes a value into a region, from which it is read afterwards if
the region was empty. -/
def FillsRegion (document : Json) (packer : Packer) (region : Extent)
    (reads : Value -> Arena -> Prop) (term : Term) (path : Path) (value : Json)
    (step : PackM Unit) (before : PackState) : Prop :=
  Fills document packer.maxDepth [region] (.asked term path value) step before
    fun meaning after => before.data.Zero region -> value.WellFormed ->
      Lasts (Since region before.data.used after.data.used) after.data (reads meaning)

/-- A step writes a value into an instance. -/
abbrev FillsInstance (document : Json) (packer : Packer) (id : TypeId) (type : TypeDef)
    (place : Offset) :=
  FillsRegion document packer (instanceOf place type) (packer.ReadsInstance id type place)

/-- A step writes a value into a variable. -/
abbrev FillsVariable (document : Json) (packer : Packer) (id : TypeId) (type : TypeDef)
    (place : Offset) :=
  FillsRegion document packer (variableOf place type) (packer.ReadsVariable id place)

/-- There is room at a region. -/
structure HasRoom (data : Arena) (region : Extent) : Prop where
  writable : data.Writable
  within : data.Within region.start region.length

theorem HasRoom.end_le {data : Arena} {region : Extent} (room : HasRoom data region) :
    region.start + region.length ≤ data.used :=
  room.within.2.1

theorem HasRoom.inside {data : Arena} {region inner : Extent} (room : HasRoom data region)
    (inside : inner.Inside region) : HasRoom data inner :=
  ⟨room.writable, within_sub room.within inside.1 inside.2⟩

theorem HasRoom.grown {data after : Arena} {region : Extent} (room : HasRoom data region)
    (grown : Grown data after) : HasRoom after region :=
  ⟨grown.writable room.writable, grown.within _ _ room.within⟩

theorem HasRoom.moved {before after : PackState} {owned fresh : List Extent} {region : Extent}
    (room : HasRoom before.data region) (moves : Moves owned before fresh after) :
    HasRoom after.data region :=
  room.grown (moves.evolves.grown room.writable)

/-- The position inside a region is an offset. -/
theorem HasRoom.toNat_advance {data : Arena} {region : Extent} (room : HasRoom data region)
    {place : Offset} {bytes : Nat} (inside : place.toNat + bytes ≤ region.start + region.length) :
    (place.advance bytes).toNat = place.toNat + bytes := by
  have used := room.writable.used_lt
  have bound := room.end_le
  exact Offset.toNat_advance (by omega)

theorem HasRoom.inside_eq {data : Arena} {region : Extent} (room : HasRoom data region)
    {place : Offset} {delta : UInt32}
    (inside : place.toNat + delta.toNat ≤ region.start + region.length) :
    Packer.inside place delta = pure (place.advance delta.toNat) := by
  have used := room.writable.used_lt
  have bound := room.end_le
  exact Packer.inside_eq (by omega)

theorem reader_inside {place : Place} {delta : UInt32}
    (small : place.offset.toNat + delta.toNat < Offset.spaceSize) :
    Reader.inside place delta = .ok (place.offset.advance delta.toNat) := by
  unfold Reader.inside
  rw [Offset.add?_eq_advance small]

/-! ### The record of an array -/

section Arrays

variable {packer : Packer} {type : TypeDef} {layout : Schema.ArrayLayout} {place storage : Offset}
  {length capacity : Nat} {state : PackState} {data : Arena}

/-- The pointer and the length of an array are stored. -/
structure HasParts (packer : Packer) (layout : Schema.ArrayLayout) (place storage : Offset)
    (length : Nat) (data : Arena) : Prop where
  pointer : data.HasNumber (place.advance layout.pointer.toNat) packer.target.pointerWidth
    (Reader.rawPointer packer.pointerBase storage)
  length : data.HasNumber (place.advance layout.length.toNat) packer.target.pointerWidth length

/-- Write the pointer and the sizes of an array. -/
def writeParts (packer : Packer) (layout : Schema.ArrayLayout) (place storage : Offset)
    (capacity length : Nat) : PackM Unit := do
  packer.writePointer (← inside place layout.pointer) storage
  packer.writeSize (← inside place layout.capacity) capacity
  packer.writeSize (← inside place layout.length) length

theorem word_eq
    (room : HasRoom data (instanceOf place type)) {delta : UInt32}
    (inside : (packer.wordAt place delta).Inside (instanceOf place type)) :
    (⟨(place.advance delta.toNat).toNat, packer.target.pointerWidth⟩ : Extent) =
      packer.wordAt place delta := by
  have bound := inside.2
  have width := packer.target.pointerWidth_pos
  simp only [wordAt, instanceOf] at bound ⊢
  rw [room.toNat_advance (by simp only [instanceOf]; omega)]

/-- The record of an array depends on its own bytes only. -/
theorem HasParts.preserved (has : HasParts packer layout place storage length data)
    (isArray : IsArray packer type layout) (room : HasRoom data (instanceOf place type))
    {later : Arena} {kept : Nat -> Prop} (preserves : Preserves kept data later)
    (isKept : forall position, (instanceOf place type).Has position -> kept position) :
    HasParts packer layout place storage length later := by
  obtain ⟨pointer, _, lengthInside⟩ := isArray.inside place
  have sub {delta : UInt32} (inside : (packer.wordAt place delta).Inside (instanceOf place type)) :
      forall position, Extent.Has ⟨(place.advance delta.toNat).toNat,
        packer.target.pointerWidth⟩ position -> kept position := by
    rw [word_eq room inside]
    exact fun position has => isKept position
      ⟨Nat.le_trans inside.1 has.1, Nat.lt_of_lt_of_le has.2 inside.2⟩
  exact ⟨has.pointer.preserved preserves (sub pointer),
    has.length.preserved preserves (sub lengthInside)⟩

/-- The regions of the words of an array. -/
def wordsOf (packer : Packer) (layout : Schema.ArrayLayout) (place : Offset) : List Extent :=
  [packer.wordAt place layout.pointer, packer.wordAt place layout.capacity,
    packer.wordAt place layout.length]

theorem IsArray.covers_words (isArray : IsArray packer type layout) (place : Offset) :
    Covers [instanceOf place type] (packer.wordsOf layout place) := by
  obtain ⟨pointerInside, capacityInside, lengthInside⟩ := isArray.inside place
  intro region member
  refine ⟨_, List.mem_cons_self, ?_⟩
  simp only [wordsOf, List.mem_cons, List.not_mem_nil, or_false] at member
  rcases member with rfl | rfl | rfl
  · exact pointerInside
  · exact capacityInside
  · exact lengthInside

/-- The pointer, the capacity and the length of an array are stored. -/
structure HasRecord (packer : Packer) (layout : Schema.ArrayLayout) (place storage : Offset)
    (capacity length : Nat) (data : Arena) : Prop extends
    HasParts packer layout place storage length data where
  capacity : data.HasNumber (place.advance layout.capacity.toNat) packer.target.pointerWidth
    capacity

/-- The record of an array is written, and nothing but its words. -/
theorem does_writeRecord (isArray : IsArray packer type layout)
    (room : HasRoom state.data (instanceOf place type)) :
    Does (packer.wordsOf layout place) (packer.writeParts layout place storage capacity length) state
      fun _ _ after => HasRecord packer layout place storage capacity length after.data := by
  obtain ⟨pointerInside, capacityInside, lengthInside⟩ := isArray.inside place
  obtain ⟨notCapacity, notLength, sizesApart⟩ := isArray.apart place
  have word {delta : UInt32} (inside : (packer.wordAt place delta).Inside (instanceOf place type)) :=
    word_eq room inside
  have position {delta : UInt32}
      (inside : (packer.wordAt place delta).Inside (instanceOf place type)) :
      Packer.inside place delta = pure (place.advance delta.toNat) :=
    room.inside_eq (Nat.le_trans (Nat.le_add_right _ _) inside.2)
  have within {delta : UInt32} {after : Arena} (grown : Grown state.data after)
      (inside : (packer.wordAt place delta).Inside (instanceOf place type)) :
      after.Within (place.advance delta.toNat).toNat packer.target.pointerWidth := by
    have within := ((room.inside inside).grown grown).within
    rw [← word inside] at within
    exact within
  have wordCovers {delta : UInt32}
      (inside : (packer.wordAt place delta).Inside (instanceOf place type)) (fresh : List Extent)
      (isWord : packer.wordAt place delta ∈ packer.wordsOf layout place) :
      Covers (fresh ++ packer.wordsOf layout place)
        [⟨(place.advance delta.toNat).toNat, packer.target.pointerWidth⟩] := by
    rw [word inside]
    exact (Covers.single isWord ⟨Nat.le_refl _, Nat.le_refl _⟩).append
  have writable := room.writable
  unfold writeParts
  rw [position pointerInside, position capacityInside, position lengthInside]
  simp only [pure_bind]
  refine (does_writePointer writable (within (.refl _) pointerInside)).andThen
    (wordCovers pointerInside [] (by simp [wordsOf])) ?_
  intro _ fresh middle moves hasPointer
  have grown := moves.evolves.grown writable
  refine (does_writeSize (grown.writable writable) (within grown capacityInside)).andThen
    (wordCovers capacityInside fresh (by simp [wordsOf])) ?_
  intro _ more later moved hasCapacity
  have grownMore := grown.trans (moved.evolves.grown (grown.writable writable))
  refine ((does_writeSize (grownMore.writable writable) (within grownMore lengthInside)).imp
    ?_).covered (wordCovers lengthInside fresh (by simp [wordsOf])).append
  intro _ last after ends hasLength
  refine ⟨⟨?_, hasLength⟩, hasCapacity.survives ends.evolves (grownMore.writable writable) ?_⟩
  case refine_2 =>
    intro other member
    cases List.mem_singleton.mp member
    rw [word capacityInside, word lengthInside]
    exact sizesApart.symm
  refine (hasPointer.survives moved.evolves (grown.writable writable) ?_).survives ends.evolves
    (grownMore.writable writable) ?_
  · intro other member
    cases List.mem_singleton.mp member
    rw [word pointerInside, word capacityInside]
    exact notCapacity
  · intro other member
    cases List.mem_singleton.mp member
    rw [word pointerInside, word lengthInside]
    exact notLength

theorem does_writeParts (isArray : IsArray packer type layout)
    (room : HasRoom state.data (instanceOf place type)) :
    Does [instanceOf place type] (packer.writeParts layout place storage capacity length) state
      fun _ _ after => HasParts packer layout place storage length after.data :=
  ((does_writeRecord isArray room).covered (isArray.covers_words place)).imp
    fun _ _ _ _ has => has.toHasParts

/-- The parts of an array are read. -/
theorem arrayParts_of_hasParts (isArray : IsArray packer type layout)
    (has : HasParts packer layout place storage length data)
    (room : HasRoom data (instanceOf place type)) (id : TypeId) :
    (packer.reader data).arrayParts ⟨id, type, place⟩ = .ok (storage.nonNull?, length) := by
  obtain ⟨pointerInside, _, lengthInside⟩ := isArray.inside place
  have used := room.writable.used_lt
  have bound := room.end_le
  have pointerEnd := pointerInside.2
  have lengthEnd := lengthInside.2
  simp only [wordAt] at pointerEnd lengthEnd
  have pointer : (packer.reader data).readPointer (place.advance layout.pointer.toNat) =
      .ok storage.nonNull? := Reader.readPointer_of_hasNumber has.pointer room.writable
  have size : (packer.reader data).readUnsigned (place.advance layout.length.toNat)
      packer.target.pointerWidth = .ok length :=
    Reader.readUnsigned_of_hasNumber has.length room.writable
  unfold Reader.arrayParts
  simp only [reader, Reader.ofSchema, isArray.isLayout, bind, Except.bind] at pointer size ⊢
  rw [reader_inside (by simp only; omega), reader_inside (by simp only; omega)]
  simp only [Reader.readSize, pointer, size]
  rfl

end Arrays

/-! ### Texts -/

section Texts

variable {packer : Packer} {type : TypeDef} {layout : Schema.ArrayLayout} {place : Offset}
  {text : String} {state : PackState} {data : Arena}

/-- A region holds the bytes of a text and one more. -/
structure HasBytes (text : String) (start : Offset) (data : Arena) : Prop where
  present : start.isNull = false
  within : data.Within start.toNat (text.utf8ByteSize + 1)
  load : data.load start.toNat text.utf8ByteSize = text.toUTF8.data.toList

theorem HasBytes.slice (has : HasBytes text start data) (writable : data.Writable) :
    data.slice start text.utf8ByteSize = .ok text.toUTF8 := by
  obtain ⟨bytes, found, content⟩ := get?_of_within start text.utf8ByteSize writable has.within
    (Nat.le_refl _) (by omega) (by omega)
  have same : bytes = text.toUTF8 := by
    apply ByteArray.ext
    exact Array.toList_inj.mp (content.trans has.load)
  unfold Arena.slice
  rw [found, same]

theorem HasBytes.preserved {start : Offset} (has : HasBytes text start data) {later : Arena}
    {kept : Nat -> Prop} (preserves : Preserves kept data later)
    (isKept : forall position, Extent.Has ⟨start.toNat, text.utf8ByteSize + 1⟩ position ->
      kept position) : HasBytes text start later := by
  refine ⟨has.present, preserves.grown.within _ _ has.within, ?_⟩
  rw [← has.load]
  exact preserves.load fun position ⟨low, high⟩ => isKept position ⟨low, by
    simp only at high ⊢
    omega⟩

/-- A text is stored: its record, and the bytes that it leads to. -/
def HoldsText (packer : Packer) (layout : Schema.ArrayLayout) (place : Offset) (text : String)
    (data : Arena) : Prop :=
  exists start, HasParts packer layout place start text.utf8ByteSize data ∧ HasBytes text start data

/-- The bytes of a text are stored in a region of their own. -/
theorem does_storeText (writable : state.data.Writable) :
    Does [] (onData (Arena.storeText text)) state fun start _ after =>
      state.data.used ≤ start.toNat ∧ HasBytes text start after.data := by
  have size : text.toUTF8.size = text.utf8ByteSize := rfl
  unfold Does
  rw [run_onData]
  unfold Arena.storeText
  rw [run_bind]
  have allocates := run_alloc (text.utf8ByteSize + 1) 1 writable rfl
  unfold Run at allocates
  unfold Run
  cases ends : Arena.alloc (text.utf8ByteSize + 1) 1 state.data with
  | error cause after =>
      rw [ends] at allocates
      obtain ⟨same, shortage⟩ := allocates
      exact ⟨PackError.isExpected_ofArena shortage, [], by simp only [same]; exact .start⟩
  | ok start middle =>
      rw [ends] at allocates
      have allocated := allocates
      have middleWritable := allocated.grown.writable writable
      have writes := run_write start text.toUTF8 middleWritable allocated.within (Nat.le_refl _)
        (by omega) (by omega)
      unfold Run at writes
      cases writeEnds : Arena.write start text.toUTF8 middle with
      | error cause after =>
          rw [writeEnds] at writes
          exact writes.elim
      | ok _ after =>
          rw [writeEnds] at writes
          have written := writes
          simp only [bind, EStateM.bind, writeEnds]
          have evolves : Evolves [] state.data [⟨start.toNat, text.utf8ByteSize + 1⟩] after := by
            refine (Evolves.start.alloc ends).write (List.mem_append_left _ List.mem_cons_self)
              ⟨Nat.le_refl _, ?_⟩ writeEnds
            simp only
            omega
          refine ⟨_, ⟨rfl, evolves⟩, allocated.start, ?_, ?_, written.load_source⟩
          · exact Offset.isNull_eq_false_iff.mpr allocated.within.1
          · exact written.grown.within _ _ allocated.within

/-- Writing a text stores its bytes and then its record. -/
theorem writeText_eq (isArray : IsArray packer type layout) :
    packer.writeText type place text = (do
      let storage ← onData (Arena.storeText text)
      packer.writeParts layout place storage (text.utf8ByteSize + 1) text.utf8ByteSize) := by
  unfold writeText
  rw [ask_ok isArray.isLayout, pure_bind]
  rfl

/-- A text was written: its words, and its bytes in a region handed out for them. -/
def WroteText (packer : Packer) (layout : Schema.ArrayLayout) (place : Offset) (text : String)
    (before after : Arena) : Prop :=
  exists start, before.used ≤ start.toNat ∧
    HasRecord packer layout place start (text.utf8ByteSize + 1) text.utf8ByteSize after ∧
    HasBytes text start after

/-- A text that was written stays as long as its bytes do. -/
theorem WroteText.lasts {before : Arena} (wrote : WroteText packer layout place text before data)
    (isArray : IsArray packer type layout) (room : HasRoom data (instanceOf place type)) :
    Lasts (Since (instanceOf place type) before.used data.used) data
      (packer.HoldsText layout place text) := by
  obtain ⟨start, behind, hasRecord, hasBytes⟩ := wrote
  intro later preserves
  refine ⟨start, hasRecord.toHasParts.preserved isArray room preserves fun _ => Or.inl,
    hasBytes.preserved preserves fun position has => ?_⟩
  exact Since.of_behind behind hasBytes.within.2.1 has

/-- A text is written, and nothing but its words and its bytes. -/
theorem does_writeWords (isArray : IsArray packer type layout)
    (room : HasRoom state.data (instanceOf place type)) :
    Does (packer.wordsOf layout place) (packer.writeText type place text) state fun _ _ after =>
      packer.WroteText layout place text state.data after.data := by
  rw [writeText_eq isArray]
  refine (does_storeText room.writable).andThen (.nil _) ?_
  intro start fresh middle moves ⟨behind, hasBytes⟩
  have middleRoom := room.moved moves
  refine ((does_writeRecord isArray middleRoom).imp ?_).covered (Covers.refl _).append
  intro _ more after moved hasRecord
  have inUse := hasBytes.within.2.1
  have survives : Preserves (Extent.Has ⟨start.toNat, text.utf8ByteSize + 1⟩) middle.data after.data :=
    moved.evolves.preserves_region middleRoom.writable inUse fun other member => by
      obtain ⟨_, isInstance, inside⟩ := isArray.covers_words place other member
      cases List.mem_singleton.mp isInstance
      exact Or.inr (Nat.le_trans inside.2 (Nat.le_trans room.end_le behind))
  exact ⟨start, behind, hasRecord, hasBytes.preserved survives fun _ => id⟩

/-- A text is written. -/
theorem does_writeText (isArray : IsArray packer type layout)
    (room : HasRoom state.data (instanceOf place type)) :
    Does [instanceOf place type] (packer.writeText type place text) state fun _ _ after =>
      Lasts (Since (instanceOf place type) state.data.used after.data.used) after.data
        (packer.HoldsText layout place text) :=
  ((does_writeWords isArray room).covered (isArray.covers_words place)).imp
    fun _ _ _ moves wrote => wrote.lasts isArray (room.moved moves)

/-- A stored text is read. -/
theorem text_of_holdsText (isArray : IsArray packer type layout)
    (holds : packer.HoldsText layout place text data)
    (room : HasRoom data (instanceOf place type)) {id : TypeId}
    (isString : packer.context.builtinOf? id = some .string) :
    (packer.reader data).text ⟨id, type, place⟩ = .ok text := by
  obtain ⟨start, hasParts, hasBytes⟩ := holds
  have parts := arrayParts_of_hasParts isArray hasParts room id
  have found := hasBytes.slice room.writable
  have nonNull : start.nonNull? = some start := by
    unfold Offset.nonNull?
    rw [hasBytes.present]
    rfl
  unfold Reader.text Reader.expect Reader.builtin?
  simp only [reader, isString, if_true, bind, Except.bind] at parts ⊢
  rw [parts, nonNull]
  simp only [Reader.bytesAt]
  by_cases isEmpty : text.utf8ByteSize = 0
  · have same : text = "" := String.utf8ByteSize_eq_zero_iff.mp isEmpty
    subst same
    rfl
  · rw [if_neg isEmpty, found]
    simp only [String.fromUTF8?, String.toUTF8_eq_toByteArray, text.isValidUTF8, dite_true]
    rfl

/-- A text takes a variable. -/
theorem IsText.variableOf_eq (isText : IsText packer type layout) (place : Offset) :
    variableOf place type = instanceOf place type := by
  unfold variableOf instanceOf
  rw [isText.slot]

theorem IsText.positive (isText : IsText packer type layout) : 0 < type.size.toNat := by
  have width := packer.target.pointerWidth_pos
  have inside := (isText.isArray.inside Offset.null).1.2
  simp only [wordAt, instanceOf] at inside
  omega

end Texts

/-! ### Builtins -/

section Builtins

variable {packer : Packer} {heap : Heap} {document : Json} {promises : Promises}
  {settled : TypeId -> Prop} {id : TypeId} {type : TypeDef} {place : Offset} {term : Term}
  {path : Path} {value : Json} {state : PackState}

/-- A value that is written as one number. -/
theorem fills_number_ {width raw : Nat} {meaning : Value}
    (region : instanceOf place type = ⟨place.toNat, width⟩)
    (room : HasRoom state.data (instanceOf place type)) (narrow : width ≤ 8)
    (small : raw < 256 ^ width)
    (judges : Judges document packer.maxDepth (.asked term path value) (.fits meaning))
    (reads : forall data, data.Writable -> data.HasNumber place width raw -> value.WellFormed ->
      packer.ReadsInstance id type place meaning data) :
    FillsInstance document packer id type place term path value (writeUnsigned place width raw)
      state := by
  unfold FillsInstance FillsRegion
  rw [region] at room ⊢
  refine (does_writeUnsigned room.writable room.within narrow small).fits meaning judges ?_
  intro fresh after moves has _ wellFormed later preserves
  have grown := moves.evolves.grown room.writable
  exact reads later (preserves.grown.writable (grown.writable room.writable))
    (has.preserved preserves fun _ => Or.inl) wellFormed

theorem fills_complaint {complaint : Complaint} {reads : Value -> Arena -> Prop} {region : Extent}
    {role : Role} (hasRole : HasRole document term role)
    (own : ownVerdict? role path value = some (.complaint complaint path)) :
    FillsRegion document packer region reads term path value (raise complaint path) state :=
  fills_raise (.own hasRole own)

theorem instanceOf_scalar (place : Offset) (name : TextRef) {size : Nat} (small : size ≤ 8) :
    instanceOf place (TypeDef.scalar name (UInt32.ofNat size)) = ⟨place.toNat, size⟩ := by
  have same : (UInt32.ofNat size).toNat = size :=
    UInt32.toNat_ofNat_of_lt' (Nat.lt_of_le_of_lt small (by decide))
  unfold instanceOf TypeDef.scalar
  rw [same]

theorem readUnsigned_eq {data : Arena} {width raw : Nat} (writable : data.Writable)
    (has : data.HasNumber place width raw) :
    (packer.reader data).readUnsigned place width = .ok raw :=
  Reader.readUnsigned_of_hasNumber has writable

theorem expect_eq {data : Arena} {builtin : Builtin} {expected : String} {found : Place}
    (isBuiltin : packer.context.builtinOf? found.id = some builtin) :
    (packer.reader data).expect found builtin expected = .ok () :=
  if_pos isBuiltin

/-- An integer within its range is what its remainder stands for. -/
theorem bmod_emod {number : Int} (low : -2 ^ 63 ≤ number) (high : number < 2 ^ 63) :
    Int.bmod ((number % 2 ^ 64).toNat : Int) (2 ^ 64) = number := by
  have positive := Int.emod_nonneg number (show (2 : Int) ^ 64 ≠ 0 by decide)
  rw [Int.toNat_of_nonneg positive]
  have power : ((2 ^ 64 : Nat) : Int) = 2 ^ 64 := by decide
  rw [← power, Int.emod_bmod]
  apply Int.bmod_eq_of_le
  · omega
  · omega

section Roles

variable (isBuiltin : forall builtin,
  packer.context.builtinOf? (packer.context.builtin builtin) = some builtin) {name : TextRef}

include isBuiltin

theorem fills_integer (hasRole : HasRole document term .integer)
    (room : HasRoom state.data (instanceOf place (TypeDef.scalar name (UInt32.ofNat 8)))) :
    FillsInstance document packer (packer.context.builtin .integer)
      (TypeDef.scalar name (UInt32.ofNat 8)) place term path value (integer place path value)
      state := by
  cases value with
  | number number =>
      cases number with
      | float bits => exact fills_complaint hasRole rfl
      | integer number =>
          unfold integer
          simp only
          split
          next inRange =>
            have positive := Int.emod_nonneg number (show (2 : Int) ^ 64 ≠ 0 by decide)
            have below := Int.emod_lt_of_pos number (show (0 : Int) < 2 ^ 64 by decide)
            refine fills_number_ (instanceOf_scalar place name (Nat.le_refl 8)) room (Nat.le_refl 8)
              (by omega) (.own hasRole (congrArg some (if_pos inRange))) ?_
            intro data writable has wellFormed
            cases wellFormed with
            | integer low _ =>
                refine .integer ?_
                unfold Reader.integer
                rw [expect_eq (isBuiltin .integer)]
                simp only [bind, Except.bind, readUnsigned_eq writable has]
                exact congrArg Except.ok (bmod_emod low inRange)
          next outside =>
            exact fills_complaint hasRole (congrArg some (if_neg outside))
  | _ => exact fills_complaint hasRole rfl

theorem fills_number (hasRole : HasRole document term .number)
    (room : HasRoom state.data (instanceOf place (TypeDef.scalar name (UInt32.ofNat 8)))) :
    FillsInstance document packer (packer.context.builtin .number)
      (TypeDef.scalar name (UInt32.ofNat 8)) place term path value (number place path value)
      state := by
  cases value with
  | number number =>
      refine fills_number_ (instanceOf_scalar place name (Nat.le_refl 8)) room (Nat.le_refl 8)
        number.toBinary64.toNat_lt (.own hasRole rfl) ?_
      intro data writable has _
      refine .number ?_
      unfold Reader.number
      rw [expect_eq (isBuiltin .number)]
      simp only [bind, Except.bind, readUnsigned_eq writable has]
      exact congrArg Except.ok (UInt64.ofNat_toNat)
  | _ => exact fills_complaint hasRole rfl

theorem fills_boolean (hasRole : HasRole document term .boolean)
    (room : HasRoom state.data (instanceOf place (TypeDef.scalar name (UInt32.ofNat 1)))) :
    FillsInstance document packer (packer.context.builtin .boolean)
      (TypeDef.scalar name (UInt32.ofNat 1)) place term path value (boolean place path value)
      state := by
  cases value with
  | boolean holds =>
      refine fills_number_ (instanceOf_scalar place name (by decide)) room (by decide)
        (by cases holds <;> decide) (.own hasRole rfl) ?_
      intro data writable has _
      refine .boolean ?_
      unfold Reader.boolean
      rw [expect_eq (isBuiltin .boolean)]
      simp only [bind, Except.bind, readUnsigned_eq writable has]
      cases holds <;> rfl
  | _ => exact fills_complaint hasRole rfl

theorem fills_unit (hasRole : HasRole document term .null) {type : TypeDef} :
    FillsInstance document packer (packer.context.builtin .unit) type place term path value
      (unit path value) state := by
  cases value with
  | null =>
      have done : Does [instanceOf place type] (pure ()) state fun _ _ _ => True := .pure trivial
      refine done.fits .null (.own hasRole rfl) ?_
      intro fresh after _ _ _ _ later _
      exact .null (decide_eq_true (isBuiltin .unit))
  | _ => exact fills_complaint hasRole rfl

/-- A value is written as a text. -/
theorem fills_string (hasRole : HasRole document term .string) {type : TypeDef}
    {layout : Schema.ArrayLayout} (isArray : IsArray packer type layout)
    (room : HasRoom state.data (instanceOf place type)) :
    FillsInstance document packer (packer.context.builtin .string) type place term path value
      (packer.string type place path value) state := by
  cases value with
  | string text =>
      refine (does_writeText isArray room).fits (.text text) (.own hasRole rfl) ?_
      intro fresh after moves lasts _ _ later preserves
      exact .text (text_of_holdsText isArray (lasts later preserves)
        ((room.moved moves).grown preserves.grown) (isBuiltin .string))
  | _ => exact fills_complaint hasRole rfl

end Roles

end Builtins

end Packer
end PackedJson
