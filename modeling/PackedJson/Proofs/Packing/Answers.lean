import PackedJson.Packing.Write
import PackedJson.Proofs.Arena.Evolution
import PackedJson.Proofs.Run

namespace PackedJson

/-!
Packing under any schema.

The records of a schema that comes from elsewhere may say anything: fields may
lie outside their instances, counts and references may be arbitrary.  Whatever
they say, a step of packing lets the destination grow at most, and ends with a
result or a failure.  `Answers` says so of a step, and which faults may be
among its failures.  Where the numbers that are written are narrow, and where
no value is handed on in a circle, there is no fault at all.
-/

namespace Arena

variable {Result Next : Type}

/-- An operation lets a writable arena grow at most, also when it fails. -/
def Enlarges (step : ArenaM Result) : Prop :=
  forall arena, arena.Writable ->
    Run step arena (fun _ after => Grown arena after) (fun _ after => Grown arena after)

theorem Enlarges.pure (result : Result) : Enlarges (pure result) :=
  fun arena _ => run_pure.mpr (Grown.refl arena)

theorem Enlarges.throw (cause : ArenaError) : Enlarges (throw cause : ArenaM Result) :=
  fun arena _ => run_throw.mpr (Grown.refl arena)

theorem Enlarges.bind {step : ArenaM Result} {next : Result -> ArenaM Next}
    (first : Enlarges step) (second : forall result, Enlarges (next result)) :
    Enlarges (step >>= next) := by
  intro arena writable
  refine Run.andThen (first arena writable) (fun result middle grown => ?_) fun _ _ => id
  exact (second result middle (grown.writable writable)).imp
    (fun _ _ more => grown.trans more) (fun _ _ more => grown.trans more)

theorem enlarges_alloc (size alignment : Nat) : Enlarges (alloc size alignment) := by
  intro arena writable
  unfold Run
  cases ends : alloc size alignment arena with
  | ok offset after => exact (allocated_of_ok writable ends).grown
  | error cause after =>
      unfold alloc at ends
      split at ends <;> cases ends
      exact Grown.refl arena

theorem enlarges_allocArray (count elementSize alignment : Nat) :
    Enlarges (allocArray count elementSize alignment) := by
  unfold allocArray
  split
  · exact enlarges_alloc _ _
  · exact .throw _

theorem enlarges_write (place : Offset) (source : ByteArray) : Enlarges (write place source) := by
  intro arena writable
  unfold Run
  cases ends : write place source arena with
  | ok _ after => exact (written_of_ok writable ends).grown
  | error cause after =>
      unfold write at ends
      split at ends <;> cases ends
      exact Grown.refl arena

theorem enlarges_zero (place : Offset) (length : Nat) : Enlarges (zero place length) := by
  intro arena writable
  unfold Run zero
  cases arena.checkWritable place length with
  | error cause => exact Grown.refl arena
  | ok _ => exact enlarges_write place _ arena writable

theorem enlarges_storeText (text : String) : Enlarges (storeText text) :=
  (enlarges_alloc _ _).bind fun place =>
    (enlarges_write place _).bind fun _ => .pure place

end Arena

namespace Packer

open Arena

variable {Result Next : Type}

/-- A step from a writable destination of which at least `floor` bytes are in
use.  The destination grows at most.  A result is as described, and a fault is
one that there is somebody to blame for. -/
def Answers (blame : Fault -> Prop) (floor : Nat) (step : PackM Result)
    (good : Result -> Prop) : Prop :=
  forall before, before.data.Writable -> floor ≤ before.data.used ->
    Run step before (fun result after => Grown before.data after.data ∧ good result)
      (fun failure after => Grown before.data after.data ∧
        forall cause, failure = .fault cause -> blame cause)

variable {blame : Fault -> Prop} {floor : Nat} {step : PackM Result} {good : Result -> Prop}

theorem Answers.pure {result : Result} (isGood : good result) :
    Answers blame floor (pure result) good :=
  fun before _ _ => run_pure.mpr ⟨Grown.refl before.data, isGood⟩

theorem Answers.throw {failure : PackError}
    (blamed : forall cause, failure = .fault cause -> blame cause) :
    Answers blame floor (throw failure : PackM Result) good :=
  fun before _ _ => run_throw.mpr ⟨Grown.refl before.data, blamed⟩

theorem Answers.raised {lower : Nat} (answers : Answers blame lower step good)
    (above : lower ≤ floor) : Answers blame floor step good :=
  fun before writable inUse => answers before writable (Nat.le_trans above inUse)

theorem Answers.bind {next : Result -> PackM Next} {nextGood : Next -> Prop}
    (first : Answers blame floor step good)
    (second : forall result, good result -> Answers blame floor (next result) nextGood) :
    Answers blame floor (step >>= next) nextGood := by
  intro before writable inUse
  refine Run.andThen (first before writable inUse) ?_ fun _ _ => id
  intro result middle ⟨grown, isGood⟩
  refine (second result isGood middle (grown.writable writable)
    (Nat.le_trans inUse grown.used)).imp ?_ ?_
  · exact fun _ _ ⟨more, isNext⟩ => ⟨grown.trans more, isNext⟩
  · exact fun _ _ ⟨more, blamed⟩ => ⟨grown.trans more, blamed⟩

theorem answers_ask {answer : Except SchemaError Result} :
    Answers blame floor (ask answer) fun result => answer = .ok result := by
  cases answer with
  | ok result => exact .pure rfl
  | error cause => exact .throw nofun

theorem answers_raise (complaint : Complaint) (path : Path) :
    Answers blame floor (raise complaint path : PackM Result) good :=
  fun before _ _ => ⟨Grown.refl before.data, nofun⟩

theorem answers_mismatch (expected : Expectation) (path : Path) (value : Json) :
    Answers blame floor (mismatch expected path value : PackM Result) good :=
  answers_raise _ _

theorem answers_inside (place : Offset) (delta : UInt32) :
    Answers blame floor (inside place delta)
      fun offset => place.add? delta.toNat = some offset := by
  unfold inside
  split
  next offset known => exact .pure known
  next => exact .throw nofun

theorem answers_element (start : Offset) (index stride : Nat) :
    Answers blame floor (element start index stride) fun _ => True := by
  unfold element
  simp only
  split
  · split
    · exact .pure trivial
    · exact .throw nofun
  · exact .throw nofun

/-- The faults that arise from the destination are none. -/
theorem ofArena_ne_fault (cause : ArenaError) (fault : Fault) :
    PackError.ofArena cause ≠ .fault fault := by
  cases cause <;> nofun

theorem answers_onData {step : ArenaM Result} (enlarges : Enlarges step) :
    Answers blame floor (onData step) fun _ => True := by
  intro before writable _
  have run := enlarges before.data writable
  obtain ⟨data, violations⟩ := before
  unfold Run at run ⊢
  unfold onData
  simp only at run ⊢
  cases ends : step data with
  | ok result after =>
      rw [ends] at run
      exact ⟨run, trivial⟩
  | error cause after =>
      rw [ends] at run
      exact ⟨run, fun fault same => absurd same (ofArena_ne_fault cause fault)⟩

/-! ### Numbers -/

theorem answers_writeUnsigned {place : Offset} {width : Nat} (value : Nat)
    (wide : 8 < width -> blame (.wideNumber width)) :
    Answers blame floor (writeUnsigned place width value) fun _ => True := by
  intro before writable inUse
  by_cases nothing : width = 0
  · simp only [Run, writeUnsigned, if_pos nothing]
    exact ⟨Grown.refl _, trivial⟩
  · simp only [Run, writeUnsigned, if_neg nothing]
    cases before.data.checkWritable place width with
    | error cause =>
        exact ⟨Grown.refl _, fun fault same => absurd same (ofArena_ne_fault cause fault)⟩
    | ok _ =>
        by_cases isWide : 8 < width
        · simp only [if_pos isWide]
          refine ⟨Grown.refl _, ?_⟩
          rintro cause ⟨⟩
          exact wide isWide
        · simp only [if_neg isWide]
          exact answers_onData (enlarges_write _ _) before writable inUse

theorem answers_readUnsigned (place : Offset) (width : Nat) :
    Answers blame floor (readUnsigned place width) fun _ => True := by
  intro before _ _
  unfold Run readUnsigned
  cases before.data.slice place width with
  | ok bytes => exact ⟨Grown.refl _, trivial⟩
  | error cause =>
      exact ⟨Grown.refl _, fun fault same => absurd same (ofArena_ne_fault cause fault)⟩

theorem answers_readBytes (place : Offset) (length : Nat) :
    Answers blame floor (readBytes place length) fun _ => True := by
  intro before _ _
  unfold Run readBytes
  cases before.data.slice place length with
  | ok bytes => exact ⟨Grown.refl _, trivial⟩
  | error cause =>
      exact ⟨Grown.refl _, fun fault same => absurd same (ofArena_ne_fault cause fault)⟩

variable {packer : Packer}

/-- No pointer and no size has more than eight bytes. -/
theorem answers_writeWord (place : Offset) (value : Nat) :
    Answers blame floor (writeUnsigned place packer.target.pointerWidth value) fun _ => True :=
  answers_writeUnsigned value fun wide =>
    absurd packer.target.pointerWidth_le (Nat.not_le_of_lt wide)

theorem answers_writeSize (place : Offset) (value : Nat) :
    Answers blame floor (packer.writeSize place value) fun _ => True := by
  unfold writeSize
  split
  · exact .throw fun fault same => absurd same (ofArena_ne_fault _ fault)
  · exact answers_writeWord place value

theorem answers_writePointer (place target : Offset) :
    Answers blame floor (packer.writePointer place target) fun _ => True := by
  unfold writePointer
  split
  · exact answers_writeWord place 0
  · simp only
    split
    · exact .throw fun fault same => absurd same (ofArena_ne_fault _ fault)
    · exact answers_writeWord place _

theorem answers_readPointer (place : Offset) :
    Answers blame floor (packer.readPointer place) fun _ => True := by
  unfold readPointer
  refine (answers_readUnsigned _ _).bind fun raw _ => ?_
  split
  · exact .pure trivial
  · simp only
    split
    · exact .throw fun fault same => absurd same (ofArena_ne_fault _ fault)
    · split
      · exact .pure trivial
      · exact .throw fun fault same => absurd same (ofArena_ne_fault _ fault)

theorem answers_writeText (type : TypeDef) (place : Offset) (text : String) :
    Answers blame floor (packer.writeText type place text) fun _ => True := by
  unfold writeText
  refine answers_ask.bind fun layout _ => ?_
  refine (answers_onData (enlarges_storeText text)).bind fun storage _ => ?_
  refine (answers_inside _ _).bind fun pointer _ => ?_
  refine (answers_writePointer pointer storage).bind fun _ _ => ?_
  refine (answers_inside _ _).bind fun capacity _ => ?_
  refine (answers_writeSize capacity _).bind fun _ _ => ?_
  exact (answers_inside _ _).bind fun length _ => answers_writeSize length _

/-! ### Values without parts -/

theorem answers_integer (place : Offset) (path : Path) (value : Json) :
    Answers blame floor (integer place path value) fun _ => True := by
  unfold integer
  split
  · split
    · exact answers_writeUnsigned _ (fun wide => absurd wide (by decide))
    · exact answers_raise _ _
  · exact answers_mismatch _ _ _

theorem answers_number (place : Offset) (path : Path) (value : Json) :
    Answers blame floor (number place path value) fun _ => True := by
  unfold number
  split
  · exact answers_writeUnsigned _ (fun wide => absurd wide (by decide))
  · exact answers_mismatch _ _ _

theorem answers_boolean (place : Offset) (path : Path) (value : Json) :
    Answers blame floor (boolean place path value) fun _ => True := by
  unfold boolean
  split
  · exact answers_writeUnsigned _ (fun wide => absurd wide (by decide))
  · exact answers_mismatch _ _ _

theorem answers_char (place : Offset) (path : Path) (value : Json) :
    Answers blame floor (char place path value) fun _ => True := by
  unfold char
  split
  · split
    · exact answers_writeUnsigned _ (fun wide => absurd wide (by decide))
    · exact answers_mismatch _ _ _
  · exact answers_mismatch _ _ _

theorem answers_unsigned {width : Nat} (wide : 8 < width -> blame (.wideNumber width))
    (place : Offset) (path : Path) (value : Json) :
    Answers blame floor (unsigned width place path value) fun _ => True := by
  unfold unsigned
  split
  · split
    · exact answers_mismatch _ _ _
    · split
      · exact answers_raise _ _
      · exact answers_writeUnsigned _ wide
  · exact answers_mismatch _ _ _

theorem answers_unit (path : Path) (value : Json) :
    Answers blame floor (unit path value) fun _ => True := by
  unfold unit
  split
  · exact .pure trivial
  · exact answers_mismatch _ _ _

theorem answers_string (type : TypeDef) (place : Offset) (path : Path) (value : Json) :
    Answers blame floor (packer.string type place path value) fun _ => True := by
  unfold string
  split
  · exact answers_writeText _ _ _
  · exact answers_mismatch _ _ _

/-! ### Values with parts -/

/-- A writer answers wherever it is asked to write a value. -/
def AnswersFor (blame : Fault -> Prop) (write : Writer) (value : Json) : Prop :=
  forall id place path, Answers blame 0 (write id place path value) fun _ => True

theorem answers_gather {step : PackM Unit} {good : Unit -> Prop}
    (answers : Answers blame floor step good) (first : Option Violation) :
    Answers blame floor (gather step first) fun _ => True := by
  intro before writable inUse
  have run := answers before writable inUse
  unfold Run gather at *
  cases ends : step before with
  | ok _ after =>
      rw [ends] at run
      exact ⟨run.1, trivial⟩
  | error failure after =>
      rw [ends] at run
      cases failure with
      | violation => exact ⟨run.1, trivial⟩
      | _ => exact run

theorem answers_settle (first : Option Violation) :
    Answers blame floor (settle first) fun _ => True := by
  unfold settle
  split
  · exact .throw nofun
  · exact .pure trivial

theorem answers_nested {write : Writer} {value : Json} (writes : AnswersFor blame write value)
    (id : TypeId) (place : Offset) (path : Path) (segment : Segment) :
    Answers blame floor (packer.nested write id place path segment value) fun _ => True := by
  unfold nested
  split
  · exact answers_raise _ _
  · exact (writes id place _).raised (Nat.zero_le _)

/-- A walk over items, each of which is a step that answers. -/
theorem answers_foldlM {Item State : Type} {step : State -> Item -> PackM State}
    {items : List Item}
    (each : forall state item, item ∈ items ->
      Answers blame floor (step state item) fun _ => True) (start : State) :
    Answers blame floor (items.foldlM step start) fun _ => True := by
  induction items generalizing start with
  | nil => exact .pure trivial
  | cons item rest ih =>
      rw [List.foldlM_cons]
      exact (each start item List.mem_cons_self).bind fun state _ =>
        ih (fun state other member => each state other (List.mem_cons_of_mem _ member)) state

theorem answers_writeField {write : Writer} {members : List (String × Json)}
    (writes : forall member, member ∈ members -> AnswersFor blame write member.2)
    (type : TypeDef) (place : Offset) (path : Path) (first : Option Violation)
    (field : FieldDef) :
    Answers blame floor (packer.writeField write type place path members first field)
      fun _ => True := by
  unfold writeField
  refine answers_ask.bind fun name _ => ?_
  split
  · split
    · have raised : Answers blame floor (raise (.missingField name) path : PackM Unit)
          fun _ => True := answers_raise _ _
      exact answers_gather raised first
    · exact .pure trivial
  next member found =>
    refine answers_ask.bind fun id _ => (answers_inside _ _).bind fun inner _ => ?_
    exact answers_gather (answers_nested (writes _ (Json.mem_of_lookup? found)) _ _ _ _) _

theorem answers_object {write : Writer} {value : Json}
    (writes : forall members, value = .object members -> forall member, member ∈ members ->
      AnswersFor blame write member.2)
    (type : TypeDef) (place : Offset) (path : Path) :
    Answers blame floor (packer.object write type place path value) fun _ => True := by
  unfold object
  split
  next members =>
    refine answers_ask.bind fun fields _ => ?_
    refine (answers_foldlM (fun first field _ =>
      answers_writeField (writes members rfl) type place path first field) none).bind ?_
    exact fun first _ => answers_settle first
  · exact answers_mismatch _ _ _

theorem answers_argument (type : TypeDef) :
    Answers blame floor (packer.argument type) fun _ => True := by
  unfold argument
  split
  · exact .pure trivial
  · exact .throw nofun

theorem answers_arrayStorage (type : TypeDef) (place : Offset) (length : Nat) :
    Answers blame floor (packer.arrayStorage type place length) fun _ => True := by
  unfold arrayStorage
  refine answers_ask.bind fun layout _ => ?_
  have rest (storage : Offset) : Answers blame floor (do
      packer.writePointer (← inside place layout.pointer) storage
      packer.writeSize (← inside place layout.capacity) length
      packer.writeSize (← inside place layout.length) length
      return storage) fun _ => True := by
    refine (answers_inside _ _).bind fun pointer _ => ?_
    refine (answers_writePointer pointer storage).bind fun _ _ => ?_
    refine (answers_inside _ _).bind fun capacity _ => ?_
    refine (answers_writeSize capacity _).bind fun _ _ => ?_
    refine (answers_inside _ _).bind fun size _ => ?_
    exact (answers_writeSize size _).bind fun _ _ => .pure trivial
  split
  · exact rest Offset.null
  · refine (answers_argument type).bind fun id _ => answers_ask.bind fun element _ => ?_
    exact (answers_onData (enlarges_allocArray _ _ _)).bind fun storage _ => rest storage

theorem answers_writeItems {write : Writer} {items : List Json}
    (writes : forall item, item ∈ items -> AnswersFor blame write item)
    (id : TypeId) (stride : Nat) (storage : Offset) (path : Path) (index : Nat)
    (first : Option Violation) :
    Answers blame floor (packer.writeItems write id stride storage path items index first)
      fun _ => True := by
  induction items generalizing index first with
  | nil => exact .pure trivial
  | cons item rest ih =>
      unfold writeItems
      refine (answers_element _ _ _).bind fun place _ => ?_
      refine (answers_gather (answers_nested (writes item List.mem_cons_self) _ _ _ _) _).bind ?_
      exact fun first _ =>
        ih (fun other member => writes other (List.mem_cons_of_mem _ member)) (index + 1) first

theorem answers_array {write : Writer} {value : Json}
    (writes : forall items, value = .array items -> forall item, item ∈ items ->
      AnswersFor blame write item)
    (type : TypeDef) (place : Offset) (path : Path) :
    Answers blame floor (packer.array write type place path value) fun _ => True := by
  unfold array
  split
  next items =>
    refine (answers_argument type).bind fun id _ => ?_
    refine (answers_arrayStorage type place _).bind fun storage _ => ?_
    refine answers_ask.bind fun element _ => ?_
    refine (answers_writeItems (writes items rfl) _ _ _ _ _ _).bind ?_
    exact fun first _ => answers_settle first
  · exact answers_mismatch _ _ _

theorem answers_storedKey (storage : MapStorage) (slot : Nat) :
    Answers blame floor (packer.storedKey storage slot) fun _ => True := by
  unfold storedKey keyPlace
  refine (answers_element _ _ _).bind fun place _ => answers_ask.bind fun layout _ => ?_
  refine (answers_inside _ _).bind fun inner _ => ?_
  refine (answers_readPointer inner).bind fun pointer _ => ?_
  split
  · exact .pure trivial
  · refine (answers_inside _ _).bind fun size _ => ?_
    refine (answers_readUnsigned size _).bind fun length _ => ?_
    exact (answers_readBytes _ _).bind fun bytes _ => .pure trivial

theorem answers_freeSlot (storage : MapStorage) (key : ByteArray) (slots : List Nat) :
    Answers blame floor (packer.freeSlot storage key slots) fun _ => True := by
  induction slots with
  | nil => exact .pure trivial
  | cons slot rest ih =>
      unfold freeSlot
      refine (answers_storedKey storage slot).bind fun stored _ => ?_
      split
      · exact .pure trivial
      · split
        · exact .pure trivial
        · exact ih

theorem answers_mapSlot (type : TypeDef) (storage : MapStorage) (key : String) :
    Answers blame floor (packer.mapSlot type storage key) fun _ => True := by
  unfold mapSlot
  refine (answers_freeSlot _ _ _).bind fun found _ => ?_
  split
  · exact .pure trivial
  · exact .throw nofun

theorem answers_writeHashes (keys : Offset) (hashes : List UInt32) (index : Nat) :
    Answers blame floor (writeHashes keys hashes index) fun _ => True := by
  induction hashes generalizing index with
  | nil => exact .pure trivial
  | cons hash rest ih =>
      unfold writeHashes
      refine (answers_element _ _ _).bind fun place _ => ?_
      exact (answers_writeUnsigned _ (fun wide => absurd wide (by decide))).bind
        fun _ _ => ih (index + 1)

theorem answers_mapStorage (place : Offset) (valueId : TypeId) (layout : Schema.MapLayout)
    (names : List String) :
    Answers blame floor (packer.mapStorage place valueId layout names) fun _ => True := by
  unfold mapStorage
  refine answers_ask.bind fun keysType _ => (answers_inside _ _).bind fun keysPlace _ => ?_
  refine (answers_arrayStorage _ _ _).bind fun keys _ => ?_
  refine (answers_writeHashes _ _ _).bind fun _ _ => ?_
  refine answers_ask.bind fun valuesType _ => (answers_inside _ _).bind fun valuesPlace _ => ?_
  refine (answers_arrayStorage _ _ _).bind fun values _ => ?_
  refine answers_ask.bind fun stringsType _ => (answers_inside _ _).bind fun stringsPlace _ => ?_
  refine (answers_arrayStorage _ _ _).bind fun strings _ => ?_
  refine (answers_argument _).bind fun stringId _ => answers_ask.bind fun stringType _ => ?_
  exact answers_ask.bind fun valueType _ => .pure trivial

theorem answers_writeMember {write : Writer} {member : String × Json}
    (writes : AnswersFor blame write member.2) (type : TypeDef) (valueId : TypeId)
    (storage : MapStorage) (path : Path) (first : Option Violation) :
    Answers blame floor (packer.writeMember write type valueId storage path first member)
      fun _ => True := by
  unfold writeMember keyPlace
  refine (answers_mapSlot _ _ _).bind fun slot _ => (answers_element _ _ _).bind fun key _ => ?_
  refine (answers_writeText _ _ _).bind fun _ _ => (answers_element _ _ _).bind fun place _ => ?_
  exact answers_gather (answers_nested writes _ _ _ _) _

theorem answers_map {write : Writer} {value : Json}
    (writes : forall members, value = .object members -> forall member, member ∈ members ->
      AnswersFor blame write member.2)
    (type : TypeDef) (place : Offset) (path : Path) :
    Answers blame floor (packer.map write type place path value) fun _ => True := by
  unfold map
  split
  next members =>
    refine answers_ask.bind fun layout _ => (answers_argument type).bind fun valueId _ => ?_
    refine (answers_mapStorage _ _ _ _).bind fun storage _ => ?_
    refine (answers_foldlM (fun first member isMember =>
      answers_writeMember (writes members rfl member isMember) type valueId storage path first)
      none).bind ?_
    exact fun first _ => answers_settle first
  · exact answers_mismatch _ _ _

end Packer
end PackedJson
