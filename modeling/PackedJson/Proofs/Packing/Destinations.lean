import PackedJson.Proofs.Arena.Destinations
import PackedJson.Proofs.Container.RoundTrip
import PackedJson.Proofs.Json.Reading
import PackedJson.Proofs.Packing.Courses
import PackedJson.Proofs.Packing.Faults
import PackedJson.Proofs.Packing.Nulls

namespace PackedJson

open Arena TextSchema

/-!
Packing one document into different destinations.

What is packed depends on the document, on the schema and on the value that is
added to pointers, but neither on what the destination held before nor, as long
as there is room, on how large it is.

Three couplings of destinations show this.  A smaller and a larger buffer pack
alike unless the smaller one is exhausted.  Two buffers that span the space of
offsets are never exhausted.  An arena with one buffer packs like a zeroed
buffer of its size.
-/

/-! ### Containers that are read from bytes -/

/-- The types of a container serve a text schema, for either target. -/
def Container.Serves (container : Container) (document : Json) : Prop :=
  forall target, exists heap promises settled root,
    Heap.ToldBy heap container.schema ∧
    Serving heap target (container.context target) document promises settled ∧
    container.schema.root (container.context target) = .ok root ∧ settled root ∧
    promises root ⟨document, false, false⟩

section Containers

variable {document : Json} {options : CompileOptions} {container : Container} {bytes : ByteArray}

/-- A compiled container has bytes. -/
theorem exists_toBytes (accepted : compile document options = .ok container) :
    exists bytes, container.toBytes = .ok bytes := by
  obtain ⟨_, _, _, holds, _⟩ := isCompiled_of_compile accepted .wasm32
  exact ⟨_, if_pos holds.isOwned⟩

/-- What is read from the bytes of a compiled container has the same types. -/
theorem exists_copy (accepted : compile document options = .ok container)
    (written : container.toBytes = .ok bytes) :
    exists back, Container.read bytes = .ok back ∧ back.schemaHash = container.schemaHash ∧
      (forall target, back.context target = container.context target) ∧
      forall heap, Heap.ToldBy heap container.schema -> Heap.ToldBy heap back.schema := by
  obtain ⟨_, _, _, holds, _⟩ := isCompiled_of_compile accepted .wasm32
  have sameBytes : container.toBytes = .ok (container.preambleBytes ++ container.arena.contents) :=
    if_pos holds.isOwned
  cases written.symm.trans sameBytes
  have copies := Arena.isCopy_contents holds.isOwned holds.writable
  refine ⟨_, Container.read_append container _, rfl, fun target => ?_,
    fun heap told => Schema.toldBy_copy copies told⟩
  obtain ⟨_, _, _, holds, serving⟩ := isCompiled_of_compile accepted target
  obtain ⟨root, isRoot, _, isSettled⟩ := serving.root
  obtain ⟨_, ⟨type, _, stored, _⟩, _⟩ := serving.layout.declared root isSettled
  have storable : TypeId.Storable (container.context target).root := by
    intro id isId
    cases isRoot.symm.trans isId
    exact holds.ne_null stored
  rw [← Context.stored_eq storable]
  cases target <;> rfl

/-- What is read from the bytes of a compiled container serves its text schema. -/
theorem exists_serves (accepted : compile document options = .ok container)
    (written : container.toBytes = .ok bytes) :
    exists back, Container.read bytes = .ok back ∧ back.schemaHash = container.schemaHash ∧
      (forall target, back.context target = container.context target) ∧ back.Serves document := by
  obtain ⟨back, isRead, sameHash, sameContext, told⟩ := exists_copy accepted written
  refine ⟨back, isRead, sameHash, sameContext, fun target => ?_⟩
  obtain ⟨heap, promises, settled, holds, serving⟩ := isCompiled_of_compile accepted target
  obtain ⟨root, isRoot, promised, isSettled⟩ := serving.root
  refine ⟨heap, promises, settled, root, told heap holds.told, ?_, ?_, isSettled, promised⟩
  · rw [sameContext]
    exact serving
  · unfold Schema.root
    rw [sameContext, isRoot]

end Containers

namespace Packer

variable {coupling : Coupling}

/-! ### Two runs -/

/-- How packing one document into two coupled destinations ends: both runs hand
out the same regions and fill them alike, or both fail alike, or the first one
fails in a way that excuses it from the comparison. -/
inductive Coupling.Ends (coupling : Coupling) :
    Except PackError Packed -> Except PackError Packed -> Prop where
  | packed {packed other : Packed} {regions : List Extent} {size : Nat} :
      other.root = packed.root -> Twins coupling.first coupling.second regions packed.data other.data ->
      ⟨packed.root.toNat, size⟩ ∈ regions -> Ends coupling (.ok packed) (.ok other)
  | failed {failure other : PackError} : coupling.alike failure other ->
      Ends coupling (.error failure) (.error other)
  | excused {failure : PackError} {other : Except PackError Packed} :
      coupling.excused failure -> Ends coupling (.error failure) other

theorem Coupling.Ends.of_error {failure : PackError} {result : Except PackError Packed}
    (ends : coupling.Ends (.error failure) result) : coupling.excused failure ∨
      exists other, result = .error other ∧ coupling.alike failure other := by
  cases ends with
  | failed alike => exact .inr ⟨_, rfl, alike⟩
  | excused isExcused => exact .inl isExcused

/-- The value that is added to pointers. -/
def baseOf (options : PackOptions) (address : Option Nat) : Nat :=
  options.pointerBase.getD (defaultBase options.target address)

section Runs

variable {container : Container} {schema document : Json} {root : TypeId} {options : PackOptions}
  {address otherAddress : Option Nat} {bytes : ByteArray} {value : Json}

theorem wellFormed_of_documentSlice {schema : Schema} {context : Context}
    (wellFormed : document.WellFormed)
    (sliced : documentSlice schema context document = .ok value) : value.WellFormed := by
  unfold documentSlice at sliced
  split at sliced
  · cases sliced
  · split at sliced
    · cases sliced
      exact wellFormed
    · split at sliced
      next resolved =>
        cases sliced
        exact Json.Pointer.wellFormed_of_resolve wellFormed resolved
      next => cases sliced

/-- Finding the part of a document that is to be packed takes no room. -/
theorem not_isExhausted_of_documentSlice {schema : Schema} {context : Context} {failure : PackError}
    (failed : documentSlice schema context document = .error failure) : ¬ failure.IsExhausted := by
  unfold documentSlice at failed
  split at failed
  · cases failed
    exact id
  · split at failed
    · cases failed
    · split at failed
      · cases failed
      · cases failed
        exact id

theorem not_isExhausted_of_checkedRoot {failure : PackError}
    (failed : checkedRoot container options = .error failure) : ¬ failure.IsExhausted := by
  obtain ⟨_, _, _, rfl⟩ | ⟨_, rfl⟩ := cause_of_checkedRoot failed <;> exact id

theorem root_of_checkedRoot (checked : checkedRoot container options = .ok root) :
    container.schema.root (container.context options.target) = .ok root := by
  unfold checkedRoot at checked
  simp only [bind, Except.bind] at checked
  split at checked
  · cases checked
  · split at checked
    · cases checked
    next found isRoot =>
      split at checked
      · cases checked
      · split at checked
        · cases checked
          exact isRoot
        · cases checked

/-- The root of a schema that the caller expects. -/
theorem checkedRoot_eq {type : TypeDef} (sameHash : container.schemaHash.toNat = options.expectedHash)
    (isRoot : container.schema.root (container.context options.target) = .ok root)
    (found : container.schema.type root = .ok type)
    (sameSize : type.size.toNat = options.expectedSize) : checkedRoot container options = .ok root := by
  unfold checkedRoot
  simp only [sameHash, isRoot, found, sameSize, bind, Except.bind, ne_eq, not_true_eq_false, if_false,
    if_true]
  rfl

/-- A schema that does not mention a part of documents describes all of them. -/
theorem documentSlice_eq {schema : Schema} {context : Context}
    (noSlice : context.slice = TextRef.empty) : documentSlice schema context document = .ok document := by
  unfold documentSlice
  rw [noSlice]
  rfl

section Documents

variable {data : Arena} {after : PackState} {place : Offset} {failure : PackError}
  (isJson : Json.ofBytes? bytes = some document)
  (isSlice : documentSlice container.schema (container.context options.target) document = .ok value)

include isJson isSlice

theorem packDocument_of_ok (ends : (container.packer options.target (baseOf options address)
      options.maxDepth).pack root value ⟨data, []⟩ = .ok place after) :
    packDocument container root bytes data address options = .ok ⟨place, after.data⟩ := by
  unfold Container.packer baseOf at ends
  unfold packDocument
  simp only [isJson, isSlice, bind, Except.bind, ends]
  rfl

theorem packDocument_of_error (ends : (container.packer options.target (baseOf options address)
      options.maxDepth).pack root value ⟨data, []⟩ = .error failure after) :
    packDocument container root bytes data address options = .error failure := by
  unfold Container.packer baseOf at ends
  unfold packDocument
  simp only [isJson, isSlice, bind, Except.bind, ends]
  rfl

end Documents

/-- A document given as bytes is packed in lockstep into two destinations. -/
theorem ends_packDocument (serves : container.Serves schema)
    (isRoot : container.schema.root (container.context options.target) = .ok root)
    (sameBase : baseOf options otherAddress = baseOf options address) :
    coupling.Ends (packDocument container root bytes coupling.first address options)
      (packDocument container root bytes coupling.second otherAddress options) := by
  cases isJson : Json.ofBytes? bytes with
  | none =>
      unfold packDocument
      rw [isJson]
      exact .failed (coupling.self _ id)
  | some document =>
      cases isSlice : documentSlice container.schema (container.context options.target) document with
      | error failure =>
          unfold packDocument
          simp only [isJson, isSlice, bind, Except.bind]
          exact .failed (coupling.self _ (not_isExhausted_of_documentSlice isSlice))
      | ok value =>
          have wellFormed : value.WellFormed :=
            wellFormed_of_documentSlice (Json.wellFormed_of_ofBytes isJson) isSlice
          obtain ⟨heap, promises, settled, served, told, serving, isServed, isSettled, promised⟩ :=
            serves options.target
          cases isServed.symm.trans isRoot
          have packs : Packs (container.packer options.target (baseOf options address)
              options.maxDepth) heap schema promises settled := ⟨told, serving⟩
          have locked := @Packs.lockstep_pack coupling _ _ _ _ _ value packs root isSettled promised
            wellFormed [] []
          cases locked with
          | ends leftEnds rightEnds _ joins isRootRegion =>
              rw [packDocument_of_ok isJson isSlice leftEnds,
                packDocument_of_ok isJson isSlice (by rw [sameBase]; exact rightEnds)]
              obtain ⟨type, _, member⟩ := isRootRegion
              exact .packed rfl joins.twins member
          | fails leftEnds rightEnds alike _ _ =>
              rw [packDocument_of_error isJson isSlice leftEnds,
                packDocument_of_error isJson isSlice (by rw [sameBase]; exact rightEnds)]
              exact .failed alike
          | excused leftEnds isExcused =>
              rw [packDocument_of_error isJson isSlice leftEnds]
              exact .excused isExcused

/-- Packing starts with the checks that the caller asked for. -/
theorem packInto_eq {stored buffer : ByteArray} {place : Nat}
    (isRead : Container.read stored = .ok container) :
    packInto stored bytes buffer place options = (checkedRoot container options >>= fun root =>
      packDocument container root bytes (borrowed buffer) (some place) options) := by
  unfold packInto readContainer
  rw [isRead]
  rfl

theorem packOwned_eq {stored : ByteArray} {config : ArenaConfig} {data : Arena}
    (isRead : Container.read stored = .ok container) (isArena : Arena.owned config = .ok data) :
    packOwned stored bytes config options = (checkedRoot container options >>= fun root =>
      packDocument container root bytes data none options) := by
  unfold packOwned readContainer
  rw [isRead, isArena]
  rfl

theorem ends_checked (serves : container.Serves schema)
    (sameBase : baseOf options otherAddress = baseOf options address) :
    coupling.Ends
      (checkedRoot container options >>= fun root =>
        packDocument container root bytes coupling.first address options)
      (checkedRoot container options >>= fun root =>
        packDocument container root bytes coupling.second otherAddress options) := by
  cases checked : checkedRoot container options with
  | error failure => exact .failed (coupling.self _ (not_isExhausted_of_checkedRoot checked))
  | ok root => exact ends_packDocument serves (root_of_checkedRoot checked) sameBase

end Runs

/-! ### Couplings -/

theorem violation?_of_isExhausted {failure : PackError} (exhausted : failure.IsExhausted) :
    failure.violation? = none := by
  cases failure <;> first | rfl | exact exhausted.elim

theorem isExhausted_ofArena {cause : ArenaError} :
    (PackError.ofArena cause).IsExhausted ↔
      exists requested available, cause = .exhausted requested available := by
  constructor
  · cases cause <;> first | exact fun _ => ⟨_, _, rfl⟩ | exact False.elim
  · rintro ⟨_, _, rfl⟩
    trivial

/-- A buffer, and another one that is at least as large.  The smaller one may
be exhausted. -/
def widening {first second : ByteArray} (more : first.size ≤ second.size) : Coupling where
  first := borrowed first
  second := borrowed second
  excused := PackError.IsExhausted
  alike failure other := other = failure
  firstWritable := borrowed_writable first
  secondWritable := borrowed_writable second
  used := rfl
  self _ _ := rfl
  violation := by
    rintro failure _ rfl
    rfl
  excusedViolation _ := violation?_of_isExhausted
  granted := by
    intro regions left right size alignment offset after twins _ done
    have used := twins.used (borrowed_writable first) (borrowed_writable second) rfl
    exact IsBuffer.granted (twins.evolvesLeft.isBuffer (borrowed_writable first) (isBuffer_borrowed first))
      (twins.evolvesRight.isBuffer (borrowed_writable second) (isBuffer_borrowed second)) used more done
  refused := by
    intro regions left right size alignment cause after twins supported failed
    have used := twins.used (borrowed_writable first) (borrowed_writable second) rfl
    refine (IsBuffer.refused
      (twins.evolvesLeft.isBuffer (borrowed_writable first) (isBuffer_borrowed first))
      (twins.evolvesRight.isBuffer (borrowed_writable second) (isBuffer_borrowed second)) used more
      supported failed).imp isExhausted_ofArena.mpr fun refused => ?_
    obtain ⟨afterToo, failedToo⟩ := refused
    exact ⟨cause, afterToo, failedToo, rfl⟩

/-- A buffer that spans the space of offsets, twice.  It is never exhausted. -/
def spanning {buffer : ByteArray} (spans : positionLimit < buffer.size) : Coupling where
  first := borrowed buffer
  second := borrowed buffer
  excused _ := False
  alike failure other := other = failure ∧ ¬ failure.IsExhausted
  firstWritable := borrowed_writable buffer
  secondWritable := borrowed_writable buffer
  used := rfl
  self _ other := ⟨rfl, other⟩
  violation := by
    rintro failure _ ⟨rfl, _⟩
    rfl
  excusedViolation _ := False.elim
  granted := by
    intro regions left right size alignment offset after twins _ done
    have used := twins.used (borrowed_writable buffer) (borrowed_writable buffer) rfl
    exact IsBuffer.granted
      (twins.evolvesLeft.isBuffer (borrowed_writable buffer) (isBuffer_borrowed buffer))
      (twins.evolvesRight.isBuffer (borrowed_writable buffer) (isBuffer_borrowed buffer)) used
      (Nat.le_refl _) done
  refused := by
    intro regions left right size alignment cause after twins supported failed
    have used := twins.used (borrowed_writable buffer) (borrowed_writable buffer) rfl
    have isLeft := twins.evolvesLeft.isBuffer (borrowed_writable buffer) (isBuffer_borrowed buffer)
    have isRight := twins.evolvesRight.isBuffer (borrowed_writable buffer) (isBuffer_borrowed buffer)
    obtain ⟨requested, rfl⟩ := isLeft.tooLarge spans supported failed
    obtain ⟨_, _, never⟩ | refused :=
      isLeft.refused isRight used (Nat.le_refl _) supported failed
    · cases never
    · obtain ⟨afterToo, failedToo⟩ := refused
      exact .inr ⟨_, afterToo, failedToo, rfl, id⟩

theorem ofArena_of_isShortage {cause : ArenaError} (shortage : cause.IsShortage) :
    PackError.ofArena cause = .outOfMemory cause := by
  cases cause <;> first | rfl | exact shortage.elim

/-- An arena with one buffer, and a zeroed buffer of its size.  The arena may
refuse a region of no bytes. -/
def owning {capacity : Nat} (units : 16 ∣ capacity) (positive : 0 < capacity)
    (small : capacity ≤ positionLimit) : Coupling where
  first := fixed capacity
  second := borrowed (zeros capacity)
  excused failure := exists available, failure = .outOfMemory (.exhausted 0 available)
  alike failure other := other = failure ∨
    (exists cause, failure = .outOfMemory cause) ∧ exists cause, other = .outOfMemory cause
  firstWritable := owned_writable (owned_eq_fixed units positive small)
  secondWritable := borrowed_writable _
  used := rfl
  self _ _ := .inl rfl
  violation := by
    rintro failure other (rfl | ⟨⟨_, rfl⟩, _, rfl⟩) <;> rfl
  excusedViolation := by
    rintro _ ⟨_, rfl⟩
    rfl
  granted := by
    intro regions left right size alignment offset after twins _ done
    have writable := owned_writable (owned_eq_fixed units positive small)
    have isBuffer := isBuffer_borrowed (zeros capacity)
    rw [size_zeros] at isBuffer
    exact IsFixed.granted (twins.evolvesLeft.isFixed writable rfl)
      (twins.evolvesRight.isBuffer (borrowed_writable _) isBuffer)
      (twins.used writable (borrowed_writable _) rfl) small done
  refused := by
    intro regions left right size alignment cause after twins supported failed
    have writable := owned_writable (owned_eq_fixed units positive small)
    have isBuffer := isBuffer_borrowed (zeros capacity)
    rw [size_zeros] at isBuffer
    obtain ⟨available, rfl⟩ | refused := IsFixed.refused (twins.evolvesLeft.isFixed writable rfl)
      (twins.evolvesRight.isBuffer (borrowed_writable _) isBuffer)
      (twins.used writable (borrowed_writable _) rfl) supported failed
    · exact .inl ⟨available, rfl⟩
    · obtain ⟨shortage, refusal, afterToo, shortageToo, failedToo⟩ := refused
      exact .inr ⟨refusal, afterToo, failedToo, .inr ⟨⟨_, ofArena_of_isShortage shortage⟩,
        _, ofArena_of_isShortage shortageToo⟩⟩

/-! ### Packing alike -/

/-- A document was packed alike into two destinations.  Both have the root and
the end in one place, and handed out the same regions, which are behind what was
in use before.  All bytes in these are the same, and all other bytes are what
they were. -/
structure PackedAlike (first second : Arena) (regions : List Extent) (packed other : Packed) :
    Prop where
  root : other.root = packed.root
  stop : other.stop = packed.stop
  changes : Twins first second regions packed.data other.data
  rootRegion : exists size, ⟨packed.root.toNat, size⟩ ∈ regions
  place : forall region, region ∈ regions ->
    first.used ≤ region.start ∧ region.start + region.length ≤ packed.stop
  bytes : forall region, region ∈ regions -> forall position, region.Has position ->
    other.data.byteAt position = packed.data.byteAt position
  others : forall position, (forall region, region ∈ regions -> region.Misses position) ->
    packed.data.byteAt position = first.byteAt position ∧
      other.data.byteAt position = second.byteAt position

theorem Coupling.packedAlike {packed other : Packed} {regions : List Extent} {size : Nat}
    (sameRoot : other.root = packed.root)
    (twins : Twins coupling.first coupling.second regions packed.data other.data)
    (member : ⟨packed.root.toNat, size⟩ ∈ regions) :
    PackedAlike coupling.first coupling.second regions packed other where
  root := sameRoot
  stop := twins.used coupling.firstWritable coupling.secondWritable coupling.used
  changes := twins
  rootRegion := ⟨size, member⟩
  place := twins.evolvesLeft.fresh_above coupling.firstWritable
  bytes region member _ has := twins.byteAt coupling.firstWritable coupling.secondWritable
    (.inr ⟨region, member, has⟩)
  others _ misses := ⟨twins.evolvesLeft.byteAt_of_misses_fresh coupling.firstWritable misses,
    twins.evolvesRight.byteAt_of_misses_fresh coupling.secondWritable misses⟩

theorem exists_of_isExhausted {failure : PackError} (exhausted : failure.IsExhausted) :
    exists requested available, failure = .outOfMemory (.exhausted requested available) := by
  cases failure with
  | outOfMemory cause => cases cause <;> first | exact ⟨_, _, rfl⟩ | exact exhausted.elim
  | _ => exact exhausted.elim

/-- What two runs into buffers of different sizes have in common. -/
theorem Coupling.Ends.widened {first second : ByteArray} {more : first.size ≤ second.size}
    {small large : Except PackError Packed} (ends : (widening more).Ends small large) :
    (exists requested available,
      small = .error (.outOfMemory (.exhausted requested available))) ∨
    (exists failure, small = .error failure ∧ large = .error failure) ∨
    exists packed other regions, small = .ok packed ∧ large = .ok other ∧
      PackedAlike (borrowed first) (borrowed second) regions packed other := by
  cases ends with
  | packed sameRoot twins member =>
      exact .inr (.inr ⟨_, _, _, rfl, rfl, (widening more).packedAlike sameRoot twins member⟩)
  | failed alike => exact .inr (.inl ⟨_, rfl, congrArg Except.error alike⟩)
  | excused exhausted =>
      obtain ⟨requested, available, same⟩ := exists_of_isExhausted exhausted
      exact .inl ⟨requested, available, congrArg Except.error same⟩

/-- What runs into an arena with one buffer and into a buffer have in common. -/
theorem Coupling.Ends.owned {capacity : Nat} {units : 16 ∣ capacity} {positive : 0 < capacity}
    {small : capacity ≤ positionLimit} {own lent : Except PackError Packed}
    (ends : (owning units positive small).Ends own lent) :
    (exists available, own = .error (.outOfMemory (.exhausted 0 available))) ∨
    (exists failure other, own = .error failure ∧ lent = .error other ∧
      other.code = failure.code) ∨
    exists packed other, own = .ok packed ∧ lent = .ok other ∧ other.root = packed.root ∧
      other.stop = packed.stop ∧ other.data.contents = packed.data.contents := by
  cases ends with
  | @packed packed other regions size sameRoot twins _ =>
      have writable := owned_writable (owned_eq_fixed units positive small)
      have writableToo := borrowed_writable (zeros capacity)
      have isBuffer := isBuffer_borrowed (zeros capacity)
      rw [size_zeros] at isBuffer
      have stop := twins.used writable writableToo rfl
      refine .inr (.inr ⟨packed, other, rfl, rfl, sameRoot, stop, ?_⟩)
      refine contents_eq (twins.evolvesLeft.isFixed writable rfl)
        (twins.evolvesRight.isBuffer writableToo isBuffer) (twins.leftWritable writable) stop ?_
      intro position
      refine twins.byteAt writable writableToo (.inl ?_)
      change (zeros capacity).data[position]?.getD 0 = (zeros 1).data[position]?.getD 0
      rw [← Array.getElem?_toList, ← Array.getElem?_toList, data_zeros, data_zeros,
        getD_replicate_zero, getD_replicate_zero]
  | failed alike =>
      refine .inr (.inl ⟨_, _, rfl, rfl, ?_⟩)
      obtain rfl | ⟨⟨_, rfl⟩, _, rfl⟩ := alike <;> rfl
  | excused refused =>
      obtain ⟨available, rfl⟩ := refused
      exact .inl ⟨available, rfl⟩

section Documents

variable {text : Json} {options : CompileOptions} {container : Container} {schema : ByteArray}
  (accepted : compile text options = .ok container) (written : container.toBytes = .ok schema)
  (document : ByteArray) (asked : PackOptions)

/-- The value that is added to pointers does not depend on where a buffer lies. -/
theorem baseOf_eq (based : asked.target = .wasm32 ∨ asked.pointerBase.isSome = true)
    (address other : Option Nat) : baseOf asked other = baseOf asked address := by
  unfold baseOf
  cases isBase : asked.pointerBase with
  | some base => rfl
  | none =>
      have isWasm : asked.target = .wasm32 := based.resolve_right (by rw [isBase]; decide)
      rw [isWasm]
      rfl

include accepted written

/-- Packing into a buffer, and into one that is at least as large. -/
theorem ends_widening {first second : ByteArray} (more : first.size ≤ second.size)
    {firstAddress secondAddress : Nat}
    (sameBase : baseOf asked (some secondAddress) = baseOf asked (some firstAddress)) :
    (widening more).Ends (packInto schema document first firstAddress asked)
      (packInto schema document second secondAddress asked) := by
  obtain ⟨back, isRead, _, _, serves⟩ := exists_serves accepted written
  rw [packInto_eq isRead, packInto_eq isRead]
  exact @ends_checked (widening more) _ _ _ _ _ _ serves sameBase

/-- Packing into an arena with one buffer, and into a zeroed buffer of its size. -/
theorem ends_owning (based : asked.pointerBase.isSome = true) {capacity : Nat}
    (units : 16 ∣ capacity) (positive : 0 < capacity) (small : capacity ≤ positionLimit)
    (address : Nat) :
    (owning units positive small).Ends (packOwned schema document ⟨capacity, false⟩ asked)
      (packInto schema document (zeros capacity) address asked) := by
  obtain ⟨back, isRead, _, _, serves⟩ := exists_serves accepted written
  rw [packInto_eq isRead, packOwned_eq isRead (owned_eq_fixed units positive small)]
  exact @ends_checked (owning units positive small) _ _ _ _ _ _ serves
    (baseOf_eq asked (.inr based) none (some address))

/-- A buffer of no bytes is exhausted where a larger one has room. -/
theorem exhausted_empty (based : asked.target = .wasm32 ∨ asked.pointerBase.isSome = true)
    {buffer : ByteArray} {address : Nat} {packed : Packed}
    (isPacked : packInto schema document buffer address asked = .ok packed) :
    exists requested available, packInto schema document ByteArray.empty 0 asked =
      .error (.outOfMemory (.exhausted requested available)) := by
  have less : ByteArray.empty.size ≤ buffer.size := Nat.zero_le _
  have ends := ends_widening accepted written document asked less
    (baseOf_eq asked based (some 0) (some address))
  obtain exhausted | ⟨_, _, failed⟩ | ⟨small, _, regions, _, _, alike⟩ := ends.widened
  · exact exhausted
  · cases isPacked.symm.trans failed
  · obtain ⟨size, member⟩ := alike.rootRegion
    have writable := borrowed_writable ByteArray.empty
    have evolves := alike.changes.evolvesLeft
    obtain ⟨storage, noBytes⟩ := evolves.isBuffer writable (isBuffer_borrowed _)
    obtain ⟨positive, _, inside⟩ := evolves.within writable member
    have none : ByteArray.empty.size = 0 := rfl
    simp only [storage, noBytes] at positive inside
    omega

end Documents

/-! ### Integers -/

/-- A container for integers that is read from its bytes passes the checks of a
caller who expects integers. -/
theorem exists_integerPacker {document : Json} {options : CompileOptions} {container : Container}
    {schema : ByteArray} (accepted : compile document options = .ok container)
    (written : container.toBytes = .ok schema)
    (roots : forall target, container.schema.root (container.context target) =
      .ok ((container.context target).builtin .integer))
    (target : Target) (pointerBase maxDepth : Nat) :
    exists back heap promises settled, Container.read schema = .ok back ∧
      Packs (back.packer target pointerBase maxDepth) heap document promises settled ∧
      (forall target, back.context target = container.context target) ∧
      checkedRoot back ⟨target, 8, container.schemaHash.toNat, maxDepth, some pointerBase⟩ =
        .ok ((back.context target).builtin .integer) := by
  obtain ⟨back, isRead, sameHash, sameContext, serves⟩ := exists_serves accepted written
  obtain ⟨heap, promises, settled, root, told, serving, isRoot, _⟩ := serves target
  have packs : Packs (back.packer target pointerBase maxDepth) heap document promises settled :=
    ⟨told, serving⟩
  have isInteger : root = (back.context target).builtin .integer := by
    have same := roots target
    unfold Schema.root at same isRoot
    rw [sameContext] at isRoot ⊢
    split at same
    next found =>
      rw [found] at isRoot
      exact (Except.ok.inj isRoot).symm.trans (Except.ok.inj same)
    next => cases same
  obtain ⟨name, isType⟩ := packs.scalar
    (by cases target <;> decide : (Builtin.integer, 8) ∈ Builder.scalarSizes target)
  exact ⟨back, heap, promises, settled, isRead, packs, sameContext,
    checkedRoot_eq (congrArg UInt32.toNat sameHash) (isInteger ▸ isRoot) isType rfl⟩

/-- The document that is the number seven. -/
def seven : ByteArray := ⟨#[55]⟩

/-- The number seven is packed into an arena of 64 bytes, and into a buffer. -/
theorem exists_packedSeven : exists container schema asked packed lent,
    compile (namedSchema "integer") {} = .ok container ∧ container.toBytes = .ok schema ∧
    asked.target = .wasm32 ∧ asked.pointerBase.isSome = true ∧
    packOwned schema seven ⟨64, false⟩ asked = .ok packed ∧
    packInto schema seven (zeros 64) 0 asked = .ok lent := by
  obtain ⟨container, accepted, roots⟩ := exists_integerContainer
  obtain ⟨schema, written⟩ := exists_toBytes accepted
  let asked : PackOptions := ⟨.wasm32, 8, container.schemaHash.toNat, 128, some 0⟩
  obtain ⟨back, heap, promises, settled, isRead, packs, sameContext, checked⟩ :=
    exists_integerPacker accepted written roots .wasm32 0 128
  have isJson : Json.ofBytes? seven = some (.number (.integer 7)) := rfl
  have isSlice : documentSlice back.schema (back.context .wasm32) (.number (.integer 7)) =
      .ok (.number (.integer 7)) :=
    documentSlice_eq (by rw [sameContext, slice_of_compile rfl accepted])
  have units : 16 ∣ 64 := by decide
  have positive : 0 < 64 := by decide
  have small : 64 ≤ positionLimit := by decide
  have isArena : Arena.owned ⟨64, false⟩ = .ok (fixed 64) := owned_eq_fixed units positive small
  have run := @Packs.run_packInteger _ _ _ _ _ ⟨fixed 64, []⟩ packs (owned_writable isArena)
    (by decide) 7 (by decide)
  obtain ⟨place, after, ends⟩ := run.exists_ok
  have packed : packOwned schema seven ⟨64, false⟩ asked = .ok ⟨place, after.data⟩ := by
    rw [packOwned_eq isRead isArena, checked]
    exact packDocument_of_ok isJson isSlice ends
  have both := ends_owning accepted written seven asked rfl units positive small 0
  obtain ⟨_, refused⟩ | ⟨_, _, failed, _⟩ | ⟨_, lent, _, isLent, _⟩ := both.owned
  · cases packed.symm.trans refused
  · cases packed.symm.trans failed
  · exact ⟨container, schema, asked, _, lent, accepted, written, rfl, rfl, packed, isLent⟩

/-- An arena cannot have one buffer that spans the space of offsets, but the
buffer of a caller can. -/
theorem exists_packedWide : exists container schema asked packed cause,
    compile (namedSchema "integer") {} = .ok container ∧ container.toBytes = .ok schema ∧
    asked.pointerBase.isSome = true ∧
    packInto schema seven (zeros (2 ^ 32)) 0 asked = .ok packed ∧
    packOwned schema seven ⟨2 ^ 32, false⟩ asked = .error (.outOfMemory cause) := by
  obtain ⟨container, schema, asked, _, lent, accepted, written, isWasm, based, isOwned, isLent⟩ :=
    exists_packedSeven
  have more : (zeros 64).size ≤ (zeros (2 ^ 32)).size := by
    rw [size_zeros, size_zeros]
    decide
  have ends := @ends_widening _ _ _ _ accepted written seven asked _ _ more 0 0 rfl
  obtain ⟨_, _, refused⟩ | ⟨_, failed, _⟩ | ⟨_, other, _, _, isOther, _⟩ := ends.widened
  · cases isLent.symm.trans refused
  · cases isLent.symm.trans failed
  · refine ⟨container, schema, asked, other, .tooLarge (2 ^ 32), accepted, written, based,
      isOther, ?_⟩
    obtain ⟨back, isRead, _⟩ := exists_serves accepted written
    have isArena : Arena.owned ⟨2 ^ 32, false⟩ = .error (.tooLarge (2 ^ 32)) := rfl
    have isSmall : Arena.owned ⟨64, false⟩ = .ok (fixed 64) :=
      owned_eq_fixed (by decide) (by decide) (by decide)
    rw [packOwned_eq isRead isSmall] at isOwned
    unfold packOwned readContainer
    rw [isRead, isArena]
    cases checked : checkedRoot back asked with
    | error failure =>
        rw [checked] at isOwned
        cases isOwned
    | ok root =>
        simp only [checked, bind, Except.bind]
        rfl

/-! ### Nulls -/

/-- The document that is an array of one null. -/
def nulls : ByteArray := ⟨#[91, 110, 117, 108, 108, 93]⟩

/-- An array of nulls is packed into a buffer that its record fills.  An arena of
that size refuses the empty region behind the record. -/
theorem exists_packedNulls : exists container schema asked packed,
    compile nullsSchema.toJson {} = .ok container ∧ container.toBytes = .ok schema ∧
    asked.pointerBase.isSome = true ∧ packInto schema nulls (zeros 16) 0 asked = .ok packed ∧
    packOwned schema nulls ⟨16, false⟩ asked = .error (.outOfMemory (.exhausted 0 0)) := by
  obtain ⟨container, root, known, type, accepted, isRoot, told, stored, size, aligns⟩ :=
    exists_nullsContainer
  obtain ⟨schema, written⟩ := exists_toBytes accepted
  obtain ⟨back, isRead, sameHash, sameContext, copied⟩ := exists_copy accepted written
  obtain ⟨heap, promises, settled, holds, serving⟩ := isCompiled_of_compile accepted .wasm32
  obtain ⟨again, isAgain, promised, isSettled⟩ := serving.root
  cases isRoot.symm.trans isAgain
  rw [← sameContext] at serving isRoot
  let asked : PackOptions := ⟨.wasm32, 12, container.schemaHash.toNat, 128, some 0⟩
  have packs : Packs (back.packer .wasm32 0 128) heap nullsSchema.toJson promises settled :=
    ⟨copied heap holds.told, serving⟩
  have found : back.schema.type root = .ok type := (copied known told).type stored
  obtain ⟨align, isAlign, four⟩ := aligns back.schema (copied known told)
  have shallow : 0 < 128 := by decide
  have fits : 0 + 16 ≤ Target.maxPointer .wasm32 := by decide
  have few : 1 ≤ Target.maxPointer .wasm32 := by decide
  obtain ⟨⟨place, after, lent⟩, _, refused⟩ := packs.pack_nulls_full isSettled
    (isKind_nulls serving promised) shallow found size isAlign four fits Nat.one_pos few
  have checked : checkedRoot back asked = .ok root :=
    checkedRoot_eq (congrArg UInt32.toNat sameHash) (by unfold Schema.root; rw [isRoot]) found size
  have isJson : Json.ofBytes? nulls = some (.array [.null]) := rfl
  have isSlice : documentSlice back.schema (back.context .wasm32) (.array [.null]) =
      .ok (.array [.null]) :=
    documentSlice_eq (by rw [sameContext, slice_of_compile rfl accepted])
  have isArena : Arena.owned ⟨16, false⟩ = .ok (fixed 16) :=
    owned_eq_fixed (by decide) (by decide) (by decide)
  refine ⟨container, schema, asked, ⟨place, after.data⟩, accepted, written, rfl, ?_, ?_⟩
  · rw [packInto_eq isRead, checked]
    exact packDocument_of_ok isJson isSlice lent
  · rw [packOwned_eq isRead isArena, checked]
    exact packDocument_of_error isJson isSlice refused

/-! ### Results -/

section Results

variable {text : Json} {options : CompileOptions} {container : Container} {schema : ByteArray}
  (accepted : compile text options = .ok container) (written : container.toBytes = .ok schema)
  (document : ByteArray) (asked : PackOptions)

include accepted written

end Results

end Packer
end PackedJson
