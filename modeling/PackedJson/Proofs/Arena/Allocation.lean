import PackedJson.Proofs.Arena.Memory

namespace PackedJson

/-- A refusal for lack of room: the storage is full, or the request is larger
than the storage can ever serve. -/
def ArenaError.IsShortage : ArenaError -> Prop
  | .exhausted .. => True
  | .hostOutOfMemory .. => True
  | .tooLarge .. => True
  | _ => False

namespace Arena

/-!
What allocations and writes do to an arena.

Both are described by the bytes afterwards, at every position.  A write that
stays within a region succeeds.  An allocation hands out a region behind the
used part, or it is refused for lack of room, and then nothing has changed.
-/

/-! ### Bytes written over others -/

theorem size_overwrite {bytes source : ByteArray} {position : Nat}
    (fits : position + source.size ≤ bytes.size) :
    (overwrite bytes position source).size = bytes.size := by
  have bytesSize : bytes.data.size = bytes.size := rfl
  have sourceSize : source.data.size = source.size := rfl
  simp only [overwrite, ByteArray.copySlice_eq_append, ByteArray.size_append,
    ByteArray.size_extract]
  omega

theorem getD_overwrite {bytes source : ByteArray} {position : Nat}
    (fits : position + source.size ≤ bytes.size) (index : Nat) :
    (overwrite bytes position source).data[index]?.getD 0 =
      if position ≤ index ∧ index < position + source.size then
        source.data.toList[index - position]?.getD 0
      else bytes.data[index]?.getD 0 := by
  have bytesSize : bytes.data.size = bytes.size := rfl
  have sourceSize : source.data.size = source.size := rfl
  simp only [overwrite, ByteArray.copySlice_eq_append, ByteArray.data_append,
    ByteArray.data_extract, Array.getElem?_append, Array.getElem?_extract, Array.size_append,
    Array.size_extract, Array.getElem?_toList]
  grind

theorem data_zeros (count : Nat) : (zeros count).data.toList = List.replicate count 0 := by
  simp [zeros]

@[simp] theorem size_zeros (count : Nat) : (zeros count).size = count := by
  simp [zeros, ByteArray.size]

theorem getD_replicate_zero (count index : Nat) :
    (List.replicate count (0 : UInt8))[index]?.getD 0 = 0 := by
  rw [List.getElem?_replicate]
  split <;> rfl

/-! ### Writing -/

/-- The arena after some bytes were written from a position on. -/
structure Written (before : Arena) (start : Nat) (source : List UInt8) (after : Arena) : Prop where
  storage : after.storage = before.storage
  used : after.used = before.used
  size : after.bytes.size = before.bytes.size
  byteAt : forall position, after.byteAt position =
    if start ≤ position ∧ position < start + source.length then source[position - start]?.getD 0
    else before.byteAt position

namespace Written

variable {before after : Arena} {start : Nat} {source : List UInt8}

theorem writable (written : Written before start source after) (writable : before.Writable) :
    after.Writable := by
  unfold Writable at writable ⊢
  rw [written.storage, written.used, written.size]
  exact writable

theorem within_iff (written : Written before start source after) {position length : Nat} :
    after.Within position length ↔ before.Within position length := by
  unfold Within
  rw [written.storage, written.used, written.size]

theorem spare (written : Written before start source after) : after.spare = before.spare := by
  unfold Arena.spare
  rw [written.storage, written.used]

/-- Bytes apart from the written ones stay. -/
theorem byteAt_of_apart (written : Written before start source after) {position : Nat}
    (apart : position < start ∨ start + source.length ≤ position) :
    after.byteAt position = before.byteAt position := by
  rw [written.byteAt, if_neg (by omega)]

/-- What was written is read back. -/
theorem load_source (written : Written before start source after) :
    after.load start source.length = source := by
  apply List.ext_getElem
  · exact length_load _ _ _
  · intro index inLoad inSource
    simp only [load, List.getElem_map, List.getElem_range, written.byteAt]
    rw [if_pos (by omega), Nat.add_sub_cancel_left, List.getElem?_eq_getElem inSource,
      Option.getD_some]

/-- Bytes written in the middle of a region. -/
theorem load_inside (written : Written before start source after) {position length : Nat}
    (skip : Nat)
    (placed : start = position + skip) (fits : skip + source.length ≤ length) :
    after.load position length =
      (before.load position length).take skip ++ source ++
        (before.load position length).drop (skip + source.length) := by
  apply List.ext_getElem
  · simp only [length_load, List.length_append, List.length_take, List.length_drop]
    omega
  · intro index inLoad inParts
    have bound : index < length := by simpa only [length_load] using inLoad
    simp only [load, List.getElem_map, List.getElem_range, written.byteAt, List.getElem_append,
      List.getElem_take, List.getElem_drop, List.length_append, List.length_take, List.length_map,
      List.length_range]
    by_cases early : index < skip
    · rw [if_neg (by omega), dif_pos (by omega), dif_pos (by omega)]
    · by_cases late : skip + source.length ≤ index
      · rw [if_neg (by omega), dif_neg (by omega)]
        congr 1
        omega
      · rw [if_pos (by omega), dif_pos (by omega), dif_neg (by omega),
          List.getElem?_eq_getElem (by omega), Option.getD_some]
        congr 1
        omega

/-- Bytes that were there already change nothing. -/
theorem eq_of_load (written : Written before start source after)
    (same : before.load start source.length = source) : after = before := by
  have sameByte (position : Nat) : after.byteAt position = before.byteAt position := by
    rw [written.byteAt]
    split
    next inside =>
      have inSource : position - start < source.length := by omega
      have inLoad : position - start < (before.load start source.length).length := by
        rwa [length_load]
      have there : (before.load start source.length)[position - start] =
          before.byteAt (start + (position - start)) := by
        simp only [load, List.getElem_map, List.getElem_range]
      rw [Nat.add_sub_cancel' inside.1] at there
      rw [← there, List.getElem?_eq_getElem inSource, Option.getD_some]
      simp only [same]
    next => rfl
  obtain ⟨storage, bytes, used⟩ := before
  obtain ⟨afterStorage, afterBytes, afterUsed⟩ := after
  cases written.storage
  cases written.used
  have sameSize : afterBytes.data.size = bytes.data.size := written.size
  refine congrArg (Arena.mk storage · used) (ByteArray.ext (Array.ext sameSize ?_))
  intro index inAfter inBefore
  have sameIndex : afterBytes.data[index]?.getD 0 = bytes.data[index]?.getD 0 := sameByte index
  rwa [Array.getElem?_eq_getElem inAfter, Array.getElem?_eq_getElem inBefore] at sameIndex

end Written

/-- A write within a region succeeds. -/
theorem run_write {arena : Arena} {start length : Nat} (offset : Offset) (source : ByteArray)
    (writable : arena.Writable) (within : arena.Within start length)
    (above : start ≤ offset.toNat) (below : offset.toNat + source.size ≤ start + length)
    (before : offset.toNat < start + length) :
    Run (write offset source) arena
      (fun _ after => Written arena offset.toNat source.data.toList after) (fun _ _ => False) := by
  have open_ : arena.isReadOnly = false := by
    obtain ⟨_, shape⟩ := writable
    unfold isReadOnly
    cases kind : arena.storage <;> simp only [kind] at shape ⊢
  have readable := isReadable_of_within within above below before
  have fits := size_bytes_of_within writable (within_sub within above below)
  have allowed : arena.checkWritable offset source.size = .ok () := by
    simp only [checkWritable, open_, readable, Bool.false_eq_true, if_false, if_true]
  have sourceSize : source.data.toList.length = source.size := rfl
  simp only [Run, write, allowed]
  refine ⟨rfl, rfl, size_overwrite fits, ?_⟩
  intro position
  simp only [byteAt, getD_overwrite fits, sourceSize]

/-- Zeros written within a region. -/
theorem run_zero {arena : Arena} {start length : Nat} (offset : Offset) (count : Nat)
    (writable : arena.Writable) (within : arena.Within start length)
    (above : start ≤ offset.toNat) (below : offset.toNat + count ≤ start + length)
    (before : offset.toNat < start + length) :
    Run (zero offset count) arena
      (fun _ after => Written arena offset.toNat (List.replicate count 0) after)
      (fun _ _ => False) := by
  have open_ : arena.isReadOnly = false := by
    obtain ⟨_, shape⟩ := writable
    unfold isReadOnly
    cases kind : arena.storage <;> simp only [kind] at shape ⊢
  have readable := isReadable_of_within within above below before
  have allowed : arena.checkWritable offset count = .ok () := by
    simp only [checkWritable, open_, readable, Bool.false_eq_true, if_false, if_true]
  have run := run_write offset (zeros count) writable within above
    (by rw [size_zeros]; exact below) before
  rw [data_zeros] at run
  simp only [Run, zero, allowed]
  exact run

/-! ### Growing -/

/-- One arena continues another one: no region was lost. -/
structure Grown (before after : Arena) : Prop where
  isOwned : after.isOwned = before.isOwned
  writable : before.Writable -> after.Writable
  used : before.used ≤ after.used
  within : forall start length, before.Within start length -> after.Within start length

namespace Grown

theorem refl (arena : Arena) : Grown arena arena :=
  ⟨rfl, id, Nat.le_refl _, fun _ _ => id⟩

theorem trans {first second third : Arena} (before : Grown first second)
    (after : Grown second third) : Grown first third :=
  ⟨after.isOwned.trans before.isOwned, after.writable ∘ before.writable, Nat.le_trans before.used after.used,
    fun start length => after.within start length ∘ before.within start length⟩

end Grown

theorem Written.grown {before after : Arena} {start : Nat} {source : List UInt8}
    (written : Written before start source after) : Grown before after := by
  refine ⟨?_, written.writable, Nat.le_of_eq written.used.symm, fun _ _ => written.within_iff.mpr⟩
  unfold isOwned
  rw [written.storage]

/-! ### Allocating -/

/-- The arena after a region was handed out. -/
structure Allocated (before : Arena) (size : Nat) (offset : Offset) (after : Arena) : Prop where
  grown : Grown before after
  start : before.used ≤ offset.toNat
  stop : offset.toNat + size = after.used
  within : after.Within offset.toNat size
  zero : forall position, offset.toNat ≤ position -> position < offset.toNat + size ->
    after.byteAt position = 0
  kept : forall position, position < offset.toNat ∨ offset.toNat + size ≤ position ->
    after.byteAt position = before.byteAt position

theorem exists_of_isAlignment {alignment : Nat} (supported : isAlignment alignment = true) :
    exists exponent, exponent ≤ 4 ∧ alignment = 2 ^ exponent := by
  simp only [isAlignment, List.contains_eq_mem, List.mem_cons, List.not_mem_nil, or_false,
    decide_eq_true_eq] at supported
  rcases supported with one | two | four | eight | sixteen
  · exact ⟨0, by decide, one⟩
  · exact ⟨1, by decide, two⟩
  · exact ⟨2, by decide, four⟩
  · exact ⟨3, by decide, eight⟩
  · exact ⟨4, by decide, sixteen⟩

/-- What the place of a request in an owned arena satisfies. -/
theorem ownedPlacement_ok {capacity buffers used size exponent : Nat} {growable : Bool}
    {place : Placement} (inUse : used ≤ buffers * capacity)
    (limit : buffers * capacity ≤ positionLimit)
    (placed : ownedPlacement capacity buffers used growable size (2 ^ exponent) = .ok place) :
    used ≤ place.start ∧ place.stop = place.start + size ∧ buffers ≤ place.buffers ∧
      place.buffers * capacity ≤ positionLimit ∧
      (exists buffer, buffer < place.buffers ∧ buffer * capacity ≤ place.start ∧
        place.start + size ≤ (buffer + 1) * capacity) ∧
      (place.buffers = buffers ∧ place.start = alignUp used (2 ^ exponent) ∨
        place.buffers = buffers + 1) := by
  have above := le_alignUp used exponent
  unfold ownedPlacement at placed
  simp only at placed
  split at placed
  · cases placed
  next small =>
    split at placed
    next fits =>
      cases placed
      have low := Nat.div_mul_le_self (alignUp used (2 ^ exponent)) capacity
      exact ⟨above, rfl, Nat.le_refl _, limit, ⟨_, fits.1, low, fits.2⟩, Or.inl ⟨rfl, rfl⟩⟩
    next full =>
      split at placed
      · cases placed
      · split at placed
        · cases placed
        next room =>
          cases placed
          have next : (buffers + 1) * capacity = buffers * capacity + capacity := by
            rw [Nat.add_mul, Nat.one_mul]
          refine ⟨inUse, rfl, Nat.le_succ _, ?_, ⟨buffers, Nat.lt_succ_self _, Nat.le_refl _, ?_⟩,
            Or.inr rfl⟩
          · simp only
            omega
          · simp only
            omega

theorem ownedPlacement_error {capacity buffers used size alignment : Nat} {growable : Bool}
    {cause : ArenaError}
    (refused : ownedPlacement capacity buffers used growable size alignment = .error cause) :
    cause.IsShortage := by
  unfold ownedPlacement at refused
  simp only at refused
  split at refused
  · cases refused
    trivial
  · split at refused
    · cases refused
    · split at refused
      · cases refused
        trivial
      · split at refused
        · cases refused
          trivial
        · cases refused

/-- The only buffer of an arena serves every request that it has room for. -/
theorem ownedPlacement_one {capacity used size exponent : Nat} {growable : Bool}
    (room : used + size + 2 ^ exponent ≤ capacity) :
    ownedPlacement capacity 1 used growable size (2 ^ exponent) =
      .ok ⟨alignUp used (2 ^ exponent), alignUp used (2 ^ exponent) + size, 1⟩ := by
  have below := alignUp_lt used exponent
  have first : alignUp used (2 ^ exponent) / capacity = 0 := Nat.div_eq_of_lt (by omega)
  unfold ownedPlacement
  simp only [first]
  rw [if_neg (by omega), if_pos (by omega)]

theorem borrowedPlacement_ok {length used size exponent : Nat} {place : Placement}
    (placed : borrowedPlacement length used size (2 ^ exponent) = .ok place) :
    used ≤ place.start ∧ place.stop = place.start + size ∧ place.stop ≤ positionLimit ∧
      place.stop ≤ length := by
  have above := le_alignUp used exponent
  unfold borrowedPlacement at placed
  simp only at placed
  split at placed
  · cases placed
  next small =>
    split at placed
    · cases placed
    next fits =>
      cases placed
      exact ⟨above, rfl, Nat.le_of_not_lt small, Nat.le_of_not_lt fits⟩

theorem borrowedPlacement_error {length used size alignment : Nat} {cause : ArenaError}
    (refused : borrowedPlacement length used size alignment = .error cause) :
    cause.IsShortage := by
  unfold borrowedPlacement at refused
  simp only at refused
  split at refused
  · cases refused
    trivial
  · split at refused
    · cases refused
      trivial
    · cases refused

theorem getD_append_zeros (bytes : ByteArray) (count position : Nat) :
    (bytes ++ zeros count).data[position]?.getD 0 = bytes.data[position]?.getD 0 := by
  rw [ByteArray.data_append, Array.getElem?_append]
  split
  · rfl
  next beyond =>
    have nothing : bytes.data[position]? = none := Array.getElem?_eq_none (by omega)
    rw [nothing, ← Array.getElem?_toList, data_zeros, getD_replicate_zero, Option.getD_none]

theorem allocated_of_owned {capacity buffers used size : Nat} {growable : Bool}
    {bytes : ByteArray} {place : Placement}
    (writable : Writable ⟨.owned capacity buffers growable, bytes, used⟩)
    (start : used ≤ place.start) (stop : place.stop = place.start + size)
    (more : buffers ≤ place.buffers) (limit : place.buffers * capacity ≤ positionLimit)
    (inBuffer : exists buffer, buffer < place.buffers ∧ buffer * capacity ≤ place.start ∧
      place.start + size ≤ (buffer + 1) * capacity) :
    Allocated ⟨.owned capacity buffers growable, bytes, used⟩ size (Offset.ofNat place.start)
      (occupy place ⟨.owned capacity buffers growable, bytes, used⟩) := by
  obtain ⟨usedPositive, divides, positive, bufferPositive, _, inUse, sizeBytes⟩ := writable
  simp only at inUse sizeBytes usedPositive
  obtain ⟨buffer, inRange, low, high⟩ := inBuffer
  have whole : (buffer + 1) * capacity ≤ place.buffers * capacity :=
    Nat.mul_le_mul_right capacity inRange
  have limitValue : positionLimit = 2 ^ 32 - 1 := rfl
  have toNat : (Offset.ofNat place.start).toNat = place.start :=
    Offset.toNat_ofNat (by simp only [Offset.spaceSize]; omega)
  have sameBytes (position : Nat) :
      (occupy place ⟨.owned capacity buffers growable, bytes, used⟩).byteAt position =
        byteAt ⟨.owned capacity buffers growable, bytes, used⟩ position :=
    getD_append_zeros bytes (place.stop - used) position
  have grown : Grown ⟨.owned capacity buffers growable, bytes, used⟩
      (occupy place ⟨.owned capacity buffers growable, bytes, used⟩) := by
    refine ⟨rfl, fun _ => ⟨?_, divides, positive, by omega, limit, ?_, ?_⟩, ?_, ?_⟩
    · simp only [occupy]
      omega
    · simp only [occupy]
      omega
    · simp only [occupy, ByteArray.size_append, size_zeros]
      omega
    · simp only [occupy]
      omega
    · intro position length within
      obtain ⟨positionPositive, below, other, otherInRange, otherLow, otherHigh⟩ := within
      simp only at below
      refine ⟨positionPositive, ?_, other, by omega, otherLow, otherHigh⟩
      simp only [occupy]
      omega
  have startBelow : used ≤ (Offset.ofNat place.start).toNat := by omega
  refine ⟨grown, startBelow, ?_, ⟨by omega, ?_, buffer, inRange, by omega, by omega⟩, ?_, ?_⟩
  · simp only [occupy]
    omega
  · simp only [occupy]
    omega
  · intro position above below
    rw [sameBytes]
    unfold byteAt
    rw [Array.getElem?_eq_none (by
      have size : bytes.data.size = bytes.size := rfl
      simp only
      omega), Option.getD_none]
  · intro position _
    exact sameBytes position

theorem allocated_of_borrowed {used size : Nat} {bytes : ByteArray} {place : Placement}
    (writable : Writable ⟨.borrowed, bytes, used⟩)
    (start : used ≤ place.start) (stop : place.stop = place.start + size)
    (limit : place.stop ≤ positionLimit) (fits : place.stop ≤ bytes.size) :
    Allocated ⟨.borrowed, bytes, used⟩ size (Offset.ofNat place.start)
      (occupy place ⟨.borrowed, bytes, used⟩) := by
  obtain ⟨usedPositive, _⟩ := writable
  simp only at usedPositive
  have limitValue : positionLimit = 2 ^ 32 - 1 := rfl
  have toNat : (Offset.ofNat place.start).toNat = place.start :=
    Offset.toNat_ofNat (by simp only [Offset.spaceSize]; omega)
  have room : place.start + (zeros (place.stop - place.start)).size ≤ bytes.size := by
    rw [size_zeros]
    omega
  have newSize : (occupy place ⟨.borrowed, bytes, used⟩).bytes.size = bytes.size :=
    size_overwrite room
  have newBytes (position : Nat) := getD_overwrite room position
  rw [size_zeros] at newBytes
  have grown : Grown ⟨.borrowed, bytes, used⟩ (occupy place ⟨.borrowed, bytes, used⟩) := by
    refine ⟨rfl, fun _ => ⟨?_, ?_⟩, ?_, ?_⟩
    · simp only [occupy]
      omega
    · simp only [occupy]
      omega
    · simp only [occupy]
      omega
    · intro position length within
      obtain ⟨positionPositive, below, inside⟩ := within
      simp only at below inside
      refine ⟨positionPositive, ?_, ?_⟩
      · simp only [occupy]
        omega
      · change position + length ≤ (occupy place ⟨.borrowed, bytes, used⟩).bytes.size
        omega
  have startBelow : used ≤ (Offset.ofNat place.start).toNat := by omega
  refine ⟨grown, startBelow, ?_, ⟨by omega, ?_, ?_⟩, ?_, ?_⟩
  · simp only [occupy]
    omega
  · simp only [occupy]
    omega
  · change _ ≤ (occupy place ⟨.borrowed, bytes, used⟩).bytes.size
    omega
  · intro position above below
    refine (newBytes position).trans ?_
    rw [if_pos (by omega), data_zeros, getD_replicate_zero]
  · intro position apart
    refine (newBytes position).trans ?_
    rw [if_neg (by omega)]
    rfl

/-- An allocation with a supported alignment hands out a zeroed region, or is
refused for lack of room and changes nothing. -/
theorem run_alloc {arena : Arena} (size alignment : Nat) (writable : arena.Writable)
    (supported : isAlignment (max alignment 1) = true) :
    Run (alloc size alignment) arena (fun offset after => Allocated arena size offset after)
      (fun cause after => after = arena ∧ cause.IsShortage) := by
  obtain ⟨exponent, _, power⟩ := exists_of_isAlignment supported
  obtain ⟨storage, bytes, used⟩ := arena
  unfold Run alloc
  cases decided : placement ⟨storage, bytes, used⟩ size alignment with
  | error cause =>
      refine ⟨rfl, ?_⟩
      simp only [placement, supported, not_true_eq_false, if_false] at decided
      cases storage with
      | absent => exact absurd writable.2 id
      | readOnly => exact absurd writable.2 id
      | borrowed => exact borrowedPlacement_error decided
      | owned capacity buffers growable => exact ownedPlacement_error decided
  | ok place =>
      simp only [placement, supported, not_true_eq_false, if_false] at decided
      rw [power] at decided
      cases storage with
      | absent => exact absurd writable.2 id
      | readOnly => exact absurd writable.2 id
      | borrowed =>
          obtain ⟨start, stop, limit, fits⟩ := borrowedPlacement_ok decided
          exact allocated_of_borrowed writable start stop limit fits
      | owned capacity buffers growable =>
          obtain ⟨_, _, _, _, limit, inUse, _⟩ := id writable
          obtain ⟨start, stop, more, newLimit, inBuffer, _⟩ :=
            ownedPlacement_ok inUse limit decided
          exact allocated_of_owned writable start stop more newLimit inBuffer

/-- An allocation takes no more room than it asks for and its alignment may
cost, and it is not refused where there is that much. -/
theorem alloc_spare {arena : Arena} (size alignment : Nat) (writable : arena.Writable)
    (supported : isAlignment (max alignment 1) = true) :
    Run (alloc size alignment) arena
      (fun _ after => arena.spare ≤ after.spare + (size + max alignment 1))
      (fun _ _ => arena.spare < size + max alignment 1) := by
  obtain ⟨exponent, _, power⟩ := exists_of_isAlignment supported
  have unit : 0 < max alignment 1 := by omega
  by_cases room : size + max alignment 1 ≤ arena.spare
  · obtain ⟨storage, bytes, used⟩ := arena
    cases storage with
    | absent => exact absurd writable.2 id
    | readOnly => exact absurd writable.2 id
    | borrowed =>
        simp only [spare] at room
        omega
    | owned capacity buffers growable =>
        obtain ⟨_, _, positive, _, _, inUse, _⟩ := id writable
        match buffers with
        | 0 =>
            simp only [spare] at room
            omega
        | buffers + 2 =>
            simp only [spare] at room
            omega
        | 1 =>
            simp only [spare] at room
            have placed : placement ⟨.owned capacity 1 growable, bytes, used⟩ size alignment =
                .ok ⟨alignUp used (2 ^ exponent), alignUp used (2 ^ exponent) + size, 1⟩ := by
              simp only [placement, supported, not_true_eq_false, if_false]
              rw [power] at room ⊢
              exact ownedPlacement_one (by omega)
            have below := alignUp_lt used exponent
            simp only [Run, alloc, placed, occupy, spare]
            omega
  · unfold Run
    cases alloc size alignment arena with
    | ok offset after =>
        simp only
        omega
    | error cause after =>
        simp only
        omega

end Arena
end PackedJson
