import PackedJson.Proofs.Arena.Session

namespace PackedJson
namespace Arena

/-!
Arenas in one piece.

A flat copy is cut from the storage by positions alone, so that it rests on
where the used part ends: in the last buffer of an owned arena, and within the
bytes of any other.  A new arena satisfies this and requests keep it.  The
exception is the arena over an empty buffer of a caller, in which the null
position counts as used although there is no byte for it.
-/

/-! ### Joining buffers -/

section Buffers

variable {arena : Arena} {capacity : Nat}

theorem buffer_eq_extract {index : Nat} (whole : index * capacity + capacity ≤ arena.bytes.size) :
    arena.buffer capacity index =
      arena.bytes.extract (index * capacity) (index * capacity + capacity) := by
  have size : (arena.bytes.extract (index * capacity) (index * capacity + capacity)).size =
      capacity := by
    rw [ByteArray.size_extract]
    omega
  have nothing : zeros 0 = ByteArray.empty := rfl
  simp only [buffer, size, Nat.sub_self, nothing, ByteArray.append_empty]

/-- Buffers that lie in the used part are the bytes up to where they end. -/
theorem foldl_buffers (count : Nat) (whole : count * capacity ≤ arena.bytes.size) :
    (List.range count).foldl (fun joined index => joined ++ arena.buffer capacity index)
      ByteArray.empty = arena.bytes.extract 0 (count * capacity) := by
  induction count with
  | zero => rw [Nat.zero_mul, ByteArray.extract_same, List.range_zero, List.foldl_nil]
  | succ count ih =>
      have next : (count + 1) * capacity = count * capacity + capacity := by
        rw [Nat.add_mul, Nat.one_mul]
      rw [List.range_succ, List.foldl_append, ih (by omega), List.foldl_cons, List.foldl_nil,
        buffer_eq_extract (by omega), next]
      exact (ByteArray.extract_eq_extract_append_extract _ (Nat.zero_le _)
        (Nat.le_add_right _ _)).symm

/-- The first bytes of a buffer, as far as they are in use. -/
theorem extract_buffer {index count : Nat} (short : count ≤ capacity)
    (inUse : index * capacity + count ≤ arena.bytes.size) :
    (arena.buffer capacity index).extract 0 count =
      arena.bytes.extract (index * capacity) (index * capacity + count) := by
  have covered : count - (arena.bytes.extract (index * capacity)
      (index * capacity + capacity)).size = 0 := by
    rw [ByteArray.size_extract]
    omega
  simp only [buffer, ByteArray.extract_append, covered, Nat.zero_sub, ByteArray.extract_same,
    ByteArray.append_empty, ByteArray.extract_extract, Nat.add_zero]
  rw [Nat.min_eq_left (by omega)]

end Buffers

/-! ### Where the used part ends -/

/-- The used part ends in the last buffer, or within the wrapped bytes. -/
def EndsInside (arena : Arena) : Prop :=
  match arena.storage with
  | .absent => arena.used = 0
  | .owned capacity buffers _ => arena.Writable ∧ (buffers - 1) * capacity ≤ arena.used
  | .borrowed => arena.Writable ∧ arena.used ≤ arena.bytes.size
  | .readOnly => arena.used = arena.bytes.size

/-- An arena that was just made, of any kind. -/
inductive IsNew : Arena -> Prop where
  | uninitialized : IsNew Arena.uninitialized
  | owned {config : ArenaConfig} {arena : Arena} : Arena.owned config = .ok arena -> IsNew arena
  | borrowed (buffer : ByteArray) : IsNew (Arena.borrowed buffer)
  | readOnly (bytes : ByteArray) : IsNew (Arena.readOnly bytes)

theorem buffers_of_owned {config : ArenaConfig} {arena : Arena}
    (made : Arena.owned config = .ok arena) :
    exists capacity, arena.storage = .owned capacity 1 config.growable := by
  unfold Arena.owned at made
  split at made
  · cases made
  next capacity rounded =>
    split at made
    · cases made
      exact ⟨capacity, rfl⟩
    · cases made

theorem IsNew.endsInside {arena : Arena} (isNew : IsNew arena)
    (present : arena ≠ Arena.borrowed ByteArray.empty) : arena.EndsInside := by
  cases isNew with
  | uninitialized => rfl
  | readOnly bytes => rfl
  | owned made =>
      obtain ⟨capacity, kind⟩ := buffers_of_owned made
      unfold EndsInside
      simp only [kind, Nat.sub_self, Nat.zero_mul, Nat.zero_le, and_true]
      exact owned_writable made
  | borrowed buffer =>
      refine ⟨borrowed_writable buffer, Nat.one_le_iff_ne_zero.mpr fun nothing => present ?_⟩
      have empty : buffer = ByteArray.empty := ByteArray.size_eq_zero_iff.mp nothing
      rw [empty]

section Flat

variable {arena : Arena}

/-- The flat copy is the bytes that are in use. -/
theorem EndsInside.flatten? (inside : arena.EndsInside) :
    arena.flatten? = some arena.contents := by
  obtain ⟨storage, bytes, used⟩ := arena
  cases storage with
  | absent => rfl
  | readOnly => rfl
  | borrowed => exact if_pos inside.2
  | owned capacity buffers growable =>
      obtain ⟨⟨_, _, _, positive, _, inUse, size⟩, last⟩ := inside
      simp only at inUse size last
      have previous : buffers * capacity = (buffers - 1) * capacity + capacity := by
        rw [← Nat.succ_mul, Nat.succ_eq_add_one, Nat.sub_add_cancel positive]
      have short : used - (buffers - 1) * capacity ≤ capacity := by omega
      unfold Arena.flatten?
      simp only [positive, last, short, and_self, if_true]
      rw [foldl_buffers _ (by simp only; omega), extract_buffer short (by simp only; omega),
        ← ByteArray.extract_eq_extract_append_extract _ (Nat.zero_le _) (Nat.le_add_right _ _),
        Nat.add_sub_cancel' last, ← size, ByteArray.extract_zero_size]
      rfl

theorem EndsInside.size_contents (inside : arena.EndsInside) :
    arena.contents.size = arena.used := by
  obtain ⟨storage, bytes, used⟩ := arena
  cases storage with
  | absent => exact inside.symm
  | readOnly => exact inside.symm
  | owned capacity buffers growable => exact inside.1.2.2.2.2.2.2
  | borrowed =>
      have fits : used ≤ bytes.size := inside.2
      simp only [contents, ByteArray.size_extract]
      omega

theorem EndsInside.used_le_capacity (inside : arena.EndsInside) : arena.used ≤ arena.capacity := by
  obtain ⟨storage, bytes, used⟩ := arena
  cases storage with
  | absent => exact Nat.le_of_eq inside
  | readOnly => exact Nat.le_of_eq inside
  | owned capacity buffers growable => exact inside.1.2.2.2.2.2.1
  | borrowed => exact inside.2

/-- What is read from an arena is read from its flat copy. -/
theorem EndsInside.get?_contents (inside : arena.EndsInside) {offset : Offset} {length : Nat}
    {bytes : ByteArray} (found : arena.get? offset length = some bytes) :
    bytes = arena.contents.extract offset.toNat (offset.toNat + length) ∧
      (readOnly arena.contents).get? offset length = some bytes := by
  have size := inside.size_contents
  unfold get? at found
  split at found
  next readable =>
    cases found
    obtain ⟨present, inUse, _⟩ := isReadable_iff.mp readable
    have inCopy : (readOnly arena.contents).isReadable offset length = true :=
      isReadable_iff.mpr ⟨present, by rw [readOnly, size]; exact inUse, by
        rw [readOnly, size]; exact inUse⟩
    have same : arena.bytes.extract offset.toNat (offset.toNat + length) =
        arena.contents.extract offset.toNat (offset.toNat + length) := by
      obtain ⟨storage, bytes, used⟩ := arena
      cases storage with
      | absent => exact absurd (isReadable_iff.mp readable).2.2 id
      | readOnly => rfl
      | owned capacity buffers growable => rfl
      | borrowed =>
          simp only at inUse
          simp only [contents, ByteArray.extract_extract, Nat.zero_add, Nat.min_eq_left inUse]
    exact ⟨same, by rw [get?, if_pos inCopy, same]; rfl⟩
  next => cases found

end Flat

/-! ### Requests -/

/-- The arena after a request, whether it was served or refused. -/
def next (arena : Arena) (request : Request) : Arena :=
  match request.serve arena with
  | .ok _ after => after
  | .error _ after => after

section Steps

variable {arena after : Arena} {request : Request}

theorem lastBuffer_of_placed {capacity buffers used size alignment : Nat} {growable : Bool}
    {place : Placement} (last : (buffers - 1) * capacity ≤ used)
    (above : used ≤ alignUp used alignment)
    (placed : ownedPlacement capacity buffers used growable size alignment = .ok place) :
    (place.buffers - 1) * capacity ≤ place.stop := by
  unfold ownedPlacement at placed
  simp only at placed
  split at placed
  · cases placed
  · split at placed
    · cases placed
      simp only
      omega
    · split at placed
      · cases placed
      · split at placed
        · cases placed
        · cases placed
          simp only [Nat.add_sub_cancel]
          omega

/-- An allocation ends the used part in the storage again. -/
theorem EndsInside.alloc (inside : arena.EndsInside) (writable : arena.Writable)
    {size alignment : Nat} {offset : Offset}
    (done : Arena.alloc size alignment arena = .ok offset after) : after.EndsInside := by
  have afterWritable := (handedOut_of_ok writable done).allocated.grown.writable writable
  obtain ⟨storage, bytes, used⟩ := arena
  unfold Arena.alloc at done
  cases decided : placement ⟨storage, bytes, used⟩ size alignment with
  | error cause =>
      rw [decided] at done
      cases done
  | ok place =>
      rw [decided] at done
      cases done
      unfold placement at decided
      split at decided
      · cases decided
      next supported =>
        obtain ⟨exponent, _, power⟩ := exists_of_isAlignment (Decidable.not_not.mp supported)
        rw [power] at decided
        cases storage with
        | absent => cases decided
        | readOnly => cases decided
        | owned capacity buffers growable =>
            exact ⟨afterWritable, lastBuffer_of_placed inside.2 (le_alignUp used exponent) decided⟩
        | borrowed =>
            obtain ⟨_, stop, _, fits⟩ := borrowedPlacement_ok decided
            simp only at fits
            refine ⟨afterWritable, ?_⟩
            change place.stop ≤ (overwrite bytes place.start _).size
            rw [size_overwrite (by rw [size_zeros]; omega)]
            omega

theorem EndsInside.written (inside : arena.EndsInside) {start : Nat} {source : List UInt8}
    (written : Written arena start source after) : after.EndsInside := by
  have writable := written.writable
  unfold EndsInside at inside ⊢
  rw [written.storage, written.used, written.size]
  cases kind : arena.storage <;> simp only [kind] at inside ⊢
  · exact inside
  · exact ⟨writable inside.1, inside.2⟩
  · exact ⟨writable inside.1, inside.2⟩
  · exact inside

/-- An arena that refuses all requests, for whatever cause. -/
structure Refuses (arena : Arena) : Prop where
  placement : forall size alignment, exists cause, arena.placement size alignment = .error cause
  write : forall offset length, exists cause, arena.checkWritable offset length = .error cause

theorem Refuses.alloc (refuses : arena.Refuses) (size alignment : Nat) :
    exists cause, Arena.alloc size alignment arena = .error cause arena := by
  obtain ⟨cause, refused⟩ := refuses.placement size alignment
  exact ⟨cause, by rw [Arena.alloc, refused]⟩

/-- A request that is refused leaves the arena as it was. -/
theorem Refuses.next (refuses : arena.Refuses) (request : Request) : arena.next request = arena := by
  have ended {cause : ArenaError} (failed : request.serve arena = .error cause arena) :
      arena.next request = arena := by
    rw [Arena.next, failed]
  cases request with
  | alloc size alignment => exact ended (refuses.alloc size alignment).choose_spec
  | allocArray count elementSize alignment =>
      obtain ⟨cause, refused⟩ := refuses.alloc (count * elementSize) alignment
      by_cases fits : count * elementSize < 2 ^ 64
      · refine @ended cause ?_
        simp only [Request.serve, allocArray, fits, if_true, refused]
      · refine @ended (.tooLarge (2 ^ 64 - 1)) ?_
        simp only [Request.serve, allocArray, fits, if_false]
        rfl
  | storeText text =>
      obtain ⟨cause, refused⟩ := refuses.alloc (text.utf8ByteSize + 1) 1
      refine @ended cause ?_
      simp only [Request.serve, storeText, bind, EStateM.bind, refused]
  | copyObject source alignment =>
      obtain ⟨cause, refused⟩ := refuses.alloc source.size alignment
      refine @ended cause ?_
      simp only [Request.serve, copyObject, bind, EStateM.bind, refused]
  | write offset source =>
      obtain ⟨cause, refused⟩ := refuses.write offset source.size
      refine @ended cause ?_
      simp only [Request.serve, Arena.write, bind, EStateM.bind, refused]
  | zero offset length =>
      obtain ⟨cause, refused⟩ := refuses.write offset length
      refine @ended cause ?_
      simp only [Request.serve, Arena.zero, bind, EStateM.bind, refused]

theorem refuses_of_closed (closed : arena.storage = .absent ∨ arena.storage = .readOnly) :
    arena.Refuses := by
  refine ⟨fun size alignment => ?_, fun offset length => ?_⟩
  · unfold placement
    split
    · exact ⟨_, rfl⟩
    · cases closed with
      | inl kind => simp only [kind, Except.error.injEq, exists_eq']
      | inr kind => simp only [kind, Except.error.injEq, exists_eq']
  · unfold checkWritable
    split
    · exact ⟨_, rfl⟩
    next writable =>
      cases closed with
      | inl kind =>
          have unreadable : arena.isReadable offset length = false := by
            simp only [isReadable, kind, Bool.and_false]
          exact ⟨_, if_neg (by rw [unreadable]; exact Bool.false_ne_true)⟩
      | inr kind => exact absurd (by simp only [isReadOnly, kind]) writable

theorem isReadable_borrowed_empty (offset : Offset) (length : Nat) :
    (Arena.borrowed ByteArray.empty).isReadable offset length = false := by
  refine Bool.eq_false_iff.mpr fun readable => ?_
  obtain ⟨present, _, inside⟩ := isReadable_iff.mp readable
  have nothing : ByteArray.empty.size = 0 := rfl
  simp only [Arena.borrowed, nothing] at inside
  omega

/-- Not even a region of no bytes fits behind the null position of an empty
buffer. -/
theorem refuses_borrowed_empty : (Arena.borrowed ByteArray.empty).Refuses := by
  refine ⟨fun size alignment => ?_, fun offset length => ⟨accessError offset length, ?_⟩⟩
  · unfold placement
    split
    · exact ⟨_, rfl⟩
    next supported =>
      obtain ⟨exponent, _, power⟩ := exists_of_isAlignment (Decidable.not_not.mp supported)
      have above := le_alignUp 1 exponent
      have nothing : ByteArray.empty.size = 0 := rfl
      simp only [Arena.borrowed, power, borrowedPlacement, nothing]
      split
      · exact ⟨_, rfl⟩
      · exact ⟨_, if_pos (by omega)⟩
  · have writable : (Arena.borrowed ByteArray.empty).isReadOnly = false := rfl
    simp only [checkWritable, writable, isReadable_borrowed_empty, Bool.false_eq_true, if_false]

theorem EndsInside.writable (inside : arena.EndsInside) :
    arena.Writable ∨ arena.storage = .absent ∨ arena.storage = .readOnly := by
  unfold EndsInside at inside
  cases kind : arena.storage <;> simp only [kind] at inside
  · exact Or.inr (Or.inl rfl)
  · exact Or.inl inside.1
  · exact Or.inl inside.1
  · exact Or.inr (Or.inr rfl)

theorem EndsInside.next (inside : arena.EndsInside) (request : Request) :
    (arena.next request).EndsInside := by
  rcases inside.writable with writable | closed
  · have run := run_serve writable request
    unfold Arena.next
    unfold Run at run
    cases ends : request.serve arena with
    | error cause after =>
        rw [ends] at run
        exact run ▸ inside
    | ok offset after =>
        rw [ends] at run
        obtain ⟨middle, step, written⟩ := run
        refine EndsInside.written ?_ written
        cases room : request.room? with
        | none =>
            simp only [room] at step
            exact step ▸ inside
        | some asked =>
            simp only [room] at step
            exact inside.alloc writable step
  · rw [(refuses_of_closed closed).next request]
    exact inside

theorem EndsInside.run (inside : arena.EndsInside) (requests : List Request) :
    (requests.foldl Arena.next arena).EndsInside := by
  induction requests generalizing arena with
  | nil => exact inside
  | cons request rest ih => exact ih (inside.next request)

theorem Refuses.run (refuses : arena.Refuses) (requests : List Request) :
    requests.foldl Arena.next arena = arena := by
  induction requests with
  | nil => rfl
  | cons request rest ih => rw [List.foldl_cons, refuses.next request, ih]

end Steps

end Arena
end PackedJson
