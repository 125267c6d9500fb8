import PackedJson.Proofs.Arena.Lasting

namespace PackedJson
namespace Arena

/-!
Arenas in use.

A session follows an arena through requests in any order.  Besides the arena
it keeps the regions handed out so far, and for every position the byte
written there last.  Both follow from the requests and from where regions were
handed out, not from the bytes of the arena.
-/

/-- A request to an arena. -/
inductive Request where
  | alloc (size alignment : Nat)
  | allocArray (count elementSize alignment : Nat)
  | storeText (text : String)
  | copyObject (source : ByteArray) (alignment : Nat)
  | write (offset : Offset) (source : ByteArray)
  | zero (offset : Offset) (length : Nat)

namespace Request

/-- Serve a request.  The answer is where its region starts. -/
def serve : Request -> ArenaM Offset
  | alloc size alignment => Arena.alloc size alignment
  | allocArray count elementSize alignment => Arena.allocArray count elementSize alignment
  | storeText text => Arena.storeText text
  | copyObject source alignment => Arena.copyObject source alignment
  | write offset source => do
      Arena.write offset source
      return offset
  | zero offset length => do
      Arena.zero offset length
      return offset

/-- The size and the alignment of the region that a request asks for. -/
def room? : Request -> Option (Nat × Nat)
  | alloc size alignment => some (size, alignment)
  | allocArray count elementSize alignment => some (count * elementSize, alignment)
  | storeText text => some (text.utf8ByteSize + 1, 1)
  | copyObject source alignment => some (source.size, alignment)
  | write .. => none
  | zero .. => none

/-- The bytes that a request has written to the start of its region. -/
def source : Request -> ByteArray
  | alloc .. => ByteArray.empty
  | allocArray .. => ByteArray.empty
  | storeText text => text.toUTF8
  | copyObject source _ => source
  | write _ source => source
  | zero _ length => zeros length

end Request

/-! ### What an allocation hands out -/

section Readable

variable {arena after : Arena} {size alignment : Nat} {offset : Offset}

/-- When a region is readable. -/
theorem isReadable_iff : arena.isReadable offset size = true ↔
    0 < offset.toNat ∧ offset.toNat + size ≤ arena.used ∧
      match arena.storage with
      | .absent => False
      | .owned capacity buffers _ =>
          offset.toNat % capacity + size ≤ capacity ∧ offset.toNat / capacity < buffers
      | .borrowed => offset.toNat + size ≤ arena.bytes.size
      | .readOnly => offset.toNat + size ≤ arena.bytes.size := by
  unfold isReadable
  simp only [Bool.and_eq_true, Bool.not_eq_true', Offset.isNull_eq_false_iff, decide_eq_true_eq,
    and_assoc]
  cases arena.storage <;> simp

theorem isReadable_of_le {shorter : Nat} (readable : arena.isReadable offset size = true)
    (le : shorter ≤ size) : arena.isReadable offset shorter = true := by
  obtain ⟨present, used, inside⟩ := isReadable_iff.mp readable
  refine isReadable_iff.mpr ⟨present, by omega, ?_⟩
  cases kind : arena.storage <;> simp only [kind] at inside ⊢ <;> omega

theorem Written.isReadable {start : Nat} {source : List UInt8}
    (written : Written arena start source after) (length : Nat) :
    after.isReadable offset length = arena.isReadable offset length := by
  unfold Arena.isReadable
  rw [written.storage, written.used, written.size]

theorem Written.nil (arena : Arena) (start : Nat) : Written arena start [] arena :=
  ⟨rfl, rfl, rfl, fun position => by rw [if_neg (by simp only [List.length_nil]; omega)]⟩

/-- A readable region is read as the bytes at its positions. -/
theorem get?_of_isReadable {length : Nat} (writable : arena.Writable)
    (readable : arena.isReadable offset length = true) :
    exists bytes, arena.get? offset length = some bytes ∧
      bytes.data.toList = arena.load offset.toNat length := by
  refine ⟨_, if_pos readable, toList_extract arena ?_⟩
  obtain ⟨_, used, inside⟩ := isReadable_iff.mp readable
  obtain ⟨_, shape⟩ := writable
  cases kind : arena.storage with
  | absent => simp only [kind] at shape
  | readOnly => simp only [kind] at shape
  | owned capacity buffers growable =>
      simp only [kind] at shape
      omega
  | borrowed => simpa only [kind] using inside

/-- A region was handed out as it was asked for. -/
structure HandedOut (before : Arena) (size alignment : Nat) (offset : Offset) (after : Arena) :
    Prop where
  allocated : Allocated before size offset after
  aligned : max alignment 1 ∣ offset.toNat
  readable : after.isReadable offset size = true
  kept : forall other length, before.isReadable other length = true ->
    after.isReadable other length = true

theorem ownedPlacement_start {capacity buffers used size exponent : Nat} {growable : Bool}
    {place : Placement} (divides : 16 ∣ capacity) (positive : 0 < capacity) (small : exponent ≤ 4)
    (placed : ownedPlacement capacity buffers used growable size (2 ^ exponent) = .ok place) :
    2 ^ exponent ∣ place.start ∧ place.start / capacity < place.buffers ∧
      place.start % capacity + size ≤ capacity := by
  unfold ownedPlacement at placed
  simp only at placed
  split at placed
  · cases placed
  next fits =>
    split at placed
    next inside =>
      cases placed
      have parts := Nat.div_add_mod (alignUp used (2 ^ exponent)) capacity
      have next : (alignUp used (2 ^ exponent) / capacity + 1) * capacity =
          capacity * (alignUp used (2 ^ exponent) / capacity) + capacity := by
        rw [Nat.add_mul, Nat.one_mul, Nat.mul_comm]
      exact ⟨dvd_alignUp used exponent, inside.1, by simp only; omega⟩
    next =>
      split at placed
      · cases placed
      · split at placed
        · cases placed
        · cases placed
          have unit : 2 ^ exponent ∣ 16 := Nat.pow_dvd_pow 2 small
          refine ⟨Nat.dvd_trans (Nat.dvd_trans unit divides) (Nat.dvd_mul_left _ _), ?_, ?_⟩
          · simp only [Nat.mul_div_cancel _ positive]
            omega
          · simp only [Nat.mul_mod_left]
            omega

theorem borrowedPlacement_start {length used size exponent : Nat} {place : Placement}
    (placed : borrowedPlacement length used size (2 ^ exponent) = .ok place) :
    place.start = alignUp used (2 ^ exponent) := by
  unfold borrowedPlacement at placed
  simp only at placed
  split at placed
  · cases placed
  · split at placed
    · cases placed
    · cases placed
      rfl

section Placed

variable {exponent used : Nat} {bytes : ByteArray} {place : Placement}

theorem handedOut_of_borrowed (power : max alignment 1 = 2 ^ exponent)
    (decided : borrowedPlacement bytes.size used size (2 ^ exponent) = .ok place)
    (allocated : Allocated ⟨.borrowed, bytes, used⟩ size (Offset.ofNat place.start)
      (occupy place ⟨.borrowed, bytes, used⟩)) :
    HandedOut ⟨.borrowed, bytes, used⟩ size alignment (Offset.ofNat place.start)
      (occupy place ⟨.borrowed, bytes, used⟩) := by
  have positive := allocated.within.1
  have stop : (Offset.ofNat place.start).toNat + size = place.stop := allocated.stop
  obtain ⟨_, same, _, fits⟩ := borrowedPlacement_ok decided
  have toNat : (Offset.ofNat place.start).toNat = place.start := by omega
  have newSize : (occupy place ⟨.borrowed, bytes, used⟩).bytes.size = bytes.size :=
    size_overwrite (by rw [size_zeros]; omega)
  refine ⟨allocated, ?_, isReadable_iff.mpr ⟨positive, Nat.le_of_eq stop, ?_⟩, ?_⟩
  · rw [power, toNat, borrowedPlacement_start decided]
    exact dvd_alignUp used exponent
  · change _ ≤ (occupy place ⟨.borrowed, bytes, used⟩).bytes.size
    omega
  · intro other length readable
    obtain ⟨otherPositive, below, inside⟩ := isReadable_iff.mp readable
    refine isReadable_iff.mpr ⟨otherPositive, Nat.le_trans below allocated.grown.used, ?_⟩
    change _ ≤ (occupy place ⟨.borrowed, bytes, used⟩).bytes.size
    rw [newSize]
    exact inside

theorem handedOut_of_owned {capacity buffers : Nat} {growable : Bool}
    (writable : Writable ⟨.owned capacity buffers growable, bytes, used⟩) (small : exponent ≤ 4)
    (power : max alignment 1 = 2 ^ exponent)
    (decided : ownedPlacement capacity buffers used growable size (2 ^ exponent) = .ok place)
    (allocated : Allocated ⟨.owned capacity buffers growable, bytes, used⟩ size
      (Offset.ofNat place.start) (occupy place ⟨.owned capacity buffers growable, bytes, used⟩)) :
    HandedOut ⟨.owned capacity buffers growable, bytes, used⟩ size alignment
      (Offset.ofNat place.start) (occupy place ⟨.owned capacity buffers growable, bytes, used⟩) := by
  have positive := allocated.within.1
  have stop : (Offset.ofNat place.start).toNat + size = place.stop := allocated.stop
  obtain ⟨_, divides, capacityPositive, _, limit, inUse, _⟩ := id writable
  obtain ⟨_, same, moreBuffers, _⟩ := ownedPlacement_ok inUse limit decided
  obtain ⟨aligned, inRange, inside⟩ := ownedPlacement_start divides capacityPositive small decided
  have toNat : (Offset.ofNat place.start).toNat = place.start := by omega
  refine ⟨allocated, ?_, isReadable_iff.mpr ⟨positive, Nat.le_of_eq stop, ?_⟩, ?_⟩
  · rw [power, toNat]
    exact aligned
  · rw [toNat]
    exact ⟨inside, inRange⟩
  · intro other length readable
    obtain ⟨otherPositive, below, otherInside, otherInRange⟩ := isReadable_iff.mp readable
    exact isReadable_iff.mpr ⟨otherPositive, Nat.le_trans below allocated.grown.used, otherInside,
      Nat.lt_of_lt_of_le otherInRange moreBuffers⟩

end Placed

/-- A request that is served hands out a region as it was asked for. -/
theorem handedOut_of_ok (writable : arena.Writable)
    (done : alloc size alignment arena = .ok offset after) :
    HandedOut arena size alignment offset after := by
  have allocated := allocated_of_ok writable done
  obtain ⟨storage, bytes, used⟩ := arena
  cases supported : isAlignment (max alignment 1) with
  | false =>
      unfold alloc placement at done
      simp only [supported, Bool.false_eq_true, not_false_eq_true, if_true] at done
      cases done
  | true =>
      obtain ⟨exponent, small, power⟩ := exists_of_isAlignment supported
      unfold alloc at done
      cases decided : placement ⟨storage, bytes, used⟩ size alignment with
      | error cause =>
          rw [decided] at done
          cases done
      | ok place =>
          rw [decided] at done
          cases done
          simp only [placement, supported, not_true_eq_false, if_false] at decided
          rw [power] at decided
          cases storage with
          | absent => exact absurd writable.2 id
          | readOnly => exact absurd writable.2 id
          | borrowed => exact handedOut_of_borrowed power decided allocated
          | owned capacity buffers growable =>
              exact handedOut_of_owned writable small power decided allocated

end Readable

/-! ### Serving a request -/

section Serving

variable {arena after : Arena} {request : Request} {offset : Offset}

theorem checkWritable_of_isReadable {length : Nat} (writable : arena.Writable)
    (readable : arena.isReadable offset length = true) :
    arena.checkWritable offset length = .ok () := by
  have open_ : arena.isReadOnly = false := by
    obtain ⟨_, shape⟩ := writable
    unfold isReadOnly
    cases kind : arena.storage <;> simp only [kind] at shape ⊢
  simp only [checkWritable, open_, readable, Bool.false_eq_true, if_false, if_true]

/-- A region is handed out if the request asks for one, and the bytes of the
request are written to its start. -/
def Request.Does (request : Request) (arena : Arena) (offset : Offset) (after : Arena) : Prop :=
  exists middle,
    (match request.room? with
      | some (size, alignment) => Arena.alloc size alignment arena = .ok offset middle
      | none => middle = arena) ∧
    Written middle offset.toNat request.source.data.toList after

theorem run_allocOnly (size alignment : Nat) :
    Run (alloc size alignment) arena
      (fun offset after => alloc size alignment arena = .ok offset after)
      (fun _ after => after = arena) := by
  unfold Run alloc
  cases placement arena size alignment <;> rfl

/-- Bytes that fit are written to the start of a region that is handed out. -/
theorem run_allocFilled (writable : arena.Writable) {size : Nat} (alignment : Nat)
    {source : ByteArray} (fits : source.size ≤ size) :
    Run (do
        let offset ← alloc size alignment
        Arena.write offset source
        return offset : ArenaM Offset) arena
      (fun offset after => exists middle, alloc size alignment arena = .ok offset middle ∧
        Written middle offset.toNat source.data.toList after)
      (fun _ after => after = arena) := by
  refine Run.andThen (run_allocOnly size alignment) ?_ (fun _ _ same => same)
  intro offset middle done
  have handedOut := handedOut_of_ok writable done
  have middleWritable := handedOut.allocated.grown.writable writable
  have allowed := checkWritable_of_isReadable middleWritable
    (isReadable_of_le handedOut.readable fits)
  obtain ⟨storage, bytes, used⟩ := middle
  have ends : Arena.write offset source ⟨storage, bytes, used⟩ =
      .ok () ⟨storage, overwrite bytes offset.toNat source, used⟩ := by
    unfold Arena.write
    rw [allowed]
  refine run_bind.mpr ((run_of_ok ends).mpr (run_pure.mpr ⟨_, done, ?_⟩))
  exact written_of_ok middleWritable ends

/-- A request is served, or nothing changes. -/
theorem run_serve (writable : arena.Writable) (request : Request) :
    Run request.serve arena (request.Does arena) (fun _ after => after = arena) := by
  have only {size alignment : Nat} : Run (Arena.alloc size alignment) arena
      (fun offset after => exists middle, Arena.alloc size alignment arena = .ok offset middle ∧
        Written middle offset.toNat [] after)
      (fun _ after => after = arena) :=
    (run_allocOnly size alignment).imp
      (fun offset after done => ⟨after, done, .nil after offset.toNat⟩) (fun _ _ same => same)
  have written {offset : Offset} {source : ByteArray} :
      Run (Arena.write offset source) arena
        (fun _ after => Written arena offset.toNat source.data.toList after)
        (fun _ after => after = arena) := by
    cases ends : Arena.write offset source arena with
    | ok _ after => exact (run_of_ok ends).mpr (written_of_ok writable ends)
    | error cause after =>
        refine (run_of_error ends).mpr ?_
        unfold Arena.write at ends
        cases allowed : arena.checkWritable offset source.size with
        | error refused =>
            rw [allowed] at ends
            cases ends
            rfl
        | ok _ =>
            rw [allowed] at ends
            cases ends
  cases request with
  | alloc size alignment => exact only
  | allocArray count elementSize alignment =>
      change Run (Arena.allocArray count elementSize alignment) arena _ _
      unfold Arena.allocArray
      split
      · exact only
      · exact run_throw.mpr rfl
  | storeText text => exact run_allocFilled writable 1 (Nat.le_succ _)
  | copyObject source alignment => exact run_allocFilled writable alignment (Nat.le_refl _)
  | write offset source =>
      refine Run.andThen written ?_ (fun _ _ same => same)
      exact fun _ after done => run_pure.mpr ⟨arena, rfl, done⟩
  | zero offset length =>
      refine Run.andThen ?_ (fun _ after done => run_pure.mpr ⟨arena, rfl, done⟩)
        (fun _ _ same => same)
      unfold Run Arena.zero
      cases arena.checkWritable offset length with
      | error cause => rfl
      | ok _ => exact written

end Serving

/-! ### Sessions -/

/-- An arena together with the regions handed out so far, and the byte written
last at each position. -/
structure Session where
  arena : Arena
  regions : List Extent
  last : Nat -> UInt8

namespace Session

/-- Bytes written from a position on. -/
def put (start : Nat) (source : List UInt8) (last : Nat -> UInt8) (position : Nat) : UInt8 :=
  if start ≤ position ∧ position < start + source.length then source[position - start]?.getD 0
  else last position

/-- Enter the region of a request that was served. -/
def enter (session : Session) (request : Request) (offset : Offset) (after : Arena) : Session :=
  let written := put offset.toNat request.source.data.toList
  match request.room? with
  | some (size, _) => ⟨after, ⟨offset.toNat, size⟩ :: session.regions,
      written (put offset.toNat (List.replicate size 0) session.last)⟩
  | none => ⟨after, session.regions, written session.last⟩

/-- The session after a request. -/
def next (session : Session) (request : Request) : Session :=
  match request.serve session.arena with
  | .ok offset after => session.enter request offset after
  | .error _ after => { session with arena := after }

/-- An arena that was just made: an owned one of any capacity, which may grow
or not, or any buffer of a caller. -/
inductive IsFresh : Session -> Prop where
  | owned {config : ArenaConfig} {arena : Arena} : Arena.owned config = .ok arena ->
      IsFresh ⟨arena, [], fun _ => 0⟩
  | borrowed (buffer : ByteArray) : IsFresh ⟨Arena.borrowed buffer, [], fun _ => 0⟩

/-- The session after some requests. -/
def run (session : Session) (requests : List Request) : Session := requests.foldl next session

/-- What holds throughout a session. -/
structure Sound (session : Session) : Prop where
  writable : session.arena.Writable
  readable : forall region, region ∈ session.regions -> exists offset : Offset,
    offset.toNat = region.start ∧ session.arena.isReadable offset region.length = true
  last : forall region, region ∈ session.regions -> forall position, region.start ≤ position ->
    position < region.start + region.length ->
    session.arena.byteAt position = session.last position
  apart : session.regions.Pairwise Extent.Apart

theorem IsFresh.sound {session : Session} (fresh : session.IsFresh) : session.Sound := by
  cases fresh with
  | owned made => exact ⟨owned_writable made, nofun, nofun, .nil⟩
  | borrowed buffer => exact ⟨borrowed_writable buffer, nofun, nofun, .nil⟩

theorem Sound.below {session : Session} (sound : session.Sound) {region : Extent}
    (member : region ∈ session.regions) : region.start + region.length ≤ session.arena.used := by
  obtain ⟨offset, same, readable⟩ := sound.readable region member
  have used := (isReadable_iff.mp readable).2.1
  omega

/-- A region is entered that was just handed out. -/
theorem Sound.allocated {session : Session} (sound : session.Sound) {size alignment : Nat}
    {offset : Offset} {after : Arena}
    (done : Arena.alloc size alignment session.arena = .ok offset after) :
    Sound ⟨after, ⟨offset.toNat, size⟩ :: session.regions,
      put offset.toNat (List.replicate size 0) session.last⟩ := by
  have handedOut := handedOut_of_ok sound.writable done
  have allocated := handedOut.allocated
  refine ⟨allocated.grown.writable sound.writable, ?_, ?_, ?_⟩
  · refine List.forall_mem_cons.mpr ⟨⟨offset, rfl, handedOut.readable⟩, fun region member => ?_⟩
    obtain ⟨other, same, readable⟩ := sound.readable region member
    exact ⟨other, same, handedOut.kept _ _ readable⟩
  · refine List.forall_mem_cons.mpr ⟨fun position above below => ?_,
      fun region member position above below => ?_⟩
    · simp only at above below
      change after.byteAt position = put offset.toNat (List.replicate size 0) session.last position
      rw [put, List.length_replicate, if_pos ⟨above, below⟩, getD_replicate_zero]
      exact allocated.zero position above below
    · have bound := sound.below member
      have start := allocated.start
      change after.byteAt position = put offset.toNat (List.replicate size 0) session.last position
      rw [put, if_neg (by omega), allocated.kept position (Or.inl (by omega))]
      exact sound.last region member position above below
  · refine List.pairwise_cons.mpr ⟨fun region member => Or.inr ?_, sound.apart⟩
    exact Nat.le_trans (sound.below member) allocated.start

/-- Bytes are written to a region. -/
theorem Sound.written {session : Session} (sound : session.Sound) {start : Nat}
    {source : List UInt8} {after : Arena} (written : Written session.arena start source after) :
    Sound ⟨after, session.regions, put start source session.last⟩ := by
  refine ⟨written.writable sound.writable, fun region member => ?_,
    fun region member position above below => ?_, sound.apart⟩
  · obtain ⟨other, same, readable⟩ := sound.readable region member
    exact ⟨other, same, (written.isReadable _).trans readable⟩
  · change after.byteAt position = put start source session.last position
    rw [written.byteAt, put]
    split
    · rfl
    · exact sound.last region member position above below

theorem Sound.next {session : Session} (sound : session.Sound) (request : Request) :
    (session.next request).Sound := by
  have run := run_serve sound.writable request
  unfold Session.next
  unfold Run at run
  cases ends : request.serve session.arena with
  | error cause after =>
      rw [ends] at run
      simp only at run
      subst run
      exact sound
  | ok offset after =>
      rw [ends] at run
      obtain ⟨middle, step, written⟩ := run
      simp only [enter]
      cases room : request.room? with
      | none =>
          simp only [room] at step
          subst step
          exact sound.written written
      | some asked =>
          obtain ⟨size, alignment⟩ := asked
          simp only [room] at step
          exact (sound.allocated step).written written

theorem Sound.run {session : Session} (sound : session.Sound) (requests : List Request) :
    (session.run requests).Sound := by
  induction requests generalizing session with
  | nil => exact sound
  | cons request rest ih => exact ih (sound.next request)

/-- A request for a region was served: the region is aligned, where an
alignment of zero counts as one, lies in the used part and in one buffer, and
was all zeros before the bytes of the request were written to it. -/
structure Hands (before : Arena) (size alignment : Nat) (offset : Offset) (after : Arena) :
    Prop where
  present : offset.isNull = false
  aligned : max alignment 1 ∣ offset.toNat
  used : offset.toNat + size ≤ after.used
  within : after.Within offset.toNat size
  zero : exists middle, alloc size alignment before = .ok offset middle ∧
    middle.get? offset size = some (zeros size)

end Session

end Arena
end PackedJson
