import PackedJson.Proofs.Arena.Twins

namespace PackedJson
namespace Arena

/-!
Destinations of different kinds and sizes.

A buffer of a caller stays a buffer of its size, and an arena with one buffer
that may not grow stays one.  Which requests such a destination grants depends
on its size and on the end of the part in use, but not on its bytes.

A larger buffer puts every request where a smaller one puts it, and refuses no
more; only what was refused for lack of room may be granted.  An arena with one
buffer differs from a buffer of its size in one point: it refuses to hand out a
region of no bytes at its very end.
-/

/-- The arena works on a buffer of some size. -/
structure IsBuffer (length : Nat) (arena : Arena) : Prop where
  storage : arena.storage = .borrowed
  size : arena.bytes.size = length

/-- The arena has one buffer of some size and may not grow. -/
def IsFixed (capacity : Nat) (arena : Arena) : Prop :=
  arena.storage = .owned capacity 1 false

theorem isBuffer_borrowed (buffer : ByteArray) : IsBuffer buffer.size (borrowed buffer) :=
  ⟨rfl, rfl⟩

/-- An arena with one buffer of whole units. -/
def fixed (capacity : Nat) : Arena := ⟨.owned capacity 1 false, zeros 1, 1⟩

theorem owned_eq_fixed {capacity : Nat} (units : 16 ∣ capacity) (positive : 0 < capacity)
    (small : capacity ≤ positionLimit) : owned ⟨capacity, false⟩ = .ok (fixed capacity) := by
  have limit : positionLimit = 2 ^ 32 - 1 := rfl
  have unit : maxAlignment = 2 ^ 4 := rfl
  have least : max capacity maxAlignment = capacity := by omega
  have same : alignUp capacity maxAlignment = capacity := by
    rw [unit, alignUp_two_pow]
    omega
  unfold owned alignUp?
  simp only [least, same]
  rw [if_pos (by omega)]
  simp only
  rw [if_pos small]
  rfl

/-- What a request ends with, once it is known where it goes. -/
def settle (arena : Arena) (decided : Except ArenaError Placement) :
    EStateM.Result ArenaError Arena Offset :=
  match decided with
  | .ok place => .ok (Offset.ofNat place.start) (arena.occupy place)
  | .error cause => .error cause arena

section Requests

variable {arena other after : Arena} {size alignment length longer capacity : Nat} {offset : Offset}
  {cause : ArenaError}

theorem IsBuffer.alloc_eq (buffer : IsBuffer length arena)
    (supported : isAlignment (max alignment 1) = true) :
    alloc size alignment arena =
      arena.settle (borrowedPlacement length arena.used size (max alignment 1)) := by
  unfold alloc placement
  simp only [supported, not_true_eq_false, if_false, buffer.storage, buffer.size]
  cases borrowedPlacement length arena.used size (max alignment 1) <;> rfl

theorem IsFixed.alloc_eq (fixed : IsFixed capacity arena)
    (supported : isAlignment (max alignment 1) = true) :
    alloc size alignment arena =
      arena.settle (ownedPlacement capacity 1 arena.used false size (max alignment 1)) := by
  unfold IsFixed at fixed
  unfold alloc placement
  simp only [supported, not_true_eq_false, if_false, fixed]
  cases ownedPlacement capacity 1 arena.used false size (max alignment 1) <;> rfl

theorem isAlignment_of_ok (done : alloc size alignment arena = .ok offset after) :
    isAlignment (max alignment 1) = true := by
  cases supported : isAlignment (max alignment 1) with
  | true => rfl
  | false =>
      unfold alloc placement at done
      simp only [supported, Bool.false_eq_true, not_false_eq_true, if_true] at done
      cases done

theorem IsBuffer.alloc (buffer : IsBuffer length arena)
    (done : alloc size alignment arena = .ok offset after) : IsBuffer length after := by
  have supported := isAlignment_of_ok done
  obtain ⟨exponent, _, power⟩ := exists_of_isAlignment supported
  rw [buffer.alloc_eq supported] at done
  cases placed : borrowedPlacement length arena.used size (max alignment 1) with
  | error cause =>
      rw [placed] at done
      cases done
  | ok place =>
      rw [placed] at done
      cases done
      rw [power] at placed
      obtain ⟨_, stop, _, fits⟩ := borrowedPlacement_ok placed
      obtain ⟨storage, bytes, used⟩ := arena
      obtain ⟨rfl, rfl⟩ := buffer
      refine ⟨rfl, size_overwrite ?_⟩
      rw [size_zeros]
      simp only at fits
      omega

theorem IsFixed.alloc (fixed : IsFixed capacity arena)
    (done : alloc size alignment arena = .ok offset after) : IsFixed capacity after := by
  rw [fixed.alloc_eq (isAlignment_of_ok done)] at done
  cases placed : ownedPlacement capacity 1 arena.used false size (max alignment 1) with
  | error cause =>
      rw [placed] at done
      cases done
  | ok place =>
      rw [placed] at done
      cases done
      have same : place.buffers = 1 := by
        unfold ownedPlacement at placed
        simp only [Bool.false_eq_true, not_false_eq_true, if_true] at placed
        split at placed
        · cases placed
        · split at placed
          · cases placed
            rfl
          · cases placed
      obtain ⟨storage, bytes, used⟩ := arena
      cases fixed
      unfold IsFixed occupy
      rw [same]

/-- A destination stays what it is. -/
theorem Evolves.isBuffer {owned fresh : List Extent} {before : Arena}
    (evolves : Evolves owned before fresh after) (writable : before.Writable)
    (buffer : IsBuffer length before) : IsBuffer length after := by
  induction evolves with
  | start => exact buffer
  | alloc _ done ih => exact ih.alloc done
  | write earlier _ _ done ih =>
      have written := written_of_ok ((earlier.grown writable).writable writable) done
      exact ⟨written.storage.trans ih.storage, written.size.trans ih.size⟩

theorem Evolves.isFixed {owned fresh : List Extent} {before : Arena}
    (evolves : Evolves owned before fresh after) (writable : before.Writable)
    (fixed : IsFixed capacity before) : IsFixed capacity after := by
  induction evolves with
  | start => exact fixed
  | alloc _ done ih => exact ih.alloc done
  | write earlier _ _ done ih =>
      have written := written_of_ok ((earlier.grown writable).writable writable) done
      exact written.storage.trans ih

/-! ### Buffers of two sizes -/

theorem borrowedPlacement_more {used : Nat} (more : length ≤ longer) :
    borrowedPlacement longer used size alignment = borrowedPlacement length used size alignment ∨
      exists available, borrowedPlacement length used size alignment =
        .error (.exhausted size available) := by
  unfold borrowedPlacement
  simp only
  split
  · exact .inl rfl
  · by_cases short : length < alignUp used alignment + size
    · rw [if_pos short]
      exact .inr ⟨_, rfl⟩
    · rw [if_neg short, if_neg (by omega)]
      exact .inl rfl

/-- A buffer refuses a request that is larger than the space of offsets, or
one for which it is too small. -/
theorem borrowedPlacement_refused {used : Nat}
    (refused : borrowedPlacement length used size alignment = .error cause) :
    (exists requested, cause = .tooLarge requested) ∨
      length ≤ positionLimit ∧ exists available, cause = .exhausted size available := by
  unfold borrowedPlacement at refused
  simp only at refused
  split at refused
  · cases refused
    exact .inl ⟨_, rfl⟩
  · split at refused
    · cases refused
      exact .inr ⟨by omega, _, rfl⟩
    · cases refused

/-- What a buffer grants, a larger one grants as well. -/
theorem IsBuffer.granted (buffer : IsBuffer length arena) (larger : IsBuffer longer other)
    (used : other.used = arena.used) (more : length ≤ longer)
    (done : Arena.alloc size alignment arena = .ok offset after) :
    exists afterToo, Arena.alloc size alignment other = .ok offset afterToo := by
  have supported := isAlignment_of_ok done
  rw [buffer.alloc_eq supported] at done
  rw [larger.alloc_eq supported, used]
  cases @borrowedPlacement_more size (max alignment 1) length longer arena.used more with
  | inl same =>
      rw [same]
      cases placed : borrowedPlacement length arena.used size (max alignment 1) with
      | error cause =>
          rw [placed] at done
          cases done
      | ok place =>
          rw [placed] at done
          cases done
          exact ⟨_, rfl⟩
  | inr refused =>
      obtain ⟨_, refused⟩ := refused
      rw [refused] at done
      cases done

/-- What a buffer refuses for another reason than lack of room, a larger one
refuses for the same reason. -/
theorem IsBuffer.refused (buffer : IsBuffer length arena) (larger : IsBuffer longer other)
    (used : other.used = arena.used) (more : length ≤ longer)
    (supported : isAlignment (max alignment 1) = true)
    (failed : Arena.alloc size alignment arena = .error cause after) :
    (exists requested available, cause = .exhausted requested available) ∨
      exists afterToo, Arena.alloc size alignment other = .error cause afterToo := by
  rw [buffer.alloc_eq supported] at failed
  rw [larger.alloc_eq supported, used]
  cases @borrowedPlacement_more size (max alignment 1) length longer arena.used more with
  | inl same =>
      rw [same]
      cases placed : borrowedPlacement length arena.used size (max alignment 1) with
      | error refusal =>
          rw [placed] at failed
          cases failed
          exact .inr ⟨_, rfl⟩
      | ok place =>
          rw [placed] at failed
          cases failed
  | inr refused =>
      obtain ⟨_, refused⟩ := refused
      rw [refused] at failed
      cases failed
      exact .inl ⟨_, _, rfl⟩

/-- A buffer that spans the space of offsets never lacks room. -/
theorem IsBuffer.tooLarge (buffer : IsBuffer length arena) (spans : positionLimit < length)
    (supported : isAlignment (max alignment 1) = true)
    (failed : Arena.alloc size alignment arena = .error cause after) :
    exists requested, cause = .tooLarge requested := by
  rw [buffer.alloc_eq supported] at failed
  cases placed : borrowedPlacement length arena.used size (max alignment 1) with
  | error refusal =>
      rw [placed] at failed
      cases failed
      exact (borrowedPlacement_refused placed).resolve_right fun short => by omega
  | ok place =>
      rw [placed] at failed
      cases failed

/-! ### A buffer of one's own and a buffer of a caller -/

theorem ownedPlacement_fixed {used : Nat} (small : capacity ≤ positionLimit) {place : Placement}
    (placed : ownedPlacement capacity 1 used false size alignment = .ok place) :
    borrowedPlacement capacity used size alignment = .ok place := by
  unfold ownedPlacement at placed
  simp only [Bool.false_eq_true, not_false_eq_true, if_true] at placed
  split at placed
  · cases placed
  · split at placed
    next fits =>
      obtain ⟨first, below⟩ := fits
      have zero : alignUp used alignment / capacity = 0 := Nat.lt_one_iff.mp first
      rw [zero, Nat.zero_add, Nat.one_mul] at below
      cases placed
      unfold borrowedPlacement
      rw [if_neg (by omega), if_neg (by omega)]
    next => cases placed

/-- An arena with one buffer refuses what a buffer of its size refuses, and a
region of no bytes at the end. -/
theorem ownedPlacement_refused {used : Nat}
    (refused : ownedPlacement capacity 1 used false size alignment = .error cause) :
    (exists available, cause = .exhausted 0 available) ∨ cause.IsShortage ∧
      exists other, borrowedPlacement capacity used size alignment = .error other := by
  have shortage := ownedPlacement_error refused
  unfold ownedPlacement at refused
  simp only [Bool.false_eq_true, not_false_eq_true, if_true] at refused
  split at refused
  next large =>
    refine .inr ⟨shortage, ?_⟩
    have beyond : capacity < alignUp used alignment + size := by omega
    unfold borrowedPlacement
    simp only
    rw [if_pos beyond]
    split <;> exact ⟨_, rfl⟩
  next small =>
    split at refused
    next => cases refused
    next full =>
      by_cases isEmpty : size = 0
      · cases refused
        exact .inl ⟨_, by rw [isEmpty]⟩
      · refine .inr ⟨shortage, ?_⟩
        have beyond : capacity < alignUp used alignment + size := by
          refine Nat.lt_of_not_le fun fits => full ?_
          have first : alignUp used alignment / capacity = 0 := Nat.div_eq_of_lt (by omega)
          exact ⟨by omega, by rw [first]; omega⟩
        unfold borrowedPlacement
        simp only
        rw [if_pos beyond]
        split <;> exact ⟨_, rfl⟩

theorem IsFixed.granted (fixed : IsFixed capacity arena) (buffer : IsBuffer capacity other)
    (used : other.used = arena.used) (small : capacity ≤ positionLimit)
    (done : Arena.alloc size alignment arena = .ok offset after) :
    exists afterToo, Arena.alloc size alignment other = .ok offset afterToo := by
  have supported := isAlignment_of_ok done
  rw [fixed.alloc_eq supported] at done
  rw [buffer.alloc_eq supported, used]
  cases placed : ownedPlacement capacity 1 arena.used false size (max alignment 1) with
  | error cause =>
      rw [placed] at done
      cases done
  | ok place =>
      rw [placed] at done
      cases done
      rw [ownedPlacement_fixed small placed]
      exact ⟨_, rfl⟩

theorem IsFixed.refused (fixed : IsFixed capacity arena) (buffer : IsBuffer capacity other)
    (used : other.used = arena.used) (supported : isAlignment (max alignment 1) = true)
    (failed : Arena.alloc size alignment arena = .error cause after) :
    (exists available, cause = .exhausted 0 available) ∨ cause.IsShortage ∧
      exists refusal afterToo, refusal.IsShortage ∧
        Arena.alloc size alignment other = .error refusal afterToo := by
  rw [fixed.alloc_eq supported] at failed
  rw [buffer.alloc_eq supported, used]
  cases placed : ownedPlacement capacity 1 arena.used false size (max alignment 1) with
  | error refusal =>
      rw [placed] at failed
      cases failed
      refine (ownedPlacement_refused placed).imp_right fun refused => ?_
      obtain ⟨shortage, otherRefusal, refused⟩ := refused
      rw [refused]
      exact ⟨shortage, otherRefusal, _, borrowedPlacement_error refused, rfl⟩
  | ok place =>
      rw [placed] at failed
      cases failed

end Requests

/-! ### Bytes of the part in use -/

/-- An arena with one buffer and a buffer of its size have the same contents if
they end in one place and have the same bytes. -/
theorem contents_eq {fixed buffer : Arena} {capacity : Nat} (isFixed : IsFixed capacity fixed)
    (isBuffer : IsBuffer capacity buffer) (writable : fixed.Writable)
    (used : buffer.used = fixed.used)
    (same : forall position, buffer.byteAt position = fixed.byteAt position) :
    buffer.contents = fixed.contents := by
  obtain ⟨_, shape⟩ := writable
  unfold IsFixed at isFixed
  simp only [isFixed] at shape
  obtain ⟨_, _, _, _, within, fixedSize⟩ := shape
  unfold contents
  simp only [isFixed, isBuffer.storage]
  have size : (buffer.bytes.extract 0 buffer.used).size = fixed.bytes.size := by
    rw [ByteArray.size_extract, isBuffer.size]
    omega
  refine ByteArray.ext_getElem size fun position inBuffer inFixed => ?_
  have here := same position
  unfold byteAt at here
  rw [ByteArray.getElem_extract]
  have inData : position < fixed.bytes.data.size := inFixed
  have inOther : position < buffer.bytes.data.size := by
    have dataSize : buffer.bytes.data.size = buffer.bytes.size := rfl
    have bufferSize := isBuffer.size
    omega
  rw [Array.getElem?_eq_getElem inData, Array.getElem?_eq_getElem inOther, Option.getD_some,
    Option.getD_some] at here
  simp only [Nat.zero_add]
  exact here

end Arena
end PackedJson
