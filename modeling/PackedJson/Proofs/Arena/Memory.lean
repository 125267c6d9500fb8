import PackedJson.Arena.Basic
import PackedJson.Proofs.Run

namespace PackedJson

namespace Offset

theorem toNat_inj {first second : Offset} : first.toNat = second.toNat ↔ first = second := by
  obtain ⟨first⟩ := first
  obtain ⟨second⟩ := second
  simp only [toNat, UInt32.toNat_inj, mk.injEq]

theorem ofNat_toNat (offset : Offset) : ofNat offset.toNat = offset := by
  obtain ⟨raw⟩ := offset
  simp only [ofNat, toNat, UInt32.ofNat_toNat]

theorem isNull_eq_false_iff {offset : Offset} : offset.isNull = false ↔ 0 < offset.toNat := by
  have zero : offset.raw = 0 ↔ offset.toNat = 0 := by
    rw [← UInt32.toNat_inj]
    rfl
  rw [← Bool.not_eq_true, Nat.pos_iff_ne_zero]
  simp only [isNull, beq_iff_eq, zero, ne_eq]

theorem isNull_eq_true_iff {offset : Offset} : offset.isNull = true ↔ offset = null := by
  have decided := @isNull_eq_false_iff offset
  have zero : null.toNat = 0 := rfl
  rw [← toNat_inj, zero]
  cases isNull : offset.isNull with
  | false =>
      have positive := decided.mp isNull
      refine ⟨fun impossible => Bool.noConfusion impossible, fun same => ?_⟩
      omega
  | true =>
      have notPositive : ¬ 0 < offset.toNat := fun positive => by
        rw [decided.mpr positive] at isNull
        cases isNull
      exact ⟨fun _ => by omega, fun _ => rfl⟩

end Offset

namespace Arena

/-!
Arenas as memory.

A writable arena is an owned or a borrowed one, fresh or in use.  Its bytes
are seen here as a function of their position, zero where there are none.
An allocation changes the bytes of the region it hands out and no others,
and writing into a region changes the bytes of that region only.  A region
that lies within one buffer stays so as the arena grows.
-/

/-- An arena that hands out regions, fresh or already in use. -/
def Writable (arena : Arena) : Prop :=
  0 < arena.used ∧
    match arena.storage with
    | .owned capacity buffers _ =>
        16 ∣ capacity ∧ 0 < capacity ∧ 0 < buffers ∧ buffers * capacity ≤ positionLimit ∧
          arena.used ≤ buffers * capacity ∧ arena.bytes.size = arena.used
    | .borrowed => arena.used ≤ positionLimit
    | _ => False

/-- The byte at a position, zero where the arena has none. -/
def byteAt (arena : Arena) (position : Nat) : UInt8 :=
  arena.bytes.data[position]?.getD 0

/-- The bytes from a position on. -/
def load (arena : Arena) (start length : Nat) : List UInt8 :=
  (List.range length).map fun index => arena.byteAt (start + index)

/-- A region in the used part that does not straddle two buffers. -/
def Within (arena : Arena) (start length : Nat) : Prop :=
  0 < start ∧ start + length ≤ arena.used ∧
    match arena.storage with
    | .absent => False
    | .owned capacity buffers _ =>
        exists buffer, buffer < buffers ∧ buffer * capacity ≤ start ∧
          start + length ≤ (buffer + 1) * capacity
    | .borrowed => start + length ≤ arena.bytes.size
    | .readOnly => start + length ≤ arena.bytes.size

/-- The room left in the only buffer of an arena that has one. -/
def spare (arena : Arena) : Nat :=
  match arena.storage with
  | .owned capacity 1 _ => capacity - arena.used
  | _ => 0

theorem spare_lt {arena : Arena} (writable : arena.Writable) : arena.spare < 2 ^ 32 := by
  have limit : positionLimit = 2 ^ 32 - 1 := rfl
  obtain ⟨_, shape⟩ := writable
  unfold spare
  split
  next capacity growable kind =>
    simp only [kind] at shape
    omega
  next other => decide

@[simp] theorem length_load (arena : Arena) (start length : Nat) :
    (arena.load start length).length = length := by
  simp [load]

theorem load_congr {first second : Arena} {start length : Nat}
    (same : forall position, start ≤ position -> position < start + length ->
      first.byteAt position = second.byteAt position) :
    first.load start length = second.load start length := by
  apply List.map_congr_left
  intro index member
  have bound := List.mem_range.mp member
  exact same (start + index) (by omega) (by omega)

/-- The bytes of a region are those of its two parts. -/
theorem load_add (arena : Arena) (start length more : Nat) :
    arena.load start (length + more) = arena.load start length ++ arena.load (start + length) more := by
  unfold load
  rw [List.range_add, List.map_append, List.map_map]
  refine congrArg _ (List.map_congr_left fun index _ => ?_)
  rw [Function.comp_apply, Nat.add_assoc]

/-- A part of the bytes from a position on. -/
theorem load_part {arena : Arena} {start length : Nat} {first part last : List UInt8}
    (loaded : arena.load start length = first ++ (part ++ last)) :
    arena.load (start + first.length) part.length = part := by
  have sizes := congrArg List.length loaded
  rw [length_load, List.length_append, List.length_append] at sizes
  rw [sizes, load_add, load_add] at loaded
  obtain ⟨_, behind⟩ := List.append_inj loaded (length_load _ _ _)
  exact (List.append_inj behind (length_load _ _ _)).1

/-! ### Fresh arenas -/

theorem owned_writable {config : ArenaConfig} {arena : Arena}
    (made : Arena.owned config = .ok arena) : arena.Writable := by
  unfold Arena.owned at made
  cases rounded : alignUp? (max config.capacity maxAlignment) maxAlignment with
  | none =>
      rw [rounded] at made
      cases made
  | some capacity =>
      simp only [rounded] at made
      split at made
      next fits =>
        cases made
        have shape : capacity = alignUp (max config.capacity maxAlignment) (2 ^ 4) := by
          unfold alignUp? at rounded
          split at rounded
          · exact (Option.some.inj rounded).symm
          · cases rounded
        have divides := dvd_alignUp (max config.capacity maxAlignment) 4
        have above := le_alignUp (max config.capacity maxAlignment) 4
        have unit : maxAlignment = 16 := rfl
        rw [← shape] at divides above
        have room : 1 ≤ 1 * capacity := by omega
        exact ⟨Nat.one_pos, divides, by omega, Nat.one_pos, by omega, room, rfl⟩
      next tooLarge => cases made

theorem borrowed_writable (buffer : ByteArray) : (Arena.borrowed buffer).Writable := by
  have room : 1 ≤ positionLimit := by decide
  exact ⟨Nat.one_pos, room⟩

/-! ### Reading -/

theorem within_sub {arena : Arena} {start length inner innerLength : Nat}
    (within : arena.Within start length) (above : start ≤ inner)
    (below : inner + innerLength ≤ start + length) : arena.Within inner innerLength := by
  obtain ⟨positive, used, storage⟩ := within
  refine ⟨by omega, by omega, ?_⟩
  cases kind : arena.storage with
  | absent => simp only [kind] at storage
  | owned capacity buffers growable =>
      simp only [kind] at storage ⊢
      obtain ⟨buffer, inRange, low, high⟩ := storage
      exact ⟨buffer, inRange, by omega, by omega⟩
  | borrowed =>
      simp only [kind] at storage ⊢
      omega
  | readOnly =>
      simp only [kind] at storage ⊢
      omega

/-- A part of a region that starts before the end of the region is readable,
even when it is empty. -/
theorem isReadable_of_within {arena : Arena} {start length innerLength : Nat} {offset : Offset}
    (within : arena.Within start length) (above : start ≤ offset.toNat)
    (below : offset.toNat + innerLength ≤ start + length)
    (before : offset.toNat < start + length) :
    arena.isReadable offset innerLength = true := by
  obtain ⟨positive, used, storage⟩ := within
  have present : offset.isNull = false := Offset.isNull_eq_false_iff.mpr (by omega)
  have inUse : offset.toNat + innerLength ≤ arena.used := by omega
  unfold isReadable
  simp only [present, Bool.not_false, inUse, decide_true, Bool.true_and]
  cases kind : arena.storage with
  | absent => simp only [kind] at storage
  | owned capacity buffers growable =>
      simp only [kind] at storage ⊢
      obtain ⟨buffer, inRange, low, high⟩ := storage
      have next : (buffer + 1) * capacity = buffer * capacity + capacity := by
        rw [Nat.add_mul, Nat.one_mul]
      have quotient : offset.toNat / capacity = buffer := by
        apply Nat.div_eq_of_lt_le
        · omega
        · omega
      have split := Nat.div_add_mod offset.toNat capacity
      rw [quotient, Nat.mul_comm] at split
      rw [quotient]
      exact decide_eq_true ⟨by omega, inRange⟩
  | borrowed =>
      simp only [kind] at storage ⊢
      exact decide_eq_true (by omega)
  | readOnly =>
      simp only [kind] at storage ⊢
      exact decide_eq_true (by omega)

theorem size_bytes_of_within {arena : Arena} {start length : Nat} (writable : arena.Writable)
    (within : arena.Within start length) : start + length ≤ arena.bytes.size := by
  obtain ⟨_, used, storage⟩ := within
  obtain ⟨_, shape⟩ := writable
  cases kind : arena.storage with
  | owned capacity buffers growable =>
      simp only [kind] at shape
      omega
  | borrowed => simpa only [kind] using storage
  | absent => simp only [kind] at shape
  | readOnly => simp only [kind] at shape

theorem toList_extract (arena : Arena) {start length : Nat}
    (fits : start + length ≤ arena.bytes.size) :
    (arena.bytes.extract start (start + length)).data.toList = arena.load start length := by
  apply List.ext_getElem
  · have size : arena.bytes.data.size = arena.bytes.size := rfl
    simp only [ByteArray.data_extract, Array.length_toList, Array.size_extract, length_load, size]
    omega
  · intro index inExtract inLoad
    have bound : index < length := by simpa only [length_load] using inLoad
    have inside : start + index < arena.bytes.data.size := by
      have size : arena.bytes.data.size = arena.bytes.size := rfl
      omega
    simp only [ByteArray.data_extract, Array.getElem_toList, Array.getElem_extract, load,
      List.getElem_map, List.getElem_range, byteAt, Array.getElem?_eq_getElem inside,
      Option.getD_some]

/-- A part of a region is read as the bytes at its positions. -/
theorem get?_of_within {arena : Arena} {start length : Nat} (offset : Offset) (innerLength : Nat)
    (writable : arena.Writable) (within : arena.Within start length)
    (above : start ≤ offset.toNat) (below : offset.toNat + innerLength ≤ start + length)
    (before : offset.toNat < start + length) :
    exists bytes, arena.get? offset innerLength = some bytes ∧
      bytes.data.toList = arena.load offset.toNat innerLength := by
  have fits := size_bytes_of_within writable (within_sub within above below)
  refine ⟨_, ?_, toList_extract arena fits⟩
  simp only [get?, isReadable_of_within within above below before, if_true]

end Arena
end PackedJson
