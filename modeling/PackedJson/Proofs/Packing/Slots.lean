import Mathlib.Data.List.Nodup
import Mathlib.Data.List.Perm.Subperm
import Mathlib.Data.List.TakeWhile
import PackedJson.Packing.Compound

namespace PackedJson

/-!
The slots that the keys of a map may take.

The hashes of the keys are sorted, so that the slots of a hash follow one
another.  They are as many as there are keys of that hash, and therefore a key
always finds one that no other key has taken.  Where a search among the hashes
ends does not matter, as long as it ends at a slot of the hash.
-/

namespace Bisect

/-- Halving does not leave the candidates. -/
theorem narrow_lt (holds : Nat -> Bool) {steps size base : Nat} (nonempty : 0 < size) :
    narrow holds steps size base < base + size := by
  induction steps generalizing size base with
  | zero =>
      unfold narrow
      omega
  | succ steps ih =>
      unfold narrow
      split
      · omega
      next large =>
        have half : size / 2 < size := Nat.div_lt_self nonempty (by decide)
        simp only
        split
        · exact Nat.lt_of_lt_of_le (ih (by omega)) (by omega)
        · exact Nat.lt_of_lt_of_le (ih (by omega)) (by omega)

/-- A test that holds on a leading part has a boundary. -/
theorem exists_boundary {holds : Nat -> Bool} {size : Nat}
    (leading : forall first second, first ≤ second -> second < size -> holds second = true ->
      holds first = true) :
    exists boundary, boundary ≤ size ∧
      forall position, position < size -> holds position = decide (position < boundary) := by
  induction size with
  | zero => exact ⟨0, Nat.le_refl 0, nofun⟩
  | succ size ih =>
      cases last : holds size with
      | true =>
          refine ⟨size + 1, Nat.le_refl _, fun position bound => ?_⟩
          rw [leading position size (by omega) (Nat.lt_succ_self size) last]
          exact (decide_eq_true bound).symm
      | false =>
          obtain ⟨boundary, small, test⟩ := ih fun first second before bound =>
            leading first second before (Nat.lt_succ_of_lt bound)
          refine ⟨boundary, Nat.le_succ_of_le small, fun position bound => ?_⟩
          by_cases isLast : position = size
          · rw [isLast, last]
            exact (decide_eq_false (by omega)).symm
          · exact test position (by omega)

section Sorted

variable {keyAt : Nat -> Nat} {size key : Nat}

/-- The search ends at the last position of a key that occurs. -/
theorem last?_eq (sorted : forall first second, first ≤ second -> second < size ->
      keyAt first ≤ keyAt second) {position : Nat} (bound : position < size)
    (found : keyAt position = key) :
    exists last, last? keyAt size key = some last ∧ position ≤ last ∧ last < size ∧
      keyAt last = key := by
  obtain ⟨boundary, small, test⟩ := @exists_boundary (fun position => keyAt position ≤ key) size
    fun first second before inside holds =>
      decide_eq_true (Nat.le_trans (sorted first second before inside) (of_decide_eq_true holds))
  have below (other : Nat) (inside : other < size) : keyAt other ≤ key ↔ other < boundary :=
    decide_eq_decide.mp (test other inside)
  have isBelow : position < boundary := (below position bound).mp (Nat.le_of_eq found)
  have base := @narrow_eq (fun position => keyAt position ≤ key) boundary size size 0
    (fun other inside => test other (by omega)) (Nat.le_refl size) (by omega)
  have isLast : keyAt (boundary - 1) = key := by
    have above := sorted position (boundary - 1) (by omega) (by omega)
    have atMost := (below (boundary - 1) (by omega)).mpr (by omega)
    omega
  refine ⟨boundary - 1, ?_, by omega, by omega, isLast⟩
  unfold last?
  simp only [base, Nat.zero_max, if_neg (by omega : ¬ size = 0)]
  exact if_pos isLast

end Sorted

end Bisect

namespace Packer

section Slots

variable {hashes : List UInt32} {hash : UInt32} {slot : Nat}

/-- The hash of a slot. -/
def hashAt (hashes : List UInt32) (slot : Nat) : Nat := (hashes.toArray.getD slot 0).toNat

theorem hashAt_eq (bound : slot < hashes.length) : hashAt hashes slot = hashes[slot].toNat := by
  simp [hashAt, bound]

/-! ### Searching for a hash -/

/-- A search for a hash among sorted ones. -/
abbrev Search := Array UInt32 -> UInt32 -> Option Nat

/-- The search by halving, which ends at the last one of equal hashes. -/
def lastSlot : Search := fun hashes hash =>
  Bisect.last? (fun slot => (hashes.getD slot 0).toNat) hashes.size hash.toNat

/-- A search among sorted hashes finds some slot of a hash, whichever one, if
there is any. -/
def Search.Finds (search : Search) : Prop :=
  forall {hashes : List UInt32} {hash : UInt32},
    (hashes.Pairwise fun first second => first.toNat ≤ second.toNat) ->
      match search hashes.toArray hash with
      | some start => start < hashes.length ∧ hashAt hashes start = hash.toNat
      | none => forall slot, slot < hashes.length -> hashAt hashes slot ≠ hash.toNat

/-- The slots of a hash, in the order in which they are tried: from the one that
a search finds to the last one, and then backwards from there. -/
def slotsFrom (search : Search) (hashes : Array UInt32) (hash : UInt32) : List Nat :=
  match search hashes hash with
  | none => []
  | some start =>
      let equal (slot : Nat) : Bool := (hashes.getD slot 0).toNat = hash.toNat
      (((List.range hashes.size).drop start).takeWhile equal) ++
        ((List.range start).reverse.takeWhile equal)

theorem mem_takeWhile_drop_range {holds : Nat -> Bool} {position start size : Nat}
    (behind : start ≤ position) (bound : position < size)
    (all : forall other, start ≤ other -> other ≤ position -> holds other = true) :
    position ∈ ((List.range size).drop start).takeWhile holds := by
  obtain ⟨steps, rfl⟩ := Nat.exists_eq_add_of_le behind
  induction steps generalizing start with
  | zero =>
      rw [Nat.add_zero] at bound
      rw [List.drop_eq_getElem_cons (by rwa [List.length_range]), List.getElem_range,
        List.takeWhile_cons_of_pos (all start (Nat.le_refl _) (Nat.le_refl _))]
      exact List.mem_cons_self
  | succ steps ih =>
      rw [List.drop_eq_getElem_cons (by rw [List.length_range]; omega), List.getElem_range,
        List.takeWhile_cons_of_pos (all start (Nat.le_refl _) behind)]
      have next : start + 1 + steps = start + (steps + 1) := by omega
      rw [← next] at bound all behind ⊢
      refine List.mem_cons_of_mem _ (ih (by omega) bound fun other above below => ?_)
      exact all other (by omega) below

theorem mem_takeWhile_reverse_range {holds : Nat -> Bool} {position size : Nat}
    (bound : position < size)
    (all : forall other, position ≤ other -> other < size -> holds other = true) :
    position ∈ (List.range size).reverse.takeWhile holds := by
  induction size with
  | zero => omega
  | succ size ih =>
      rw [List.range_succ, List.reverse_append, List.reverse_singleton, List.singleton_append,
        List.takeWhile_cons_of_pos (all size (by omega) (Nat.lt_succ_self size))]
      by_cases isLast : position = size
      · exact isLast ▸ List.mem_cons_self
      · exact List.mem_cons_of_mem _ (ih (by omega) fun other above below => all other above
          (Nat.lt_succ_of_lt below))

variable (sorted : hashes.Pairwise fun first second => first.toNat ≤ second.toNat)

include sorted

theorem hashAt_mono {first second : Nat} (before : first ≤ second) (bound : second < hashes.length) :
    hashAt hashes first ≤ hashAt hashes second := by
  rw [hashAt_eq (Nat.lt_of_le_of_lt before bound), hashAt_eq bound]
  rcases Nat.eq_or_lt_of_le before with same | earlier
  · subst same
    exact Nat.le_refl _
  · exact List.pairwise_iff_getElem.mp sorted first second _ bound earlier

/-- Between two slots of a hash there are only slots of that hash. -/
theorem hashAt_between {first second : Nat} (above : first ≤ slot) (below : slot ≤ second)
    (bound : second < hashes.length) (isFirst : hashAt hashes first = hash.toNat)
    (isSecond : hashAt hashes second = hash.toNat) : hashAt hashes slot = hash.toNat := by
  have low := hashAt_mono sorted above (Nat.lt_of_le_of_lt below bound)
  have high := hashAt_mono sorted below bound
  omega

omit sorted in
/-- The search by halving finds a slot. -/
theorem finds_lastSlot : lastSlot.Finds := by
  intro hashes hash sorted
  cases isLast : lastSlot hashes.toArray hash with
  | some start =>
      unfold lastSlot Bisect.last? at isLast
      rw [List.size_toArray] at isLast
      split at isLast
      · cases isLast
      next nonempty =>
        have base : Bisect.narrow (fun position => hashAt hashes position ≤ hash.toNat)
            hashes.length hashes.length 0 < 0 + hashes.length :=
          Bisect.narrow_lt _ (Nat.pos_of_ne_zero nonempty)
        rw [Nat.zero_add] at base
        simp only at isLast
        split at isLast
        next isHash =>
          cases isLast
          exact ⟨base, isHash⟩
        · cases isLast
  | none =>
      intro slot bound same
      obtain ⟨last, isSome, _⟩ := Bisect.last?_eq (fun _ _ => hashAt_mono sorted) bound same
      cases isLast.symm.trans isSome

variable {search : Search} (finds : search.Finds)

include finds

/-- The candidates for a key are slots of its hash. -/
theorem of_mem_slotsFrom (member : slot ∈ slotsFrom search hashes.toArray hash) :
    slot < hashes.length ∧ hashAt hashes slot = hash.toNat := by
  have found := @finds _ hash sorted
  unfold slotsFrom at member
  cases isStart : search hashes.toArray hash with
  | none =>
      rw [isStart] at member
      cases member
  | some start =>
      rw [isStart] at member found
      rw [List.size_toArray] at member
      cases List.mem_append.mp member with
      | inl onward =>
          have inRange := List.mem_of_mem_drop ((List.takeWhile_sublist _).mem onward)
          have equal := List.mem_takeWhile_imp onward
          exact ⟨List.mem_range.mp inRange, of_decide_eq_true equal⟩
      | inr backward =>
          have inRange := List.mem_reverse.mp ((List.takeWhile_sublist _).mem backward)
          have equal := List.mem_takeWhile_imp backward
          exact ⟨Nat.lt_trans (List.mem_range.mp inRange) found.1, of_decide_eq_true equal⟩

/-- All slots of the hash of a key are candidates for it. -/
theorem mem_slotsFrom (bound : slot < hashes.length) (same : hashAt hashes slot = hash.toNat) :
    slot ∈ slotsFrom search hashes.toArray hash := by
  have found := @finds _ hash sorted
  unfold slotsFrom
  cases isStart : search hashes.toArray hash with
  | none =>
      rw [isStart] at found
      exact absurd same (found slot bound)
  | some start =>
      rw [isStart] at found
      obtain ⟨inBounds, isHash⟩ := found
      rw [List.size_toArray]
      rcases Nat.lt_or_ge slot start with before | behind
      · refine List.mem_append_right _ (mem_takeWhile_reverse_range before fun other above below => ?_)
        exact decide_eq_true (hashAt_between sorted above (Nat.le_of_lt below) inBounds same isHash)
      · refine List.mem_append_left _ (mem_takeWhile_drop_range behind bound fun other above below => ?_)
        exact decide_eq_true (hashAt_between sorted above below bound isHash same)

/-- When fewer slots of a hash are taken than there are keys of that hash, a
candidate is free. -/
theorem exists_free_slot {taken : List Nat} {names : List UInt32} (perm : names.Perm hashes)
    (fewer : (taken.map (hashAt hashes)).count hash.toNat < (names.map UInt32.toNat).count hash.toNat) :
    exists slot, slot ∈ slotsFrom search hashes.toArray hash ∧ slot ∉ taken := by
  by_contra noneFree
  have allTaken (slot : Nat) (member : slot ∈ slotsFrom search hashes.toArray hash) :
      slot ∈ taken := by
    by_contra isFree
    exact noneFree ⟨slot, member, isFree⟩
  have slots : (List.range hashes.length).map (hashAt hashes) = hashes.map UInt32.toNat := by
    apply List.ext_getElem
    · simp only [List.length_map, List.length_range]
    · intro index inRange inHashes
      rw [List.length_map] at inHashes
      simp only [List.getElem_map, List.getElem_range, hashAt_eq inHashes]
  have sameCount : (names.map UInt32.toNat).count hash.toNat =
      ((List.range hashes.length).map (hashAt hashes)).count hash.toNat := by
    rw [slots]
    exact (perm.map _).count_eq _
  have subset : (List.range hashes.length).filter (fun slot => hashAt hashes slot == hash.toNat) ⊆
      taken.filter fun slot => hashAt hashes slot == hash.toNat := by
    intro slot member
    obtain ⟨inRange, isHash⟩ := List.mem_filter.mp member
    exact List.mem_filter.mpr ⟨allTaken slot (mem_slotsFrom sorted finds
      (List.mem_range.mp inRange) (beq_iff_eq.mp isHash)), isHash⟩
  have most := (List.Nodup.subperm (List.nodup_range.filter _) subset).length_le
  rw [sameCount] at fewer
  simp only [List.count_eq_countP, List.countP_map] at fewer
  rw [List.countP_eq_length_filter, List.countP_eq_length_filter] at fewer
  exact absurd most (Nat.not_le_of_lt fewer)

end Slots

/-! ### Writing maps with any search -/

/-- The slot for a key, with a search of one's own. -/
def mapSlotFrom (search : Search) (packer : Packer) (type : TypeDef) (storage : MapStorage)
    (key : String) : PackM Nat := do
  let slots := slotsFrom search storage.hashes (Checksum.nameHash key)
  match ← packer.freeSlot storage key.toUTF8 slots with
  | some slot => return slot
  | none => throw (.schema (packer.schema.malformed type .slotMissing))

/-- Write one member of a map, with a search of one's own. -/
def writeMemberFrom (search : Search) (packer : Packer) (write : Writer) (type : TypeDef)
    (valueId : TypeId) (storage : MapStorage) (path : Path) (first : Option Violation)
    (member : String × Json) : PackM (Option Violation) := do
  let (key, value) := member
  let slot ← mapSlotFrom search packer type storage key
  packer.writeText storage.stringType (← keyPlace storage slot) key
  let place ← element storage.values slot storage.valueStride
  gather (packer.nested write valueId place path (.key key) value) first

/-- Write an object as a map, with a search of one's own. -/
def mapFrom (search : Search) (packer : Packer) (write : Writer) (type : TypeDef) (place : Offset)
    (path : Path) (value : Json) : PackM Unit :=
  match value with
  | .object members => do
      let layout ← ask (packer.schema.mapLayout type)
      let valueId ← packer.argument type
      let storage ← packer.mapStorage place valueId layout (members.map Prod.fst)
      let first ← members.foldlM (writeMemberFrom search packer write type valueId storage path) none
      settle first
  | _ => mismatch (.value .object) path value

/-- Maps are written with the search by halving. -/
theorem map_eq_from : map = mapFrom lastSlot := rfl

end Packer
end PackedJson
