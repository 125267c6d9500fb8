import PackedJson.Proofs.Arena.Allocation

namespace PackedJson
namespace Arena

/-!
Arenas that change only where they may.

A computation that owns some regions of an arena may hand itself further
regions and write into any of them.  `Evolves` follows the arena through
allocations and writes of this kind.  Bytes that were in use before and that
are not owned are then what they were.
-/

/-- A region of an arena. -/
structure Extent where
  start : Nat
  length : Nat

namespace Extent

/-- A region lies inside another one. -/
def Inside (inner outer : Extent) : Prop :=
  outer.start ≤ inner.start ∧ inner.start + inner.length ≤ outer.start + outer.length

/-- A position does not belong to a region. -/
def Misses (extent : Extent) (position : Nat) : Prop :=
  position < extent.start ∨ extent.start + extent.length ≤ position

end Extent

/-- An arena changes by allocations, which hand out the regions listed in
reverse order, and by writes inside these or inside owned regions. -/
inductive Evolves (owned : List Extent) (before : Arena) : List Extent -> Arena -> Prop where
  | start : Evolves owned before [] before
  | alloc {fresh : List Extent} {arena after : Arena} {size alignment : Nat} {offset : Offset} :
      Evolves owned before fresh arena -> Arena.alloc size alignment arena = .ok offset after ->
      Evolves owned before (⟨offset.toNat, size⟩ :: fresh) after
  | write {fresh : List Extent} {arena after : Arena} {offset : Offset} {source : ByteArray}
      {region : Extent} :
      Evolves owned before fresh arena -> region ∈ fresh ++ owned ->
      Extent.Inside ⟨offset.toNat, source.size⟩ region ->
      Arena.write offset source arena = .ok () after -> Evolves owned before fresh after

theorem allocated_of_ok {arena after : Arena} {size alignment : Nat} {offset : Offset}
    (writable : arena.Writable) (done : alloc size alignment arena = .ok offset after) :
    Allocated arena size offset after := by
  cases supported : isAlignment (max alignment 1) with
  | true => exact (run_alloc size alignment writable supported).of_ok done
  | false =>
      unfold alloc placement at done
      simp only [supported, Bool.false_eq_true, not_false_eq_true, if_true] at done
      cases done

/-- A write that succeeds leaves the bytes outside its region. -/
theorem written_of_ok {arena after : Arena} {offset : Offset} {source : ByteArray}
    (writable : arena.Writable) (done : write offset source arena = .ok () after) :
    Written arena offset.toNat source.data.toList after := by
  unfold write at done
  cases allowed : arena.checkWritable offset source.size with
  | error cause =>
      rw [allowed] at done
      cases done
  | ok _ =>
      rw [allowed] at done
      cases done
      have fits : offset.toNat + source.size ≤ arena.bytes.size := by
        have readable : arena.isReadable offset source.size = true := by
          unfold checkWritable at allowed
          split at allowed
          · cases allowed
          · split at allowed
            next readable => exact readable
            next unreadable => cases allowed
        have parts := Bool.and_eq_true_iff.mp readable
        have inUse := of_decide_eq_true (Bool.and_eq_true_iff.mp parts.1).2
        obtain ⟨_, shape⟩ := writable
        cases kind : arena.storage with
        | absent => simp only [kind] at shape
        | readOnly => simp only [kind] at shape
        | owned capacity buffers growable =>
            simp only [kind] at shape
            omega
        | borrowed => simpa only [kind, decide_eq_true_eq] using parts.2
      refine ⟨rfl, rfl, size_overwrite fits, ?_⟩
      intro position
      have sourceSize : source.data.toList.length = source.size := rfl
      simp only [byteAt, getD_overwrite fits, sourceSize]

namespace Evolves

variable {owned fresh : List Extent} {before after : Arena}

theorem grown (evolves : Evolves owned before fresh after) (writable : before.Writable) :
    Grown before after := by
  induction evolves with
  | start => exact Grown.refl before
  | alloc _ done ih => exact ih.trans (allocated_of_ok (ih.writable writable) done).grown
  | write _ _ _ done ih => exact ih.trans (written_of_ok (ih.writable writable) done).grown

/-- The regions handed out lie behind the part that was in use. -/
theorem fresh_above (evolves : Evolves owned before fresh after) (writable : before.Writable) :
    forall region, region ∈ fresh -> before.used ≤ region.start ∧
      region.start + region.length ≤ after.used := by
  induction evolves with
  | start =>
      intro region member
      cases member
  | alloc earlier done ih =>
      have grown := earlier.grown writable
      have allocated := allocated_of_ok (grown.writable writable) done
      intro region member
      cases List.mem_cons.mp member with
      | inl same =>
          subst same
          exact ⟨Nat.le_trans grown.used allocated.start, Nat.le_of_eq allocated.stop⟩
      | inr old =>
          have bounds := ih region old
          exact ⟨bounds.1, Nat.le_trans bounds.2 allocated.grown.used⟩
  | write earlier _ _ done ih =>
      have written := written_of_ok ((earlier.grown writable).writable writable) done
      rw [written.used]
      exact ih

/-- Bytes that were in use and are not owned stay. -/
theorem byteAt_of_misses (evolves : Evolves owned before fresh after)
    (writable : before.Writable) {position : Nat} (inUse : position < before.used)
    (misses : forall region, region ∈ owned -> region.Misses position) :
    after.byteAt position = before.byteAt position := by
  induction evolves with
  | start => rfl
  | alloc earlier done ih =>
      have grown := earlier.grown writable
      have allocated := allocated_of_ok (grown.writable writable) done
      have used := grown.used
      have start := allocated.start
      exact (allocated.kept position (by omega)).trans ih
  | @write fresh arena after offset source region earlier member inside done ih =>
      have written := written_of_ok ((earlier.grown writable).writable writable) done
      have outside : region.Misses position := by
        cases List.mem_append.mp member with
        | inl new =>
            have bounds := earlier.fresh_above writable region new
            exact Or.inl (by omega)
        | inr old => exact misses region old
      obtain ⟨low, high⟩ := inside
      have sourceSize : source.data.toList.length = source.size := rfl
      refine (written.byteAt_of_apart ?_).trans ih
      cases outside with
      | inl below =>
          simp only at low
          exact Or.inl (by omega)
      | inr above =>
          simp only at high
          exact Or.inr (by omega)

/-- Bytes outside of the regions that were handed out stay, when nothing is
owned. -/
theorem byteAt_of_misses_fresh (evolves : Evolves [] before fresh after)
    (writable : before.Writable) {position : Nat}
    (misses : forall region, region ∈ fresh -> region.Misses position) :
    after.byteAt position = before.byteAt position := by
  induction evolves with
  | start => rfl
  | alloc earlier done ih =>
      obtain ⟨outside, others⟩ := List.forall_mem_cons.mp misses
      have allocated := allocated_of_ok ((earlier.grown writable).writable writable) done
      exact (allocated.kept position outside).trans (ih others)
  | @write fresh arena after offset source region earlier member inside done ih =>
      have written := written_of_ok ((earlier.grown writable).writable writable) done
      rw [List.append_nil] at member
      have sourceSize : source.data.toList.length = source.size := rfl
      obtain ⟨low, high⟩ := inside
      refine (written.byteAt_of_apart ?_).trans (ih misses)
      cases misses region member with
      | inl below =>
          simp only at low
          exact Or.inl (by omega)
      | inr above =>
          simp only at high
          exact Or.inr (by omega)

/-- A computation is continued by one that owns parts of what the first one
owned or handed itself. -/
theorem trans {inner innerFresh : List Extent} {final : Arena}
    (evolves : Evolves owned before fresh after) (next : Evolves inner after innerFresh final)
    (covered : forall region, region ∈ inner ->
      exists outer, outer ∈ fresh ++ owned ∧ region.Inside outer) :
    Evolves owned before (innerFresh ++ fresh) final := by
  induction next with
  | start => exact evolves
  | alloc _ done ih => exact ih.alloc done
  | @write innerFresh arena last offset source region _ member inside done ih =>
      cases List.mem_append.mp member with
      | inl new =>
          exact ih.write (List.mem_append_left _ (List.mem_append_left _ new)) inside done
      | inr old =>
          obtain ⟨outer, outerMember, low, high⟩ := covered region old
          have rearranged : outer ∈ innerFresh ++ fresh ++ owned := by
            rw [List.append_assoc]
            exact List.mem_append_right _ outerMember
          exact ih.write rearranged
            ⟨Nat.le_trans low inside.1, Nat.le_trans inside.2 high⟩ done

end Evolves

end Arena
end PackedJson
