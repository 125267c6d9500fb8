import PackedJson.Proofs.Arena.Lasting

namespace PackedJson
namespace Arena

/-!
Two arenas that go through the same changes.

Each of them has a start of its own, which may hold anything.  A request is put
at the same offset in both, and a write goes into a region that was handed out
before.  Whatever their starts held, the regions that were handed out have the
same bytes then.
-/

/-- Two arenas change by the same allocations, which hand out the regions
listed in reverse order, and by the same writes inside these. -/
inductive Twins (first second : Arena) : List Extent -> Arena -> Arena -> Prop where
  | start : Twins first second [] first second
  | alloc {regions : List Extent} {left right leftAfter rightAfter : Arena}
      {size alignment : Nat} {offset : Offset} :
      Twins first second regions left right ->
      Arena.alloc size alignment left = .ok offset leftAfter ->
      Arena.alloc size alignment right = .ok offset rightAfter ->
      Twins first second (⟨offset.toNat, size⟩ :: regions) leftAfter rightAfter
  | write {regions : List Extent} {left right leftAfter rightAfter : Arena} {offset : Offset}
      {source : ByteArray} {region : Extent} :
      Twins first second regions left right -> region ∈ regions ->
      Extent.Inside ⟨offset.toNat, source.size⟩ region ->
      Arena.write offset source left = .ok () leftAfter ->
      Arena.write offset source right = .ok () rightAfter ->
      Twins first second regions leftAfter rightAfter

/-- A region that was handed out lies within the arena. -/
theorem Evolves.within {before after : Arena} {fresh : List Extent}
    (evolves : Evolves [] before fresh after) (writable : before.Writable) {region : Extent}
    (member : region ∈ fresh) : after.Within region.start region.length := by
  induction evolves with
  | start => cases member
  | alloc earlier done ih =>
      have allocated := allocated_of_ok ((earlier.grown writable).writable writable) done
      cases List.mem_cons.mp member with
      | inl isNew =>
          subst isNew
          exact allocated.within
      | inr old => exact allocated.grown.within _ _ (ih old)
  | write earlier _ _ done ih =>
      have written := written_of_ok ((earlier.grown writable).writable writable) done
      exact written.grown.within _ _ (ih member)

namespace Twins

variable {first second left right : Arena} {regions : List Extent}

/-- The first arena changes on its own. -/
theorem evolvesLeft (twins : Twins first second regions left right) : Evolves [] first regions left := by
  induction twins with
  | start => exact .start
  | alloc _ done _ ih => exact ih.alloc done
  | write _ member inside done _ ih => exact ih.write (List.mem_append_left _ member) inside done

/-- The second arena changes on its own. -/
theorem evolvesRight (twins : Twins first second regions left right) :
    Evolves [] second regions right := by
  induction twins with
  | start => exact .start
  | alloc _ _ done ih => exact ih.alloc done
  | write _ member inside _ done ih => exact ih.write (List.mem_append_left _ member) inside done

section Writable

theorem leftWritable (twins : Twins first second regions left right)
    (firstWritable : first.Writable) : left.Writable :=
  (twins.evolvesLeft.grown firstWritable).writable firstWritable

theorem rightWritable (twins : Twins first second regions left right)
    (secondWritable : second.Writable) : right.Writable :=
  (twins.evolvesRight.grown secondWritable).writable secondWritable

variable (firstWritable : first.Writable) (secondWritable : second.Writable)

include firstWritable secondWritable

/-- Both arenas end in one place if they started in one. -/
theorem used (twins : Twins first second regions left right) (start : second.used = first.used) :
    right.used = left.used := by
  induction twins with
  | start => exact start
  | alloc earlier done doneToo ih =>
      have allocated := allocated_of_ok (earlier.leftWritable firstWritable) done
      have allocatedToo := allocated_of_ok (earlier.rightWritable secondWritable) doneToo
      exact allocatedToo.stop.symm.trans allocated.stop
  | write earlier _ _ done doneToo ih =>
      have written := written_of_ok (earlier.leftWritable firstWritable) done
      have writtenToo := written_of_ok (earlier.rightWritable secondWritable) doneToo
      rw [written.used, writtenToo.used, ih]

/-- A byte is the same in both arenas if it was so in the beginning, or if it
belongs to a region that was handed out. -/
theorem byteAt (twins : Twins first second regions left right) {position : Nat}
    (known : second.byteAt position = first.byteAt position ∨
      exists region, region ∈ regions ∧ region.Has position) :
    right.byteAt position = left.byteAt position := by
  induction twins with
  | start =>
      refine known.elim id fun inRegion => ?_
      obtain ⟨_, never, _⟩ := inRegion
      cases never
  | @alloc regions left right leftAfter rightAfter size alignment offset earlier done doneToo ih =>
      have allocated := allocated_of_ok (earlier.leftWritable firstWritable) done
      have allocatedToo := allocated_of_ok (earlier.rightWritable secondWritable) doneToo
      by_cases isNew : Extent.Has ⟨offset.toNat, size⟩ position
      · obtain ⟨low, high⟩ := isNew
        rw [allocated.zero position low high, allocatedToo.zero position low high]
      · have outside : position < offset.toNat ∨ offset.toNat + size ≤ position := by
          unfold Extent.Has at isNew
          simp only at isNew
          omega
        rw [allocated.kept position outside, allocatedToo.kept position outside]
        refine ih (known.imp_right fun inRegion => ?_)
        obtain ⟨region, member, has⟩ := inRegion
        cases List.mem_cons.mp member with
        | inl same => exact absurd (same ▸ has) isNew
        | inr old => exact ⟨region, old, has⟩
  | write earlier _ _ done doneToo ih =>
      have written := written_of_ok (earlier.leftWritable firstWritable) done
      have writtenToo := written_of_ok (earlier.rightWritable secondWritable) doneToo
      rw [written.byteAt, writtenToo.byteAt, ih known]

end Writable

end Twins

end Arena
end PackedJson
