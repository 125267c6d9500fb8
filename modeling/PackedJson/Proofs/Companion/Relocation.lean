import PackedJson.Proofs.Companion.Layout
import PackedJson.Proofs.TextSchema.Lines

namespace PackedJson
namespace Companion

open TextSchema Heap Layout

/-!
Compiling in different arenas.

How large the buffers of an arena are, and whether it may get more of them,
decides where types and texts are stored.  Nothing that is told of a container
shows this.  Both containers have the types of one draft, which are listed by
the same references, and the draft with these references tells the listing and
the companion of each container.
-/

/-- A text schema has one listing, one hash and one companion, in whatever arena
it is compiled. -/
theorem alike_of_compile {document : Json} {rootName : String} {config otherConfig : ArenaConfig}
    {container other : Container} (accepted : compile document ⟨rootName, config⟩ = .ok container)
    (otherAccepted : compile document ⟨rootName, otherConfig⟩ = .ok other) :
    exists layout text, Listing.layout container = .ok layout ∧ Listing.layout other = .ok layout ∧
      container.schemaHash = other.schemaHash ∧
      source container = .ok text ∧ source other = .ok text := by
  obtain ⟨slice, ⟨root, draft, cost⟩, isSlice, drafts, bodies⟩ := bodies_of_compile accepted
  obtain ⟨_, _, sameSlice, sameDrafts, otherBodies⟩ := bodies_of_compile otherAccepted
  cases isSlice.symm.trans sameSlice
  cases drafts.symm.trans sameDrafts
  choose sizesFor exact using bodies.complete.exists_exact
  obtain ⟨refs, rostersOf⟩ := bodies.exists_rosters
  obtain ⟨heap, rosters⟩ := rostersOf bodies
  obtain ⟨otherHeap, otherRosters⟩ := rostersOf otherBodies
  have layout := rosters.layout_eq exact
  have otherLayout := otherRosters.layout_eq exact
  have sameHash : container.schemaHash = other.schemaHash := by
    obtain ⟨_, _, _, steps⟩ := exists_steps accepted
    obtain ⟨_, _, _, otherSteps⟩ := exists_steps otherAccepted
    have hash := steps.hash
    have otherHash := otherSteps.hash
    unfold Listing.schemaHash at hash otherHash
    rw [layout] at hash
    rw [otherLayout] at otherHash
    exact Except.ok.inj (hash.symm.trans otherHash)
  refine ⟨_, _, layout, otherLayout, sameHash, source_eq_file rosters exact, ?_⟩
  rw [sameHash]
  exact source_eq_file otherRosters exact

/-- The schema of records is told alike after it was compiled in buffers of two
sizes, one of which may not be followed by others. -/
theorem alike_of_compile_record : exists container other,
    compile recordSchema.toJson {} = .ok container ∧
    compile recordSchema.toJson ⟨"Root", ⟨131072, false⟩⟩ = .ok other ∧
    exists layout text, Listing.layout container = .ok layout ∧ Listing.layout other = .ok layout ∧
      container.schemaHash = other.schemaHash ∧
      source container = .ok text ∧ source other = .ok text := by
  have compiles (config : ArenaConfig) {builder : Builder}
      (isBuilder : Builder.ofConfig config = .ok builder) (spare : 65535 ≤ builder.arena.spare) :
      exists container, compile recordSchema.toJson ⟨"Root", config⟩ = .ok container := by
    have formed : recordSchema.Formed :=
      .object (by decide) (by simpa using .integer) (by simp)
    have clear : recordSchema.IsClear := .object (by simpa using .integer)
    have room : recordSchema.typeRoom "Root" ≤ 65535 := by decide +kernel
    obtain ⟨_, container, _, accepted, _⟩ := @Inferred.exists_bodies recordSchema formed clear
      ⟨"Root", config⟩ builder isBuilder (Nat.le_trans room spare)
    exact ⟨container, accepted⟩
  obtain ⟨builder, isBuilder, spare⟩ : exists builder,
      Builder.ofConfig {} = .ok builder ∧ builder.arena.spare = 65535 := ⟨_, rfl, rfl⟩
  obtain ⟨large, isLarge, largeSpare⟩ : exists builder,
      Builder.ofConfig ⟨131072, false⟩ = .ok builder ∧ builder.arena.spare = 131071 := ⟨_, rfl, rfl⟩
  obtain ⟨container, accepted⟩ := compiles {} isBuilder (Nat.le_of_eq spare.symm)
  obtain ⟨other, otherAccepted⟩ := compiles ⟨131072, false⟩ isLarge (largeSpare ▸ by decide)
  exact ⟨container, other, accepted, otherAccepted, alike_of_compile accepted otherAccepted⟩

end Companion
end PackedJson
