import PackedJson.Proofs.Arena.Evolution

namespace PackedJson
namespace Arena

/-!
Facts about an arena that outlast further changes.

What can be read from an instance depends on the bytes at some positions.
Such a fact is stated for every later arena with the same bytes there, so
that it is carried over whatever happens elsewhere.
-/

/-- A position belongs to a region. -/
def Extent.Has (extent : Extent) (position : Nat) : Prop :=
  extent.start ≤ position ∧ position < extent.start + extent.length

/-- Two regions have no position in common. -/
def Extent.Apart (first second : Extent) : Prop :=
  first.start + first.length ≤ second.start ∨ second.start + second.length ≤ first.start

theorem Extent.Apart.symm {first second : Extent} (apart : first.Apart second) :
    second.Apart first :=
  Or.symm apart

theorem Extent.Apart.inside {first second inner : Extent} (apart : first.Apart second)
    (inside : inner.Inside second) : first.Apart inner := by
  obtain ⟨low, high⟩ := inside
  cases apart with
  | inl before => exact Or.inl (Nat.le_trans before low)
  | inr behind => exact Or.inr (Nat.le_trans high behind)

theorem Extent.Misses.inside {region inner : Extent} {position : Nat}
    (misses : region.Misses position) (inside : inner.Inside region) : inner.Misses position := by
  obtain ⟨low, high⟩ := inside
  cases misses with
  | inl before => exact Or.inl (Nat.lt_of_lt_of_le before low)
  | inr behind => exact Or.inr (Nat.le_trans high behind)

/-- The bytes of a region are zero. -/
def Zero (arena : Arena) (region : Extent) : Prop :=
  forall position, region.Has position -> arena.byteAt position = 0

theorem Written.zero_replicate {before after : Arena} {start count : Nat}
    (written : Written before start (List.replicate count 0) after) : after.Zero ⟨start, count⟩ := by
  intro position has
  rw [written.byteAt, List.getElem?_replicate]
  have inside : start ≤ position ∧ position < start + (List.replicate count (0 : UInt8)).length := by
    rw [List.length_replicate]
    exact has
  rw [if_pos inside]
  split <;> rfl

theorem Zero.inside {arena : Arena} {region inner : Extent} (zero : arena.Zero region)
    (inside : inner.Inside region) : arena.Zero inner := by
  obtain ⟨low, high⟩ := inside
  intro position has
  exact zero position ⟨Nat.le_trans low has.1, Nat.lt_of_lt_of_le has.2 high⟩

/-- An arena continues another one, with the same bytes at some positions. -/
structure Preserves (kept : Nat -> Prop) (arena later : Arena) : Prop where
  grown : Grown arena later
  same : forall position, kept position -> later.byteAt position = arena.byteAt position

namespace Preserves

variable {kept : Nat -> Prop} {arena later : Arena}

theorem refl (kept : Nat -> Prop) (arena : Arena) : Preserves kept arena arena :=
  ⟨Grown.refl arena, fun _ _ => rfl⟩

theorem trans {last : Arena} (first : Preserves kept arena later)
    (second : Preserves kept later last) : Preserves kept arena last :=
  ⟨first.grown.trans second.grown, fun position isKept =>
    (second.same position isKept).trans (first.same position isKept)⟩

theorem mono {fewer : Nat -> Prop} (preserves : Preserves kept arena later)
    (less : forall position, fewer position -> kept position) : Preserves fewer arena later :=
  ⟨preserves.grown, fun position isKept => preserves.same position (less position isKept)⟩

theorem load (preserves : Preserves kept arena later) {start length : Nat}
    (isKept : forall position, Extent.Has ⟨start, length⟩ position -> kept position) :
    later.load start length = arena.load start length :=
  load_congr fun position above below => preserves.same position (isKept position ⟨above, below⟩)

theorem zero (preserves : Preserves kept arena later) {region : Extent}
    (zero : arena.Zero region) (isKept : forall position, region.Has position -> kept position) :
    later.Zero region :=
  fun position has => (preserves.same position (isKept position has)).trans (zero position has)

end Preserves

/-- What was in use and is not owned is preserved. -/
theorem Evolves.preserves {owned fresh : List Extent} {before after : Arena}
    (evolves : Evolves owned before fresh after) (writable : before.Writable) {kept : Nat -> Prop}
    (inUse : forall position, kept position -> position < before.used)
    (misses : forall position, kept position -> forall region, region ∈ owned ->
      region.Misses position) : Preserves kept before after :=
  ⟨evolves.grown writable, fun position isKept =>
    evolves.byteAt_of_misses writable (inUse position isKept) (misses position isKept)⟩

/-- A region in use that is apart from what is owned is preserved. -/
theorem Evolves.preserves_region {owned fresh : List Extent} {before after : Arena}
    (evolves : Evolves owned before fresh after) (writable : before.Writable) {region : Extent}
    (inUse : region.start + region.length ≤ before.used)
    (apart : forall other, other ∈ owned -> region.Apart other) :
    Preserves region.Has before after := by
  refine evolves.preserves writable (fun position has => ?_) (fun position has other member => ?_)
  · have bound := has.2
    omega
  · obtain ⟨low, high⟩ := has
    cases apart other member with
    | inl before => exact Or.inl (by omega)
    | inr behind => exact Or.inr (by omega)

/-- Regions lie inside other ones. -/
def Covers (outer inner : List Extent) : Prop :=
  forall region, region ∈ inner -> exists whole, whole ∈ outer ∧ region.Inside whole

namespace Covers

variable {outer inner more : List Extent} {region whole : Extent}

theorem refl (owned : List Extent) : Covers owned owned :=
  fun region member => ⟨region, member, Nat.le_refl _, Nat.le_refl _⟩

theorem trans {middle : List Extent} (first : Covers outer middle) (second : Covers middle inner) :
    Covers outer inner := by
  intro region member
  obtain ⟨whole, isMiddle, low, high⟩ := second region member
  obtain ⟨largest, isOuter, lower, higher⟩ := first whole isMiddle
  exact ⟨largest, isOuter, Nat.le_trans lower low, Nat.le_trans high higher⟩

theorem nil (owned : List Extent) : Covers owned [] := nofun

theorem single (member : whole ∈ outer) (inside : region.Inside whole) : Covers outer [region] := by
  intro other isRegion
  cases List.mem_singleton.mp isRegion
  exact ⟨whole, member, inside⟩

theorem one (inside : region.Inside whole) : Covers [whole] [region] :=
  single List.mem_cons_self inside

theorem append (covers : Covers outer inner) : Covers (more ++ outer) inner := by
  intro region member
  obtain ⟨whole, isOuter, inside⟩ := covers region member
  exact ⟨whole, List.mem_append_right _ isOuter, inside⟩

theorem of_subset (subset : forall region, region ∈ inner -> region ∈ outer) : Covers outer inner :=
  fun region member => ⟨region, subset region member, Nat.le_refl _, Nat.le_refl _⟩

end Covers

/-- More may be owned. -/
theorem Evolves.mono {owned more fresh : List Extent} {before after : Arena}
    (evolves : Evolves owned before fresh after) (covers : Covers more owned) :
    Evolves more before fresh after := by
  have continued : Evolves more before (fresh ++ []) after := Evolves.start.trans evolves covers
  rwa [List.append_nil] at continued

/-- A fact that holds as long as the bytes at some positions stay. -/
def Lasts (kept : Nat -> Prop) (arena : Arena) (fact : Arena -> Prop) : Prop :=
  forall later, Preserves kept arena later -> fact later

namespace Lasts

variable {kept : Nat -> Prop} {arena later : Arena} {fact : Arena -> Prop}

theorem now (lasts : Lasts kept arena fact) : fact arena := lasts arena (.refl kept arena)

theorem still (lasts : Lasts kept arena fact) (preserves : Preserves kept arena later) :
    Lasts kept later fact :=
  fun last more => lasts last (preserves.trans more)

theorem mono {more : Nat -> Prop} (lasts : Lasts kept arena fact)
    (less : forall position, kept position -> more position) : Lasts more arena fact :=
  fun later preserves => lasts later (preserves.mono less)

theorem imp {weaker : Arena -> Prop} (lasts : Lasts kept arena fact)
    (implies : forall later, fact later -> weaker later) : Lasts kept arena weaker :=
  fun later preserves => implies later (lasts later preserves)

end Lasts

/-- The positions of a region, and of what was handed out since some time. -/
def Since (region : Extent) (start stop : Nat) (position : Nat) : Prop :=
  region.Has position ∨ start ≤ position ∧ position < stop

theorem Since.mono {region outer : Extent} {start stop earlier further : Nat}
    (inside : region.Inside outer) (less : earlier ≤ start) (more : stop ≤ further) {position : Nat}
    (since : Since region start stop position) : Since outer earlier further position := by
  obtain ⟨low, high⟩ := inside
  cases since with
  | inl has => exact Or.inl ⟨Nat.le_trans low has.1, Nat.lt_of_lt_of_le has.2 high⟩
  | inr behind => exact Or.inr ⟨Nat.le_trans less behind.1, Nat.lt_of_lt_of_le behind.2 more⟩

/-- A region that was handed out since is a part of what was. -/
theorem Since.of_behind {region outer : Extent} {start stop : Nat} (behind : start ≤ region.start)
    (inUse : region.start + region.length ≤ stop) {position : Nat} (has : region.Has position) :
    Since outer start stop position :=
  Or.inr ⟨Nat.le_trans behind has.1, Nat.lt_of_lt_of_le has.2 inUse⟩

/-- A fact about a region outlasts changes of other regions that were there
before. -/
theorem Lasts.carry {region : Extent} {start : Nat} {middle after : Arena}
    {owned fresh : List Extent} {fact : Arena -> Prop}
    (lasts : Lasts (Since region start middle.used) middle fact)
    (evolves : Evolves owned middle fresh after) (writable : middle.Writable)
    (inUse : region.start + region.length ≤ middle.used)
    (apart : forall other, other ∈ owned -> region.Apart other ∧ other.start + other.length ≤ start) :
    Lasts (Since region start after.used) after fact := by
  have grown := evolves.grown writable
  refine (lasts.still (evolves.preserves writable ?_ ?_)).mono fun position since =>
    since.mono ⟨Nat.le_refl _, Nat.le_refl _⟩ (Nat.le_refl _) grown.used
  · intro position since
    cases since with
    | inl has => exact Nat.lt_of_lt_of_le has.2 inUse
    | inr behind => exact behind.2
  · intro position since other member
    obtain ⟨separate, early⟩ := apart other member
    cases since with
    | inl has =>
        obtain ⟨low, high⟩ := has
        cases separate with
        | inl before => exact Or.inl (by omega)
        | inr after => exact Or.inr (by omega)
    | inr behind => exact Or.inr (Nat.le_trans early behind.1)

end Arena
end PackedJson
