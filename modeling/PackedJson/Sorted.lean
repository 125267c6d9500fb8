namespace PackedJson
namespace Sorted

/-!
Stable sorting of a list by a numeric key.

Elements with equal keys keep their order.  The definition inserts the
elements from the last to the first, each before the first element whose key
is not smaller.
-/

variable {Item : Type}

/-- Put an element in front of the first one whose key is not smaller. -/
def insertBy (key : Item -> Nat) (item : Item) : List Item -> List Item
  | [] => [item]
  | head :: rest =>
      if key item ≤ key head then item :: head :: rest else head :: insertBy key item rest

/-- The elements in ascending order of their keys. -/
def sortBy (key : Item -> Nat) (items : List Item) : List Item :=
  items.foldr (insertBy key) []

@[simp] theorem length_insertBy (key : Item -> Nat) (item : Item) (items : List Item) :
    (insertBy key item items).length = items.length + 1 := by
  induction items with
  | nil => rfl
  | cons head rest ih =>
      unfold insertBy
      split <;> simp [ih]

@[simp] theorem length_sortBy (key : Item -> Nat) (items : List Item) :
    (sortBy key items).length = items.length := by
  induction items with
  | nil => rfl
  | cons head rest ih => exact (length_insertBy key head _).trans (congrArg (· + 1) ih)

theorem insertBy_perm (key : Item -> Nat) (item : Item) (items : List Item) :
    (insertBy key item items).Perm (item :: items) := by
  induction items with
  | nil => exact List.Perm.refl _
  | cons head rest ih =>
      unfold insertBy
      split
      · exact List.Perm.refl _
      · exact (ih.cons head).trans (List.Perm.swap item head rest)

/-- Sorting loses nothing and adds nothing. -/
theorem sortBy_perm (key : Item -> Nat) (items : List Item) :
    (sortBy key items).Perm items := by
  induction items with
  | nil => exact List.Perm.refl _
  | cons head rest ih => exact (insertBy_perm key head _).trans (ih.cons head)

theorem pairwise_insertBy (key : Item -> Nat) (item : Item) {items : List Item}
    (sorted : items.Pairwise fun first second => key first ≤ key second) :
    (insertBy key item items).Pairwise fun first second => key first ≤ key second := by
  induction items with
  | nil => exact List.pairwise_singleton _ _
  | cons head rest ih =>
      unfold insertBy
      have parts := List.pairwise_cons.mp sorted
      split
      next smaller =>
        refine List.pairwise_cons.mpr ⟨?_, sorted⟩
        intro other member
        cases List.mem_cons.mp member with
        | inl same => exact same ▸ smaller
        | inr inRest => exact Nat.le_trans smaller (parts.1 other inRest)
      next larger =>
        refine List.pairwise_cons.mpr ⟨?_, ih parts.2⟩
        intro other member
        cases List.mem_cons.mp ((insertBy_perm key item rest).mem_iff.mp member) with
        | inl same => exact same ▸ Nat.le_of_lt (Nat.lt_of_not_le larger)
        | inr inRest => exact parts.1 other inRest

/-- The keys ascend after sorting. -/
theorem pairwise_sortBy (key : Item -> Nat) (items : List Item) :
    (sortBy key items).Pairwise fun first second => key first ≤ key second := by
  induction items with
  | nil => exact List.Pairwise.nil
  | cons head rest ih => exact pairwise_insertBy key head ih

end Sorted
end PackedJson
