namespace PackedJson
namespace Bisect

/-!
Searching a sorted sequence of positions by halving.

The search keeps a base position and a number of candidates.  Each step looks
at the middle candidate and moves the base there when the test holds.  What
the tests of several equal elements decide is visible: `last?` answers with
the last of a run of equal keys.
-/

/-- Halve `size` candidates, starting at `base`, until one is left.  The
first argument bounds the number of steps; any number at least `size` does. -/
def narrow (holds : Nat -> Bool) : Nat -> Nat -> Nat -> Nat
  | 0, _, base => base
  | steps + 1, size, base =>
      if size ≤ 1 then base
      else
        let half := size / 2
        let middle := base + half
        narrow holds steps (size - half) (if holds middle then middle else base)

/-- The number of leading positions below `size` at which the test holds,
for a test that holds on a leading part and fails on the rest. -/
def partitionPoint (holds : Nat -> Bool) (size : Nat) : Nat :=
  if size = 0 then 0
  else
    let base := narrow holds size size 0
    if holds base then base + 1 else base

/-- The last position whose key equals `key` in a sequence sorted by key. -/
def last? (keyAt : Nat -> Nat) (size key : Nat) : Option Nat :=
  if size = 0 then none
  else
    let base := narrow (fun position => keyAt position ≤ key) size size 0
    if keyAt base = key then some base else none

/-- When the test says whether a position lies below a boundary, halving ends
at the last position below it, or at the base when there is none. -/
theorem narrow_eq (holds : Nat -> Bool) (boundary : Nat) {steps size base : Nat}
    (test : forall position, position < base + size ->
      holds position = decide (position < boundary))
    (enough : size ≤ steps) (upper : boundary ≤ base + size) :
    narrow holds steps size base = max base (boundary - 1) := by
  induction steps generalizing size base with
  | zero =>
      unfold narrow
      omega
  | succ steps ih =>
      unfold narrow
      split
      · omega
      next large =>
        have answer := test (base + size / 2) (by omega)
        dsimp only
        rw [answer]
        split
        next inside =>
          have below := of_decide_eq_true inside
          rw [ih (fun position bound => test position (by omega)) (by omega) (by omega)]
          omega
        next outside =>
          have beyond := Nat.le_of_not_lt (fun inside => outside (decide_eq_true inside))
          exact ih (fun position bound => test position (by omega)) (by omega) (by omega)

/-- The partition point of a test for positions below a boundary is that
boundary. -/
theorem partitionPoint_eq (holds : Nat -> Bool) {boundary size : Nat}
    (test : forall position, position < size -> holds position = decide (position < boundary))
    (upper : boundary ≤ size) : partitionPoint holds size = boundary := by
  unfold partitionPoint
  split
  · omega
  next nonempty =>
    have last := @narrow_eq holds boundary size size 0
      (fun position bound => test position (by omega)) (Nat.le_refl size) (by omega)
    dsimp only
    rw [last, test (max 0 (boundary - 1)) (by omega)]
    split
    next inside =>
      have below := of_decide_eq_true inside
      omega
    next outside =>
      have beyond := Nat.le_of_not_lt (fun inside => outside (decide_eq_true inside))
      omega

end Bisect
end PackedJson
