import PackedJson.Power
import PackedJson.Text.Hex

namespace PackedJson

/-!
Offsets into an arena, and rounding positions up to an alignment.

An offset is a 32-bit position.  Zero is the null offset, which means that
nothing is referred to; no allocation starts there.
-/

/-- A position in an arena. -/
structure Offset where
  raw : UInt32
deriving DecidableEq, Repr

namespace Offset

/-- The offset that refers to nothing. -/
def null : Offset := ⟨0⟩

instance : Inhabited Offset := ⟨null⟩

/-- The number of offsets there are. -/
def spaceSize : Nat := 2 ^ 32

/-- The position as a natural number. -/
def toNat (offset : Offset) : Nat := offset.raw.toNat

/-- The offset of a position that is known to be in range. -/
def ofNat (position : Nat) : Offset := ⟨UInt32.ofNat position⟩

/-- The offset of a position, if it is in range. -/
def ofNat? (position : Nat) : Option Offset :=
  if position < spaceSize then some (ofNat position) else none

/-- Whether an offset refers to nothing. -/
def isNull (offset : Offset) : Bool := offset.raw == 0

/-- The offset itself, unless it is the null offset. -/
def nonNull? (offset : Offset) : Option Offset :=
  if offset.isNull then none else some offset

/-- The offset `bytes` further on, if it is in range. -/
def add? (offset : Offset) (bytes : Nat) : Option Offset :=
  ofNat? (offset.toNat + bytes)

/-- The offset in hexadecimal digits. -/
def display (offset : Offset) : String :=
  Text.Hex.marked offset.toNat

/-- The offset as it is shown in a diagnostic description of a value. -/
def describe (offset : Offset) : String :=
  if offset.isNull then "Offset(null)" else s!"Offset({offset.display})"

theorem toNat_lt (offset : Offset) : offset.toNat < spaceSize :=
  offset.raw.toNat_lt

theorem toNat_ofNat {position : Nat} (small : position < spaceSize) :
    (ofNat position).toNat = position := by
  simp only [spaceSize] at small
  simp only [toNat, ofNat, UInt32.toNat_ofNat']
  omega

end Offset

/-- Round a position up to a multiple of an alignment, a power of two: the
alignment less one is added, and the low binary digits are cleared. -/
def alignUp (position alignment : Nat) : Nat :=
  let raised := position + (alignment - 1)
  raised - (raised &&& (alignment - 1))

/-- The rounded position, if adding the alignment stays within 64 binary digits. -/
def alignUp? (position alignment : Nat) : Option Nat :=
  if position + (alignment - 1) < 2 ^ 64 then some (alignUp position alignment) else none

/-- For a power of two, rounding up is rounding a quotient down. -/
theorem alignUp_two_pow (position exponent : Nat) :
    alignUp position (2 ^ exponent) =
      2 ^ exponent * ((position + (2 ^ exponent - 1)) / 2 ^ exponent) := by
  unfold alignUp
  simp only [Nat.and_two_pow_sub_one_eq_mod]
  have split := Nat.div_add_mod (position + (2 ^ exponent - 1)) (2 ^ exponent)
  omega

/-- The rounded position is a multiple of the alignment. -/
theorem dvd_alignUp (position exponent : Nat) : 2 ^ exponent ∣ alignUp position (2 ^ exponent) := by
  rw [alignUp_two_pow]
  exact Nat.dvd_mul_right _ _

/-- Rounding does not go below the position. -/
theorem le_alignUp (position exponent : Nat) : position ≤ alignUp position (2 ^ exponent) := by
  have split := Nat.div_add_mod (position + (2 ^ exponent - 1)) (2 ^ exponent)
  have bound := Nat.mod_lt (position + (2 ^ exponent - 1)) (Nat.two_pow_pos exponent)
  rw [alignUp_two_pow]
  omega

/-- Rounding goes on by less than the alignment. -/
theorem alignUp_lt (position exponent : Nat) :
    alignUp position (2 ^ exponent) < position + 2 ^ exponent := by
  have split := Nat.div_add_mod (position + (2 ^ exponent - 1)) (2 ^ exponent)
  have positive := Nat.two_pow_pos exponent
  rw [alignUp_two_pow]
  omega

end PackedJson
