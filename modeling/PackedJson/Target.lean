import PackedJson.LittleEndian

namespace PackedJson

/-!
The two kinds of memory that instances are laid out for.

They differ in the width of pointers and sizes, and therefore in every offset
that comes after one.  Both store the least significant byte first.
-/

/-- A 32-bit guest memory, or the memory of a 64-bit host. -/
inductive Target where
  | wasm32
  | native
deriving DecidableEq, Repr

namespace Target

/-- Both targets, in the order in which a container stores them. -/
def all : List Target := [wasm32, native]

/-- The width of pointers and sizes in bytes. -/
def pointerWidth : Target -> Nat
  | wasm32 => 4
  | native => 8

/-- The greatest value of a pointer or size. -/
def maxPointer (target : Target) : Nat :=
  256 ^ target.pointerWidth - 1

/-- The name of a target in listings. -/
def name : Target -> String
  | wasm32 => "wasm32"
  | native => "native"

/-- Whether the least significant byte of a number comes first. -/
def isLittleEndian : Target -> Bool
  | wasm32 => true
  | native => true

theorem pointerWidth_pos (target : Target) : 0 < target.pointerWidth := by
  cases target <;> decide

theorem pointerWidth_le (target : Target) : target.pointerWidth ≤ 8 := by
  cases target <;> decide

end Target
end PackedJson
