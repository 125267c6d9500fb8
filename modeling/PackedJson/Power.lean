namespace PackedJson

/-!
Powers of numbers.

The sizes of words and of address spaces are powers `2 ^ n` and `256 ^ n`, of
natural numbers and of integers.  Where a proof imports algebra, the power of a
monoid is in scope as well.  The power of the core library is preferred
everywhere, so that `^` is one function in a definition and in every theorem
about it.
-/

/-- The power of a number as the core library has it. -/
@[default_instance 100000]
instance (priority := 1100) numberPower {Number : Type} [NatPow Number] : Pow Number Nat :=
  instPowNat

end PackedJson
