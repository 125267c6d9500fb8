import PackedJson.Power

namespace PackedJson
namespace Json
namespace Binary64

/-!
Ratios of natural numbers rounded to 64-bit binary floating point.

A positive ratio is scaled by a power of two until its integer part has 53
binary digits, or until the smallest exponent is reached, and then rounded to
the nearest integer with ties to the even one.  Rounding up to the next power
of two carries into the exponent field by itself, because the exponent stands
above the fraction.
-/

/-- The nearest integer to `numerator / denominator`; a tie goes to the even one. -/
def roundHalfEven (numerator denominator : Nat) : Nat :=
  let quotient := numerator / denominator
  let twice := 2 * (numerator % denominator)
  if twice < denominator then quotient
  else if denominator < twice then quotient + 1
  else quotient + quotient % 2

/-- The ratio `numerator / denominator` divided by `2 ^ exponent`, as a ratio. -/
def scaled (numerator denominator : Nat) (exponent : Int) : Nat × Nat :=
  if 0 ≤ exponent then (numerator, denominator * 2 ^ exponent.toNat)
  else (numerator * 2 ^ (-exponent).toNat, denominator)

/-- The exponent that leaves 53 binary digits before the point, but at least
the smallest one of the format. -/
def exponentFor (numerator denominator : Nat) : Int :=
  let guess : Int := numerator.log2 - denominator.log2 - 52
  let (top, bottom) := scaled numerator denominator guess
  max (if top < bottom * 2 ^ 52 then guess - 1 else guess) (-1074)

/-- The bits of the double nearest to a ratio with positive denominator;
nothing when the ratio rounds beyond the finite range. -/
def ofRatio? (numerator denominator : Nat) : Option UInt64 :=
  if numerator = 0 then some 0
  else
    let exponent := exponentFor numerator denominator
    let (top, bottom) := scaled numerator denominator exponent
    let significand := roundHalfEven top bottom
    let bits :=
      if significand < 2 ^ 52 then significand
      else (exponent + 1074).toNat * 2 ^ 52 + significand
    if bits < 0x7FF0000000000000 then some (UInt64.ofNat bits) else none

/-- The same magnitude with the sign bit set when `negative` holds. -/
def withSign (negative : Bool) (bits : UInt64) : UInt64 :=
  if negative then bits ||| 0x8000000000000000 else bits

/-- The double nearest to an integer of at most 64 binary digits. -/
def ofInt (value : Int) : UInt64 :=
  withSign (value < 0) ((ofRatio? value.natAbs 1).getD 0)

end Binary64
end Json
end PackedJson
