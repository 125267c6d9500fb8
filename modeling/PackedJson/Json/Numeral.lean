import PackedJson.Json.Value

namespace PackedJson
namespace Json

/-!
The written form of JSON numbers.

A numeral is a sign, a whole part without needless leading zeros, and
optionally a fraction and an exponent.  Without the last two it means an
integer as long as that fits 64 bits; otherwise it means the nearest double.
The integer zero has no sign, so a zero with one is a double.
-/

/-- The parts of a written number. -/
structure Numeral where
  negative : Bool
  whole : List Char
  fraction : List Char
  exponent : Int
  /-- Whether neither a fraction nor an exponent was written. -/
  plain : Bool

namespace Numeral

/-- The value of a sequence of decimal digits. -/
def ofDigits (digits : List Char) : Nat :=
  digits.foldl (fun value digit => 10 * value + (digit.toNat - '0'.toNat)) 0

/-- The magnitude `significand * 10 ^ exponent` as a double.  Exponents that
lead out of the format whatever the digits are settled first. -/
def magnitude? (significand digitCount : Nat) (exponent : Int) : Option UInt64 :=
  if significand = 0 then some 0
  else if exponent + digitCount < -400 then some 0
  else if 400 < exponent then none
  else if 0 ≤ exponent then Binary64.ofRatio? (significand * 10 ^ exponent.toNat) 1
  else Binary64.ofRatio? significand (10 ^ (-exponent).toNat)

/-- The number that a numeral means, unless it is beyond the finite doubles. -/
def value? (numeral : Numeral) : Option Number :=
  let digits := numeral.whole ++ numeral.fraction
  let significand := ofDigits digits
  if numeral.plain ∧ ¬ numeral.negative ∧ significand < 2 ^ 64 then
    some (.integer significand)
  else if numeral.plain ∧ numeral.negative ∧ 0 < significand ∧ significand ≤ 2 ^ 63 then
    some (.integer (-significand))
  else
    (magnitude? significand digits.length (numeral.exponent - numeral.fraction.length)).map
      (fun bits => .float (Binary64.withSign numeral.negative bits))

/-- The leading digits and what follows them. -/
def takeDigits (text : List Char) : List Char × List Char :=
  (text.takeWhile Char.isDigit, text.dropWhile Char.isDigit)

/-- The whole part: a single zero, or digits that start with another one. -/
def readWhole? : List Char -> Option (List Char × List Char)
  | '0' :: rest => some (['0'], rest)
  | text =>
      match takeDigits text with
      | ([], _) => none
      | parts => some parts

/-- The fraction, if a point follows. -/
def readFraction? : List Char -> Option (Option (List Char) × List Char)
  | '.' :: text =>
      match takeDigits text with
      | ([], _) => none
      | (digits, rest) => some (some digits, rest)
  | text => some (none, text)

/-- The digits of an exponent behind its mark, which may bear a sign. -/
def readExponentDigits? : List Char -> Option (Int × List Char)
  | '-' :: text =>
      match takeDigits text with
      | ([], _) => none
      | (digits, rest) => some (-(ofDigits digits : Int), rest)
  | text =>
      let unsigned := match text with
        | '+' :: rest => rest
        | rest => rest
      match takeDigits unsigned with
      | ([], _) => none
      | (digits, rest) => some ((ofDigits digits : Int), rest)

/-- The exponent, if its mark follows. -/
def readExponent? : List Char -> Option (Option Int × List Char)
  | 'e' :: text => (readExponentDigits? text).map (fun (value, rest) => (some value, rest))
  | 'E' :: text => (readExponentDigits? text).map (fun (value, rest) => (some value, rest))
  | text => some (none, text)

/-- The numeral at the start of a text, and the rest of the text. -/
def read? (text : List Char) : Option (Numeral × List Char) := do
  let (negative, unsigned) := match text with
    | '-' :: rest => (true, rest)
    | rest => (false, rest)
  let (whole, afterWhole) ← readWhole? unsigned
  let (fraction, afterFraction) ← readFraction? afterWhole
  let (exponent, rest) ← readExponent? afterFraction
  return (⟨negative, whole, fraction.getD [], exponent.getD 0,
    fraction.isNone && exponent.isNone⟩, rest)

end Numeral
end Json
end PackedJson
