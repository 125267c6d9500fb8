namespace PackedJson
namespace Text
namespace Hex

/-!
Hexadecimal digits in lower case.
-/

/-- The digits of a number, most significant first and without leading zeros;
zero is the single digit `0`. -/
def digits (value : Nat) : String :=
  String.ofList (Nat.toDigits 16 value)

/-- The digits after the mark `0x`. -/
def marked (value : Nat) : String :=
  "0x" ++ digits value

/-- The digits, padded with zeros to at least `width` of them. -/
def fixed (width value : Nat) : String :=
  let shown := Nat.toDigits 16 value
  String.ofList (List.replicate (width - shown.length) '0' ++ shown)

/-- The padded digits after the mark `0x`. -/
def padded (width value : Nat) : String :=
  "0x" ++ fixed width value

/-- The value of a digit, in lower or upper case. -/
def digit? (digit : Char) : Option Nat :=
  if digit.isDigit then some (digit.toNat - '0'.toNat)
  else if 'a' ≤ digit ∧ digit ≤ 'f' then some (digit.toNat - 'a'.toNat + 10)
  else if 'A' ≤ digit ∧ digit ≤ 'F' then some (digit.toNat - 'A'.toNat + 10)
  else none

/-- Some bytes, two digits for each. -/
def ofBytes (bytes : ByteArray) : String :=
  bytes.data.foldl (fun text byte =>
    (text.push (Nat.digitChar (byte.toNat / 16))).push (Nat.digitChar (byte.toNat % 16))) ""

/-- The bytes that pairs of digits stand for. -/
def bytes? : List Char -> Option (List UInt8)
  | [] => some []
  | [_] => none
  | high :: low :: rest => do
      let high ← digit? high
      let low ← digit? low
      let bytes ← bytes? rest
      return UInt8.ofNat (16 * high + low) :: bytes

end Hex
end Text
end PackedJson
