import PackedJson.Json.Value
import PackedJson.Text.Hex

namespace PackedJson
namespace Json
namespace Compact

/-!
JSON text without blanks.

Strings escape only what the grammar demands.  A double is written out in
full: it is a whole number over a power of two, hence a finite decimal
fraction, and the written text reads back as the same double.
-/

/-- The written form of one character of a string. -/
def escape (character : Char) : String :=
  if character = '"' then "\\\""
  else if character = '\\' then "\\\\"
  else if character = '\n' then "\\n"
  else if character = '\r' then "\\r"
  else if character = '\t' then "\\t"
  else if character = '\x08' then "\\b"
  else if character = '\x0c' then "\\f"
  else if character.toNat < 0x20 then
    "\\u00" ++ (if character.toNat < 0x10 then "0" else "") ++ Text.Hex.digits character.toNat
  else character.toString

/-- A string between quotes. -/
def string (text : String) : String :=
  "\"" ++ String.join (text.toList.map escape) ++ "\""

/-- Texts with commas between them. -/
def commaSeparated (texts : List String) : String := String.intercalate "," texts

/-- The decimal digits of `significand / 10 ^ places`, with a point. -/
def decimal (significand places : Nat) : String :=
  let digits := Nat.toDigits 10 significand
  let padded := List.replicate (places + 1 - digits.length) '0' ++ digits
  let whole := padded.take (padded.length - places)
  let fraction := padded.drop (padded.length - places)
  String.ofList whole ++ "." ++ (if fraction.isEmpty then "0" else String.ofList fraction)

/-- A finite double as a decimal fraction; the other ones have no written form
in JSON and become `null`. -/
def double (bits : UInt64) : String :=
  let magnitude := bits.toNat % 2 ^ 63
  let field := magnitude / 2 ^ 52
  let fraction := magnitude % 2 ^ 52
  if field = 2047 then "null"
  else
    let significand := if field = 0 then fraction else 2 ^ 52 + fraction
    let exponent := max field 1
    let shown :=
      if 1075 ≤ exponent then decimal (significand * 2 ^ (exponent - 1075)) 0
      else decimal (significand * 5 ^ (1075 - exponent)) (1075 - exponent)
    if bits.toNat / 2 ^ 63 = 1 then "-" ++ shown else shown

/-- A number. -/
def number : Number -> String
  | .integer value => toString value
  | .float bits => double bits

mutual

/-- The text of a value. -/
def write : Json -> String
  | .null => "null"
  | .boolean value => if value then "true" else "false"
  | .number value => number value
  | .string text => string text
  | .array items => "[" ++ commaSeparated (writeItems items) ++ "]"
  | .object members => "\x7b" ++ commaSeparated (writeMembers members) ++ "\x7d"

/-- The texts of the items of an array. -/
def writeItems : List Json -> List String
  | [] => []
  | item :: rest => write item :: writeItems rest

/-- The texts of the members of an object, each with its name. -/
def writeMembers : List (String × Json) -> List String
  | [] => []
  | (name, value) :: rest => (string name ++ ":" ++ write value) :: writeMembers rest

end

end Compact
end Json
end PackedJson
