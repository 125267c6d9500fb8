import PackedJson.Text.Hex
import PackedJson.Text.Printable

namespace PackedJson
namespace Text
namespace Quoted

/-!
Text between double quotes, for diagnostics.

The quote and the backslash are escaped, as are the null character, the tab
and the two line ends.  Every other character that would not be seen as
itself is written by its number between braces.
-/

/-- The written form of one character. -/
def escape (character : Char) : String :=
  if character = '\x00' then "\\0"
  else if character = '\t' then "\\t"
  else if character = '\r' then "\\r"
  else if character = '\n' then "\\n"
  else if character = '"' then "\\\""
  else if character = '\\' then "\\\\"
  else if Printable.isPrintable character then String.singleton character
  else "\\u\x7b" ++ Hex.digits character.toNat ++ "\x7d"

/-- A text between quotes. -/
def quote (text : String) : String :=
  "\"" ++ String.join (text.toList.map escape) ++ "\""

end Quoted
end Text
end PackedJson
