import PackedJson.Json.Numeral
import PackedJson.Text.Hex

namespace PackedJson
namespace Json
namespace Reader

/-!
Reading a JSON document from text.

The grammar is the strict one: no comments, no trailing commas, no raw
control characters in strings, no unpaired surrogate escapes, and nothing but
blanks after the value.  Arrays and objects may be nested up to
`nestingLimit` levels.  Each reading function answers with what it read and
with the rest of the text.  Strings are read by recursion on the text itself,
nested values by recursion on the levels that are left.  The loops over items
and members are bounded by a number of steps for which the length of the
document is enough, because every item takes up part of it.
-/

/-- The greatest number of arrays and objects nested in one another. -/
def nestingLimit : Nat := 127

/-- The four blanks of the grammar. -/
def isBlank (character : Char) : Bool :=
  character = ' ' || character = '\n' || character = '\t' || character = '\r'

/-- The text from its first character that is not blank. -/
def skipBlanks (text : List Char) : List Char :=
  text.dropWhile isBlank

/-- The number that four hexadecimal digits stand for. -/
def unit? (first second third fourth : Char) : Option Nat := do
  let first ← Text.Hex.digit? first
  let second ← Text.Hex.digit? second
  let third ← Text.Hex.digit? third
  let fourth ← Text.Hex.digit? fourth
  return ((first * 16 + second) * 16 + third) * 16 + fourth

/-- Whether a number is one of the surrogates, which stand for no character
of their own. -/
def isSurrogate (unit : Nat) : Bool := 0xD800 ≤ unit && unit ≤ 0xDFFF

/-- The character that two surrogates stand for, a leading one and a trailing
one. -/
def pair? (leading trailing : Nat) : Option Char :=
  if 0xD800 ≤ leading ∧ leading < 0xDC00 ∧ 0xDC00 ≤ trailing ∧ trailing ≤ 0xDFFF then
    some (Char.ofNat (0x10000 + (leading - 0xD800) * 0x400 + (trailing - 0xDC00)))
  else none

/-- The character that an escape of one letter stands for. -/
def escape? : Char -> Option Char
  | '"' => some '"'
  | '\\' => some '\\'
  | '/' => some '/'
  | 'b' => some '\x08'
  | 'f' => some '\x0c'
  | 'n' => some '\n'
  | 'r' => some '\r'
  | 't' => some '\t'
  | _ => none

/-- The characters of a string behind its opening quote, in reverse order
before those collected so far.  A numeric escape is one unit, or a leading and
a trailing surrogate. -/
def characters? : List Char -> List Char -> Option (List Char × List Char)
  | _, [] => none
  | collected, '"' :: rest => some (collected, rest)
  | collected, '\\' :: 'u' :: first :: second :: third :: fourth :: rest => do
      let unit ← unit? first second third fourth
      if isSurrogate unit then
        match rest with
        | '\\' :: 'u' :: first :: second :: third :: fourth :: rest => do
            let character ← pair? unit (← unit? first second third fourth)
            characters? (character :: collected) rest
        | _ => none
      else characters? (Char.ofNat unit :: collected) rest
  | collected, '\\' :: mark :: rest => do
      let character ← escape? mark
      characters? (character :: collected) rest
  | collected, character :: rest =>
      if character.toNat < 0x20 ∨ character = '\\' then none
      else characters? (character :: collected) rest

/-- A string behind its opening quote. -/
def string? (text : List Char) : Option (String × List Char) :=
  (characters? [] text).map (fun (collected, rest) => (String.ofList collected.reverse, rest))

/-- The items of an array up to its closing bracket, read one by one by
`element`; those before are given in reverse order. -/
def items? (element : List Char -> Option (Json × List Char)) :
    Nat -> List Json -> List Char -> Option (List Json × List Char)
  | 0, _, _ => none
  | steps + 1, before, text => do
      let (item, rest) ← element (skipBlanks text)
      match skipBlanks rest with
      | ',' :: rest => items? element steps (item :: before) rest
      | ']' :: rest => return ((item :: before).reverse, rest)
      | _ => none

/-- One member of an object: a name, a colon, and a value read by `element`. -/
def member? (element : List Char -> Option (Json × List Char)) (text : List Char) :
    Option ((String × Json) × List Char) :=
  match skipBlanks text with
  | '"' :: text => do
      let (name, rest) ← string? text
      match skipBlanks rest with
      | ':' :: rest => do
          let (value, rest) ← element (skipBlanks rest)
          return ((name, value), rest)
      | _ => none
  | _ => none

/-- The members of an object up to its closing brace.  A repeated name keeps
the place of its first member and takes the value of its last one. -/
def members? (element : List Char -> Option (Json × List Char)) :
    Nat -> List (String × Json) -> List Char -> Option (List (String × Json) × List Char)
  | 0, _, _ => none
  | steps + 1, before, text => do
      let ((name, value), rest) ← member? element text
      let members := Json.insert name value before
      match skipBlanks rest with
      | ',' :: rest => members? element steps members rest
      | '}' :: rest => return (members, rest)
      | _ => none

/-- The value that starts a text, when it is neither an array nor an object. -/
def scalar? : List Char -> Option (Json × List Char)
  | 'n' :: 'u' :: 'l' :: 'l' :: rest => some (.null, rest)
  | 't' :: 'r' :: 'u' :: 'e' :: rest => some (.boolean true, rest)
  | 'f' :: 'a' :: 'l' :: 's' :: 'e' :: rest => some (.boolean false, rest)
  | '"' :: text => (string? text).map (fun (text, rest) => (.string text, rest))
  | text => do
      let (numeral, rest) ← Numeral.read? text
      let value ← numeral.value?
      return (.number value, rest)

/-- The value that starts a text without leading blanks, where `levels` more
arrays and objects may be opened, each with at most `steps` items. -/
def value? (steps : Nat) : Nat -> List Char -> Option (Json × List Char)
  | 0, text => scalar? text
  | levels + 1, text =>
      match text with
      | '[' :: text =>
          match skipBlanks text with
          | ']' :: rest => some (.array [], rest)
          | text => (items? (value? steps levels) steps [] text).map
              (fun (items, rest) => (.array items, rest))
      | '{' :: text =>
          match skipBlanks text with
          | '}' :: rest => some (.object [], rest)
          | text => (members? (value? steps levels) steps [] text).map
              (fun (members, rest) => (.object members, rest))
      | text => scalar? text

end Reader

/-- The value of a text that holds one JSON document. -/
def ofText? (text : String) : Option Json :=
  let characters := text.toList
  match Reader.value? characters.length Reader.nestingLimit (Reader.skipBlanks characters) with
  | some (value, rest) => if (Reader.skipBlanks rest).isEmpty then some value else none
  | none => none

/-- The value of a JSON document given as bytes, which must be UTF-8. -/
def ofBytes? (bytes : ByteArray) : Option Json :=
  (String.fromUTF8? bytes).bind ofText?

end Json
end PackedJson
