import PackedJson.Json.Value

namespace PackedJson
namespace Json
namespace Pointer

/-!
References into a document: a sequence of names or indices, each written
behind a slash.  A slash inside a name is written `~1` and a tilde `~0`.

The empty reference means the whole document.  An item of an array is named
by its index without needless zeros.
-/

/-- A character as it stands in a reference. -/
def escapeCharacter (character : Char) : List Char :=
  if character = '~' then ['~', '0'] else if character = '/' then ['~', '1'] else [character]

/-- A name as it stands in a reference. -/
def escape (name : String) : String :=
  String.ofList (name.toList.flatMap escapeCharacter)

/-- Replace each tilde that is followed by `digit`, together with it. -/
def replaceMark (digit replacement : Char) : List Char -> List Char
  | '~' :: next :: rest =>
      if next = digit then replacement :: replaceMark digit replacement rest
      else '~' :: replaceMark digit replacement (next :: rest)
  | character :: rest => character :: replaceMark digit replacement rest
  | [] => []

/-- The name that a part of a reference stands for: first the slashes are put
back, then the tildes. -/
def unescape (token : String) : String :=
  String.ofList (replaceMark '0' '~' (replaceMark '1' '/' token.toList))

/-- A character as it stands between the two replacements: only tildes are
still marked. -/
def markTilde (character : Char) : List Char :=
  if character = '~' then ['~', '0'] else [character]

theorem replaceMark_of_ne (digit replacement : Char) {character : Char}
    (plain : character ≠ '~') (rest : List Char) :
    replaceMark digit replacement (character :: rest) =
      character :: replaceMark digit replacement rest := by
  cases rest <;> simp [replaceMark, plain]

theorem replaceMark_mark (digit replacement : Char) (rest : List Char) :
    replaceMark digit replacement ('~' :: digit :: rest) =
      replacement :: replaceMark digit replacement rest := by
  simp [replaceMark]

theorem replaceMark_escape (name : List Char) :
    replaceMark '1' '/' (name.flatMap escapeCharacter) = name.flatMap markTilde := by
  induction name with
  | nil => rfl
  | cons character rest ih =>
      by_cases tilde : character = '~'
      · subst tilde
        simp [escapeCharacter, markTilde, replaceMark, ih, replaceMark_of_ne]
      · by_cases slash : character = '/'
        · subst slash
          simp [escapeCharacter, markTilde, replaceMark_mark, ih]
        · simp [escapeCharacter, markTilde, tilde, slash, replaceMark_of_ne, ih]

theorem replaceMark_markTilde (name : List Char) :
    replaceMark '0' '~' (name.flatMap markTilde) = name := by
  induction name with
  | nil => rfl
  | cons character rest ih =>
      by_cases tilde : character = '~'
      · subst tilde
        simp [markTilde, replaceMark_mark, ih]
      · simp [markTilde, tilde, replaceMark_of_ne, ih]

/-- Every name is read back from its written form. -/
theorem unescape_escape (name : String) : unescape (escape name) = name := by
  unfold unescape escape
  rw [String.toList_ofList, replaceMark_escape, replaceMark_markTilde, String.ofList_toList]

/-- The reference to the value under `name` below another reference. -/
def child (pointer name : String) : String :=
  pointer ++ "/" ++ escape name

/-- Split a text at every slash. -/
def splitSlashes : List Char -> List (List Char)
  | [] => [[]]
  | character :: rest =>
      match splitSlashes rest with
      | [] => [[character]]
      | head :: tail =>
          if character = '/' then [] :: head :: tail else (character :: head) :: tail

/-- The names of a reference, outermost first; nothing when it is neither
empty nor starts with a slash. -/
def tokens? (pointer : String) : Option (List String) :=
  match pointer.toList with
  | [] => some []
  | '/' :: rest => some ((splitSlashes rest).map (fun token => unescape (String.ofList token)))
  | _ => none

/-- An array index, written in decimal without needless zeros. -/
def index? (token : String) : Option Nat :=
  match token.toList with
  | [] => none
  | ['0'] => some 0
  | '0' :: _ => none
  | digits =>
      if digits.all Char.isDigit then
        some (digits.foldl (fun value digit => 10 * value + (digit.toNat - '0'.toNat)) 0)
      else none

/-- The value one step below another. -/
def step? (token : String) : Json -> Option Json
  | .array items => (index? token).bind (fun position => items[position]?)
  | .object members => lookup? token members
  | _ => none

/-- The value at the end of a sequence of steps. -/
def follow? : List String -> Json -> Option Json
  | [], value => some value
  | token :: rest, value => (step? token value).bind (follow? rest)

/-- The value that a reference selects. -/
def resolve? (pointer : String) (value : Json) : Option Json :=
  (tokens? pointer).bind (fun names => follow? names value)

end Pointer
end Json
end PackedJson
