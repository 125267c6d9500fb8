namespace PackedJson
namespace Text
namespace Identifier

/-!
Identifiers of the Rust language made from arbitrary names.

Only ASCII letters and digits of a name are kept; every other character
separates words.  Types are written with capital initials and no separators,
fields in lower case with underscores.  A field whose identifier would be a
keyword is written as a raw identifier, except for the few keywords that
cannot be.
-/

/-- The keywords that are written as raw identifiers. -/
def keywords : List String :=
  ["as", "async", "await", "break", "const", "continue", "dyn", "else", "enum", "extern",
    "false", "fn", "for", "gen", "if", "impl", "in", "let", "loop", "match", "mod", "move",
    "mut", "pub", "ref", "return", "static", "struct", "trait", "true", "try", "type",
    "unsafe", "use", "where", "while", "yield"]

/-- Whether an identifier cannot start with what some text starts with. -/
def startsBadly : List Char -> Bool
  | [] => true
  | first :: _ => first.isDigit

/-- The words of a name joined, each with a capital initial; the flag says
whether the next character is an initial. -/
def joinCapitalized : Bool -> List Char -> List Char
  | _, [] => []
  | initial, character :: rest =>
      if character.isAlphanum then
        (if initial then character.toUpper else character) :: joinCapitalized false rest
      else joinCapitalized true rest

/-- The identifier of a type. -/
def pascalCase (name : String) : String :=
  let joined := joinCapitalized true name.toList
  let ident := String.ofList (if startsBadly joined then 'T' :: joined else joined)
  if ident = "Self" then "Self_" else ident

/-- The words of a name in lower case, in reverse order before those collected
so far.  A capital behind a small letter or a digit starts a word. -/
def joinLowered : List Char -> Bool -> List Char -> List Char
  | collected, _, [] => collected
  | collected, afterSmall, character :: rest =>
      if character.isAlphanum then
        let separated := if character.isUpper && afterSmall then '_' :: collected else collected
        joinLowered (character.toLower :: separated) (character.isLower || character.isDigit) rest
      else
        let separated := match collected with
          | [] => []
          | '_' :: _ => collected
          | _ => '_' :: collected
        joinLowered separated false rest

/-- The identifier of a field. -/
def snakeCase (name : String) : String :=
  let joined := ((joinLowered [] false name.toList).dropWhile (· == '_')).reverse
  let legal := String.ofList (if startsBadly joined then '_' :: joined else joined)
  let ident := if legal = "_" then "_field" else legal
  if ident = "self" ∨ ident = "super" ∨ ident = "crate" then ident ++ "_"
  else if keywords.contains ident then "r#" ++ ident
  else ident

/-- The first of `base`, `base2`, `base3` and so on that is not taken, from a
number on. -/
def freshFrom (taken : List String) (base : String) : Nat -> Nat -> String
  | 0, number => base ++ toString number
  | attempts + 1, number =>
      let candidate := base ++ toString number
      if taken.contains candidate then freshFrom taken base attempts (number + 1) else candidate

/-- A name that is not taken: the given one, or that with a number from two on. -/
def fresh (taken : List String) (base : String) : String :=
  if taken.contains base then freshFrom taken base taken.length 2 else base

end Identifier
end Text
end PackedJson
