import PackedJson.Json.Pointer

namespace PackedJson

/-!
Places inside a document, as messages show them.
-/

/-- One step from a value to a value inside it. -/
inductive Segment where
  | key (name : String)
  | index (position : Nat)
deriving DecidableEq, Repr

/-- The text of a step. -/
def Segment.text : Segment -> String
  | key name => name
  | index position => toString position

/-- The steps from the document to a value inside it, outermost first. -/
structure Path where
  segments : List Segment
deriving DecidableEq, Repr

namespace Path

/-- The place of the document itself. -/
def root : Path := ⟨[]⟩

/-- The place one step further in. -/
def child (path : Path) (segment : Segment) : Path := ⟨path.segments ++ [segment]⟩

/-- The number of steps. -/
def depth (path : Path) : Nat := path.segments.length

/-- The place that a reference names.  Empty parts of the reference are left
out. -/
def ofPointer (pointer : String) : Path :=
  ⟨((Json.Pointer.splitSlashes pointer.toList).filter (fun token => !token.isEmpty)).map
    (fun token => .key (Json.Pointer.unescape (String.ofList token)))⟩

/-- The text of a place: every step behind a slash, and a single slash for
the document. -/
def display (path : Path) : String :=
  if path.segments.isEmpty then "/"
  else String.join (path.segments.map fun segment => "/" ++ segment.text)

/-- The value at a place of a document. -/
def follow? : List Segment -> Json -> Option Json
  | [], value => some value
  | .key name :: rest, value => (value.member? name).bind (follow? rest)
  | .index position :: rest, value =>
      match value with
      | .array items => (items[position]?).bind (follow? rest)
      | _ => none

end Path
end PackedJson
