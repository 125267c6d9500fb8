import PackedJson.Packing.Path

namespace PackedJson

/-!
The ways in which a document fails to fit a schema.
-/

/-- What a schema asks for at some place. -/
inductive Expectation where
  | value (kind : Json.Kind)
  /-- A text of one byte. -/
  | char
deriving DecidableEq, Repr

/-- The name of an expectation in messages. -/
def Expectation.name : Expectation -> String
  | value kind => kind.name
  | char => "char"

/-- The types whose values have a limited range. -/
inductive NumberRange where
  | integer
  | unsigned
deriving DecidableEq, Repr

/-- The name of a range in messages. -/
def NumberRange.name : NumberRange -> String
  | integer => "integer"
  | unsigned => "unsigned"

/-- What is wrong with a value. -/
inductive Complaint where
  | typeMismatch (expected : Expectation) (found : Json.Kind)
  | missingField (field : String)
  | numberOutOfRange (value : Int) (range : NumberRange)
  | tooDeep (limit : Nat)
  /-- The part of the document that the schema describes is not there. -/
  | missingSlice
deriving DecidableEq, Repr

/-- A complaint and the place it concerns. -/
structure Violation where
  complaint : Complaint
  path : Path
deriving DecidableEq, Repr

/-- The message shown for a violation. -/
def Violation.message (violation : Violation) : String :=
  let place := violation.path.display
  match violation.complaint with
  | .typeMismatch expected found =>
      s!"Expected {expected.name} but found {found.name} at {place}"
  | .missingField field => s!"Missing required field \"{field}\" at {place}"
  | .numberOutOfRange value range => s!"Number {value} does not fit {range.name} at {place}"
  | .tooDeep limit => s!"Nesting deeper than {limit} levels at {place}"
  | .missingSlice => s!"Missing document slice at {place}"

end PackedJson
