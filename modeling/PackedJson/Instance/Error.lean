import PackedJson.Schema.Error
import PackedJson.Text.Quoted

namespace PackedJson

/-!
The ways in which reading an instance fails.
-/

/-- Why an instance could not be read. -/
inductive InstanceError where
  | schema (cause : SchemaError)
  /-- The bytes of the instance are not there. -/
  | arena (cause : ArenaError)
  /-- The value is not of the kind it was taken for. -/
  | wrongShape (expected found : String)
  | noSuchField (name : String)
  | indexOutOfBounds (index length : Nat)
  /-- The tag selects no alternative. -/
  | invalidTag (tag : Nat)
  /-- The pointer leads out of the data. -/
  | badPointer (raw : Nat)
  | invalidUtf8
deriving DecidableEq, Repr

namespace InstanceError

/-- The stable identifier of the kind of failure. -/
def code : InstanceError -> String
  | schema _ => "peek::schema"
  | arena _ => "peek::arena"
  | wrongShape .. => "peek::wrong_shape"
  | noSuchField _ => "peek::no_such_field"
  | indexOutOfBounds .. => "peek::index_out_of_bounds"
  | invalidTag _ => "peek::invalid_tag"
  | badPointer _ => "peek::bad_pointer"
  | invalidUtf8 => "peek::invalid_utf8"

/-- The message shown for a failure. -/
def message : InstanceError -> String
  | schema cause => cause.message
  | arena cause => cause.message
  | wrongShape expected found => s!"expected {expected}, found {found}"
  | noSuchField name => "no field named " ++ Text.Quoted.quote name
  | indexOutOfBounds index length => s!"index {index} out of bounds for length {length}"
  | invalidTag tag => s!"tag {tag} selects no alternative"
  | badPointer raw => "pointer " ++ Text.Hex.marked raw ++ " is outside the data"
  | invalidUtf8 => "string is not valid UTF-8"

/-- The message of the failure behind a failure. -/
def sourceMessage? : InstanceError -> Option String
  | schema cause => some cause.message
  | arena cause => some cause.message
  | _ => none

end InstanceError
end PackedJson
