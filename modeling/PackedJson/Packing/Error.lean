import PackedJson.Container.Error
import PackedJson.Packing.Violation

namespace PackedJson

/-!
The ways in which packing a document fails.

A violation is the fault of the document, and running out of memory that of
the destination.  The other failures concern the schema or its use.
-/

/-- A precondition of a caller that a schema does not meet. -/
inductive Precondition where
  | schemaHash
  | rootSize
deriving DecidableEq, Repr

/-- The name of a precondition in messages. -/
def Precondition.name : Precondition -> String
  | schemaHash => "schema hash"
  | rootSize => "root size"

/-- A corrupt schema leads packing astray. -/
inductive Fault where
  /-- A number has more bytes than any number. -/
  | wideNumber (width : Nat)
  /-- Wrappers hand a value on without end. -/
  | endlessDescent
deriving DecidableEq, Repr

/-- Why a document was not packed. -/
inductive PackError where
  | invalidJson
  | invalidContainer (cause : ContainerError)
  /-- The destination is full. -/
  | outOfMemory (cause : ArenaError)
  /-- The destination cannot be used like this, however large it is. -/
  | dataArea (cause : ArenaError)
  | mismatch (precondition : Precondition) (expected actual : Nat)
  | violation (cause : Violation)
  | schema (cause : SchemaError)
  | fault (cause : Fault)
deriving DecidableEq, Repr

namespace PackError

/-- A failure of the destination: no room is told apart from misuse. -/
def ofArena (cause : ArenaError) : PackError :=
  match cause with
  | .exhausted .. => outOfMemory cause
  | .hostOutOfMemory .. => outOfMemory cause
  | .tooLarge .. => outOfMemory cause
  | _ => dataArea cause

/-- The stable identifier of the kind of failure. -/
def code : PackError -> String
  | invalidJson => "deflate::invalid_json"
  | invalidContainer _ => "deflate::invalid_binary_layout"
  | outOfMemory _ => "deflate::out_of_target_memory"
  | dataArea _ => "deflate::data_area"
  | mismatch .. => "deflate::schema_mismatch"
  | violation _ => "deflate::validation"
  | schema _ => "deflate::schema"
  | fault _ => "fault"

/-- The status number handed to a transport. -/
def status : PackError -> Nat
  | invalidJson => 1
  | invalidContainer _ => 2
  | outOfMemory _ => 3
  | dataArea _ => 7
  | mismatch .. => 4
  | violation _ => 5
  | schema _ => 6
  | fault _ => 6

/-- Whether the same document may fit a larger destination. -/
def isRetryable : PackError -> Bool
  | outOfMemory _ => true
  | _ => false

/-- The violation, if the document is at fault. -/
def violation? : PackError -> Option Violation
  | violation cause => some cause
  | _ => none

/-- The message shown for a failure. -/
def message : PackError -> String
  | invalidJson => "invalid JSON"
  | invalidContainer cause => "invalid schema blob: " ++ cause.message
  | outOfMemory cause => "out of target memory: " ++ cause.message
  | dataArea cause => "unusable data area: " ++ cause.message
  | mismatch precondition expected actual =>
      precondition.name ++ " mismatch: expected " ++ Text.Hex.marked expected ++
        ", schema has " ++ Text.Hex.marked actual
  | violation cause => cause.message
  | schema cause => cause.message
  | fault (.wideNumber width) => s!"number of {width} bytes"
  | fault .endlessDescent => "endless descent"

/-- The message of the failure behind a failure. -/
def sourceMessage? : PackError -> Option String
  | invalidContainer cause => some cause.message
  | outOfMemory cause => some cause.message
  | dataArea cause => some cause.message
  | schema cause => some cause.message
  | _ => none

end PackError
end PackedJson
