import PackedJson.Schema.Error

namespace PackedJson
namespace TextSchema

/-!
The ways in which compiling a text schema fails.
-/

/-- What is wrong with a node of a text schema. -/
inductive Flaw where
  | notASchema
  | typeNotText
  | typeMissing
  | itemsMissing
  | unsupportedType (name : String)
  | referenceNotText
  | unsupportedReference (reference : String)
  | unknownReference (reference : String)
  /-- A definition that refers to itself has no type that could be pointed to. -/
  | recursiveDefinition (name : String)
  | propertiesNotAnObject
  | alternativesNotAnArray
  | alternativeCount
  | requiredNotAnArray
  | requiredNotNames
  | sliceNotAPointer
deriving DecidableEq, Repr

/-- The description of a flaw. -/
def Flaw.message : Flaw -> String
  | notASchema => "expected a schema object"
  | typeNotText => "\"type\" must be a string"
  | typeMissing => "missing \"type\""
  | itemsMissing => "array without \"items\""
  | unsupportedType name => s!"unsupported type \"{name}\""
  | referenceNotText => "\"$ref\" must be a string"
  | unsupportedReference reference => s!"unsupported $ref \"{reference}\""
  | unknownReference reference => s!"unknown $ref \"{reference}\""
  | recursiveDefinition name =>
      s!"recursive definition \"{name}\" must be an object or a variant"
  | propertiesNotAnObject => "expected an object"
  | alternativesNotAnArray => "expected an array of schemas"
  | alternativeCount => "a variant needs between 1 and 255 alternatives"
  | requiredNotAnArray => "expected an array"
  | requiredNotNames => "expected property names"
  | sliceNotAPointer => "expected a JSON pointer string"

/-- Why a text schema was not compiled. -/
inductive CompileError where
  /-- The arena for the schema is full. -/
  | outOfMemory (cause : ArenaError)
  /-- The types could not be built or laid out. -/
  | schema (cause : SchemaError)
  /-- A node of the text schema is at fault. -/
  | invalid (pointer : String) (flaw : Flaw)
deriving DecidableEq, Repr

namespace CompileError

/-- A failure to build types; a refusal of the arena is told apart. -/
def ofSchema : SchemaError -> CompileError
  | .arena cause => outOfMemory cause
  | cause => schema cause

/-- The flaw of the node at a reference.  The document itself is shown as a
slash. -/
def atPointer (pointer : String) (flaw : Flaw) : CompileError :=
  invalid (if pointer.isEmpty then "/" else pointer) flaw

/-- The stable identifier of the kind of failure. -/
def code : CompileError -> String
  | outOfMemory _ => "compile::out_of_schema_memory"
  | schema _ => "compile::schema"
  | invalid .. => "compile::invalid_schema"

/-- The message shown for a failure. -/
def message : CompileError -> String
  | outOfMemory cause => "out of schema memory: " ++ cause.message
  | schema cause => cause.message
  | invalid pointer flaw => s!"invalid schema at {pointer}: {flaw.message}"

/-- The message of the failure behind a failure. -/
def sourceMessage? : CompileError -> Option String
  | outOfMemory cause => some cause.message
  | schema cause => some cause.message
  | invalid .. => none

/-- The node at fault, if one is. -/
def pointer? : CompileError -> Option String
  | invalid pointer _ => some pointer
  | _ => none

end CompileError
end TextSchema
end PackedJson
