import PackedJson.Arena.Error
import PackedJson.Json.Value

namespace PackedJson

/-!
The ways in which a schema fails to keep its own rules.

These failures concern the schema, never the document at hand, and trying
again does not help.
-/

/-- What is wrong with a type that does not have the shape it claims. -/
inductive Defect where
  /-- A size or an offset does not fit 32 bits. -/
  | layoutTooLarge
  /-- There is no field of that index. -/
  | noField (index count : Nat)
  /-- An array does not consist of a pointer, a capacity and a length. -/
  | notAnArray
  /-- A map does not consist of keys, values and strings. -/
  | notAMap
  /-- An array does not say what its elements are. -/
  | elementTypeMissing
  /-- A wrapper lacks one of its two alternatives. -/
  | alternativeMissing
  /-- A key was not found among the sorted hashes of its map. -/
  | slotMissing
  /-- A type cannot be named in generated declarations. -/
  | notDeclared
  /-- A defect that a caller states in its own words. -/
  | stated (text : String)
deriving DecidableEq, Repr

/-- The description of a defect. -/
def Defect.message : Defect -> String
  | layoutTooLarge => "layout exceeds the 32-bit size range"
  | noField index count => s!"field index {index} out of {count}"
  | notAnArray => "expected an array of \x7bptr, cap, len\x7d"
  | notAMap => "expected a map of \x7bkeys, values, strings\x7d"
  | elementTypeMissing => "array without element type"
  | alternativeMissing => "wrapper without two activation values"
  | slotMissing => "map key hash has no slot"
  | notDeclared => "type has no companion declaration"
  | stated text => text

/-- Why a schema could not be built, read or applied. -/
inductive SchemaError where
  /-- The arena that holds the schema refused. -/
  | arena (cause : ArenaError)
  /-- The record of a type has a shape that is not known. -/
  | unknownShape (place : Offset) (shape : Nat)
  /-- A reference leads nowhere. -/
  | danglingType (place : Offset)
  /-- A field still stands for the parameter of a generic type. -/
  | unboundParameter (typeName : String)
  /-- A stored text is not UTF-8. -/
  | invalidUtf8 (place : Offset)
  /-- A type contains itself without indirection. -/
  | infiniteSize (typeName : String)
  /-- A variant has no alternative for a kind of value. -/
  | noVariantCandidate (typeName : String) (kind : Json.Kind)
  /-- A type does not have the shape it claims. -/
  | malformed (typeName : String) (defect : Defect)
deriving DecidableEq, Repr

namespace SchemaError

/-- The stable identifier of the kind of failure. -/
def code : SchemaError -> String
  | arena _ => "schema::arena"
  | unknownShape .. => "schema::unknown_class"
  | danglingType _ => "schema::dangling_type"
  | unboundParameter _ => "schema::unbound_parameter"
  | invalidUtf8 _ => "schema::invalid_utf8"
  | infiniteSize _ => "schema::infinite_size"
  | noVariantCandidate .. => "schema::no_variant_candidate"
  | malformed .. => "schema::malformed"

/-- The message shown for a failure. -/
def message : SchemaError -> String
  | arena cause => "schema arena: " ++ cause.message
  | unknownShape place shape => s!"type record at {place.display} has unknown class {shape}"
  | danglingType place => s!"dangling type reference {place.display}"
  | unboundParameter typeName => s!"type `{typeName}` still refers to a generic parameter"
  | invalidUtf8 place => s!"schema string at {place.display} is not UTF-8"
  | infiniteSize typeName =>
      s!"type `{typeName}` contains itself inline; store it by reference"
  | noVariantCandidate typeName kind =>
      s!"variant `{typeName}` has no alternative accepting {kind.name}"
  | malformed typeName defect => s!"type `{typeName}` is malformed: {defect.message}"

/-- The failure behind a failure. -/
def source? : SchemaError -> Option ArenaError
  | arena cause => some cause
  | _ => none

end SchemaError
end PackedJson
