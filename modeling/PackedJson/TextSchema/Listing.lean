import PackedJson.Container.Basic
import PackedJson.Text.Hex

namespace PackedJson
namespace Listing

/-!
The layout of a compiled schema as text, and the hash that identifies it.

Every type that can be reached from the root is listed with its shape, size,
alignment and manner of storage, and each of its fields in the order of
declaration with position, type and hash.  Scalars are left out.
-/

/-- The types to be listed: all that can be reached, except scalars. -/
def listedTypes (schema : Schema) (root : TypeId) :
    Except SchemaError (List (TypeId × TypeDef)) := do
  let ids ← schema.reachable root
  let types ← ids.mapM fun id => return (id, ← schema.type id)
  return types.filter fun entry => !(entry.2.isBuiltin && entry.2.fieldCount == 0)

/-- The line of a type. -/
def typeLine (schema : Schema) (type : TypeDef) : String :=
  let storage := if type.isStoredByReference then "by-reference" else "inline"
  let openness := if type.flags.contains TypeFlags.nonExhaustive then " non-exhaustive" else ""
  s!"{schema.name type} {type.shape.name} size={type.size} align={type.align} {storage}{openness}"

/-- The line of a field. -/
def fieldLine (schema : Schema) (owner : TypeDef) (field : FieldDef) :
    Except SchemaError String := do
  let type ← schema.type (← schema.fieldType owner field)
  let name ← schema.text field.jsonName
  let hash := Text.Hex.padded 8 field.hash.toNat
  let typeName := schema.name type
  return s!"  +{field.offset} {name}: {typeName} size={type.slot} hash={hash} act={field.activation}"

/-- The lines of a type and its fields. -/
def typeLines (schema : Schema) (entry : TypeId × TypeDef) : Except SchemaError (List String) := do
  let fields ← schema.fieldsInOrder entry.2
  let lines ← fields.mapM (fieldLine schema entry.2)
  return typeLine schema entry.2 :: lines

/-- The lines of one target. -/
def contextLines (schema : Schema) (context : Context) (target : Target) :
    Except SchemaError (List String) := do
  let root ← schema.root context
  let rootType ← schema.type root
  let slice ← schema.text context.slice
  let header := target.name ++ " root " ++ schema.name rootType ++
    (if slice.isEmpty then "" else " slice " ++ slice)
  let types ← listedTypes schema root
  let lines ← types.mapM (typeLines schema)
  return header :: lines.flatten

/-- The layout for both targets, one line for each type and field. -/
def layout (container : Container) : Except SchemaError String := do
  let lines ← Target.all.mapM fun target =>
    contextLines container.schema (container.context target) target
  return String.join (lines.flatten.map (· ++ "\n"))

/-- The hash of the layout. -/
def schemaHash (container : Container) : Except SchemaError UInt32 := do
  let text ← layout container
  return Checksum.crc32 text.toUTF8

end Listing
end PackedJson
