import PackedJson.Packing.Scalar

namespace PackedJson
namespace Packer

/-!
Packing values of types with alternatives: options, results and variants.

The value itself decides.  An option is absent exactly for null.  A result
tries its value, and captures the first violation inside as a text.  A
variant takes the first alternative for the form of the value, where a map
goes before a struct, and an integer before a number unless the number is not
written as an integer.
-/

/-- The tag of a wrapper, and its alternatives in the order of their tags. -/
structure WrapperFields where
  tag : FieldDef
  zero : FieldDef
  one : FieldDef

/-- The fields of a wrapper. -/
def wrapperFields (packer : Packer) (type : TypeDef) : PackM WrapperFields := do
  let fields ← ask (packer.schema.fieldsInOrder type)
  let selected (tag : UInt8) : Option FieldDef :=
    (fields.drop 1).find? fun field => field.activation == tag
  match fields.head?, selected 0, selected 1 with
  | some tag, some zero, some one => return ⟨tag, zero, one⟩
  | _, _, _ => throw (.schema (packer.schema.malformed type .alternativeMissing))

/-- Write a tag. -/
def writeTag (packer : Packer) (place : Offset) (type : TypeDef) (tag : FieldDef)
    (value : UInt8) : PackM Unit := do
  let id ← ask (packer.schema.fieldType type tag)
  let tagType ← ask (packer.schema.type id)
  writeUnsigned (← inside place tag.offset) tagType.size.toNat value.toNat

/-- Write an option. -/
def option (packer : Packer) (same : Writer) (type : TypeDef) (place : Offset) (path : Path)
    (value : Json) : PackM Unit := do
  let fields ← packer.wrapperFields type
  match value with
  | .null => packer.writeTag place type fields.tag fields.zero.activation
  | _ =>
      packer.writeTag place type fields.tag fields.one.activation
      let id ← ask (packer.schema.fieldType type fields.one)
      same id (← inside place fields.one.offset) path value

/-- Write the text of a captured violation, over whatever the attempt left. -/
def capture (packer : Packer) (type : TypeDef) (fields : WrapperFields) (place : Offset)
    (violation : Violation) : PackM Unit := do
  let payload ← inside place fields.one.offset
  onData (Arena.zero payload (type.size.toNat - fields.one.offset.toNat))
  packer.writeTag place type fields.tag fields.one.activation
  let id ← ask (packer.schema.fieldType type fields.one)
  let textType ← ask (packer.schema.type id)
  packer.writeText textType payload violation.message

/-- Attempt to write a value.  A violation is handed over, and the violations
noted during the attempt are forgotten. -/
def attempt (step : PackM Unit) : PackM (Option Violation) := fun state =>
  let mark := state.violations.length
  match step state with
  | .ok _ state => .ok none state
  | .error (.violation violation) ⟨data, violations⟩ =>
      .ok (some violation) ⟨data, violations.take mark⟩
  | .error failure state => .error failure state

/-- Write a result. -/
def result (packer : Packer) (same : Writer) (type : TypeDef) (place : Offset) (path : Path)
    (value : Json) : PackM Unit := do
  let fields ← packer.wrapperFields type
  let id ← ask (packer.schema.fieldType type fields.zero)
  let inner ← inside place fields.zero.offset
  match ← attempt (same id inner path value) with
  | none => packer.writeTag place type fields.tag fields.zero.activation
  | some violation => packer.capture type fields place violation

/-- The forms of values that an alternative may take. -/
inductive Form where
  | null
  | boolean
  | integer
  | number
  | string
  | array
  | map
  | object
deriving DecidableEq, Repr

/-- The form of the values that a builtin takes as an alternative. -/
def Form.ofBuiltin? : Builtin -> Option Form
  | .unit => some null
  | .boolean => some boolean
  | .integer => some integer
  | .number => some number
  | .string => some string
  | _ => none

/-- The form of the values that a type of some shape takes as an alternative. -/
def Form.ofShape? : Shape -> Option Form
  | .array => some array
  | .map => some map
  | .struct => some object
  | .variant => none

/-- The forms that suit a value, the best one first. -/
def Form.suitable : Json -> List Form
  | .null => [null]
  | .boolean _ => [boolean]
  | .number (.float _) => [number, integer]
  | .number (.integer _) => [integer, number]
  | .string _ => [string]
  | .array _ => [array]
  | .object _ => [map, object]

/-- The form of the values that a type takes as an alternative, if any. -/
def form? (packer : Packer) (id : TypeId) : PackM (Option Form) :=
  match packer.context.builtinOf? id with
  | some builtin => return Form.ofBuiltin? builtin
  | none => do
      let type ← ask (packer.schema.type id)
      return Form.ofShape? type.shape

/-- The alternatives of a variant, each with the form that it takes. -/
def candidates (packer : Packer) (type : TypeDef) :
    List FieldDef -> PackM (List (Form × FieldDef))
  | [] => return []
  | field :: rest => do
      let id ← ask (packer.schema.fieldType type field)
      let form ← packer.form? id
      let others ← candidates packer type rest
      match form with
      | some form => return (form, field) :: others
      | none => return others

/-- The first alternative for the best form that there is one for. -/
def choose (candidates : List (Form × FieldDef)) (value : Json) : Option FieldDef :=
  (Form.suitable value).findSome? fun form =>
    (candidates.find? fun candidate => candidate.1 == form).map Prod.snd

/-- Write a variant. -/
def variant (packer : Packer) (same : Writer) (type : TypeDef) (place : Offset) (path : Path)
    (value : Json) : PackM Unit := do
  let fields ← ask (packer.schema.fieldsInOrder type)
  let alternatives ← packer.candidates type (fields.drop 1)
  match fields.head?, choose alternatives value with
  | some tag, some chosen =>
      packer.writeTag place type tag chosen.choice
      let id ← ask (packer.schema.fieldType type chosen)
      same id (← inside place chosen.offset) path value
  | _, _ => throw (.schema (.noVariantCandidate (packer.schema.name type) value.kind))

end Packer
end PackedJson
