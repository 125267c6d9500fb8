import PackedJson.Bisect
import PackedJson.Checksum
import PackedJson.Schema.Context
import PackedJson.Sorted

namespace PackedJson

/-!
Reading the types stored in an arena.

Fields are stored in the order of the hashes of their names once a struct has
been laid out; the order of declaration is recorded in each of them.  A field
is found by its name through its hash, and names are compared among the
fields of equal hash.
-/

/-- The types stored in an arena. -/
structure Schema where
  arena : Arena

namespace Schema

/-- The size of a field record in bytes. -/
def fieldSize : Nat := Record.size FieldDef

/-- The description of a type. -/
def type (schema : Schema) (id : TypeId) : Except SchemaError TypeDef :=
  if id.offset.isNull then .error (.danglingType id.offset)
  else Record.read TypeDef schema.arena id.offset

/-- A stored text. -/
def text (schema : Schema) (stored : TextRef) : Except SchemaError String :=
  if stored.length = 0 then .ok ""
  else
    match schema.arena.slice stored.offset stored.length.toNat with
    | .error cause => .error (.arena cause)
    | .ok bytes =>
        match String.fromUTF8? bytes with
        | some text => .ok text
        | none => .error (.invalidUtf8 stored.offset)

/-- The name of a type, or a question mark when it cannot be read. -/
def name (schema : Schema) (type : TypeDef) : String :=
  match schema.text type.name with
  | .ok text => text
  | .error _ => "?"

/-- The failure that a type has a defect. -/
def malformed (schema : Schema) (type : TypeDef) (defect : Defect) : SchemaError :=
  .malformed (schema.name type) defect

/-- The field in some place of the storage order. -/
def field (schema : Schema) (type : TypeDef) (index : Nat) : Except SchemaError FieldDef :=
  if type.fieldCount.toNat ≤ index then
    .error (schema.malformed type (.noField index type.fieldCount.toNat))
  else
    match type.fields.add? (index * fieldSize % Offset.spaceSize) with
    | some place => Record.read FieldDef schema.arena place
    | none => .error (.danglingType type.fields)

/-- The last `count` fields of the storage order, up to the first failure. -/
def lastFields (schema : Schema) (type : TypeDef) : Nat -> Except SchemaError (List FieldDef)
  | 0 => .ok []
  | count + 1 => do
      let field ← schema.field type (type.fieldCount.toNat - (count + 1))
      let rest ← lastFields schema type count
      return field :: rest

/-- All fields in storage order. -/
def fields (schema : Schema) (type : TypeDef) : Except SchemaError (List FieldDef) :=
  schema.lastFields type type.fieldCount.toNat

/-- All fields in the order of declaration. -/
def fieldsInOrder (schema : Schema) (type : TypeDef) : Except SchemaError (List FieldDef) := do
  let fields ← schema.fields type
  return Sorted.sortBy (fun field => field.order.toNat) fields

/-- The type of a field, which must not stand for a parameter. -/
def fieldType (schema : Schema) (owner : TypeDef) (field : FieldDef) :
    Except SchemaError TypeId :=
  match field.type with
  | some type => .ok type
  | none => .error (.unboundParameter (schema.name owner))

/-- The first of some fields that has the given name. -/
def findNamed (schema : Schema) (name : String) : List FieldDef -> Except SchemaError (Option FieldDef)
  | [] => .ok none
  | field :: rest => do
      let found ← schema.text field.jsonName
      if found = name then return some field else findNamed schema name rest

/-- The fields whose names hash to `hash`, in fields sorted by hash. -/
def equalHashRun (fields : List FieldDef) (hash : UInt32) : List FieldDef :=
  let stored := fields.toArray
  let below (position : Nat) : Bool :=
    match stored[position]? with
    | some field => decide (field.hash < hash)
    | none => false
  (fields.drop (Bisect.partitionPoint below fields.length)).takeWhile
    (fun field => field.hash == hash)

/-- The field of a given name. -/
def findField (schema : Schema) (type : TypeDef) (name : String) :
    Except SchemaError (Option FieldDef) := do
  let fields ← schema.fields type
  if type.shape = .struct then
    schema.findNamed name (equalHashRun fields (Checksum.nameHash name))
  else schema.findNamed name fields

/-- The greatest alignment of the variables of some fields, and at least `least`. -/
def greatestAlign (schema : Schema) (owner : TypeDef) :
    List FieldDef -> UInt32 -> Except SchemaError UInt32
  | [], least => .ok least
  | field :: rest, least => do
      let type ← schema.type (← schema.fieldType owner field)
      greatestAlign schema owner rest (max least type.align)

/-- The alignment of an instance that lives apart: the greatest one of its
fields, however variables of the type are stored. -/
def instanceAlign (schema : Schema) (type : TypeDef) : Except SchemaError UInt32 := do
  if type.isStoredByReference then
    schema.greatestAlign type (← schema.fields type) 1
  else return max type.align 1

/-- The positions of the parts of an array. -/
structure ArrayLayout where
  pointer : UInt32
  capacity : UInt32
  length : UInt32
deriving DecidableEq, Repr

/-- The positions of the parts of an array type. -/
def arrayLayout (schema : Schema) (type : TypeDef) : Except SchemaError ArrayLayout := do
  let fields ← schema.fieldsInOrder type
  match type.shape, fields with
  | .array, [pointer, capacity, length] =>
      return ⟨pointer.offset, capacity.offset, length.offset⟩
  | _, _ => throw (schema.malformed type .notAnArray)

/-- One of the parallel arrays of a map. -/
structure MapPart where
  offset : UInt32
  type : TypeId
deriving DecidableEq, Repr

/-- The parallel arrays of a map. -/
structure MapLayout where
  /-- The sorted hashes of the keys. -/
  keys : MapPart
  values : MapPart
  /-- The keys themselves. -/
  strings : MapPart
deriving DecidableEq, Repr

/-- The parallel arrays of a map type. -/
def mapLayout (schema : Schema) (type : TypeDef) : Except SchemaError MapLayout := do
  let fields ← schema.fieldsInOrder type
  match type.shape, fields with
  | .map, [keys, values, strings] =>
      let keysType ← schema.fieldType type keys
      let valuesType ← schema.fieldType type values
      let stringsType ← schema.fieldType type strings
      return ⟨⟨keys.offset, keysType⟩, ⟨values.offset, valuesType⟩, ⟨strings.offset, stringsType⟩⟩
  | _, _ => throw (schema.malformed type .notAMap)

/-- The types that a type refers to: those of its fields in the order of
declaration, and then its argument. -/
def successors (schema : Schema) (id : TypeId) : Except SchemaError (List TypeId) := do
  let type ← schema.type id
  let fields ← schema.fieldsInOrder type
  return fields.filterMap FieldDef.type ++ type.argument.toList

/-- Visit the pending types that were not seen yet, each before the types it
refers to.  The types seen so far are given in reverse order. -/
def visit (schema : Schema) :
    Nat -> List TypeId -> List TypeId -> Except SchemaError (List TypeId)
  | _, seen, [] => .ok seen.reverse
  | 0, seen, _ => .ok seen.reverse
  | steps + 1, seen, id :: pending =>
      if seen.contains id then visit schema steps seen pending
      else do
        let next ← schema.successors id
        visit schema steps (id :: seen) (next ++ pending)

/-- A bound on the number of steps of a visit.  A type starts at a position of
the used part and refers to fewer types than that part has bytes. -/
def visitBound (schema : Schema) : Nat :=
  (schema.arena.used + 1) * (schema.arena.used + 2)

/-- Every type that can be reached from a type, depth first in the order of
declaration, each once. -/
def reachable (schema : Schema) (root : TypeId) : Except SchemaError (List TypeId) :=
  schema.visit schema.visitBound [] [root]

/-- Whether a type can be read and has a given name. -/
def hasName (schema : Schema) (name : String) (id : TypeId) : Bool :=
  match schema.type id with
  | .ok type => schema.name type = name
  | .error _ => false

/-- The first type of a given name that can be reached from a type. -/
def findType (schema : Schema) (root : TypeId) (name : String) :
    Except SchemaError (Option TypeId) := do
  let ids ← schema.reachable root
  return ids.find? (schema.hasName name)

/-- The type of the document. -/
def root (_ : Schema) (context : Context) : Except SchemaError TypeId :=
  match context.root with
  | some type => .ok type
  | none => .error (.danglingType Offset.null)

/-- The schema as it is shown in a diagnostic description of a value. -/
def describe (schema : Schema) : String :=
  s!"Schema \x7b arena: {schema.arena.describe} \x7d"

end Schema
end PackedJson
