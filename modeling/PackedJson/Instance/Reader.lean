import PackedJson.Instance.Error
import PackedJson.Schema.View
import PackedJson.Target

namespace PackedJson

/-!
Reading instances through their schema.

A reader knows the schema, the target an instance was written for, the bytes,
and the value that was added to every pointer.  A place is an instance of a
known type somewhere in the bytes.  Everything that can be wrong with a
schema or with the bytes shows up as an error.
-/

/-- What is needed to interpret the bytes of instances. -/
structure Reader where
  schema : Schema
  context : Context
  target : Target
  data : Arena
  pointerBase : Nat

/-- An instance of a type in the data. -/
structure Place where
  id : TypeId
  type : TypeDef
  offset : Offset

namespace Reader

/-- The answer of a schema as the answer of a reader. -/
def ofSchema {Result : Type} : Except SchemaError Result -> Except InstanceError Result
  | .ok result => .ok result
  | .error cause => .error (.schema cause)

/-- The instance of a type at an offset. -/
def instanceAt (reader : Reader) (id : TypeId) (offset : Offset) : Except InstanceError Place := do
  let type ← ofSchema (reader.schema.type id)
  return ⟨id, type, offset⟩

/-- The instance of the root type at an offset. -/
def root (reader : Reader) (offset : Offset) : Except InstanceError Place := do
  let id ← ofSchema (reader.schema.root reader.context)
  reader.instanceAt id offset

/-- The bytes of a region; an empty region may lie anywhere. -/
def bytesAt (reader : Reader) (offset : Offset) (length : Nat) :
    Except InstanceError ByteArray :=
  if length = 0 then .ok ByteArray.empty
  else
    match reader.data.slice offset length with
    | .ok bytes => .ok bytes
    | .error cause => .error (.arena cause)

/-- The number stored in a region. -/
def readUnsigned (reader : Reader) (offset : Offset) (width : Nat) : Except InstanceError Nat := do
  let bytes ← reader.bytesAt offset width
  return LittleEndian.decode bytes.data.toList

/-- The offset that a pointer variable leads to; nothing for null. -/
def readPointer (reader : Reader) (offset : Offset) : Except InstanceError (Option Offset) := do
  let raw ← reader.readUnsigned offset reader.target.pointerWidth
  if raw = 0 then return none
  if raw < reader.pointerBase then throw (.badPointer raw)
  match Offset.ofNat? (raw - reader.pointerBase) with
  | some offset => return some offset
  | none => throw (.badPointer raw)

/-- The number stored in a size variable. -/
def readSize (reader : Reader) (offset : Offset) : Except InstanceError Nat :=
  reader.readUnsigned offset reader.target.pointerWidth

/-- The instance that a variable of a type at an offset holds or points to. -/
def variableAt (reader : Reader) (id : TypeId) (offset : Offset) : Except InstanceError Place := do
  let type ← ofSchema (reader.schema.type id)
  if type.isStoredByReference then
    match ← reader.readPointer offset with
    | some target => return ⟨id, type, target⟩
    | none => throw (.arena .nullOffset)
  else return ⟨id, type, offset⟩

/-- The name of the type of a place. -/
def name (reader : Reader) (place : Place) : String :=
  reader.schema.name place.type

/-- The builtin that a place is an instance of. -/
def builtin? (reader : Reader) (place : Place) : Option Builtin :=
  reader.context.builtinOf? place.id

/-- The bytes of an instance. -/
def bytes (reader : Reader) (place : Place) : Except InstanceError ByteArray :=
  reader.bytesAt place.offset place.type.size.toNat

/-- The failure that a place is not of some kind. -/
def wrong {Result : Type} (reader : Reader) (place : Place) (expected : String) :
    Except InstanceError Result :=
  .error (.wrongShape expected (reader.name place))

/-- Check that a place is an instance of a builtin. -/
def expect (reader : Reader) (place : Place) (builtin : Builtin) (expected : String) :
    Except InstanceError Unit :=
  if reader.builtin? place = some builtin then .ok () else reader.wrong place expected

/-- A position inside an instance. -/
def inside (place : Place) (delta : UInt32) : Except InstanceError Offset :=
  match place.offset.add? delta.toNat with
  | some offset => .ok offset
  | none => .error (.arena (.tooLarge delta.toNat))

/-- The value of an integer. -/
def integer (reader : Reader) (place : Place) : Except InstanceError Int := do
  reader.expect place .integer "integer"
  let raw ← reader.readUnsigned place.offset 8
  return Int.bmod raw (2 ^ 64)

/-- The bits of a number. -/
def number (reader : Reader) (place : Place) : Except InstanceError UInt64 := do
  reader.expect place .number "number"
  let raw ← reader.readUnsigned place.offset 8
  return UInt64.ofNat raw

/-- The value of a boolean. -/
def boolean (reader : Reader) (place : Place) : Except InstanceError Bool := do
  reader.expect place .boolean "boolean"
  let raw ← reader.readUnsigned place.offset 1
  return raw ≠ 0

/-- Whether a place is the instance without content. -/
def isUnit (reader : Reader) (place : Place) : Bool :=
  reader.builtin? place = some .unit

/-- Where the elements of an array start, and how many there are. -/
def arrayParts (reader : Reader) (place : Place) : Except InstanceError (Option Offset × Nat) := do
  let layout ← ofSchema (reader.schema.arrayLayout place.type)
  let pointer ← reader.readPointer (← inside place layout.pointer)
  let length ← reader.readSize (← inside place layout.length)
  return (pointer, length)

/-- The value of a text. -/
def text (reader : Reader) (place : Place) : Except InstanceError String := do
  reader.expect place .string "string"
  match ← reader.arrayParts place with
  | (none, _) => return ""
  | (some start, length) =>
      match String.fromUTF8? (← reader.bytesAt start length) with
      | some text => return text
      | none => throw .invalidUtf8

/-- The value of a field. -/
def enter (reader : Reader) (place : Place) (field : FieldDef) : Except InstanceError Place := do
  let id ← ofSchema (reader.schema.fieldType place.type field)
  reader.variableAt id (← inside place field.offset)

/-- The value of the field of a given name. -/
def field (reader : Reader) (place : Place) (name : String) : Except InstanceError Place := do
  if place.type.shape ≠ .struct then reader.wrong place "struct"
  else
    match ← ofSchema (reader.schema.findField place.type name) with
    | some field => reader.enter place field
    | none => throw (.noSuchField name)

/-- The name and the value of a field. -/
def namedField (reader : Reader) (place : Place) (field : FieldDef) :
    Except InstanceError (String × Place) := do
  let name ← ofSchema (reader.schema.text field.jsonName)
  let value ← reader.enter place field
  return (name, value)

/-- The names and values of all fields, in the order of declaration. -/
def fields (reader : Reader) (place : Place) : Except InstanceError (List (String × Place)) := do
  if place.type.shape ≠ .struct then reader.wrong place "struct"
  else
    let fields ← ofSchema (reader.schema.fieldsInOrder place.type)
    fields.mapM (reader.namedField place)

/-- The tag of a variant or a wrapper. -/
def tag (reader : Reader) (place : Place) : Except InstanceError Nat :=
  reader.readUnsigned place.offset 1

/-- The name and the value of the first alternative that a test selects. -/
def alternative (reader : Reader) (place : Place) (tag : Nat) (selects : FieldDef -> Bool) :
    Except InstanceError (String × Place) := do
  let fields ← ofSchema (reader.schema.fieldsInOrder place.type)
  match (fields.drop 1).find? selects with
  | some field => reader.namedField place field
  | none => throw (.invalidTag tag)

/-- The name and the value of the alternative that a variant holds. -/
def variant (reader : Reader) (place : Place) : Except InstanceError (String × Place) := do
  if place.type.shape ≠ .variant then reader.wrong place "variant"
  else
    let tag ← reader.tag place
    reader.alternative place tag fun field => field.choice.toNat = tag

/-- The name and the value of the alternative that an instance of a generic
wrapper holds. -/
def wrapper (reader : Reader) (place : Place) (generic : Builtin) :
    Except InstanceError (String × Place) := do
  if (place.type.prototype.map fun prototype => reader.context.is prototype generic) ≠ some true
  then reader.wrong place generic.name
  else
    let tag ← reader.tag place
    reader.alternative place tag fun field => field.activation.toNat = tag

/-- The value of an option, if there is one. -/
def option (reader : Reader) (place : Place) : Except InstanceError (Option Place) := do
  let (name, value) ← reader.wrapper place .option
  return if name = "None" then none else some value

/-- The value of a result, or the text of the violation it captured. -/
def result (reader : Reader) (place : Place) : Except InstanceError (String ⊕ Place) := do
  let (name, value) ← reader.wrapper place .result
  if name = "Err" then return .inl (← reader.text value) else return .inr value

/-- The number of elements of an array. -/
def arrayLength (reader : Reader) (place : Place) : Except InstanceError Nat := do
  let (_, length) ← reader.arrayParts place
  return length

/-- The number of elements of an array or of members of a map, with a bound on
how often the keys of a map are a map again. -/
def lengthWithin (reader : Reader) : Nat -> Place -> Except InstanceError Nat
  | levels, place =>
      match place.type.shape, levels with
      | .array, _ => reader.arrayLength place
      | .map, levels + 1 => do
          let layout ← ofSchema (reader.schema.mapLayout place.type)
          let keys ← reader.variableAt layout.keys.type (← inside place layout.keys.offset)
          lengthWithin reader levels keys
      | _, _ => reader.wrong place "array or map"

/-- The number of elements of an array or of members of a map, which is the
length of its keys. -/
def length (reader : Reader) (place : Place) : Except InstanceError Nat :=
  reader.lengthWithin (reader.schema.arena.used + 1) place

/-- Whether an array or a map is empty. -/
def isEmpty (reader : Reader) (place : Place) : Except InstanceError Bool := do
  let length ← reader.length place
  return length = 0

/-- An element of an array. -/
def index (reader : Reader) (place : Place) (position : Nat) : Except InstanceError Place := do
  if place.type.shape ≠ .array then reader.wrong place "array"
  else
    let (pointer, length) ← reader.arrayParts place
    let outside := InstanceError.indexOutOfBounds position length
    match pointer, decide (position < length) with
    | some start, true =>
        match place.type.argument with
        | none => throw (.schema (reader.schema.malformed place.type .elementTypeMissing))
        | some id =>
            let element ← ofSchema (reader.schema.type id)
            if Offset.spaceSize ≤ position * element.slot.toNat then throw outside
            match start.add? (position * element.slot.toNat) with
            | some offset => reader.variableAt id offset
            | none => throw outside
    | _, _ => throw outside

/-- What is read at `count` positions from one on, up to the first failure. -/
def collect {Result : Type} (read : Nat -> Except InstanceError Result) :
    Nat -> Nat -> Except InstanceError (List Result)
  | 0, _ => .ok []
  | count + 1, position => do
      let first ← read position
      let rest ← collect read count (position + 1)
      return first :: rest

/-- All elements of an array. -/
def elements (reader : Reader) (place : Place) : Except InstanceError (List Place) := do
  let length ← reader.length place
  collect (reader.index place) length 0

/-- The parallel arrays of a map. -/
structure MapArrays where
  keys : Place
  values : Place
  strings : Place

/-- The parallel arrays of a map. -/
def mapArrays (reader : Reader) (place : Place) : Except InstanceError MapArrays := do
  if place.type.shape ≠ .map then reader.wrong place "map"
  else
    let layout ← ofSchema (reader.schema.mapLayout place.type)
    let keys ← reader.variableAt layout.keys.type (← inside place layout.keys.offset)
    let values ← reader.variableAt layout.values.type (← inside place layout.values.offset)
    let strings ← reader.variableAt layout.strings.type (← inside place layout.strings.offset)
    return ⟨keys, values, strings⟩

/-- The stored hashes of the keys of a map. -/
def hashes (reader : Reader) (keys : Place) : Except InstanceError (List UInt32) := do
  match ← reader.arrayParts keys with
  | (none, _) => return []
  | (some start, length) =>
      if 2 ^ 64 ≤ length * 4 then throw (.indexOutOfBounds length length)
      let bytes ← reader.bytesAt start (length * 4)
      return (List.range length).map fun position => Record.wordAt bytes (4 * position)

/-- The first of some positions of a map whose key is the given one. -/
def findKey (reader : Reader) (arrays : MapArrays) (key : String) :
    List Nat -> Except InstanceError (Option Place)
  | [] => .ok none
  | position :: rest => do
      let stored ← reader.index arrays.strings position
      if (← reader.text stored) = key then return some (← reader.index arrays.values position)
      else findKey reader arrays key rest

/-- The value of a member of a map.  The hashes are sorted, and the stored
keys decide among equal ones. -/
def mapGet (reader : Reader) (place : Place) (key : String) :
    Except InstanceError (Option Place) := do
  let arrays ← reader.mapArrays place
  let hashes := (← reader.hashes arrays.keys).toArray
  let hash := Checksum.nameHash key
  let start := Bisect.partitionPoint (fun position => hashes.getD position 0 < hash) hashes.size
  let run := ((List.range hashes.size).drop start).takeWhile
    (fun position => hashes.getD position 0 == hash)
  reader.findKey arrays key run

/-- A member of a map. -/
def mapEntry (reader : Reader) (arrays : MapArrays) (position : Nat) :
    Except InstanceError (String × Place) := do
  let stored ← reader.index arrays.strings position
  let key ← reader.text stored
  let value ← reader.index arrays.values position
  return (key, value)

/-- All members of a map, in the order of their hashes. -/
def mapEntries (reader : Reader) (place : Place) :
    Except InstanceError (List (String × Place)) := do
  let arrays ← reader.mapArrays place
  let length ← reader.length arrays.keys
  collect (reader.mapEntry arrays) length 0

/-- The place as it is shown in a diagnostic description of a value. -/
def describe (reader : Reader) (place : Place) : String :=
  "Peek \x7b type: " ++ Text.Quoted.quote (reader.name place) ++ ", at: " ++
    place.offset.describe ++ " \x7d"

end Reader
end PackedJson
