import PackedJson.Packing.Scalar

namespace PackedJson
namespace Packer

/-!
Packing objects, arrays and maps.

The fields of a struct are matched with the members of an object by name, in
the order of declaration.  Members that no field asks for are ignored, and a
field that need not be present is left as zeros.

The keys of a map are stored in the order of their hashes.  Each member goes
to a slot of its hash that is still free.  Among equal hashes the last one is
tried first, and then those before it.
-/

/-- The argument of an instance of a generic type. -/
def argument (packer : Packer) (type : TypeDef) : PackM TypeId :=
  match type.argument with
  | some id => pure id
  | none => throw (.schema (.unboundParameter (packer.schema.name type)))

/-- Write one field from the members of an object. -/
def writeField (packer : Packer) (write : Writer) (type : TypeDef) (place : Offset) (path : Path)
    (members : List (String × Json)) (first : Option Violation) (field : FieldDef) :
    PackM (Option Violation) := do
  let name ← ask (packer.schema.text field.jsonName)
  match Json.lookup? name members with
  | none =>
      if field.isRequired then gather (raise (.missingField name) path) first
      else return first
  | some member =>
      let id ← ask (packer.schema.fieldType type field)
      let inner ← inside place field.offset
      gather (packer.nested write id inner path (.key name) member) first

/-- Write an object as a struct. -/
def object (packer : Packer) (write : Writer) (type : TypeDef) (place : Offset) (path : Path)
    (value : Json) : PackM Unit :=
  match value with
  | .object members => do
      let fields ← ask (packer.schema.fieldsInOrder type)
      let first ← fields.foldlM (packer.writeField write type place path members) none
      settle first
  | _ => mismatch (.value .object) path value

/-- Make room for the elements of an array, and write the array itself. -/
def arrayStorage (packer : Packer) (type : TypeDef) (place : Offset) (length : Nat) :
    PackM Offset := do
  let layout ← ask (packer.schema.arrayLayout type)
  let storage ←
    if length = 0 then pure Offset.null
    else do
      let id ← packer.argument type
      let element ← ask (packer.schema.type id)
      onData (Arena.allocArray length element.slot.toNat (max element.align 1).toNat)
  packer.writePointer (← inside place layout.pointer) storage
  packer.writeSize (← inside place layout.capacity) length
  packer.writeSize (← inside place layout.length) length
  return storage

/-- Write the items of an array from some index on. -/
def writeItems (packer : Packer) (write : Writer) (id : TypeId) (stride : Nat)
    (storage : Offset) (path : Path) :
    List Json -> Nat -> Option Violation -> PackM (Option Violation)
  | [], _, first => return first
  | item :: rest, index, first => do
      let place ← element storage index stride
      let first ← gather (packer.nested write id place path (.index index) item) first
      writeItems packer write id stride storage path rest (index + 1) first

/-- Write an array. -/
def array (packer : Packer) (write : Writer) (type : TypeDef) (place : Offset) (path : Path)
    (value : Json) : PackM Unit :=
  match value with
  | .array items => do
      let id ← packer.argument type
      let storage ← packer.arrayStorage type place items.length
      let elementType ← ask (packer.schema.type id)
      let first ←
        packer.writeItems write id elementType.slot.toNat storage path items 0 none
      settle first
  | _ => mismatch (.value .array) path value

/-- The parallel arrays of a map that is being written. -/
structure MapStorage where
  /-- The sorted hashes of the keys. -/
  hashes : Array UInt32
  values : Offset
  valueStride : Nat
  strings : Offset
  stringType : TypeDef

/-- The place of a key. -/
def keyPlace (storage : MapStorage) (slot : Nat) : PackM Offset :=
  element storage.strings slot storage.stringType.slot.toNat

/-- The bytes of the key in a slot, unless the slot is free. -/
def storedKey (packer : Packer) (storage : MapStorage) (slot : Nat) :
    PackM (Option ByteArray) := do
  let place ← keyPlace storage slot
  let layout ← ask (packer.schema.arrayLayout storage.stringType)
  match ← packer.readPointer (← inside place layout.pointer) with
  | none => return none
  | some pointer =>
      let length ← readUnsigned (← inside place layout.length) packer.target.pointerWidth
      return some (← readBytes pointer length)

/-- The first of some slots that is free or holds the key already. -/
def freeSlot (packer : Packer) (storage : MapStorage) (key : ByteArray) :
    List Nat -> PackM (Option Nat)
  | [] => return none
  | slot :: rest => do
      match ← packer.storedKey storage slot with
      | none => return some slot
      | some stored =>
          if stored.data = key.data then return some slot else freeSlot packer storage key rest

/-- The slots of a hash, in the order in which they are tried. -/
def candidateSlots (hashes : Array UInt32) (hash : UInt32) : List Nat :=
  let hashAt (slot : Nat) : Nat := (hashes.getD slot 0).toNat
  match Bisect.last? hashAt hashes.size hash.toNat with
  | none => []
  | some start =>
      let equal (slot : Nat) : Bool := hashAt slot = hash.toNat
      (((List.range hashes.size).drop start).takeWhile equal) ++
        ((List.range start).reverse.takeWhile equal)

/-- The slot for a key. -/
def mapSlot (packer : Packer) (type : TypeDef) (storage : MapStorage) (key : String) :
    PackM Nat := do
  let slots := candidateSlots storage.hashes (Checksum.nameHash key)
  match ← packer.freeSlot storage key.toUTF8 slots with
  | some slot => return slot
  | none => throw (.schema (packer.schema.malformed type .slotMissing))

/-- Write the hashes of a map from some index on. -/
def writeHashes (keys : Offset) : List UInt32 -> Nat -> PackM Unit
  | [], _ => return ()
  | hash :: rest, index => do
      writeUnsigned (← element keys index 4) 4 hash.toNat
      writeHashes keys rest (index + 1)

/-- Write the parallel arrays of a map, with the hashes of its keys. -/
def mapStorage (packer : Packer) (place : Offset) (valueId : TypeId) (layout : Schema.MapLayout)
    (names : List String) : PackM MapStorage := do
  let hashes := Sorted.sortBy UInt32.toNat (names.map Checksum.nameHash)
  let keysType ← ask (packer.schema.type layout.keys.type)
  let keys ← packer.arrayStorage keysType (← inside place layout.keys.offset) names.length
  writeHashes keys hashes 0
  let valuesType ← ask (packer.schema.type layout.values.type)
  let values ← packer.arrayStorage valuesType (← inside place layout.values.offset) names.length
  let stringsType ← ask (packer.schema.type layout.strings.type)
  let strings ←
    packer.arrayStorage stringsType (← inside place layout.strings.offset) names.length
  let stringId ← packer.argument stringsType
  let stringType ← ask (packer.schema.type stringId)
  let valueType ← ask (packer.schema.type valueId)
  return ⟨hashes.toArray, values, valueType.slot.toNat, strings, stringType⟩

/-- Write one member of a map. -/
def writeMember (packer : Packer) (write : Writer) (type : TypeDef) (valueId : TypeId)
    (storage : MapStorage) (path : Path) (first : Option Violation) (member : String × Json) :
    PackM (Option Violation) := do
  let (key, value) := member
  let slot ← packer.mapSlot type storage key
  packer.writeText storage.stringType (← keyPlace storage slot) key
  let place ← element storage.values slot storage.valueStride
  gather (packer.nested write valueId place path (.key key) value) first

/-- Write an object as a map. -/
def map (packer : Packer) (write : Writer) (type : TypeDef) (place : Offset) (path : Path)
    (value : Json) : PackM Unit :=
  match value with
  | .object members => do
      let layout ← ask (packer.schema.mapLayout type)
      let valueId ← packer.argument type
      let storage ← packer.mapStorage place valueId layout (members.map Prod.fst)
      let first ← members.foldlM (packer.writeMember write type valueId storage path) none
      settle first
  | _ => mismatch (.value .object) path value

end Packer
end PackedJson
