import PackedJson.Arena.Basic
import PackedJson.LittleEndian
import PackedJson.Schema.Error

namespace PackedJson

/-!
Values stored in an arena as a fixed number of little-endian 32-bit words.

Reading fails when the region does not lie in the used part of the arena;
for the caller this means that a reference leads nowhere.
-/

/-- Values that are stored as records of a fixed number of words. -/
class Record (Value : Type) where
  wordCount : Nat
  toWords : Value -> Vector UInt32 wordCount
  /-- The value stored by some words; the place of the record is for messages. -/
  ofWords : Offset -> Vector UInt32 wordCount -> Except SchemaError Value

namespace Record

variable {Value : Type} [Record Value]

/-- The alignment of every record. -/
def alignment : Nat := 4

/-- The size of a record in bytes. -/
def size (Value : Type) [Record Value] : Nat := 4 * wordCount Value

/-- The bytes of a record. -/
def toBytes (value : Value) : ByteArray :=
  ((toWords value).toList.flatMap
    (fun word => LittleEndian.encode 4 word.toNat)).toByteArray

/-- The word that starts at a position of some bytes. -/
def wordAt (bytes : ByteArray) (position : Nat) : UInt32 :=
  UInt32.ofNat (LittleEndian.decode (bytes.extract position (position + 4)).data.toList)

/-- The value of the record that some bytes start with. -/
def ofBytes (place : Offset) (bytes : ByteArray) : Except SchemaError Value :=
  ofWords place (Vector.ofFn fun index => wordAt bytes (4 * index.val))

/-- The value of the record at an offset. -/
def read (Value : Type) [Record Value] (arena : Arena) (place : Offset) :
    Except SchemaError Value :=
  match arena.get? place (size Value) with
  | some bytes => ofBytes place bytes
  | none => .error (.danglingType place)

/-- Write a record over the region at an offset. -/
def write (place : Offset) (value : Value) : ArenaM Unit :=
  Arena.write place (toBytes value)

/-- Write a record into a region of its own. -/
def alloc (value : Value) : ArenaM Offset := do
  let place ← Arena.alloc (size Value) alignment
  write place value
  return place

end Record
end PackedJson
