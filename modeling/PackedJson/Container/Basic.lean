import PackedJson.Container.Error
import PackedJson.Schema.View
import PackedJson.Target

namespace PackedJson

/-!
Compiled schemas as bytes.

A container starts with a mark of two bytes, a version, and a byte that is not
used.  The hash of the schema and the tables of the two targets follow, and
after them the bytes of the arena, where positions are offsets.  All numbers
are little-endian.
-/

/-- A compiled schema: the hash of its layout, the tables of both targets, and
the arena that holds the types. -/
structure Container where
  schemaHash : UInt32
  wasm : Context
  native : Context
  arena : Arena

namespace Container

/-- The mark of the format. -/
def magic : Nat := 0xDEF1

/-- The size of a stored table. -/
def contextSize : Nat := Record.size Context

/-- The types of the schema. -/
def schema (container : Container) : Schema := ⟨container.arena⟩

/-- The table of a target. -/
def context (container : Container) : Target -> Context
  | .wasm32 => container.wasm
  | .native => container.native

/-- The parts that precede the arena. -/
structure Preamble where
  schemaHash : UInt32
  wasm : Context
  native : Context

/-- A stored table. -/
def readContext (bytes : ByteArray) (position : Nat) : Except ContainerError Context :=
  match Record.ofBytes Offset.null (bytes.extract position (position + contextSize)) with
  | .ok context => .ok context
  | .error cause => .error (.schema cause)

/-- The parts that precede the arena.  The mark and the version are looked at
as soon as there are enough bytes for them. -/
def readPreamble (bytes : ByteArray) : Except ContainerError Preamble := do
  if bytes.size < 4 then throw (.truncated bytes.size)
  let head := (bytes.extract 0 4).data.toList.map UInt8.toNat
  let found := head.getD 0 0 + 256 * head.getD 1 0
  if found ≠ magic then throw (.badMagic found)
  if head.getD 2 0 ≠ ContainerError.version then throw (.unsupportedVersion (head.getD 2 0))
  if bytes.size < ContainerError.preambleSize then throw (.truncated bytes.size)
  let wasm ← readContext bytes 8
  let native ← readContext bytes (8 + contextSize)
  return ⟨Record.wordAt bytes 4, wasm, native⟩

/-- The container that some bytes hold.  Its arena can only be read. -/
def read (bytes : ByteArray) : Except ContainerError Container := do
  let preamble ← readPreamble bytes
  return ⟨preamble.schemaHash, preamble.wasm, preamble.native,
    Arena.readOnly (bytes.extract ContainerError.preambleSize bytes.size)⟩

/-- The container that a stream delivers piece by piece. -/
def readStream (pieces : List ByteArray) : Except ContainerError Container :=
  read (pieces.foldl (· ++ ·) ByteArray.empty)

/-- The bytes that precede the arena. -/
def preambleBytes (container : Container) : ByteArray :=
  (LittleEndian.encode 2 magic ++ LittleEndian.encode 1 ContainerError.version ++ [0] ++
    LittleEndian.encode 4 container.schemaHash.toNat).toByteArray ++
    Record.toBytes container.wasm ++ Record.toBytes container.native

/-- The bytes of a container, which must own its arena. -/
def toBytes (container : Container) : Except ContainerError ByteArray :=
  if container.arena.isOwned then .ok (container.preambleBytes ++ container.arena.contents)
  else .error .borrowedArena

/-- The bytes of a container, to be written where there is room for `room` bytes. -/
def writeWithin (container : Container) (room : Nat) : Except ContainerError ByteArray := do
  let bytes ← container.toBytes
  if bytes.size ≤ room then return bytes else throw (.stream .writerFull)

end Container
end PackedJson
