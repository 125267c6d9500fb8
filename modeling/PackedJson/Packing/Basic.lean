import PackedJson.Packing.Error
import PackedJson.Schema.View
import PackedJson.Target

namespace PackedJson

/-!
What packing works with.

Packing writes a document into an arena as an instance of a type.  It keeps
going after a violation, so that the violations of a document are gathered;
any other failure ends it.  The place inside the document is handed down,
and the arena and the violations so far are the state.
-/

/-- The schema, the target and the limits that hold while documents are packed. -/
structure Packer where
  schema : Schema
  context : Context
  target : Target
  /-- The value added to every pointer that is written. -/
  pointerBase : Nat
  /-- The greatest number of steps from the document to a value. -/
  maxDepth : Nat

/-- The destination, and the violations that no field has captured. -/
structure PackState where
  data : Arena
  violations : List Violation

/-- Computations that pack documents.  What happened before a failure is kept. -/
abbrev PackM := EStateM PackError PackState

namespace Packer

/-- The limit on the depth of documents unless another one is set. -/
def defaultMaxDepth : Nat := 128

/-- How a value is written into the variable of a type at an offset. -/
abbrev Writer := TypeId -> Offset -> Path -> Json -> PackM Unit

/-- Run a computation on the destination. -/
def onData {Result : Type} (step : ArenaM Result) : PackM Result := fun state =>
  match state with
  | ⟨data, violations⟩ =>
      match step data with
      | .ok result data => .ok result ⟨data, violations⟩
      | .error cause data => .error (.ofArena cause) ⟨data, violations⟩

/-- The answer of the schema. -/
def ask {Result : Type} (answer : Except SchemaError Result) : PackM Result :=
  match answer with
  | .ok result => pure result
  | .error cause => throw (.schema cause)

/-- Note a violation, and fail with it. -/
def raise {Result : Type} (complaint : Complaint) (path : Path) : PackM Result := fun state =>
  .error (.violation ⟨complaint, path⟩)
    { state with violations := state.violations ++ [⟨complaint, path⟩] }

/-- Complain about the kind of a value. -/
def mismatch {Result : Type} (expected : Expectation) (path : Path) (value : Json) :
    PackM Result :=
  raise (.typeMismatch expected value.kind) path

/-- A position inside an instance. -/
def inside (place : Offset) (delta : UInt32) : PackM Offset :=
  match place.add? delta.toNat with
  | some offset => pure offset
  | none => throw (.outOfMemory (.tooLarge delta.toNat))

/-- The position of an element among elements of equal size. -/
def element (start : Offset) (index stride : Nat) : PackM Offset :=
  let refuse := throw (.outOfMemory (.tooLarge (min (index * stride) (2 ^ 64 - 1))))
  if index * stride < Offset.spaceSize then
    match start.add? (index * stride) with
    | some offset => pure offset
    | none => refuse
  else refuse

/-- Write a number of some bytes; one of no bytes goes nowhere. -/
def writeUnsigned (place : Offset) (width value : Nat) : PackM Unit := fun state =>
  if width = 0 then .ok () state
  else
    match state.data.checkWritable place width with
    | .error cause => .error (.ofArena cause) state
    | .ok _ =>
        if 8 < width then .error (.fault (.wideNumber width)) state
        else onData (Arena.write place (LittleEndian.encode width value).toByteArray) state

/-- The number stored in some bytes of the destination. -/
def readUnsigned (place : Offset) (width : Nat) : PackM Nat := fun state =>
  match state.data.slice place width with
  | .ok bytes => .ok (LittleEndian.decode bytes.data.toList) state
  | .error cause => .error (.ofArena cause) state

/-- Some bytes of the destination. -/
def readBytes (place : Offset) (length : Nat) : PackM ByteArray := fun state =>
  match state.data.slice place length with
  | .ok bytes => .ok bytes state
  | .error cause => .error (.ofArena cause) state

variable (packer : Packer)

/-- Write a size. -/
def writeSize (place : Offset) (value : Nat) : PackM Unit :=
  if packer.target.maxPointer < value then throw (.ofArena (.tooLarge value))
  else writeUnsigned place packer.target.pointerWidth value

/-- Write a pointer; the null offset becomes the null pointer. -/
def writePointer (place target : Offset) : PackM Unit :=
  if target.isNull then writeUnsigned place packer.target.pointerWidth 0
  else
    let raw := packer.pointerBase + target.toNat
    if packer.target.maxPointer < raw then throw (.ofArena (.tooLarge target.toNat))
    else writeUnsigned place packer.target.pointerWidth raw

/-- The offset that a pointer written before leads to; nothing for null. -/
def readPointer (place : Offset) : PackM (Option Offset) := do
  let raw ← readUnsigned place packer.target.pointerWidth
  if raw = 0 then return none
  let refuse := throw (.ofArena (.outOfBounds Offset.null 0))
  if raw < packer.pointerBase then refuse
  else
    match Offset.ofNat? (raw - packer.pointerBase) with
    | some offset => return some offset
    | none => refuse

/-- Write a value one step further inside the document. -/
def nested (write : Writer) (id : TypeId) (place : Offset) (path : Path) (segment : Segment)
    (value : Json) : PackM Unit :=
  if packer.maxDepth ≤ path.depth then raise (.tooDeep packer.maxDepth) path
  else write id place (path.child segment) value

/-- Take a step among siblings.  The first violation of all siblings is kept,
and the walk goes on after it. -/
def gather (step : PackM Unit) (first : Option Violation) : PackM (Option Violation) :=
  fun state =>
    match step state with
    | .ok _ state => .ok first state
    | .error (.violation violation) state => .ok (some (first.getD violation)) state
    | .error failure state => .error failure state

/-- Fail with the first violation among siblings, if there is one. -/
def settle (first : Option Violation) : PackM Unit :=
  match first with
  | some violation => throw (.violation violation)
  | none => pure ()

end Packer
end PackedJson
