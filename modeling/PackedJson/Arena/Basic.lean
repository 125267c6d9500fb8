import PackedJson.Arena.Error

namespace PackedJson

/-!
Arenas: storage that hands out zeroed regions addressed by offsets.

Regions are never given back; an arena only moves the end of its used part
forward.  An owned arena consists of buffers of equal capacity.  A region
never straddles two of them, so that a request which no longer fits the last
buffer starts the next one, if the arena may grow.  A borrowed arena hands
out the bytes of a buffer that its caller supplied, and a read-only arena
just wraps bytes.

`placement` decides where a request goes and why it is refused, without
touching the arena; `alloc` then occupies that place.  A refused request
therefore leaves the arena as it was.
-/

/-- How an owned arena sizes its buffers, and whether it may add more. -/
structure ArenaConfig where
  capacity : Nat := 65536
  growable : Bool := true
deriving DecidableEq, Repr

/-- What stands behind an arena. -/
inductive Storage where
  | absent
  /-- Buffers of equal capacity, and how many of them there are. -/
  | owned (capacity buffers : Nat) (growable : Bool)
  | borrowed
  | readOnly
deriving DecidableEq, Repr

/-- An arena: its storage, the bytes that exist in it, and the end of the part
in use.  The bytes of an owned arena end where its used part ends; those of
the other arenas are the wrapped ones. -/
structure Arena where
  storage : Storage
  bytes : ByteArray
  used : Nat

/-- Computations on an arena.  What happened before a failure is kept. -/
abbrev ArenaM := EStateM ArenaError Arena

namespace Arena

/-- The strictest alignment, and the unit in which buffers are sized. -/
def maxAlignment : Nat := 16

/-- The greatest position that a region may end at. -/
def positionLimit : Nat := 2 ^ 32 - 1

/-- A number of zero bytes. -/
def zeros (count : Nat) : ByteArray :=
  ⟨Array.replicate count 0⟩

/-- Replace the bytes from a position on. -/
def overwrite (bytes : ByteArray) (position : Nat) (source : ByteArray) : ByteArray :=
  source.copySlice 0 bytes position source.size

/-- The arena without storage. -/
def uninitialized : Arena := ⟨.absent, ByteArray.empty, 0⟩

instance : Inhabited Arena := ⟨uninitialized⟩

/-- An arena with its first buffer.  The capacity is rounded up to the unit
and must be an offset; the null position counts as used. -/
def owned (config : ArenaConfig) : Except ArenaError Arena :=
  match alignUp? (max config.capacity maxAlignment) maxAlignment with
  | none => .error (.tooLarge config.capacity)
  | some capacity =>
      if capacity ≤ positionLimit then
        .ok ⟨.owned capacity 1 config.growable, zeros 1, 1⟩
      else .error (.tooLarge config.capacity)

/-- An arena that hands out the bytes of a given buffer. -/
def borrowed (buffer : ByteArray) : Arena := ⟨.borrowed, buffer, 1⟩

/-- An arena whose bytes can only be read. -/
def readOnly (bytes : ByteArray) : Arena := ⟨.readOnly, bytes, bytes.size⟩

/-- Whether there is storage. -/
def isInitialized (arena : Arena) : Bool :=
  match arena.storage with
  | .absent => false
  | _ => true

/-- Whether the arena owns its buffers. -/
def isOwned (arena : Arena) : Bool :=
  match arena.storage with
  | .owned .. => true
  | _ => false

/-- Whether the arena refuses to be written. -/
def isReadOnly (arena : Arena) : Bool :=
  match arena.storage with
  | .readOnly => true
  | _ => false

/-- Whether an allocation may add a buffer. -/
def isGrowable (arena : Arena) : Bool :=
  match arena.storage with
  | .owned _ _ growable => growable
  | _ => false

/-- Whether all offsets lie in one range of host memory. -/
def isContiguous (arena : Arena) : Bool :=
  match arena.storage with
  | .borrowed => true
  | .readOnly => true
  | _ => false

/-- The number of bytes of storage. -/
def capacity (arena : Arena) : Nat :=
  match arena.storage with
  | .absent => 0
  | .owned capacity buffers _ => buffers * capacity
  | .borrowed => arena.bytes.size
  | .readOnly => arena.bytes.size

/-- Where a request goes, and how many buffers there are afterwards. -/
structure Placement where
  start : Nat
  stop : Nat
  buffers : Nat
deriving DecidableEq, Repr

/-- The place of a request in an owned arena: within the last buffer, else at
the start of a new one. -/
def ownedPlacement (capacity buffers used : Nat) (growable : Bool) (size alignment : Nat) :
    Except ArenaError Placement :=
  let start := alignUp used alignment
  let boundary := buffers * capacity
  if capacity < size then .error (.tooLarge size)
  else if start / capacity < buffers ∧ start + size ≤ (start / capacity + 1) * capacity then
    .ok ⟨start, start + size, buffers⟩
  else if ¬ growable then .error (.exhausted size (boundary - used))
  else if positionLimit < boundary + capacity then .error (.tooLarge size)
  else .ok ⟨boundary, boundary + size, buffers + 1⟩

/-- The place of a request in a borrowed buffer. -/
def borrowedPlacement (length used size alignment : Nat) : Except ArenaError Placement :=
  let start := alignUp used alignment
  if positionLimit < start + size then .error (.tooLarge size)
  else if length < start + size then .error (.exhausted size (length - used))
  else .ok ⟨start, start + size, 1⟩

/-- Whether an arena supports an alignment. -/
def isAlignment (alignment : Nat) : Bool :=
  [1, 2, 4, 8, 16].contains alignment

/-- Where a request goes, or why it is refused. -/
def placement (arena : Arena) (size alignment : Nat) : Except ArenaError Placement :=
  if ¬ isAlignment (max alignment 1) then .error (.badAlignment (max alignment 1))
  else
    match arena.storage with
    | .absent => .error .uninitialized
    | .readOnly => .error .readOnly
    | .borrowed => borrowedPlacement arena.bytes.size arena.used size (max alignment 1)
    | .owned capacity buffers growable =>
        ownedPlacement capacity buffers arena.used growable size (max alignment 1)

/-- Occupy a place: the bytes up to its end are zero from there on. -/
def occupy (place : Placement) : Arena -> Arena
  | ⟨.owned capacity _ growable, bytes, used⟩ =>
      ⟨.owned capacity place.buffers growable, bytes ++ zeros (place.stop - used), place.stop⟩
  | ⟨.borrowed, bytes, _⟩ =>
      ⟨.borrowed, overwrite bytes place.start (zeros (place.stop - place.start)), place.stop⟩
  | arena => arena

/-- Hand out a zeroed region of `size` bytes. -/
def alloc (size alignment : Nat) : ArenaM Offset := fun arena =>
  match arena.placement size alignment with
  | .error failure => .error failure arena
  | .ok place => .ok (Offset.ofNat place.start) (arena.occupy place)

/-- Hand out a region for `count` elements of equal size. -/
def allocArray (count elementSize alignment : Nat) : ArenaM Offset :=
  if count * elementSize < 2 ^ 64 then alloc (count * elementSize) alignment
  else throw (.tooLarge (2 ^ 64 - 1))

/-- Whether a region lies in the used part, within one buffer, and does not
start at the null offset. -/
def isReadable (arena : Arena) (offset : Offset) (length : Nat) : Bool :=
  let start := offset.toNat
  !offset.isNull && decide (start + length ≤ arena.used) &&
    match arena.storage with
    | .absent => false
    | .owned capacity buffers _ =>
        decide (start % capacity + length ≤ capacity ∧ start / capacity < buffers)
    | .borrowed => decide (start + length ≤ arena.bytes.size)
    | .readOnly => decide (start + length ≤ arena.bytes.size)

/-- The bytes of a region. -/
def get? (arena : Arena) (offset : Offset) (length : Nat) : Option ByteArray :=
  if arena.isReadable offset length then
    some (arena.bytes.extract offset.toNat (offset.toNat + length))
  else none

/-- The bytes of a region that may be written. -/
def getMutable? (arena : Arena) (offset : Offset) (length : Nat) : Option ByteArray :=
  if arena.isReadOnly then none else arena.get? offset length

/-- Why a region that is not readable cannot be accessed. -/
def accessError (offset : Offset) (length : Nat) : ArenaError :=
  if offset.isNull then .nullOffset else .outOfBounds offset length

/-- The bytes of a region, or why there are none. -/
def slice (arena : Arena) (offset : Offset) (length : Nat) : Except ArenaError ByteArray :=
  match arena.get? offset length with
  | some bytes => .ok bytes
  | none => .error (accessError offset length)

/-- Whether a region may be written, or why not. -/
def checkWritable (arena : Arena) (offset : Offset) (length : Nat) : Except ArenaError Unit :=
  if arena.isReadOnly then .error .readOnly
  else if arena.isReadable offset length then .ok ()
  else .error (accessError offset length)

/-- The bytes of a region that may be written, or why there are none. -/
def sliceMutable (arena : Arena) (offset : Offset) (length : Nat) :
    Except ArenaError ByteArray := do
  arena.checkWritable offset length
  arena.slice offset length

/-- Write bytes into a region. -/
def write (offset : Offset) (source : ByteArray) : ArenaM Unit := fun arena =>
  match arena.checkWritable offset source.size with
  | .error failure => .error failure arena
  | .ok _ =>
      match arena with
      | ⟨storage, bytes, used⟩ => .ok () ⟨storage, overwrite bytes offset.toNat source, used⟩

/-- Write zeros into a region. -/
def zero (offset : Offset) (length : Nat) : ArenaM Unit := fun arena =>
  match arena.checkWritable offset length with
  | .error failure => .error failure arena
  | .ok _ => write offset (zeros length) arena

/-- Store a text behind which a zero byte follows. -/
def storeText (text : String) : ArenaM Offset := do
  let offset ← alloc (text.utf8ByteSize + 1) 1
  write offset text.toUTF8
  return offset

/-- Store bytes in a region of their own. -/
def copyObject (source : ByteArray) (alignment : Nat) : ArenaM Offset := do
  let offset ← alloc source.size alignment
  write offset source
  return offset

/-- The used part as one sequence of bytes, in which positions are offsets. -/
def contents (arena : Arena) : ByteArray :=
  match arena.storage with
  | .absent => ByteArray.empty
  | .owned .. => arena.bytes
  | .borrowed => arena.bytes.extract 0 arena.used
  | .readOnly => arena.bytes

/-- One of the buffers of an owned arena.  Behind the used part it is zero. -/
def buffer (arena : Arena) (capacity index : Nat) : ByteArray :=
  let present := arena.bytes.extract (index * capacity) (index * capacity + capacity)
  present ++ zeros (capacity - present.size)

/-- The used part put together from the storage: the buffers before the last
one whole, and the last one up to the end of the used part.  There is nothing
to cut where the used part does not end in that last buffer. -/
def flatten? (arena : Arena) : Option ByteArray :=
  match arena.storage with
  | .absent => some ByteArray.empty
  | .owned capacity buffers _ =>
      let last := buffers - 1
      if 0 < buffers ∧ last * capacity ≤ arena.used ∧ arena.used - last * capacity ≤ capacity then
        let whole := (List.range last).foldl
          (fun joined index => joined ++ arena.buffer capacity index) ByteArray.empty
        some (whole ++ (arena.buffer capacity last).extract 0 (arena.used - last * capacity))
      else none
  | .borrowed =>
      if arena.used ≤ arena.bytes.size then some (arena.bytes.extract 0 arena.used) else none
  | .readOnly => some arena.bytes

/-- Bytes in the hands of a caller: a part of the arena, or others. -/
inductive Region where
  | within (start length : Nat)
  | elsewhere (bytes : ByteArray)

/-- A region of the arena. -/
def region? (arena : Arena) (offset : Offset) (length : Nat) : Option Region :=
  if arena.isReadable offset length then some (.within offset.toNat length) else none

/-- A region without its first bytes. -/
def Region.drop (count : Nat) : Region -> Region
  | within start length => within (start + min count length) (length - count)
  | elsewhere bytes => elsewhere (bytes.extract count bytes.size)

/-- The offset at which a region starts; bytes from elsewhere have none. -/
def offsetOf? : Region -> Option Offset
  | .within start _ => (Offset.ofNat? start).bind Offset.nonNull?
  | .elsewhere _ => none

/-- The name of the kind of storage. -/
def mode (arena : Arena) : String :=
  match arena.storage with
  | .absent => "uninitialized"
  | .owned _ _ true => "owned-growable"
  | .owned _ _ false => "owned-fixed"
  | .borrowed => "borrowed"
  | .readOnly => "read-only"

/-- The arena as it is shown in a diagnostic description of a value. -/
def describe (arena : Arena) : String :=
  s!"Arena \x7b mode: \"{arena.mode}\", used: {arena.used}, capacity: {arena.capacity} \x7d"

end Arena
end PackedJson
