import PackedJson.Arena.Offset

namespace PackedJson

/-!
The ways in which an arena refuses a request.
-/

/-- Why an allocation or an access failed. -/
inductive ArenaError where
  /-- There is no storage behind the arena. -/
  | uninitialized
  /-- The arena only wraps bytes to be read. -/
  | readOnly
  /-- The storage is full and may not grow. -/
  | exhausted (requested available : Nat)
  /-- The host provides no more memory. -/
  | hostOutOfMemory (bytes : Nat)
  /-- The request is larger than a buffer or than the space of offsets. -/
  | tooLarge (requested : Nat)
  /-- The alignment is not a power of two, or too strict. -/
  | badAlignment (alignment : Nat)
  /-- The null offset was followed. -/
  | nullOffset
  /-- The region is not within the part in use. -/
  | outOfBounds (offset : Offset) (length : Nat)
deriving DecidableEq, Repr

namespace ArenaError

/-- The stable identifier of the kind of failure. -/
def code : ArenaError -> String
  | uninitialized => "arena::uninitialized"
  | readOnly => "arena::read_only"
  | exhausted .. => "arena::exhausted"
  | hostOutOfMemory .. => "arena::host_out_of_memory"
  | tooLarge .. => "arena::too_large"
  | badAlignment .. => "arena::bad_alignment"
  | nullOffset => "arena::null_offset"
  | outOfBounds .. => "arena::out_of_bounds"

/-- Whether the same request may succeed with more memory. -/
def isRetryable : ArenaError -> Bool
  | exhausted .. => true
  | hostOutOfMemory .. => true
  | _ => false

/-- The message shown for a failure. -/
def message : ArenaError -> String
  | uninitialized => "arena has no backing storage"
  | readOnly => "arena is read-only"
  | exhausted requested available =>
      s!"arena exhausted: requested {requested} bytes, {available} available"
  | hostOutOfMemory bytes => s!"host allocator failed to provide {bytes} bytes"
  | tooLarge requested => s!"request of {requested} bytes can never fit in the arena"
  | badAlignment alignment => s!"unsupported alignment {alignment}"
  | nullOffset => "null offset dereferenced"
  | outOfBounds offset length => s!"region {offset.display}+{length} is outside the arena"

end ArenaError
end PackedJson
