import PackedJson.Schema.Error

namespace PackedJson

/-!
The ways in which a stored schema cannot be read or written.
-/

/-- Why the stream under a container failed. -/
inductive StreamError where
  /-- The writer accepts no more bytes. -/
  | writerFull
deriving DecidableEq, Repr

/-- The message shown for the failure of a stream. -/
def StreamError.message : StreamError -> String
  | writerFull => "failed to write whole buffer"

/-- Why a container could not be read or written. -/
inductive ContainerError where
  /-- The bytes do not start with the mark of the format. -/
  | badMagic (found : Nat)
  | unsupportedVersion (found : Nat)
  /-- The bytes end before the arena starts. -/
  | truncated (length : Nat)
  /-- The arena wraps bytes that the container does not own. -/
  | borrowedArena
  | stream (cause : StreamError)
  | schema (cause : SchemaError)
deriving DecidableEq, Repr

namespace ContainerError

/-- The bytes before the arena of a container. -/
def preambleSize : Nat := 160

/-- The version of the format. -/
def version : Nat := 1

/-- The stable identifier of the kind of failure. -/
def code : ContainerError -> String
  | badMagic _ => "container::bad_magic"
  | unsupportedVersion _ => "container::unsupported_version"
  | truncated _ => "container::truncated"
  | borrowedArena => "container::borrowed_arena"
  | stream _ => "container::io"
  | schema _ => "container::schema"

/-- The message shown for a failure. -/
def message : ContainerError -> String
  | badMagic found => "not a schema container (magic " ++ Text.Hex.padded 4 found ++ ")"
  | unsupportedVersion found =>
      s!"unsupported container version {found} (expected {version})"
  | truncated length =>
      s!"container truncated: {length} bytes, at least {preambleSize} needed"
  | borrowedArena => "only schemas built in an owned arena can be written"
  | stream cause => "container I/O: " ++ cause.message
  | schema cause => "container: " ++ cause.message

/-- The message of the failure behind a failure. -/
def sourceMessage? : ContainerError -> Option String
  | stream cause => some cause.message
  | schema cause => some cause.message
  | _ => none

end ContainerError
end PackedJson
