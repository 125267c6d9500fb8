namespace PackedJson
namespace Checksum

/-!
The 32-bit cyclic redundancy check with reflected polynomial `0xEDB88320`,
started from all ones and complemented at the end.

It serves two purposes.  Applied to the bytes of a name it gives the hash by
which struct fields and map keys are ordered and looked up; applied to a
layout listing it identifies a compiled schema.  The definition divides one
bit at a time, so that it can be read as the division it is.
-/

/-- One step of the division: the lowest bit leaves the remainder, and the
polynomial is subtracted when that bit was set. -/
def shift (remainder : UInt32) : UInt32 :=
  if remainder &&& 1 = 1 then (remainder >>> 1) ^^^ 0xEDB88320 else remainder >>> 1

/-- Feed one byte, lowest bit first. -/
def absorb (remainder : UInt32) (byte : UInt8) : UInt32 :=
  Nat.repeat shift 8 (remainder ^^^ byte.toUInt32)

/-- The check of a sequence of bytes. -/
def crc32 (bytes : ByteArray) : UInt32 :=
  bytes.data.toList.foldl absorb 0xFFFFFFFF ^^^ 0xFFFFFFFF

/-- The hash of a field name or of a map key. -/
def nameHash (name : String) : UInt32 :=
  crc32 name.toUTF8

end Checksum
end PackedJson
