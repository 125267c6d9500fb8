import PackedJson.Packing.Basic

namespace PackedJson
namespace Packer

/-!
Packing values without parts.
-/

/-- Write an integer of 64 binary digits. -/
def integer (place : Offset) (path : Path) (value : Json) : PackM Unit :=
  match value with
  | .number (.integer number) =>
      if number < 2 ^ 63 then writeUnsigned place 8 (number % 2 ^ 64).toNat
      else raise (.numberOutOfRange number .integer) path
  | _ => mismatch (.value .integer) path value

/-- Write a number as a double. -/
def number (place : Offset) (path : Path) (value : Json) : PackM Unit :=
  match value with
  | .number number => writeUnsigned place 8 number.toBinary64.toNat
  | _ => mismatch (.value .number) path value

/-- Write a boolean as one byte. -/
def boolean (place : Offset) (path : Path) (value : Json) : PackM Unit :=
  match value with
  | .boolean holds => writeUnsigned place 1 holds.toNat
  | _ => mismatch (.value .boolean) path value

/-- Write a text of one byte as that byte. -/
def char (place : Offset) (path : Path) (value : Json) : PackM Unit :=
  match value with
  | .string text =>
      match text.toUTF8.data.toList with
      | [byte] => writeUnsigned place 1 byte.toNat
      | _ => mismatch .char path value
  | _ => mismatch .char path value

/-- Write an integer that is not negative in a given number of bytes. -/
def unsigned (width : Nat) (place : Offset) (path : Path) (value : Json) : PackM Unit :=
  match value with
  | .number (.integer number) =>
      if number < 0 then mismatch (.value .integer) path value
      else if 256 ^ min width 8 ≤ number then raise (.numberOutOfRange number .unsigned) path
      else writeUnsigned place width number.toNat
  | _ => mismatch (.value .integer) path value

/-- Check for null, which needs no bytes. -/
def unit (path : Path) (value : Json) : PackM Unit :=
  match value with
  | .null => pure ()
  | _ => mismatch (.value .null) path value

/-- Write a text: its bytes and a zero byte go to a region of their own, and
the capacity counts that byte. -/
def writeText (packer : Packer) (type : TypeDef) (place : Offset) (text : String) :
    PackM Unit := do
  let layout ← ask (packer.schema.arrayLayout type)
  let storage ← onData (Arena.storeText text)
  packer.writePointer (← inside place layout.pointer) storage
  packer.writeSize (← inside place layout.capacity) (text.utf8ByteSize + 1)
  packer.writeSize (← inside place layout.length) text.utf8ByteSize

/-- Write a string. -/
def string (packer : Packer) (type : TypeDef) (place : Offset) (path : Path) (value : Json) :
    PackM Unit :=
  match value with
  | .string text => packer.writeText type place text
  | _ => mismatch (.value .string) path value

end Packer
end PackedJson
