import PackedJson.Schema.Flags
import PackedJson.Schema.Record

namespace PackedJson

/-!
The records of types and fields.

A type is referred to by the offset of its record.  A type knows where its
field records start and how many there are; an instance of a generic type
remembers that type and its argument.  A field without a type stands for the
parameter of a generic type.
-/

/-- A reference to the record of a type. -/
structure TypeId where
  offset : Offset
deriving DecidableEq, Repr, Inhabited

namespace TypeId

/-- The offset of a reference that may be missing. -/
def toOffset (type : Option TypeId) : Offset :=
  match type with
  | some type => type.offset
  | none => Offset.null

/-- The reference that an offset stands for, if any. -/
def ofOffset? (offset : Offset) : Option TypeId :=
  offset.nonNull?.map TypeId.mk

/-- The reference as it is shown in a diagnostic description of a value. -/
def describe (type : TypeId) : String := s!"TypeId({type.offset.display})"

/-- The reference in messages. -/
def display (type : TypeId) : String := s!"type@{type.offset.display}"

end TypeId

/-- A text stored in an arena, where a zero byte follows it. -/
structure TextRef where
  offset : Offset
  length : UInt32
deriving DecidableEq, Repr

/-- The empty text, which is stored nowhere. -/
def TextRef.empty : TextRef := ⟨Offset.null, 0⟩

/-- The families of layouts. -/
inductive Shape where
  /-- Fields one after another; a scalar has none. -/
  | struct
  /-- A tag, and alternatives that share the place behind it. -/
  | variant
  /-- A pointer to elements, a capacity and a length. -/
  | array
  /-- Parallel arrays of key hashes, values and keys. -/
  | map
deriving DecidableEq, Repr

namespace Shape

/-- The name of a shape in listings. -/
def name : Shape -> String
  | struct => "struct"
  | variant => "variant"
  | array => "array"
  | map => "map"

/-- The number that a record stores for a shape. -/
def toNat : Shape -> Nat
  | struct => 0
  | variant => 1
  | array => 2
  | map => 3

/-- The shape that a number stands for. -/
def ofNat? : Nat -> Option Shape
  | 0 => some struct
  | 1 => some variant
  | 2 => some array
  | 3 => some map
  | _ => none

end Shape

/-- The description of a type. -/
structure TypeDef where
  name : TextRef
  /-- The first field record. -/
  fields : Offset
  fieldCount : UInt32
  /-- The generic type this is an instance of, or the prototype of a declared type. -/
  prototype : Option TypeId
  /-- The argument of an instance, which is the type of its elements. -/
  argument : Option TypeId
  /-- The number of bytes of an instance. -/
  size : UInt32
  /-- The number of bytes of a variable: an instance, or a pointer to one. -/
  slot : UInt32
  /-- The alignment of a variable. -/
  align : UInt32
  flags : TypeFlags
  shape : Shape
deriving DecidableEq

namespace TypeDef

/-- A type of a given shape without fields and size. -/
def ofShape (name : TextRef) (shape : Shape) : TypeDef :=
  ⟨name, Offset.null, 0, none, none, 0, 0, 1, FlagSet.empty, shape⟩

/-- A builtin scalar, which is aligned to its own size. -/
def scalar (name : TextRef) (size : UInt32) : TypeDef :=
  ⟨name, Offset.null, 0, none, none, size, size, if size = 0 then 1 else size,
    TypeFlags.builtin, .struct⟩

/-- Whether a variable of the type is a pointer to an instance. -/
def isStoredByReference (type : TypeDef) : Bool :=
  type.flags.contains TypeFlags.storedByReference

/-- Whether the type is generic. -/
def isGeneric (type : TypeDef) : Bool := type.flags.contains TypeFlags.generic

/-- Whether the type belongs to every schema. -/
def isBuiltin (type : TypeDef) : Bool := type.flags.contains TypeFlags.builtin

end TypeDef

/-- The last word of a type record: flags and shape, then two bytes of padding. -/
def TypeDef.tailWord (flags : TypeFlags) (shape : Shape) : UInt32 :=
  UInt32.ofNat (flags.toByte.toNat + 256 * shape.toNat)

instance : Record TypeDef where
  wordCount := 10
  toWords type := #v[type.name.offset.raw, type.name.length, type.fields.raw, type.fieldCount,
    (TypeId.toOffset type.prototype).raw, (TypeId.toOffset type.argument).raw,
    type.size, type.slot, type.align, TypeDef.tailWord type.flags type.shape]
  ofWords place words :=
    let tail := words[9].toNat
    let shape := tail / 256 % 256
    match Shape.ofNat? shape with
    | none => .error (.unknownShape place shape)
    | some shape => .ok {
        name := ⟨⟨words[0]⟩, words[1]⟩
        fields := ⟨words[2]⟩
        fieldCount := words[3]
        prototype := TypeId.ofOffset? ⟨words[4]⟩
        argument := TypeId.ofOffset? ⟨words[5]⟩
        size := words[6]
        slot := words[7]
        align := words[8]
        flags := FlagSet.ofByte (UInt8.ofNat tail)
        shape := shape }

/-- The description of a field. -/
structure FieldDef where
  /-- The name of the member in documents. -/
  jsonName : TextRef
  /-- The name in generated declarations. -/
  companionName : TextRef
  type : Option TypeId
  /-- The hash of the name in documents. -/
  hash : UInt32
  /-- The position inside an instance. -/
  offset : UInt32
  /-- The place in the order of declaration. -/
  order : UInt32
  flags : FieldFlags
  /-- The tag that selects the field in a wrapper. -/
  activation : UInt8
  /-- The tag that selects the field in a declared variant. -/
  choice : UInt8
deriving DecidableEq

namespace FieldDef

/-- A field with equal names that is neither required nor placed yet. -/
def ofName (name : TextRef) (hash : UInt32) (type : Option TypeId) (order : UInt32) : FieldDef :=
  ⟨name, name, type, hash, 0, order, FlagSet.empty, 0, 0⟩

/-- Whether the field must be present. -/
def isRequired (field : FieldDef) : Bool := field.flags.contains FieldFlags.required

/-- Whether violations inside the field are captured. -/
def canFail (field : FieldDef) : Bool := field.flags.contains FieldFlags.canFail

/-- The last word of a field record: flags and tags, then a byte of padding. -/
def tailWord (flags : FieldFlags) (activation choice : UInt8) : UInt32 :=
  UInt32.ofNat (flags.toByte.toNat + 256 * activation.toNat + 65536 * choice.toNat)

end FieldDef

instance : Record FieldDef where
  wordCount := 9
  toWords field := #v[field.jsonName.offset.raw, field.jsonName.length,
    field.companionName.offset.raw, field.companionName.length,
    (TypeId.toOffset field.type).raw, field.hash, field.offset, field.order,
    FieldDef.tailWord field.flags field.activation field.choice]
  ofWords _ words :=
    let tail := words[8].toNat
    .ok {
      jsonName := ⟨⟨words[0]⟩, words[1]⟩
      companionName := ⟨⟨words[2]⟩, words[3]⟩
      type := TypeId.ofOffset? ⟨words[4]⟩
      hash := words[5]
      offset := words[6]
      order := words[7]
      flags := FlagSet.ofByte (UInt8.ofNat tail)
      activation := UInt8.ofNat (tail / 256)
      choice := UInt8.ofNat (tail / 65536) }

end PackedJson
