import PackedJson.Power

namespace PackedJson

/-!
Sets of named properties, stored as one byte.

The property in place `i` of the list of names is stored as bit `i`.  A byte
read from elsewhere may have further bits set; they are dropped.
-/

/-- A set of properties out of a list of names. -/
structure FlagSet (names : List String) where
  bits : BitVec names.length
deriving DecidableEq

namespace FlagSet

variable {names : List String}

/-- The set without any property. -/
def empty : FlagSet names := ⟨0⟩

instance : Inhabited (FlagSet names) := ⟨empty⟩

/-- The set that holds the property in one place of the list. -/
def single (place : Nat) : FlagSet names := ⟨BitVec.ofNat names.length (2 ^ place)⟩

/-- Whether there is no property in the set. -/
def isEmpty (flags : FlagSet names) : Bool := flags.bits == 0

/-- Whether every property of `other` is in the set. -/
def contains (flags other : FlagSet names) : Bool := flags.bits &&& other.bits == other.bits

/-- The properties of both sets. -/
def insert (flags other : FlagSet names) : FlagSet names := ⟨flags.bits ||| other.bits⟩

/-- The properties that are not in `other`. -/
def remove (flags other : FlagSet names) : FlagSet names := ⟨flags.bits &&& ~~~other.bits⟩

/-- Insert or remove properties. -/
def set (flags other : FlagSet names) (present : Bool) : FlagSet names :=
  if present then flags.insert other else flags.remove other

/-- The set as a byte. -/
def toByte (flags : FlagSet names) : UInt8 := UInt8.ofNat flags.bits.toNat

/-- The set that a byte stores. -/
def ofByte (byte : UInt8) : FlagSet names := ⟨BitVec.ofNat names.length byte.toNat⟩

/-- The names of the properties in the set. -/
def toNames (flags : FlagSet names) : List String :=
  (List.range names.length).filterMap fun place =>
    if flags.bits.getLsbD place then names[place]? else none

/-- The set as it is shown in a diagnostic description of a value. -/
def describe (flags : FlagSet names) : String :=
  "\x7b" ++ String.intercalate ", " flags.toNames ++ "\x7d"

/-- A set of at most eight properties survives being stored. -/
theorem ofByte_toByte (few : names.length ≤ 8) (flags : FlagSet names) :
    ofByte flags.toByte = flags := by
  have bound : flags.bits.toNat < 2 ^ 8 :=
    Nat.lt_of_lt_of_le flags.bits.isLt (Nat.pow_le_pow_right (by decide) few)
  unfold ofByte toByte
  rw [UInt8.toNat_ofNat', Nat.mod_eq_of_lt bound, BitVec.ofNat_toNat, BitVec.setWidth_eq]

end FlagSet

/-- Properties of a type. -/
abbrev TypeFlags : Type :=
  FlagSet ["STORED_BY_REFERENCE", "BUILTIN", "TYPE_CONSTRUCTOR", "NON_EXHAUSTIVE",
    "HAS_HASH_COLLISIONS"]

namespace TypeFlags

/-- Instances live apart, and a variable of the type is a pointer. -/
def storedByReference : TypeFlags := FlagSet.single 0

/-- The type belongs to every schema. -/
def builtin : TypeFlags := FlagSet.single 1

/-- The type is a generic one, to be instantiated at an argument. -/
def generic : TypeFlags := FlagSet.single 2

/-- A variant that may gain alternatives. -/
def nonExhaustive : TypeFlags := FlagSet.single 3

/-- Two fields have names of the same hash. -/
def hasHashCollisions : TypeFlags := FlagSet.single 4

end TypeFlags

/-- Properties of a field. -/
abbrev FieldFlags : Type := FlagSet ["REQUIRED", "CAN_FAIL"]

namespace FieldFlags

/-- The field must be present in the document. -/
def required : FieldFlags := FlagSet.single 0

/-- Violations inside the field are captured in its value. -/
def canFail : FieldFlags := FlagSet.single 1

end FieldFlags
end PackedJson
