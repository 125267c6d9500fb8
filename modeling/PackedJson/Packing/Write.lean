import PackedJson.Packing.Alternative
import PackedJson.Packing.Compound

namespace PackedJson
namespace Packer

/-!
Packing values of any type.

Two kinds of steps lead from one type to another.  A wrapper or a variant
hands the same value on to another type, and a container hands on the values
inside.  The descent into the document is bounded by its height.

A corrupt schema may hand a value on in a circle.  Where every round makes
room for another instance, the destination is full in the end.  Where a value
comes back to the same variable with no more of the destination in use, every
later round is like the first one, and packing fails.
-/

/-- A value handed on to another type: the variable that it is to be written
into, and how much of the destination is in use by then. -/
structure Handoff where
  type : TypeId
  place : Offset
  used : Nat
deriving DecidableEq, Repr

/-- A limit on the handoffs of one value.  It is the number of different ones,
and none of them is made twice. -/
def handoffLimit : Nat := Offset.spaceSize ^ 3

/-- How much of the destination is in use. -/
def used : PackM Nat := fun state => .ok state.data.used state

/-- Write a value as an instance of a builtin. -/
def writeBuiltin (packer : Packer) (type : TypeDef) (place : Offset) (path : Path)
    (value : Json) : Builtin -> PackM Unit
  | .integer => integer place path value
  | .number => number place path value
  | .boolean => boolean place path value
  | .char => char place path value
  | .pointer => unsigned type.size.toNat place path value
  | .size => unsigned type.size.toNat place path value
  | .hash => unsigned type.size.toNat place path value
  | .tag => unsigned type.size.toNat place path value
  | .unit => unit path value
  | .string => packer.string type place path value
  | _ => throw (.schema (.unboundParameter (packer.schema.name type)))

/-- Whether a type is an instance of a generic builtin. -/
def isInstance (packer : Packer) (type : TypeDef) (generic : Builtin) : Bool :=
  match type.prototype with
  | some prototype => packer.context.is prototype generic
  | none => false

/-- Write a value as an instance of a type, where `same` writes the value
itself into another variable, and `inner` the values inside it. -/
def writeInstance (packer : Packer) (same inner : Writer) (id : TypeId) (type : TypeDef)
    (place : Offset) (path : Path) (value : Json) : PackM Unit :=
  match packer.context.builtinOf? id with
  | some builtin => packer.writeBuiltin type place path value builtin
  | none =>
      if packer.isInstance type .option then packer.option same type place path value
      else if packer.isInstance type .result then packer.result same type place path value
      else
        match type.shape with
        | .struct => packer.object inner type place path value
        | .array => packer.array inner type place path value
        | .map => packer.map inner type place path value
        | .variant => packer.variant same type place path value

/-- Make room for an instance of a type. -/
def allocInstance (packer : Packer) (type : TypeDef) : PackM Offset := do
  let alignment ← ask (packer.schema.instanceAlign type)
  onData (Arena.alloc type.size.toNat alignment.toNat)

/-- Write a value into a variable of a type: in place, or into an instance of
its own that the variable points to. -/
def writeVariable (packer : Packer) (same inner : Writer) (id : TypeId) (place : Offset)
    (path : Path) (value : Json) : PackM Unit := do
  let type ← ask (packer.schema.type id)
  if type.isStoredByReference then
    let target ← packer.allocInstance type
    packer.writePointer place target
    packer.writeInstance same inner id type target path value
  else packer.writeInstance same inner id type place path value

/-- Write a value, with a bound on the handoffs that are left and the earlier
ones.  Of these only the ones that found as much of the destination in use can
come again, since the destination never empties. -/
def writeWrapped (packer : Packer) (inner : Writer) : Nat -> List Handoff -> Writer
  | 0, _ => fun _ _ _ _ => throw (.fault .endlessDescent)
  | steps + 1, earlier => fun id place path value => do
      let handoff : Handoff := ⟨id, place, ← used⟩
      let alike := earlier.filter fun other => other.used == handoff.used
      if alike.contains handoff then throw (.fault .endlessDescent)
      else
        packer.writeVariable (writeWrapped packer inner steps (handoff :: alike)) inner id place
          path value

/-- Write a value with a bound on its height. -/
def write (packer : Packer) : Nat -> Writer
  | 0 => fun _ _ _ _ => throw (.fault .endlessDescent)
  | levels + 1 => packer.writeWrapped (write packer levels) handoffLimit []

/-- Pack a document as an instance of a type.  The answer is its offset. -/
def pack (packer : Packer) (id : TypeId) (value : Json) : PackM Offset := do
  modify fun state => { state with violations := [] }
  let type ← ask (packer.schema.type id)
  let place ← packer.allocInstance type
  let inner := packer.write value.height
  let same := packer.writeWrapped inner handoffLimit []
  packer.writeInstance same inner id type place Path.root value
  return place

end Packer
end PackedJson
