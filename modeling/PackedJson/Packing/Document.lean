import PackedJson.Container.Basic
import PackedJson.Json.Reader
import PackedJson.Packing.Write

namespace PackedJson

/-!
Packing documents given as bytes with schemas given as bytes.

A caller states the hash of the schema and the size of the root that it was
built against.  Both are compared before the document is looked at.  The
schema may describe a part of the document only.
-/

/-- What a caller expects and asks for. -/
structure PackOptions where
  target : Target
  expectedSize : Nat
  expectedHash : Nat
  maxDepth : Nat := Packer.defaultMaxDepth
  /-- The value added to every pointer, unless the default for the target and
  the destination suits. -/
  pointerBase : Option Nat := none

/-- A packed document: where its root is, and the destination. -/
structure Packed where
  root : Offset
  data : Arena

namespace Packed

/-- Where the part in use ends. -/
def stop (packed : Packed) : Nat := packed.data.used

end Packed

namespace Packer

/-- The value added to pointers by default: a host that works on the
destination in place finds its instances at the address of the destination. -/
def defaultBase (target : Target) (address : Option Nat) : Nat :=
  match target with
  | .native => address.getD 0
  | .wasm32 => 0

/-- The root of a schema, if the schema is the one that the caller expects. -/
def checkedRoot (container : Container) (options : PackOptions) : Except PackError TypeId := do
  let hash := container.schemaHash.toNat
  if hash ≠ options.expectedHash then throw (.mismatch .schemaHash options.expectedHash hash)
  match container.schema.root (container.context options.target) with
  | .error cause => throw (.schema cause)
  | .ok root =>
      match container.schema.type root with
      | .error cause => throw (.schema cause)
      | .ok type =>
          if type.size.toNat = options.expectedSize then return root
          else throw (.mismatch .rootSize options.expectedSize type.size.toNat)

/-- The part of a document that the root of a schema describes. -/
def documentSlice (schema : Schema) (context : Context) (document : Json) :
    Except PackError Json :=
  match schema.text context.slice with
  | .error cause => .error (.schema cause)
  | .ok pointer =>
      if pointer.isEmpty then .ok document
      else
        match Json.Pointer.resolve? pointer document with
        | some value => .ok value
        | none => .error (.violation ⟨.missingSlice, Path.ofPointer pointer⟩)

/-- Pack a document given as bytes into a destination whose address is known
or not. -/
def packDocument (container : Container) (root : TypeId) (bytes : ByteArray) (data : Arena)
    (address : Option Nat) (options : PackOptions) : Except PackError Packed := do
  match Json.ofBytes? bytes with
  | none => throw .invalidJson
  | some document =>
      let context := container.context options.target
      let value ← documentSlice container.schema context document
      let packer : Packer := {
        schema := container.schema
        context := context
        target := options.target
        pointerBase := options.pointerBase.getD (defaultBase options.target address)
        maxDepth := options.maxDepth }
      match packer.pack root value ⟨data, []⟩ with
      | .ok place state => return ⟨place, state.data⟩
      | .error failure _ => throw failure

/-- The container that some bytes hold. -/
def readContainer (bytes : ByteArray) : Except PackError Container :=
  match Container.read bytes with
  | .ok container => .ok container
  | .error cause => .error (.invalidContainer cause)

/-- Pack a document into a buffer that lies at an address of the host. -/
def packInto (schema document : ByteArray) (buffer : ByteArray) (address : Nat)
    (options : PackOptions) : Except PackError Packed := do
  let container ← readContainer schema
  let root ← checkedRoot container options
  packDocument container root document (Arena.borrowed buffer) (some address) options

/-- Pack a document into an arena of its own. -/
def packOwned (schema document : ByteArray) (config : ArenaConfig) (options : PackOptions) :
    Except PackError Packed := do
  let container ← readContainer schema
  let root ← checkedRoot container options
  match Arena.owned config with
  | .error cause => throw (.ofArena cause)
  | .ok data => packDocument container root document data none options

/-- Pack one value into a destination that is in use already. -/
def processDocument (schema : Schema) (context : Context) (target : Target)
    (address : Option Nat) (root : TypeId) (value : Json) : PackM Offset :=
  pack ⟨schema, context, target, defaultBase target address, defaultMaxDepth⟩ root value

/-- What became of one document among several. -/
structure Outcome where
  result : Except PackError Offset
  violations : List Violation
  /-- Where the part of the destination in use ended after the document. -/
  used : Nat

/-- Pack documents one after another into one destination.  A document that
fails leaves what it took from the destination. -/
def packAll (pack : Json -> PackM Offset) : List Json -> Arena -> List Outcome × Arena
  | [], data => ([], data)
  | document :: rest, data =>
      let outcome : Outcome × Arena := match pack document ⟨data, []⟩ with
        | .ok offset state => (⟨.ok offset, state.violations, state.data.used⟩, state.data)
        | .error cause state => (⟨.error cause, state.violations, state.data.used⟩, state.data)
      let (outcomes, data) := packAll pack rest outcome.2
      (outcome.1 :: outcomes, data)

end Packer
end PackedJson
