import PackedJson.Schema.Builder

namespace PackedJson
namespace Layout

/-!
Sizes, alignments and positions of types for one target.

Fields are placed in the order of declaration.  Those of a struct are stored
in the order of their hashes afterwards, which does not change their places,
so laying a type out again gives the same result.  A type that stores another
one inline needs its size first; a type that is only pointed to is put off
until later.  A type that is met again while it is being laid out contains
itself inline and has no size.
-/

/-- The types under construction, those laid out, those being laid out, and
those put off. -/
structure State where
  builder : Builder
  done : List TypeId
  inProgress : List TypeId
  pending : List TypeId

/-- Computations that lay types out. -/
abbrev LayoutM := EStateM SchemaError State

/-- Run a computation on the types under construction. -/
def onBuilder {Result : Type} (step : BuildM Result) : LayoutM Result := fun state =>
  match state with
  | ⟨builder, done, inProgress, pending⟩ =>
      match step builder with
      | .ok result builder => .ok result ⟨builder, done, inProgress, pending⟩
      | .error failure builder => .error failure ⟨builder, done, inProgress, pending⟩

/-- Ask about the types built so far. -/
def query {Result : Type} (question : Schema -> Except SchemaError Result) : LayoutM Result :=
  onBuilder (Builder.query question)

/-- Whether a type is laid out. -/
def isDone (id : TypeId) : LayoutM Bool := fun state =>
  .ok (state.done.contains id) state

/-- Whether a type is being laid out. -/
def isInProgress (id : TypeId) : LayoutM Bool := fun state =>
  .ok (state.inProgress.contains id) state

/-- Note that a type is laid out. -/
def finish (id : TypeId) : LayoutM Unit := fun state =>
  .ok () { state with done := id :: state.done, inProgress := state.inProgress.erase id }

/-- Note that a type is being laid out. -/
def start (id : TypeId) : LayoutM Unit := fun state =>
  .ok () { state with inProgress := id :: state.inProgress }

/-- Put a type off. -/
def postpone (id : TypeId) : LayoutM Unit := fun state =>
  .ok () { state with pending := id :: state.pending }

/-- The type put off last, which is no longer put off then. -/
def takePending : LayoutM (Option TypeId) := fun state =>
  match state.pending with
  | [] => .ok none state
  | id :: rest => .ok (some id) { state with pending := rest }

/-- Put off the type that a pointer leads to, unless it is laid out. -/
def postponeArgument (argument : Option TypeId) : LayoutM Unit := do
  match argument with
  | none => return ()
  | some id => if ← isDone id then return () else postpone id

/-- The failure that a type is too large. -/
def tooLarge {Result : Type} (type : TypeDef) : LayoutM Result :=
  query fun schema => .error (schema.malformed type .layoutTooLarge)

/-- A number of 32 binary digits, or the failure that the type is too large. -/
def checkSize (type : TypeDef) (value : Nat) : LayoutM Nat :=
  if value < 2 ^ 32 then return value else tooLarge type

/-- Size and alignment of a variable. -/
structure Variable where
  size : Nat
  align : Nat
deriving DecidableEq, Repr

/-- Size and alignment of a variable of a type.  A type stored by reference
need not be laid out for that; it is put off. -/
def variableWith (arrange : TypeId -> LayoutM TypeDef) (target : Target) (id : TypeId) :
    LayoutM Variable := do
  let type ← query fun schema => schema.type id
  if type.isStoredByReference then
    if !(← isDone id) && !(← isInProgress id) then postpone id
    return ⟨target.pointerWidth, target.pointerWidth⟩
  else
    let arranged ← arrange id
    return ⟨arranged.slot.toNat, (max arranged.align 1).toNat⟩

/-- Place fields one after another, from a position on.  The answer holds the
placed fields, the end of the last one and the greatest alignment. -/
def placeFields (variableOf : TypeId -> LayoutM Variable) (owner : TypeDef) :
    List FieldDef -> Nat -> Nat -> LayoutM (List FieldDef × Nat × Nat)
  | [], position, align => return ([], position, align)
  | field :: rest, position, align => do
      let id ← query fun schema => schema.fieldType owner field
      let layout ← variableOf id
      let start ← checkSize owner (alignUp position layout.align)
      let stop ← checkSize owner (start + layout.size)
      let (placed, stop, align) ←
        placeFields variableOf owner rest stop (max align layout.align)
      return ({ field with offset := UInt32.ofNat start } :: placed, stop, align)

/-- The greatest size and alignment among the variables of some fields. -/
def greatest (variableOf : TypeId -> LayoutM Variable) (owner : TypeDef) :
    List FieldDef -> Variable -> LayoutM Variable
  | [], bound => return bound
  | field :: rest, bound => do
      let id ← query fun schema => schema.fieldType owner field
      let layout ← variableOf id
      greatest variableOf owner rest ⟨max bound.size layout.size, max bound.align layout.align⟩

/-- Enter the size of an instance and what follows from it for variables. -/
def withSize (target : Target) (type : TypeDef) (size align : Nat) : TypeDef :=
  if type.isStoredByReference then
    { type with
      size := UInt32.ofNat size
      slot := UInt32.ofNat target.pointerWidth
      align := UInt32.ofNat target.pointerWidth }
  else
    { type with
      size := UInt32.ofNat size
      slot := UInt32.ofNat size
      align := UInt32.ofNat align }

/-- Whether two neighbours have the same hash. -/
def hasEqualNeighbours : List FieldDef -> Bool
  | first :: second :: rest =>
      first.hash == second.hash || hasEqualNeighbours (second :: rest)
  | _ => false

/-- Lay fields out one after another.  The fields of a struct are stored by
hash afterwards. -/
def arrangeInSequence (arrange : TypeId -> LayoutM TypeDef) (target : Target) (type : TypeDef)
    (byHash : Bool) : LayoutM TypeDef := do
  let fields ← query fun schema => schema.fieldsInOrder type
  let (placed, stop, align) ← placeFields (variableWith arrange target) type fields 0 1
  let size ← checkSize type (alignUp stop align)
  let sized := withSize target type size align
  if byHash then
    let stored := Sorted.sortBy (fun field => field.hash.toNat) placed
    let flags := sized.flags.set TypeFlags.hasHashCollisions (hasEqualNeighbours stored)
    onBuilder (Builder.writeFields sized stored)
    return { sized with flags := flags }
  else
    onBuilder (Builder.writeFields sized placed)
    return sized

/-- Lay a variant out: the tag first, and all alternatives at the first place
behind it that suits the strictest of them.  A variant without alternatives
has no tag either. -/
def arrangeVariant (arrange : TypeId -> LayoutM TypeDef) (target : Target) (type : TypeDef) :
    LayoutM TypeDef := do
  match ← query fun schema => schema.fieldsInOrder type with
  | tag :: first :: others =>
      let alternatives := first :: others
      let tagType ← query fun schema => schema.fieldType type tag
      let tagLayout ← variableWith arrange target tagType
      let payload ← greatest (variableWith arrange target) type alternatives ⟨0, 1⟩
      let place ← checkSize type (alignUp tagLayout.size payload.align)
      let align := max tagLayout.align payload.align
      let stop ← checkSize type (place + payload.size)
      let size ← checkSize type (alignUp stop align)
      let sized := withSize target type size align
      let placed := alternatives.map fun field => { field with offset := UInt32.ofNat place }
      onBuilder (Builder.writeFields sized ({ tag with offset := 0 } :: placed))
      return sized
  | _ =>
      return withSize target { type with fields := Offset.null, fieldCount := 0 } 0 1

/-- Lay out a type that is neither generic nor a scalar. -/
def arrangeShape (arrange : TypeId -> LayoutM TypeDef) (target : Target) (type : TypeDef) :
    LayoutM TypeDef :=
  match type.shape with
  | .struct => arrangeInSequence arrange target type true
  | .variant => arrangeVariant arrange target type
  | _ => do
      let arranged ← arrangeInSequence arrange target type false
      postponeArgument type.argument
      return arranged

/-- Lay out a type and every type it stores inline, with a bound on their
nesting. -/
def arrangeWithin (target : Target) : Nat -> TypeId -> LayoutM TypeDef
  | 0, id => query fun _ => .error (.danglingType id.offset)
  | levels + 1, id => do
      let type ← query fun schema => schema.type id
      if ← isDone id then return type
      if type.isGeneric || (type.isBuiltin && type.fieldCount == 0) then
        finish id
        return type
      if ← isInProgress id then
        query fun schema => .error (.infiniteSize (schema.name type))
      else
        start id
        let arranged ← arrangeShape (arrangeWithin target levels) target type
        onBuilder (Builder.writeType id arranged)
        finish id
        return arranged

/-- Lay out a type and every type it stores inline.  Types nested in one
another are different, and there are no more of them than offsets. -/
def arrangeType (target : Target) (id : TypeId) : LayoutM TypeDef :=
  arrangeWithin target Offset.spaceSize id

/-- Lay out the types put off, and those put off on the way. -/
def drain (target : Target) : Nat -> LayoutM Unit
  | 0 => return ()
  | steps + 1 => do
      match ← takePending with
      | none => return ()
      | some id =>
          let _ ← arrangeType target id
          drain target steps

/-- Lay out all types put off.  A type is laid out once and puts off fewer
types than the arena has bytes. -/
def drainAll (target : Target) : LayoutM Unit := fun state =>
  drain target ((state.builder.arena.used + 2) * (state.builder.arena.used + 2)) state

/-- Run a computation that lays types out, none of which is laid out yet. -/
def run {Result : Type} (step : LayoutM Result) : BuildM Result := fun builder =>
  match step ⟨builder, [], [], []⟩ with
  | .ok result state => .ok result state.builder
  | .error failure state => .error failure state.builder

/-- Lay out a type and every type it stores inline. -/
def arrange (target : Target) (id : TypeId) : BuildM TypeDef :=
  run (arrangeType target id)

/-- Lay out a type and every type that can be reached from it. -/
def arrangeDeep (target : Target) (id : TypeId) : BuildM TypeDef := run do
  let type ← arrangeType target id
  drainAll target
  return type

/-- Lay out the root of a context, the text type, and every type that can be
reached from them. -/
def arrangeContext (context : Context) (target : Target) : BuildM Unit := run do
  match context.root with
  | some root => let _ ← arrangeType target root
  | none => pure ()
  let _ ← arrangeType target (context.builtin .string)
  let _ ← arrangeType target (context.builtin .unit)
  drainAll target

end Layout
end PackedJson
