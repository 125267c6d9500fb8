import PackedJson.Schema.View
import PackedJson.Target

namespace PackedJson

/-!
Building types in an arena.

A generic type is instantiated at an argument by copying it and rebinding its
fields: the parameter becomes the argument, generic types inside are
instantiated at the same argument, and concrete types stay.  Each instance
exists once.  It is registered before its fields are bound, so that a generic
type may refer to itself.
-/

/-- An arena with types under construction, and the instances made so far,
each under its generic type and its argument. -/
structure Builder where
  arena : Arena
  instances : List ((TypeId × TypeId) × TypeId)

/-- Computations that build types.  What happened before a failure is kept. -/
abbrev BuildM := EStateM SchemaError Builder

namespace Builder

/-- A builder over an arena. -/
def ofArena (arena : Arena) : Builder := ⟨arena, []⟩

/-- A builder over a new owned arena. -/
def ofConfig (config : ArenaConfig) : Except SchemaError Builder :=
  match Arena.owned config with
  | .ok arena => .ok (ofArena arena)
  | .error cause => .error (.arena cause)

/-- Run a computation on the arena. -/
def onArena {Result : Type} (step : ArenaM Result) : BuildM Result := fun builder =>
  match builder with
  | ⟨arena, instances⟩ =>
      match step arena with
      | .ok result arena => .ok result ⟨arena, instances⟩
      | .error cause arena => .error (.arena cause) ⟨arena, instances⟩

/-- Ask about the types built so far. -/
def query {Result : Type} (question : Schema -> Except SchemaError Result) : BuildM Result :=
  fun builder =>
    match question ⟨builder.arena⟩ with
    | .ok result => .ok result builder
    | .error failure => .error failure builder

/-- Store a text; the empty one is stored nowhere. -/
def storeText (text : String) : BuildM TextRef :=
  if text.isEmpty then return TextRef.empty
  else if text.utf8ByteSize < 2 ^ 32 then do
    let place ← onArena (Arena.storeText text)
    return ⟨place, UInt32.ofNat text.utf8ByteSize⟩
  else throw (.arena (.tooLarge text.utf8ByteSize))

/-- Store the description of a new type. -/
def addType (type : TypeDef) : BuildM TypeId := do
  let place ← onArena (Record.alloc type)
  return ⟨place⟩

/-- A new type with a name and a shape, without fields. -/
def newType (name : String) (shape : Shape) : BuildM TypeId := do
  let stored ← storeText name
  addType (TypeDef.ofShape stored shape)

/-- Replace the description of a type. -/
def writeType (id : TypeId) (type : TypeDef) : BuildM Unit :=
  onArena (Record.write id.offset type)

/-- Change the description of a type. -/
def updateType (id : TypeId) (change : TypeDef -> TypeDef) : BuildM TypeDef := do
  let type ← query fun schema => schema.type id
  let changed := change type
  writeType id changed
  return changed

/-- A field with a name in documents, a type and a place in the order of
declaration. -/
def field (name : String) (type : Option TypeId) (order : Nat) : BuildM FieldDef := do
  let stored ← storeText name
  return FieldDef.ofName stored (Checksum.nameHash name) type (UInt32.ofNat order)

/-- Write field records one after another, from a place on. -/
def writeFieldsAt : Offset -> List FieldDef -> BuildM Unit
  | _, [] => return ()
  | place, field :: rest => do
      onArena (Record.write place field)
      writeFieldsAt (Offset.ofNat (place.toNat + Schema.fieldSize)) rest

/-- Replace the field records of a type in their place. -/
def writeFields (type : TypeDef) (fields : List FieldDef) : BuildM Unit :=
  writeFieldsAt type.fields fields

/-- Give a type new field records. -/
def setFields (id : TypeId) (fields : List FieldDef) : BuildM TypeDef := do
  let place ←
    if fields.isEmpty then pure Offset.null
    else onArena (Arena.allocArray fields.length Schema.fieldSize Record.alignment)
  let type ← updateType id fun type =>
    { type with fields := place, fieldCount := UInt32.ofNat fields.length }
  writeFields type fields
  return type

/-- The instance of a generic type at an argument, if it was made before. -/
def findInstance? (generic argument : TypeId) : BuildM (Option TypeId) := fun builder =>
  .ok (builder.instances.lookup (generic, argument)) builder

/-- Register the instance of a generic type at an argument. -/
def register (generic argument id : TypeId) : BuildM Unit := fun builder =>
  .ok () { builder with instances := ((generic, argument), id) :: builder.instances }

/-- Bind the types of some fields at an argument: the parameter becomes the
argument, and other types are instantiated by `construct`. -/
def bindFields (construct : TypeId -> BuildM TypeId) (argument : TypeId) :
    List FieldDef -> BuildM (List FieldDef)
  | [] => return []
  | field :: rest => do
      let type ← match field.type with
        | none => pure argument
        | some type => construct type
      let bound ← bindFields construct argument rest
      return { field with type := some type } :: bound

/-- The description of the instance of a generic type, still without fields. -/
def instanceDef (generic argument : TypeId) (prototype : TypeDef) (name : TextRef) : TypeDef :=
  { prototype with
    name := name
    flags := (prototype.flags.remove TypeFlags.generic).remove TypeFlags.builtin
    prototype := some generic
    argument := some argument
    fields := Offset.null
    fieldCount := 0 }

/-- The instance of a type at an argument, with a bound on the nesting of
generic types inside generic types. -/
def instantiateWithin (argument : TypeId) : Nat -> TypeId -> BuildM TypeId
  | 0, generic => throw (.danglingType generic.offset)
  | levels + 1, generic => do
      let prototype ← query fun schema => schema.type generic
      if !prototype.isGeneric then return generic
      match ← findInstance? generic argument with
      | some existing => return existing
      | none =>
          let argumentDef ← query fun schema => schema.type argument
          let name ← query fun schema =>
            .ok (schema.name prototype ++ "<" ++ schema.name argumentDef ++ ">")
          let stored ← storeText name
          let id ← addType (instanceDef generic argument prototype stored)
          register generic argument id
          let fields ← query fun schema => schema.fields prototype
          let bound ← bindFields (instantiateWithin argument levels) argument fields
          let _ ← setFields id bound
          return id

/-- The instance of a type at an argument; a concrete type is its own
instance.  Each level of nesting enters another generic type, and there are
no more of them than offsets. -/
def instantiate (generic argument : TypeId) : BuildM TypeId :=
  instantiateWithin argument Offset.spaceSize generic

/-- The array type with a given element type. -/
def arrayOf (context : Context) (argument : TypeId) : BuildM TypeId :=
  instantiate (context.builtin .array) argument

/-- The map type with a given value type. -/
def mapOf (context : Context) (argument : TypeId) : BuildM TypeId :=
  instantiate (context.builtin .map) argument

/-- The type of a value that may be missing. -/
def optionOf (context : Context) (argument : TypeId) : BuildM TypeId :=
  instantiate (context.builtin .option) argument

/-- The type of a value or the text of a violation. -/
def resultOf (context : Context) (argument : TypeId) : BuildM TypeId :=
  instantiate (context.builtin .result) argument

/-- The type that a field of a declared type is stored with: a field that can
fail holds a result, and around that a field that is not required an option. -/
def wrapFieldType (context : Context) (type : TypeId) (flags : FieldFlags) : BuildM TypeId := do
  let inner ← if flags.contains FieldFlags.canFail then resultOf context type else pure type
  if flags.contains FieldFlags.required then return inner else optionOf context inner

/-- The field that every variant starts with. -/
def tagField (context : Context) : BuildM FieldDef :=
  field "tag" (some (context.builtin .tag)) 0

/-- An alternative of a wrapper, selected by a tag. -/
def wrapperField (name : String) (type : Option TypeId) (order : Nat) (tag : UInt8) :
    BuildM FieldDef := do
  let plain ← field name type order
  return { plain with activation := tag, choice := tag }

/-- The type of a builtin with its flags, without fields. -/
def builtinType (builtin : Builtin) (shape : Shape) (flags : TypeFlags) : BuildM TypeId := do
  let id ← newType builtin.name shape
  let _ ← updateType id fun type => { type with flags := flags }
  return id

/-- A new type that derives from the prototype of its kind. -/
def newDeclaredType (context : Context) (name : String) (shape : Shape) (prototype : Builtin) :
    BuildM TypeId := do
  let id ← newType name shape
  let _ ← updateType id fun type => { type with prototype := some (context.builtin prototype) }
  return id

/-- A new struct without fields. -/
def newStruct (context : Context) (name : String) : BuildM TypeId :=
  newDeclaredType context name .struct .structPrototype

/-- A new variant without alternatives. -/
def newVariant (context : Context) (name : String) : BuildM TypeId :=
  newDeclaredType context name .variant .variantPrototype

/-- The scalars of a context and their sizes, in the order of their making. -/
def scalarSizes (target : Target) : List (Builtin × Nat) :=
  [(.integer, 8), (.number, 8), (.boolean, 1), (.char, 1), (.pointer, target.pointerWidth),
    (.size, target.pointerWidth), (.hash, 4), (.tag, 1), (.unit, 0)]

/-- Make scalars and enter them into the table. -/
def addScalars : List (Builtin × Nat) -> Context -> BuildM Context
  | [], context => return context
  | (builtin, size) :: rest, context => do
      let name ← storeText builtin.name
      let id ← addType (TypeDef.scalar name (UInt32.ofNat size))
      addScalars rest (context.setBuiltin builtin id)

/-- The flags of the generic builtins. -/
def genericFlags : TypeFlags := TypeFlags.builtin.insert TypeFlags.generic

/-- Make the generic array. -/
def addArray (context : Context) : BuildM Context := do
  let id ← builtinType .array .array genericFlags
  let pointer ← field "ptr" (some (context.builtin .pointer)) 0
  let capacity ← field "cap" (some (context.builtin .size)) 1
  let length ← field "len" (some (context.builtin .size)) 2
  let _ ← setFields id [pointer, capacity, length]
  return context.setBuiltin .array id

/-- Make the text type, an array of text bytes under a name of its own. -/
def addString (context : Context) : BuildM Context := do
  let id ← instantiate (context.builtin .array) (context.builtin .char)
  let name ← storeText (Builtin.name .string)
  let _ ← updateType id fun type =>
    { type with name := name, flags := type.flags.insert TypeFlags.builtin }
  return context.setBuiltin .string id

/-- Make the generic option. -/
def addOption (context : Context) : BuildM Context := do
  let id ← builtinType .option .variant genericFlags
  let tag ← tagField context
  let absent ← wrapperField "None" (some (context.builtin .unit)) 1 0
  let present ← wrapperField "Some" none 2 1
  let _ ← setFields id [tag, absent, present]
  return context.setBuiltin .option id

/-- Make the generic result. -/
def addResult (context : Context) : BuildM Context := do
  let id ← builtinType .result .variant genericFlags
  let tag ← tagField context
  let success ← wrapperField "Ok" none 1 0
  let failure ← wrapperField "Err" (some (context.builtin .string)) 2 1
  let _ ← setFields id [tag, success, failure]
  return context.setBuiltin .result id

/-- Make the generic map. -/
def addMap (context : Context) : BuildM Context := do
  let id ← builtinType .map .map genericFlags
  let array := context.builtin .array
  let keysType ← instantiate array (context.builtin .hash)
  let stringsType ← instantiate array (context.builtin .string)
  let keys ← field "keys" (some keysType) 0
  let values ← field "values" (some array) 1
  let strings ← field "strings" (some stringsType) 2
  let _ ← setFields id [keys, values, strings]
  return context.setBuiltin .map id

/-- Make the prototypes of declared types. -/
def addPrototypes (context : Context) : BuildM Context := do
  let struct ← builtinType .structPrototype .struct TypeFlags.builtin
  let context := context.setBuiltin .structPrototype struct
  let variant ← builtinType .variantPrototype .variant TypeFlags.builtin
  return context.setBuiltin .variantPrototype variant

/-- Make every builtin for a target. -/
def newContext (target : Target) : BuildM Context := do
  let context ← addScalars (scalarSizes target) Context.empty
  let context ← addArray context
  let context ← addString context
  let context ← addOption context
  let context ← addResult context
  let context ← addMap context
  addPrototypes context

/-- Store the reference to the part of the document that a root type
describes; without one, it describes the whole document. -/
def storeSlice (slice : Option String) : BuildM TextRef :=
  match slice with
  | some pointer => storeText pointer
  | none => return TextRef.empty

/-- Every generic instance made so far, in the order of the arena. -/
def instanceIds (builder : Builder) : List TypeId :=
  Sorted.sortBy (fun id => id.offset.toNat) (builder.instances.map Prod.snd)

end Builder
end PackedJson
