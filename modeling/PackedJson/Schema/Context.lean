import PackedJson.Schema.Type

namespace PackedJson

/-!
The types that every schema provides, and the table that finds them.

A compiled schema has one table for each target.  The two share nothing but
the arena they live in.
-/

/-- The scalars, generic types and prototypes that every schema provides. -/
inductive Builtin where
  | integer
  | number
  | boolean
  /-- One byte of a text. -/
  | char
  | pointer
  | size
  /-- The hash of a name, the key type of maps. -/
  | hash
  /-- The tag of a variant. -/
  | tag
  /-- An array of text bytes. -/
  | string
  | array
  | option
  | result
  | map
  /-- The prototype of declared structs. -/
  | structPrototype
  /-- The prototype of declared variants. -/
  | variantPrototype
  /-- The type without content, for the JSON null. -/
  | unit
deriving DecidableEq, Repr

namespace Builtin

/-- Every builtin, in the order of the table. -/
def all : List Builtin :=
  [integer, number, boolean, char, pointer, size, hash, tag, string, array, option, result,
    map, structPrototype, variantPrototype, unit]

/-- The place in the table. -/
def index : Builtin -> Fin 16
  | integer => 0
  | number => 1
  | boolean => 2
  | char => 3
  | pointer => 4
  | size => 5
  | hash => 6
  | tag => 7
  | string => 8
  | array => 9
  | option => 10
  | result => 11
  | map => 12
  | structPrototype => 13
  | variantPrototype => 14
  | unit => 15

/-- The name of the type. -/
def name : Builtin -> String
  | integer => "integer"
  | number => "number"
  | boolean => "boolean"
  | char => "char"
  | pointer => "pointer"
  | size => "size"
  | hash => "hash"
  | tag => "tag"
  | string => "String"
  | array => "Array"
  | option => "Option"
  | result => "Result"
  | map => "Map"
  | structPrototype => "struct"
  | variantPrototype => "variant"
  | unit => "unit"

/-- The builtin of a given name. -/
def ofName? (name : String) : Option Builtin :=
  all.find? (fun builtin => builtin.name = name)

theorem all_eq_map_index : all.map index = List.finRange 16 := by decide

end Builtin

/-- The builtin types of one target, and the type of the document. -/
structure Context where
  builtins : Vector Offset 16
  root : Option TypeId
  /-- The reference to the part of a document that the root type describes. -/
  slice : TextRef
deriving DecidableEq

namespace Context

/-- The table in which nothing is entered yet. -/
def empty : Context := ⟨Vector.replicate 16 Offset.null, none, TextRef.empty⟩

instance : Inhabited Context := ⟨empty⟩

/-- The type of a builtin. -/
def builtin (context : Context) (builtin : Builtin) : TypeId :=
  ⟨context.builtins[builtin.index]⟩

/-- Enter the type of a builtin. -/
def setBuiltin (context : Context) (builtin : Builtin) (type : TypeId) : Context :=
  { context with builtins := context.builtins.set builtin.index type.offset }

/-- Whether a type is a given builtin. -/
def is (context : Context) (type : TypeId) (builtin : Builtin) : Bool :=
  context.builtin builtin == type

/-- The first builtin that a type is. -/
def builtinOf? (context : Context) (type : TypeId) : Option Builtin :=
  if type.offset.isNull then none
  else Builtin.all.find? (fun builtin => context.is type builtin)

end Context

instance : Record Context where
  wordCount := 19
  toWords context :=
    context.builtins.map Offset.raw ++
      #v[(TypeId.toOffset context.root).raw, context.slice.offset.raw, context.slice.length]
  ofWords _ words :=
    .ok {
      builtins := Vector.ofFn fun index => ⟨words[index.val]⟩
      root := TypeId.ofOffset? ⟨words[16]⟩
      slice := ⟨⟨words[17]⟩, words[18]⟩ }

end PackedJson
