import PackedJson.Instance.Reader

namespace PackedJson

/-!
Instances as trees.

The tree of an instance holds everything that can be read from it.  A part
that cannot be read is replaced by the reason.
-/

/-- What can be read from an instance. -/
inductive Tree where
  | failed (cause : InstanceError)
  /-- Pointers that lead around in a circle are not followed for ever. -/
  | cutOff
  | integer (value : Int)
  | number (bits : UInt64)
  | boolean (value : Bool)
  | unit
  | text (value : String)
  /-- The bytes of a builtin without a reading of its own. -/
  | raw (builtin : Builtin) (bytes : ByteArray)
  | absent
  | present (value : Tree)
  | success (value : Tree)
  /-- A captured violation. -/
  | failure (message : String)
  | struct (name : String) (fields : List (String × Tree))
  | array (elements : List Tree)
  | map (entries : List (String × Tree))
  | variant (name choice : String) (value : Tree)

namespace Reader

/-- The tree of an answer, or the reason why there is none. -/
def treeOf {Result : Type} (answer : Except InstanceError Result) (tree : Result -> Tree) : Tree :=
  match answer with
  | .ok result => tree result
  | .error cause => .failed cause

/-- The tree of an instance of a builtin. -/
def builtinTree (reader : Reader) (place : Place) : Builtin -> Tree
  | .integer => treeOf (reader.integer place) .integer
  | .number => treeOf (reader.number place) .number
  | .boolean => treeOf (reader.boolean place) .boolean
  | .unit => .unit
  | .string => treeOf (reader.text place) .text
  | builtin => treeOf (reader.bytes place) (.raw builtin)

/-- The tree of an instance by its shape alone. -/
def shapeTree (reader : Reader) (inner : Place -> Tree) (place : Place) : Tree :=
  let named (entry : String × Place) : String × Tree := (entry.1, inner entry.2)
  match place.type.shape with
  | .struct => treeOf (reader.fields place) fun fields =>
      .struct (reader.name place) (fields.map named)
  | .array => treeOf (reader.elements place) fun elements => .array (elements.map inner)
  | .map => treeOf (reader.mapEntries place) fun entries => .map (entries.map named)
  | .variant => treeOf (reader.variant place) fun (choice, value) =>
      .variant (reader.name place) choice (inner value)

/-- The tree of a result, or of an instance that is not one by its shape. -/
def resultTree (reader : Reader) (inner : Place -> Tree) (place : Place) : Tree :=
  match reader.result place with
  | .ok (.inr value) => .success (inner value)
  | .ok (.inl message) => .failure message
  | .error (.wrongShape _ _) => reader.shapeTree inner place
  | .error cause => .failed cause

/-- The tree of an option, or of an instance that is not one. -/
def optionTree (reader : Reader) (inner : Place -> Tree) (place : Place) : Tree :=
  match reader.option place with
  | .ok (some value) => .present (inner value)
  | .ok none => .absent
  | .error (.wrongShape _ _) => reader.resultTree inner place
  | .error cause => .failed cause

/-- The tree of an instance up to a number of levels. -/
def treeWithin (reader : Reader) : Nat -> Place -> Tree
  | 0, _ => .cutOff
  | levels + 1, place =>
      match reader.builtin? place with
      | some builtin => reader.builtinTree place builtin
      | none => reader.optionTree (treeWithin reader levels) place

/-- The tree of an instance.  Nested instances differ in their type or in
their place, so that a longer descent would never end. -/
def tree (reader : Reader) (place : Place) : Tree :=
  reader.treeWithin ((reader.data.used + 2) * (reader.schema.arena.used + 2)) place

end Reader
end PackedJson
