import PackedJson.Json.Pointer
import PackedJson.Schema.Layout
import PackedJson.Text.Identifier
import PackedJson.TextSchema.Error
import PackedJson.TextSchema.Listing

namespace PackedJson
namespace TextSchema

/-!
Compiling text schemas.

A text schema is a JSON document in the manner of JSON Schema: objects with
properties, objects as maps, arrays, scalars, alternatives, and references to
definitions.  Each target has its own types, built from the same document in
the same arena.

A definition is compiled when a reference to it is met for the first time.
If it is met again before that has ended, the definition contains itself, and
its instances have to live apart.
-/

/-- How a text schema is compiled. -/
structure CompileOptions where
  /-- The name of the root type when the schema gives none. -/
  rootName : String := "Root"
  arena : ArenaConfig := {}

/-- The types built so far, the names in use, the types of the definitions
met so far, and the definitions whose compilation has not ended. -/
structure State where
  builder : Builder
  names : List String
  definitions : List (String × TypeId)
  inProgress : List String

/-- Computations that compile text schemas. -/
abbrev CompileM := EStateM CompileError State

/-- How a node is compiled: the node, the reference to it, a name for its
type, and the reference by which it is a definition, if it is one. -/
abbrev NodeCompiler := Json -> String -> String -> Option String -> CompileM TypeId

/-- Run a computation on the types. -/
def build {Result : Type} (step : BuildM Result) : CompileM Result := fun state =>
  match state with
  | ⟨builder, names, definitions, inProgress⟩ =>
      match step builder with
      | .ok result builder => .ok result ⟨builder, names, definitions, inProgress⟩
      | .error cause builder => .error (.ofSchema cause) ⟨builder, names, definitions, inProgress⟩

/-- Fail because of a flaw in the node at a reference. -/
def reject {Result : Type} (pointer : String) (flaw : Flaw) : CompileM Result :=
  throw (.atPointer pointer flaw)

/-- The type of a definition met before. -/
def findDefinition? (reference : String) : CompileM (Option TypeId) := fun state =>
  .ok (state.definitions.lookup reference) state

/-- Whether the compilation of a definition has not ended. -/
def isInProgress (reference : String) : CompileM Bool := fun state =>
  .ok (state.inProgress.contains reference) state

/-- Enter the type of a definition. -/
def define (reference : String) (id : TypeId) : CompileM Unit := fun state =>
  .ok () { state with definitions := (reference, id) :: state.definitions }

/-- Enter the type of a node that may be a definition. -/
def register (definition : Option String) (id : TypeId) : CompileM Unit :=
  match definition with
  | some reference => define reference id
  | none => return ()

/-- Note that the compilation of a definition has begun. -/
def enterDefinition (reference : String) : CompileM Unit := fun state =>
  .ok () { state with inProgress := reference :: state.inProgress }

/-- Note that the compilation of a definition has ended. -/
def leaveDefinition (reference : String) : CompileM Unit := fun state =>
  .ok () { state with inProgress := state.inProgress.erase reference }

/-- A name for a type that no other type of the target has. -/
def uniqueName (base : String) : CompileM String := fun state =>
  let name := Text.Identifier.fresh state.names base
  .ok name { state with names := name :: state.names }

/-- Whether a node sets a flag. -/
def isSet (node : Json) (flag : String) : Bool :=
  match node.member? flag with
  | some (.boolean true) => true
  | _ => false

/-- The name that a reference gives to its definition. -/
def definitionName? (reference : String) : Option String :=
  let text := reference.toList
  let behind (start : String) : Option String :=
    if start.toList.isPrefixOf text then some (String.ofList (text.drop start.length)) else none
  (behind "#/$defs/").or (behind "#/definitions/")

/-- The type of the definition that a reference names. -/
def compileReference (compile : NodeCompiler) (document : Json) (pointer : String)
    (reference : Json) : CompileM TypeId :=
  match reference with
  | .string reference =>
      match definitionName? reference with
      | none => reject pointer (.unsupportedReference reference)
      | some name => do
          match ← findDefinition? reference with
          | some id =>
              if ← isInProgress reference then
                let _ ← build (Builder.updateType id fun type =>
                  { type with flags := type.flags.insert TypeFlags.storedByReference })
                return id
              else return id
          | none =>
              if ← isInProgress reference then reject pointer (.recursiveDefinition name)
              else
                let targetPointer := String.ofList (reference.toList.drop 1)
                match Json.Pointer.resolve? targetPointer document with
                | none => reject pointer (.unknownReference reference)
                | some target =>
                    enterDefinition reference
                    let id ← compile target targetPointer name (some reference)
                    leaveDefinition reference
                    define reference id
                    return id
  | _ => reject pointer .referenceNotText

/-- Enter the flags of a declared type that its node sets. -/
def applyFlags (node : Json) (id : TypeId) : CompileM Unit := do
  let byReference := isSet node "x-by-reference"
  let nonExhaustive := isSet node "x-non-exhaustive"
  if byReference || nonExhaustive then
    let _ ← build (Builder.updateType id fun type =>
      let flags :=
        if byReference then type.flags.insert TypeFlags.storedByReference else type.flags
      { type with
        flags := if nonExhaustive then flags.insert TypeFlags.nonExhaustive else flags })
  else return ()

/-- The texts among some values, or nothing when one is not a text. -/
def texts? : List Json -> Option (List String)
  | [] => some []
  | .string text :: rest => (texts? rest).map (text :: ·)
  | _ :: _ => none

/-- The names of the properties that must be present. -/
def requiredNames (node : Json) (pointer : String) : CompileM (List String) :=
  match node.member? "required" with
  | none => return []
  | some (.array names) =>
      match texts? names with
      | some names => return names
      | none => reject (Json.Pointer.child pointer "required") .requiredNotNames
  | some _ => reject (Json.Pointer.child pointer "required") .requiredNotAnArray

/-- Give a field a name in generated declarations that is not taken.  The name
in documents does for it when the two are equal. -/
def nameCompanion (field : FieldDef) (jsonName ident : String) (taken : List String) :
    CompileM (FieldDef × List String) := do
  let name := Text.Identifier.fresh taken ident
  if name = jsonName then return (field, name :: taken)
  else
    let stored ← build (Builder.storeText name)
    return ({ field with companionName := stored }, name :: taken)

/-- The field of a property. -/
def compileProperty (compile : NodeCompiler) (context : Context) (base owner : String)
    (required : List String) (order : Nat) (taken : List String) (property : String × Json) :
    CompileM (FieldDef × List String) := do
  let (name, node) := property
  let id ← compile node (Json.Pointer.child base name)
    (owner ++ Text.Identifier.pascalCase name) none
  let flags := (FlagSet.empty.set FieldFlags.required (required.contains name)).set
    FieldFlags.canFail (isSet node "x-can-fail")
  let stored ← build (Builder.wrapFieldType context id flags)
  let field ← build (Builder.field name (some stored) order)
  nameCompanion { field with flags := flags } name (Text.Identifier.snakeCase name) taken

/-- The fields of properties, the first of which has a given order. -/
def compileProperties (compile : NodeCompiler) (context : Context) (base owner : String)
    (required : List String) :
    List (String × Json) -> Nat -> List String -> CompileM (List FieldDef)
  | [], _, _ => return []
  | property :: rest, order, taken => do
      let (field, taken) ←
        compileProperty compile context base owner required order taken property
      let fields ←
        compileProperties compile context base owner required rest (order + 1) taken
      return field :: fields

/-- The fields of an object with or without properties. -/
def propertyFields (compile : NodeCompiler) (context : Context) (node : Json)
    (pointer owner : String) (required : List String) : CompileM (List FieldDef) :=
  let base := Json.Pointer.child pointer "properties"
  match node.member? "properties" with
  | none => return []
  | some (.object properties) =>
      compileProperties compile context base owner required properties 0 []
  | some _ => reject base .propertiesNotAnObject

/-- The struct of an object with properties. -/
def compileStruct (compile : NodeCompiler) (context : Context) (node : Json)
    (pointer title : String) (definition : Option String) : CompileM TypeId := do
  let name ← uniqueName title
  let id ← build (Builder.newStruct context name)
  register definition id
  applyFlags node id
  let required ← requiredNames node pointer
  let fields ← propertyFields compile context node pointer name required
  let _ ← build (Builder.setFields id fields)
  return id

/-- The type of an object: a map when only its further properties are
described, else a struct. -/
def compileObject (compile : NodeCompiler) (context : Context) (node : Json)
    (pointer title : String) (definition : Option String) : CompileM TypeId :=
  match node.member? "properties", node.member? "additionalProperties" with
  | none, some (.object values) => do
      let value ← compile (.object values) (Json.Pointer.child pointer "additionalProperties")
        (title ++ "Value") none
      build (Builder.mapOf context value)
  | _, _ => compileStruct compile context node pointer title definition

/-- The field of an alternative, which is labelled with the name of its type. -/
def compileAlternative (compile : NodeCompiler) (pointer owner : String) (index : Nat)
    (taken : List String) (alternative : Json) : CompileM (FieldDef × List String) := do
  let id ← compile alternative (Json.Pointer.child pointer (toString index))
    (owner ++ toString index) none
  let label ← build (Builder.query fun schema => return schema.name (← schema.type id))
  let field ← build (Builder.field label (some id) (index + 1))
  nameCompanion { field with choice := UInt8.ofNat index } label
    (Text.Identifier.pascalCase label) taken

/-- The fields of alternatives, the first of which has a given index. -/
def compileAlternatives (compile : NodeCompiler) (pointer owner : String) :
    List Json -> Nat -> List String -> CompileM (List FieldDef)
  | [], _, _ => return []
  | alternative :: rest, index, taken => do
      let (field, taken) ← compileAlternative compile pointer owner index taken alternative
      let fields ← compileAlternatives compile pointer owner rest (index + 1) taken
      return field :: fields

/-- The variant of a list of alternatives. -/
def compileVariant (compile : NodeCompiler) (context : Context) (node alternatives : Json)
    (pointer title : String) (definition : Option String) : CompileM TypeId :=
  match alternatives with
  | .array alternatives =>
      if alternatives.isEmpty ∨ 255 < alternatives.length then reject pointer .alternativeCount
      else do
        let name ← uniqueName title
        let id ← build (Builder.newVariant context name)
        register definition id
        applyFlags node id
        let tag ← build (Builder.tagField context)
        let fields ← compileAlternatives compile pointer name alternatives 0 []
        let _ ← build (Builder.setFields id (tag :: fields))
        return id
  | _ => reject pointer .alternativesNotAnArray

/-- The array of a described element. -/
def compileArray (compile : NodeCompiler) (context : Context) (node : Json)
    (pointer title : String) : CompileM TypeId :=
  match node.member? "items" with
  | none => reject pointer .itemsMissing
  | some items => do
      let element ← compile items (Json.Pointer.child pointer "items") (title ++ "Item") none
      build (Builder.arrayOf context element)

/-- The type of a node that states the name of its type. -/
def compileTyped (compile : NodeCompiler) (context : Context) (node : Json)
    (pointer title : String) (definition : Option String) (typeName : String) :
    CompileM TypeId :=
  match typeName with
  | "object" => compileObject compile context node pointer title definition
  | "array" => compileArray compile context node pointer title
  | "string" => return context.builtin .string
  | "integer" => return context.builtin .integer
  | "number" => return context.builtin .number
  | "boolean" => return context.builtin .boolean
  | "null" => return context.builtin .unit
  | other => reject pointer (.unsupportedType other)

/-- The name of the type of a node, which may be left out for objects. -/
def typeName (node : Json) (pointer : String) : CompileM String :=
  match node.member? "type" with
  | some (.string name) => return name
  | some _ => reject pointer .typeNotText
  | none =>
      if (node.member? "properties").isSome || (node.member? "additionalProperties").isSome then
        return "object"
      else reject pointer .typeMissing

/-- The type of a node.  A reference goes before alternatives, and these
before a stated type. -/
def compileNode (compile : NodeCompiler) (context : Context) (document : Json) : NodeCompiler :=
  fun node pointer name definition =>
    match node with
    | .object _ =>
        match node.member? "$ref" with
        | some reference => compileReference compile document pointer reference
        | none =>
            let title := match node.member? "title" with
              | some (.string title) => title
              | _ => name
            match node.member? "oneOf", node.member? "anyOf" with
            | some alternatives, _ =>
                compileVariant compile context node alternatives
                  (Json.Pointer.child pointer "oneOf") title definition
            | none, some alternatives =>
                compileVariant compile context node alternatives
                  (Json.Pointer.child pointer "anyOf") title definition
            | none, none => do
                let typeName ← typeName node pointer
                compileTyped compile context node pointer title definition typeName
    | _ => reject pointer .notASchema

/-- The type of a node, with a bound on the nesting of nodes. -/
def compileWithin (context : Context) (document : Json) : Nat -> NodeCompiler
  | 0 => fun _ pointer _ _ => reject pointer .notASchema
  | levels + 1 => compileNode (compileWithin context document levels) context document

/-- A bound on the nesting of nodes: a node lies inside another one or behind
a reference, and each reference is followed once. -/
def nestingBound (document : Json) : Nat :=
  (document.count + 1) * (document.height + 1)

/-- The types of one target. -/
def compileTarget (document : Json) (rootName : String) (slice : Option String)
    (target : Target) : CompileM Context := do
  modify fun state => ⟨state.builder, [], [], []⟩
  let context ← build (Builder.newContext target)
  let root ← compileWithin context document (nestingBound document) document "" rootName none
  let stored ← build (Builder.storeSlice slice)
  let complete := { context with root := some root, slice := stored }
  build (Layout.arrangeContext complete target)
  return complete

/-- The reference to the part of documents that a text schema describes. -/
def sliceOf (document : Json) : Except CompileError (Option String) :=
  match document.member? "x-slice" with
  | none => .ok none
  | some (.string pointer) =>
      if pointer.isEmpty ∨ pointer.toList.head? = some '/' then .ok (some pointer)
      else .error (.atPointer "/x-slice" .sliceNotAPointer)
  | some _ => .error (.atPointer "/x-slice" .sliceNotAPointer)

/-- The types of both targets. -/
def compileTargets (document : Json) (rootName : String) (slice : Option String) :
    CompileM (Context × Context) := do
  let wasm ← compileTarget document rootName slice .wasm32
  let native ← compileTarget document rootName slice .native
  return (wasm, native)

/-- The container of a text schema. -/
def compile (document : Json) (options : CompileOptions) : Except CompileError Container := do
  let slice ← sliceOf document
  match Builder.ofConfig options.arena with
  | .error cause => throw (.ofSchema cause)
  | .ok builder =>
      match compileTargets document options.rootName slice ⟨builder, [], [], []⟩ with
      | .error failure _ => throw failure
      | .ok (wasm, native) state =>
          let unmarked : Container := ⟨0, wasm, native, state.builder.arena⟩
          match Listing.schemaHash unmarked with
          | .error cause => throw (.ofSchema cause)
          | .ok hash => return { unmarked with schemaHash := hash }

end TextSchema
end PackedJson
