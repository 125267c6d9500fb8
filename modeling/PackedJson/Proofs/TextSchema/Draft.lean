import PackedJson.Proofs.Schema.Instantiation
import PackedJson.TextSchema.Compile

namespace PackedJson
namespace TextSchema

open Builder

/-!
Drafts of text schemas.

A draft is what a text schema compiles to, apart from arenas and targets.  A
type is known by the way it came about: it is a builtin, the declared type of
some number, or an instance of a generic builtin.  Drafting follows the
compiler step by step, fails where the compiler finds a flaw, and adds up the
room that the steps of the compiler may take in an arena.

Both targets of a text schema have the same draft, and what holds of all types
of a draft holds of the compiled types.
-/

/-- A type by the way it came about. -/
inductive Ref where
  | builtin (builtin : Builtin)
  /-- The declared type that was made after so many others. -/
  | declared (index : Nat)
  | applied (generic : Builtin) (argument : Ref)
deriving DecidableEq

/-- A member of a type. -/
structure Part where
  name : String
  type : Ref
  flags : FieldFlags := FlagSet.empty
  activation : UInt8 := 0
  choice : UInt8 := 0
  companion : String := name
deriving DecidableEq

/-- A declared type.  Its parts are missing until all of them are known. -/
structure Sketch where
  name : String
  shape : Shape
  flags : TypeFlags := FlagSet.empty
  parts : Option (List Part) := none

/-- The declared types in the order of their making, and what the compiler
keeps track of besides. -/
structure Draft where
  sketches : List Sketch
  names : List String
  definitions : List (String × Ref)
  inProgress : List String

namespace Draft

/-- The draft before the first type. -/
def empty : Draft := ⟨[], [], [], []⟩

/-- The declared type of some number. -/
def sketch? (draft : Draft) : Ref -> Option Sketch
  | .declared index => draft.sketches[index]?
  | _ => none

/-- The name of a type. -/
def nameOf (draft : Draft) : Ref -> String
  | .builtin builtin => builtin.name
  | .declared index => ((draft.sketches[index]?).map Sketch.name).getD ""
  | .applied generic argument => generic.name ++ "<" ++ draft.nameOf argument ++ ">"

/-- Change a declared type. -/
def change (draft : Draft) (ref : Ref) (step : Sketch -> Sketch) : Draft :=
  match ref with
  | .declared index => { draft with sketches := draft.sketches.modify index step }
  | _ => draft

end Draft

/-- What drafting ends with, and the room that the compiler may take for it. -/
structure Drafted (Result : Type) where
  result : Result
  draft : Draft
  cost : Nat

/-- Computations that draft types. -/
def DraftM (Result : Type) : Type := Draft -> Except CompileError (Drafted Result)

instance : Monad DraftM where
  pure result := fun draft => .ok ⟨result, draft, 0⟩
  bind first next := fun draft => (first draft).bind fun before =>
    (next before.result before.draft).map fun after =>
      ⟨after.result, after.draft, before.cost + after.cost⟩

namespace DraftM

variable {Result Next : Type} {first : DraftM Result} {next : Result -> DraftM Next}
  {draft : Draft} {before : Drafted Result}

theorem bind_apply : (first >>= next) draft = (first draft).bind fun before =>
    (next before.result before.draft).map fun after =>
      ⟨after.result, after.draft, before.cost + after.cost⟩ := rfl

theorem bind_of_ok (begins : first draft = .ok before) {after : Drafted Next}
    (ends : next before.result before.draft = .ok after) :
    (first >>= next) draft = .ok ⟨after.result, after.draft, before.cost + after.cost⟩ := by
  rw [bind_apply, begins]
  exact congrArg (Except.map _) ends

theorem bind_of_error {failure : CompileError} (fails : first draft = .error failure) :
    (first >>= next) draft = .error failure := by
  rw [bind_apply, fails]
  rfl

theorem bind_of_next_error (begins : first draft = .ok before) {failure : CompileError}
    (fails : next before.result before.draft = .error failure) :
    (first >>= next) draft = .error failure := by
  rw [bind_apply, begins]
  exact congrArg (Except.map _) fails

/-- What drafting one thing after another ends well with. -/
theorem of_bind_ok {after : Drafted Next} (ends : (first >>= next) draft = .ok after) :
    exists before last, first draft = .ok before ∧
      next before.result before.draft = .ok last ∧
      after = ⟨last.result, last.draft, before.cost + last.cost⟩ := by
  cases begins : first draft with
  | error failure => cases (bind_of_error begins).symm.trans ends
  | ok before =>
      cases continues : next before.result before.draft with
      | error failure => cases (bind_of_next_error begins continues).symm.trans ends
      | ok last =>
          cases (bind_of_ok begins continues).symm.trans ends
          exact ⟨before, last, rfl, continues, rfl⟩

end DraftM

/-- How a node is drafted, given what the compiler is given. -/
abbrev NodeDrafter := Json -> String -> String -> Option String -> DraftM Ref

/-! ### Single steps -/

/-- Fail because of a flaw in the node at a reference. -/
def draftReject {Result : Type} (pointer : String) (flaw : Flaw) : DraftM Result := fun _ =>
  .error (.atPointer pointer flaw)

/-- Account for room in the arena. -/
def draftRoom (cost : Nat) : DraftM Unit := fun draft => .ok ⟨(), draft, cost⟩

/-- Ask about the draft. -/
def draftQuery {Result : Type} (question : Draft -> Result) : DraftM Result := fun draft =>
  .ok ⟨question draft, draft, 0⟩

/-- Change the draft. -/
def draftStep (step : Draft -> Draft) : DraftM Unit := fun draft => .ok ⟨(), step draft, 0⟩

/-- A name for a type that no other type has. -/
def draftName (base : String) : DraftM String := fun draft =>
  let name := Text.Identifier.fresh draft.names base
  .ok ⟨name, { draft with names := name :: draft.names }, 0⟩

/-- A new declared type. -/
def draftDeclared (name : String) (shape : Shape) : DraftM Ref := fun draft =>
  .ok ⟨.declared draft.sketches.length,
    { draft with sketches := draft.sketches ++ [⟨name, shape, FlagSet.empty, none⟩] },
    textCost name + typeCost⟩

/-- How deeply the types nest that the members of a generic builtin have: a
map consists of arrays. -/
def genericLevels : Builtin -> Nat
  | .map => 3
  | _ => 2

/-- The instance of a generic builtin. -/
def draftInstance (generic : Builtin) (argument : Ref) : DraftM Ref := fun draft =>
  .ok ⟨.applied generic argument, draft,
    instanceCost (draft.nameOf argument).utf8ByteSize (genericLevels generic)⟩

/-- Enter a type for the definition that it is. -/
def draftDefine (reference : String) (ref : Ref) : DraftM Unit :=
  draftStep fun draft => { draft with definitions := (reference, ref) :: draft.definitions }

/-- Enter a type for the definition that it may be. -/
def draftRegister (definition : Option String) (ref : Ref) : DraftM Unit :=
  match definition with
  | some reference => draftDefine reference ref
  | none => return ()

/-- Mark a declared type. -/
def draftMark (ref : Ref) (mark : TypeFlags -> TypeFlags) : DraftM Unit :=
  draftStep fun draft => draft.change ref fun sketch => { sketch with flags := mark sketch.flags }

/-- The marks that a node sets. -/
def nodeMarks (node : Json) (flags : TypeFlags) : TypeFlags :=
  let marked :=
    if isSet node "x-by-reference" then flags.insert TypeFlags.storedByReference else flags
  if isSet node "x-non-exhaustive" then marked.insert TypeFlags.nonExhaustive else marked

/-- Give a declared type its parts. -/
def draftParts (ref : Ref) (parts : List Part) : DraftM Unit := fun draft =>
  .ok ⟨(), draft.change ref fun sketch => { sketch with parts := some parts },
    fieldsCost parts.length⟩

/-! ### Nodes -/

/-- The type of the definition that a reference names. -/
def draftReference (drafter : NodeDrafter) (document : Json) (pointer : String)
    (reference : Json) : DraftM Ref :=
  match reference with
  | .string reference =>
      match definitionName? reference with
      | none => draftReject pointer (.unsupportedReference reference)
      | some name => do
          match ← draftQuery fun draft => draft.definitions.lookup reference with
          | some ref =>
              if ← draftQuery fun draft => draft.inProgress.contains reference then
                draftMark ref fun flags => flags.insert TypeFlags.storedByReference
                return ref
              else return ref
          | none =>
              if ← draftQuery fun draft => draft.inProgress.contains reference then
                draftReject pointer (.recursiveDefinition name)
              else
                let targetPointer := String.ofList (reference.toList.drop 1)
                match Json.Pointer.resolve? targetPointer document with
                | none => draftReject pointer (.unknownReference reference)
                | some target =>
                    draftStep fun draft => { draft with inProgress := reference :: draft.inProgress }
                    let ref ← drafter target targetPointer name (some reference)
                    draftStep fun draft =>
                      { draft with inProgress := draft.inProgress.erase reference }
                    draftDefine reference ref
                    return ref
  | _ => draftReject pointer .referenceNotText

/-- The names of the properties that must be present. -/
def draftRequired (node : Json) (pointer : String) : DraftM (List String) :=
  match node.member? "required" with
  | none => return []
  | some (.array names) =>
      match texts? names with
      | some names => return names
      | none => draftReject (Json.Pointer.child pointer "required") .requiredNotNames
  | some _ => draftReject (Json.Pointer.child pointer "required") .requiredNotAnArray

/-- Give a part a name in generated declarations that is not taken. -/
def draftCompanion (part : Part) (ident : String) (taken : List String) :
    DraftM (Part × List String) := do
  let name := Text.Identifier.fresh taken ident
  if name = part.name then return (part, name :: taken)
  else
    draftRoom (textCost name)
    return ({ part with companion := name }, name :: taken)

/-- The type that a part of a declared type is stored with. -/
def draftWrapped (ref : Ref) (flags : FieldFlags) : DraftM Ref := do
  let inner ← if flags.contains FieldFlags.canFail then draftInstance .result ref else pure ref
  if flags.contains FieldFlags.required then return inner else draftInstance .option inner

/-- The part of a property. -/
def draftProperty (drafter : NodeDrafter) (base owner : String) (required taken : List String)
    (property : String × Json) : DraftM (Part × List String) := do
  let ref ← drafter property.2 (Json.Pointer.child base property.1)
    (owner ++ Text.Identifier.pascalCase property.1) none
  let flags := (FlagSet.empty.set FieldFlags.required (required.contains property.1)).set
    FieldFlags.canFail (isSet property.2 "x-can-fail")
  let stored ← draftWrapped ref flags
  draftRoom (textCost property.1)
  draftCompanion { name := property.1, type := stored, flags := flags }
    (Text.Identifier.snakeCase property.1) taken

/-- The parts of properties. -/
def draftProperties (drafter : NodeDrafter) (base owner : String) (required : List String) :
    List (String × Json) -> List String -> DraftM (List Part)
  | [], _ => return []
  | property :: rest, taken => do
      let drafted ← draftProperty drafter base owner required taken property
      let parts ← draftProperties drafter base owner required rest drafted.2
      return drafted.1 :: parts

/-- The parts of an object with or without properties. -/
def draftPropertyParts (drafter : NodeDrafter) (node : Json) (pointer owner : String)
    (required : List String) : DraftM (List Part) :=
  let base := Json.Pointer.child pointer "properties"
  match node.member? "properties" with
  | none => return []
  | some (.object properties) => draftProperties drafter base owner required properties []
  | some _ => draftReject base .propertiesNotAnObject

/-- The struct of an object with properties. -/
def draftStruct (drafter : NodeDrafter) (node : Json) (pointer title : String)
    (definition : Option String) : DraftM Ref := do
  let name ← draftName title
  let ref ← draftDeclared name .struct
  draftRegister definition ref
  draftMark ref (nodeMarks node)
  let required ← draftRequired node pointer
  let parts ← draftPropertyParts drafter node pointer name required
  draftParts ref parts
  return ref

/-- The type of an object: a map when only its further properties are
described, else a struct. -/
def draftObject (drafter : NodeDrafter) (node : Json) (pointer title : String)
    (definition : Option String) : DraftM Ref :=
  match node.member? "properties", node.member? "additionalProperties" with
  | none, some (.object values) => do
      let value ← drafter (.object values) (Json.Pointer.child pointer "additionalProperties")
        (title ++ "Value") none
      draftInstance .map value
  | _, _ => draftStruct drafter node pointer title definition

/-- The part of an alternative, which is labelled with the name of its type. -/
def draftAlternative (drafter : NodeDrafter) (pointer owner : String) (index : Nat)
    (taken : List String) (alternative : Json) : DraftM (Part × List String) := do
  let ref ← drafter alternative (Json.Pointer.child pointer (toString index))
    (owner ++ toString index) none
  let label ← draftQuery fun draft => draft.nameOf ref
  draftRoom (textCost label)
  draftCompanion { name := label, type := ref, choice := UInt8.ofNat index }
    (Text.Identifier.pascalCase label) taken

/-- The parts of alternatives, the first of which has a given index. -/
def draftAlternatives (drafter : NodeDrafter) (pointer owner : String) :
    List Json -> Nat -> List String -> DraftM (List Part)
  | [], _, _ => return []
  | alternative :: rest, index, taken => do
      let drafted ← draftAlternative drafter pointer owner index taken alternative
      let parts ← draftAlternatives drafter pointer owner rest (index + 1) drafted.2
      return drafted.1 :: parts

/-- The part that every variant starts with. -/
def tagPart : Part := { name := "tag", type := .builtin .tag }

/-- The variant of a list of alternatives. -/
def draftVariant (drafter : NodeDrafter) (node alternatives : Json) (pointer title : String)
    (definition : Option String) : DraftM Ref :=
  match alternatives with
  | .array alternatives =>
      if alternatives.isEmpty ∨ 255 < alternatives.length then
        draftReject pointer .alternativeCount
      else do
        let name ← draftName title
        let ref ← draftDeclared name .variant
        draftRegister definition ref
        draftMark ref (nodeMarks node)
        draftRoom (textCost tagPart.name)
        let parts ← draftAlternatives drafter pointer name alternatives 0 []
        draftParts ref (tagPart :: parts)
        return ref
  | _ => draftReject pointer .alternativesNotAnArray

/-- The array of a described element. -/
def draftArray (drafter : NodeDrafter) (node : Json) (pointer title : String) : DraftM Ref :=
  match node.member? "items" with
  | none => draftReject pointer .itemsMissing
  | some items => do
      let element ← drafter items (Json.Pointer.child pointer "items") (title ++ "Item") none
      draftInstance .array element

/-- The type of a node that states the name of its type. -/
def draftTyped (drafter : NodeDrafter) (node : Json) (pointer title : String)
    (definition : Option String) (typeName : String) : DraftM Ref :=
  match typeName with
  | "object" => draftObject drafter node pointer title definition
  | "array" => draftArray drafter node pointer title
  | "string" => return .builtin .string
  | "integer" => return .builtin .integer
  | "number" => return .builtin .number
  | "boolean" => return .builtin .boolean
  | "null" => return .builtin .unit
  | other => draftReject pointer (.unsupportedType other)

/-- The name of the type of a node, which may be left out for objects. -/
def draftTypeName (node : Json) (pointer : String) : DraftM String :=
  match node.member? "type" with
  | some (.string name) => return name
  | some _ => draftReject pointer .typeNotText
  | none =>
      if (node.member? "properties").isSome || (node.member? "additionalProperties").isSome then
        return "object"
      else draftReject pointer .typeMissing

/-- The type of a node. -/
def draftNode (drafter : NodeDrafter) (document : Json) : NodeDrafter :=
  fun node pointer name definition =>
    match node with
    | .object _ =>
        match node.member? "$ref" with
        | some reference => draftReference drafter document pointer reference
        | none =>
            let title := match node.member? "title" with
              | some (.string title) => title
              | _ => name
            match node.member? "oneOf", node.member? "anyOf" with
            | some alternatives, _ =>
                draftVariant drafter node alternatives (Json.Pointer.child pointer "oneOf") title
                  definition
            | none, some alternatives =>
                draftVariant drafter node alternatives (Json.Pointer.child pointer "anyOf") title
                  definition
            | none, none => do
                let typeName ← draftTypeName node pointer
                draftTyped drafter node pointer title definition typeName
    | _ => draftReject pointer .notASchema

/-- The type of a node, with a bound on the nesting of nodes. -/
def draftWithin (document : Json) : Nat -> NodeDrafter
  | 0 => fun _ pointer _ _ => draftReject pointer .notASchema
  | levels + 1 => draftNode (draftWithin document levels) document

/-- The draft of a text schema. -/
def draftDocument (document : Json) (rootName : String) : Except CompileError (Drafted Ref) :=
  draftWithin document (nestingBound document) document "" rootName none Draft.empty

end TextSchema
end PackedJson
