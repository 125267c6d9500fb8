import PackedJson.Json.Value

namespace PackedJson
namespace TextSchema

/-!
Inferring a text schema from a sample document.

Each value of the sample gives the schema that fits it most closely.  The
items of an array share one schema: objects are merged member by member,
integers widen to numbers, and what cannot be reconciled becomes a choice.
A member is required unless it is null or missing in some of the samples.
-/

/-- The schemas that samples give rise to. -/
inductive Inferred where
  | null
  | boolean
  | integer
  | number
  | string
  | array (items : Inferred)
  | object (properties : List (String × Inferred)) (required : List String)
  | oneOf (alternatives : List Inferred)

namespace Inferred

/-- The schema under a name. -/
def lookup? (name : String) : List (String × Inferred) -> Option Inferred
  | [] => none
  | (key, schema) :: rest => if key = name then some schema else lookup? name rest

mutual

/-- Whether two schemas are equal, where the order of properties does not count. -/
def same : Inferred -> Inferred -> Bool
  | null, null => true
  | boolean, boolean => true
  | integer, integer => true
  | number, number => true
  | string, string => true
  | array first, array second => same first second
  | object first firstRequired, object second secondRequired =>
      first.length == second.length && sameProperties first second &&
        firstRequired == secondRequired
  | oneOf first, oneOf second => sameList first second
  | _, _ => false

/-- Whether all properties of the first list occur in the second one. -/
def sameProperties : List (String × Inferred) -> List (String × Inferred) -> Bool
  | [], _ => true
  | (name, schema) :: rest, others =>
      (match lookup? name others with
        | some other => same schema other
        | none => false) && sameProperties rest others

/-- Whether two lists hold equal schemas in the same order. -/
def sameList : List Inferred -> List Inferred -> Bool
  | [], [] => true
  | first :: rest, second :: others => same first second && sameList rest others
  | _, _ => false

end

/-- The alternatives of a choice, or a schema as its only alternative. -/
def alternatives : Inferred -> List Inferred
  | oneOf alternatives => alternatives
  | schema => [schema]

/-- The schemas of a list behind some others, each only once. -/
def unique (before : List Inferred) : List Inferred -> List Inferred
  | [] => before
  | schema :: rest =>
      if before.any (fun other => same other schema) then unique before rest
      else unique (before ++ [schema]) rest

/-- The choice between two schemas; choices among them are dissolved. -/
def choice (first second : Inferred) : Inferred :=
  oneOf (unique [] (first.alternatives ++ second.alternatives))

mutual

/-- A schema for everything that either of two schemas is for. -/
def merge : Inferred -> Inferred -> Inferred
  | array first, array second =>
      if same (array first) (array second) then array first else array (merge first second)
  | object first firstRequired, object second secondRequired =>
      if same (object first firstRequired) (object second secondRequired) then
        object first firstRequired
      else
        object
          (mergeProperties first second ++
            second.filter fun property => (lookup? property.1 first).isNone)
          ((first.map Prod.fst).filter fun name =>
            firstRequired.contains name && secondRequired.contains name)
  | integer, number => number
  | number, integer => number
  | first, second => if same first second then first else choice first second

/-- The properties of the first list, merged with those of the second one.  A
property that was null in one sample takes its schema from the other. -/
def mergeProperties :
    List (String × Inferred) -> List (String × Inferred) -> List (String × Inferred)
  | [], _ => []
  | (name, schema) :: rest, others =>
      let merged := match lookup? name others with
        | none => schema
        | some other =>
            match schema, other with
            | null, _ => other
            | _, null => schema
            | _, _ => merge schema other
      (name, merged) :: mergeProperties rest others

end

/-- One schema for all items of an array; without items it is that of null. -/
def mergeAll : List Inferred -> Inferred
  | [] => null
  | first :: rest => rest.foldl merge first

/-- The names of the members that are not null. -/
def presentNames (members : List (String × Json)) : List String :=
  members.filterMap fun (name, value) =>
    match value with
    | .null => none
    | _ => some name

mutual

/-- The schema that fits a sample most closely. -/
def ofSample : Json -> Inferred
  | .null => null
  | .boolean _ => boolean
  | .number (.integer _) => integer
  | .number (.float _) => number
  | .string _ => string
  | .array items => array (mergeAll (ofItems items))
  | .object members => object (ofMembers members) (presentNames members)

/-- The schemas of the items of an array. -/
def ofItems : List Json -> List Inferred
  | [] => []
  | item :: rest => ofSample item :: ofItems rest

/-- The schemas of the members of an object. -/
def ofMembers : List (String × Json) -> List (String × Inferred)
  | [] => []
  | (name, value) :: rest => (name, ofSample value) :: ofMembers rest

end

/-- The document that states a type and nothing else. -/
def typed (name : String) (others : List (String × Json)) : Json :=
  .object (("type", .string name) :: others)

mutual

/-- The text schema as a document. -/
def toJson : Inferred -> Json
  | null => typed "null" []
  | boolean => typed "boolean" []
  | integer => typed "integer" []
  | number => typed "number" []
  | string => typed "string" []
  | array items => typed "array" [("items", toJson items)]
  | object properties required =>
      typed "object" [("properties", .object (toMembers properties)),
        ("required", .array (required.map .string))]
  | oneOf alternatives => .object [("oneOf", .array (toItems alternatives))]

/-- The documents of some schemas. -/
def toItems : List Inferred -> List Json
  | [] => []
  | schema :: rest => toJson schema :: toItems rest

/-- The documents of some properties. -/
def toMembers : List (String × Inferred) -> List (String × Json)
  | [] => []
  | (name, schema) :: rest => (name, toJson schema) :: toMembers rest

end

end Inferred

/-- The text schema inferred from a sample. -/
def infer (sample : Json) : Json :=
  (Inferred.ofSample sample).toJson

end TextSchema
end PackedJson
