import PackedJson.Json.Binary64

namespace PackedJson

/-!
The values of JSON documents.

Numbers remember whether they were written as integers: a schema may ask for
an integer, and a variant may choose between the two.  The members of an
object keep the order of the document, and no name occurs twice in an object
that was read from text.
-/

namespace Json

/-- A number, either an integer of at most 64 binary digits or a double given
by its bits. -/
inductive Number where
  | integer (value : Int)
  | float (bits : UInt64)
deriving DecidableEq, Repr

namespace Number

/-- The number as a double, rounded to nearest when it is an integer. -/
def toBinary64 : Number -> UInt64
  | integer value => Binary64.ofInt value
  | float bits => bits

end Number

/-- The kinds of JSON values, with integers apart from other numbers. -/
inductive Kind where
  | null
  | boolean
  | integer
  | number
  | string
  | array
  | object
deriving DecidableEq, Repr

/-- The name of a kind in messages. -/
def Kind.name : Kind -> String
  | null => "null"
  | boolean => "boolean"
  | integer => "integer"
  | number => "number"
  | string => "string"
  | array => "array"
  | object => "object"

end Json

/-- A JSON value. -/
inductive Json where
  | null
  | boolean (value : Bool)
  | number (value : Json.Number)
  | string (text : String)
  | array (items : List Json)
  | object (members : List (String × Json))

namespace Json

/-- Which kind a value is of. -/
def kind : Json -> Kind
  | .null => .null
  | .boolean _ => .boolean
  | .number (.integer _) => .integer
  | .number (.float _) => .number
  | .string _ => .string
  | .array _ => .array
  | .object _ => .object

/-- The value stored under a name. -/
def lookup? (name : String) : List (String × Json) -> Option Json
  | [] => none
  | (key, value) :: rest => if key = name then some value else lookup? name rest

/-- What is found under a name is a member. -/
theorem mem_of_lookup? {name : String} {members : List (String × Json)} {value : Json}
    (found : lookup? name members = some value) : (name, value) ∈ members := by
  induction members with
  | nil => cases found
  | cons member rest ih =>
      unfold lookup? at found
      split at found
      next same =>
        cases found
        exact same ▸ List.mem_cons_self
      next different => exact List.mem_cons_of_mem _ (ih found)

/-- Members with distinct names are found under their names. -/
theorem lookup?_of_mem {members : List (String × Json)} (distinct : (members.map Prod.fst).Nodup)
    {name : String} {value : Json} (member : (name, value) ∈ members) :
    lookup? name members = some value := by
  induction members with
  | nil => cases member
  | cons head rest ih =>
      obtain ⟨notInRest, restDistinct⟩ := List.nodup_cons.mp distinct
      cases List.mem_cons.mp member with
      | inl same =>
          cases same
          exact if_pos rfl
      | inr inRest =>
          have different : head.1 ≠ name := by
            intro same
            exact notInRest (same ▸ List.mem_map.mpr ⟨_, inRest, rfl⟩)
          exact (if_neg different).trans (ih restDistinct inRest)

/-- Store a value under a name: the first member of that name keeps its place
and takes the new value, and a new name goes to the end. -/
def insert (name : String) (value : Json) : List (String × Json) -> List (String × Json)
  | [] => [(name, value)]
  | (key, old) :: rest =>
      if key = name then (key, value) :: rest else (key, old) :: insert name value rest

/-- The member of that name, when the value is an object that has one. -/
def member? (value : Json) (name : String) : Option Json :=
  match value with
  | .object members => lookup? name members
  | _ => none

mutual

/-- The number of values nested in one another along the longest path. -/
def height : Json -> Nat
  | .array items => heightItems items + 1
  | .object members => heightMembers members + 1
  | _ => 1

/-- The greatest height among the items of an array. -/
def heightItems : List Json -> Nat
  | [] => 0
  | item :: rest => max (height item) (heightItems rest)

/-- The greatest height among the members of an object. -/
def heightMembers : List (String × Json) -> Nat
  | [] => 0
  | (_, value) :: rest => max (height value) (heightMembers rest)

end

theorem height_pos (value : Json) : 0 < value.height := by
  cases value <;> simp only [height] <;> omega

theorem height_lt_of_item {items : List Json} {item : Json} (member : item ∈ items) :
    item.height < (array items).height := by
  have bound : item.height ≤ heightItems items := by
    induction items with
    | nil => cases member
    | cons head rest ih =>
        unfold heightItems
        cases List.mem_cons.mp member with
        | inl same => exact same ▸ Nat.le_max_left _ _
        | inr inRest => exact Nat.le_trans (ih inRest) (Nat.le_max_right _ _)
  have whole : (array items).height = heightItems items + 1 := by rw [height]
  omega

theorem height_lt_of_member {members : List (String × Json)} {member : String × Json}
    (isMember : member ∈ members) : member.2.height < (object members).height := by
  have bound : member.2.height ≤ heightMembers members := by
    induction members with
    | nil => cases isMember
    | cons head rest ih =>
        unfold heightMembers
        cases List.mem_cons.mp isMember with
        | inl same => exact same ▸ Nat.le_max_left _ _
        | inr inRest => exact Nat.le_trans (ih inRest) (Nat.le_max_right _ _)
  have whole : (object members).height = heightMembers members + 1 := by rw [height]
  omega

theorem height_lt_of_member? {document inner : Json} {name : String}
    (found : document.member? name = some inner) : inner.height < document.height := by
  cases document with
  | object members => exact height_lt_of_member (mem_of_lookup? found)
  | _ => cases found

mutual

/-- The number of values in a document, itself included. -/
def count : Json -> Nat
  | .array items => countItems items + 1
  | .object members => countMembers members + 1
  | _ => 1

/-- The number of values below an array. -/
def countItems : List Json -> Nat
  | [] => 0
  | item :: rest => count item + countItems rest

/-- The number of values below an object. -/
def countMembers : List (String × Json) -> Nat
  | [] => 0
  | (_, value) :: rest => count value + countMembers rest

end

end Json
end PackedJson
