import Mathlib.Data.List.Forall2
import PackedJson.Packing.Violation
import PackedJson.TextSchema.Compile

namespace PackedJson

/-!
What text schemas mean for documents.

A node of a text schema gives the values at a place of a document a role.  The
role decides what a value means, or which violations it commits.  A property
may be optional or able to fail; then the values of the property have a role
of their own, around the role of its node.

Nothing here speaks of types, arenas or offsets.
-/

/-- Values as they come from text: no object has two members of one name, and
integers have at most 64 binary digits. -/
inductive Json.WellFormed : Json -> Prop where
  | null : WellFormed .null
  | boolean (value : Bool) : WellFormed (.boolean value)
  | integer {value : Int} : -2 ^ 63 ≤ value -> value < 2 ^ 64 ->
      WellFormed (.number (.integer value))
  | float (bits : UInt64) : WellFormed (.number (.float bits))
  | string (text : String) : WellFormed (.string text)
  | array {items : List Json} : (forall item, item ∈ items -> WellFormed item) ->
      WellFormed (.array items)
  | object {members : List (String × Json)} : (members.map Prod.fst).Nodup ->
      (forall member, member ∈ members -> WellFormed member.2) -> WellFormed (.object members)

namespace TextSchema

/-! ### Roles of values -/

/-- What is asked of the values at some place. -/
structure Term where
  node : Json
  /-- Violations are captured. -/
  canFail : Bool := false
  /-- The value may be missing or null. -/
  optional : Bool := false

/-- A property of an object. -/
structure Property where
  name : String
  term : Term

/-- The role of a value. -/
inductive Role where
  | integer
  | number
  | boolean
  | null
  | string
  | array (element : Term)
  | map (value : Term)
  | struct (properties : List Property)
  | variant (alternatives : List Term)
  /-- A value that may be missing or null. -/
  | option (inner : Term)
  /-- A value, or the first violation inside it. -/
  | result (inner : Term)

/-- The names of the properties that a node requires. -/
def requiredOf (node : Json) : List String :=
  match node.member? "required" with
  | some (.array names) => (texts? names).getD []
  | _ => []

/-- The properties that a node declares. -/
def propertiesOf (node : Json) : List Property :=
  match node.member? "properties" with
  | some (.object properties) => properties.map fun (name, property) =>
      ⟨name, property, isSet property "x-can-fail", !(requiredOf node).contains name⟩
  | _ => []

/-- The name of the type of a node; for objects it may be left out. -/
def typeNameOf? (node : Json) : Option String :=
  match node.member? "type" with
  | some (.string name) => some name
  | some _ => none
  | none =>
      if (node.member? "properties").isSome || (node.member? "additionalProperties").isSome then
        some "object"
      else none

/-- The role of objects: a map when only further properties are described. -/
def objectRole (node : Json) : Role :=
  match node.member? "properties", node.member? "additionalProperties" with
  | none, some (.object values) => .map ⟨.object values, false, false⟩
  | _, _ => .struct (propertiesOf node)

/-- The role that the stated name of a type gives. -/
def typedRole? (node : Json) (name : String) : Option Role :=
  match name with
  | "object" => some (objectRole node)
  | "array" => (node.member? "items").map fun items => .array ⟨items, false, false⟩
  | "string" => some .string
  | "integer" => some .integer
  | "number" => some .number
  | "boolean" => some .boolean
  | "null" => some .null
  | _ => none

/-- The role that a node states itself: alternatives go before a type. -/
def statedRole? (node : Json) : Option Role :=
  match (node.member? "oneOf").or (node.member? "anyOf") with
  | some (.array alternatives) =>
      some (.variant (alternatives.map fun alternative => ⟨alternative, false, false⟩))
  | some _ => none
  | none => (typeNameOf? node).bind (typedRole? node)

/-- The node that a reference leads to. -/
def target? (document : Json) (reference : String) : Option Json :=
  match definitionName? reference with
  | some _ => Json.Pointer.resolve? (String.ofList (reference.toList.drop 1)) document
  | none => none

/-- The role that a node gives, be it by references. -/
inductive Describes (document : Json) : Json -> Role -> Prop where
  | stated {node : Json} {role : Role} : node.member? "$ref" = none ->
      statedRole? node = some role -> Describes document node role
  | reference {node target : Json} {reference : String} {role : Role} :
      node.member? "$ref" = some (.string reference) -> target? document reference = some target ->
      Describes document target role -> Describes document node role

/-- The role of the values that something is asked of. -/
inductive HasRole (document : Json) : Term -> Role -> Prop where
  | option (node : Json) (canFail : Bool) :
      HasRole document ⟨node, canFail, true⟩ (.option ⟨node, canFail, false⟩)
  | result (node : Json) :
      HasRole document ⟨node, true, false⟩ (.result ⟨node, false, false⟩)
  | node {node : Json} {role : Role} : Describes document node role ->
      HasRole document ⟨node, false, false⟩ role

theorem describes_inj {document node : Json} {first second : Role}
    (firstDescribes : Describes document node first)
    (secondDescribes : Describes document node second) : first = second := by
  induction firstDescribes with
  | stated isNode isFirst =>
      cases secondDescribes with
      | stated _ isSecond => exact Option.some.inj (isFirst.symm.trans isSecond)
      | reference isReference _ _ => cases isNode.symm.trans isReference
  | reference isReference isTarget _ ih =>
      cases secondDescribes with
      | stated isNode _ => cases isNode.symm.trans isReference
      | reference otherReference otherTarget described =>
          cases isReference.symm.trans otherReference
          cases isTarget.symm.trans otherTarget
          exact ih described

/-- No node describes values that may be missing. -/
theorem Describes.ne_option {document node : Json} {role : Role} (describes : Describes document node role)
    (inner : Term) : role ≠ .option inner := by
  induction describes with
  | @stated node role _ isStated =>
      rintro rfl
      unfold statedRole? at isStated
      split at isStated
      · cases isStated
      · cases isStated
      · obtain ⟨name, _, isTyped⟩ := Option.bind_eq_some_iff.mp isStated
        unfold typedRole? at isTyped
        split at isTyped
        · unfold objectRole at isTyped
          split at isTyped <;> cases isTyped
        · obtain ⟨_, _, isArray⟩ := Option.map_eq_some_iff.mp isTyped
          cases isArray
        all_goals cases isTyped
  | reference _ _ _ ih => exact ih

/-- The values that something is asked of have one role. -/
theorem hasRole_inj {document : Json} {term : Term} {first second : Role}
    (firstRole : HasRole document term first) (secondRole : HasRole document term second) :
    first = second := by
  cases firstRole with
  | option => cases secondRole; rfl
  | result => cases secondRole; rfl
  | node firstDescribes =>
      cases secondRole with
      | node secondDescribes => exact describes_inj firstDescribes secondDescribes

/-! ### What values mean -/

/-- What a document means under a text schema. -/
inductive Value where
  | integer (value : Int)
  /-- A double, given by its bits. -/
  | number (bits : UInt64)
  | boolean (value : Bool)
  | null
  | text (content : String)
  | array (elements : List Value)
  | map (entries : List (String × Value))
  | struct (fields : List (String × Value))
  /-- The alternative in some place of the list. -/
  | variant (place : Nat) (value : Value)
  | absent
  | present (value : Value)
  | success (value : Value)
  /-- The message of a captured violation. -/
  | failure (message : String)

/-- What becomes of a value: its meaning, or its violations. -/
inductive Verdict where
  | fits (value : Value)
  | violates (first : Violation) (others : List Violation)

namespace Verdict

/-- The violations, in the order of the walk through the document. -/
def violations : Verdict -> List Violation
  | fits _ => []
  | violates first others => first :: others

/-- The meaning, if there is one. -/
def value? : Verdict -> Option Value
  | fits value => some value
  | violates _ _ => none

/-- The verdict on a value that holds another one. -/
def map (wrap : Value -> Value) : Verdict -> Verdict
  | fits value => fits (wrap value)
  | violates first others => violates first others

/-- The verdict on a whole, given those on its parts. -/
def combine (whole : List Value -> Value) (parts : List Verdict) : Verdict :=
  match parts.flatMap violations with
  | [] => fits (whole (parts.filterMap value?))
  | first :: others => violates first others

/-- The verdict on a value that is able to fail. -/
def captured : Verdict -> Verdict
  | fits value => fits (.success value)
  | violates first _ => fits (.failure first.message)

/-- A single violation. -/
def complaint (complaint : Complaint) (path : Path) : Verdict :=
  violates ⟨complaint, path⟩ []

/-- A value of the wrong kind. -/
def mismatch (expected : Json.Kind) (path : Path) (value : Json) : Verdict :=
  .complaint (.typeMismatch (.value expected) value.kind) path

end Verdict

/-- The verdict on a value as far as it does not depend on other verdicts. -/
def ownVerdict? (role : Role) (path : Path) (value : Json) : Option Verdict :=
  match role, value with
  | .integer, .number (.integer number) =>
      some (if number < 2 ^ 63 then .fits (.integer number)
        else .complaint (.numberOutOfRange number .integer) path)
  | .integer, _ => some (.mismatch .integer path value)
  | .number, .number number => some (.fits (.number number.toBinary64))
  | .number, _ => some (.mismatch .number path value)
  | .boolean, .boolean holds => some (.fits (.boolean holds))
  | .boolean, _ => some (.mismatch .boolean path value)
  | .null, .null => some (.fits .null)
  | .null, _ => some (.mismatch .null path value)
  | .string, .string text => some (.fits (.text text))
  | .string, _ => some (.mismatch .string path value)
  | .array _, .array _ => none
  | .array _, _ => some (.mismatch .array path value)
  | .map _, .object _ => none
  | .map _, _ => some (.mismatch .object path value)
  | .struct _, .object _ => none
  | .struct _, _ => some (.mismatch .object path value)
  | .option _, .null => some (.fits .absent)
  | _, _ => none

/-- How well an alternative of some role suits a value, the best with zero. -/
def Role.suits? : Role -> Json -> Option Nat
  | .null, .null => some 0
  | .boolean, .boolean _ => some 0
  | .integer, .number (.integer _) => some 0
  | .number, .number (.integer _) => some 1
  | .number, .number (.float _) => some 0
  | .integer, .number (.float _) => some 1
  | .string, .string _ => some 0
  | .array _, .array _ => some 0
  | .map _, .object _ => some 0
  | .struct _, .object _ => some 1
  | _, _ => none

/-- The first alternative of those that suit a value best. -/
def IsChoice (roles : List Role) (value : Json) (place : Nat) : Prop :=
  exists chosen rank, roles[place]? = some chosen ∧ chosen.suits? value = some rank ∧
    forall other role otherRank, roles[other]? = some role -> role.suits? value = some otherRank ->
      rank < otherRank ∨ rank = otherRank ∧ place ≤ other

/-- Something to be judged: a value that something is asked of, or a matter
that is settled already. -/
inductive Matter where
  | asked (term : Term) (path : Path) (value : Json)
  | settled (verdict : Verdict)

namespace Matter

/-- A value one step further inside the document, which must not be too deep. -/
def inner (limit : Nat) (term : Term) (path : Path) (segment : Segment) (value : Json) : Matter :=
  if limit ≤ path.depth then settled (.complaint (.tooDeep limit) path)
  else .asked term (path.child segment) value

/-- The items of an array, the first of which has some index. -/
def items (limit : Nat) (element : Term) (path : Path) (values : List Json) (start : Nat) :
    List Matter :=
  (values.zipIdx start).map fun (value, index) => inner limit element path (.index index) value

/-- The members of a map. -/
def members (limit : Nat) (term : Term) (path : Path) (members : List (String × Json)) :
    List Matter :=
  members.map fun (name, value) => inner limit term path (.key name) value

/-- A property of an object with some members. -/
def property (limit : Nat) (path : Path) (members : List (String × Json)) (property : Property) :
    Matter :=
  match Json.lookup? property.name members with
  | some value => inner limit property.term path (.key property.name) value
  | none =>
      settled (if property.term.optional then .fits .absent
        else .complaint (.missingField property.name) path)

end Matter

/-- The verdict on a matter.  Values nest no deeper than a limit. -/
inductive Judges (document : Json) (limit : Nat) : Matter -> Verdict -> Prop where
  | settled (verdict : Verdict) : Judges document limit (.settled verdict) verdict
  | own {term : Term} {path : Path} {value : Json} {role : Role} {verdict : Verdict} :
      HasRole document term role -> ownVerdict? role path value = some verdict ->
      Judges document limit (.asked term path value) verdict
  | option {term inner : Term} {path : Path} {value : Json} {verdict : Verdict} :
      HasRole document term (.option inner) -> value ≠ .null ->
      Judges document limit (.asked inner path value) verdict ->
      Judges document limit (.asked term path value) (verdict.map .present)
  | result {term inner : Term} {path : Path} {value : Json} {verdict : Verdict} :
      HasRole document term (.result inner) ->
      Judges document limit (.asked inner path value) verdict ->
      Judges document limit (.asked term path value) verdict.captured
  | array {term element : Term} {path : Path} {items : List Json} {verdicts : List Verdict} :
      HasRole document term (.array element) ->
      List.Forall₂ (Judges document limit) (Matter.items limit element path items 0) verdicts ->
      Judges document limit (.asked term path (.array items)) (.combine .array verdicts)
  | map {term inner : Term} {path : Path} {members : List (String × Json)}
      {verdicts : List Verdict} :
      HasRole document term (.map inner) ->
      List.Forall₂ (Judges document limit) (Matter.members limit inner path members) verdicts ->
      Judges document limit (.asked term path (.object members))
        (.combine (fun values => .map ((members.map Prod.fst).zip values)) verdicts)
  | struct {term : Term} {path : Path} {members : List (String × Json)}
      {properties : List Property} {verdicts : List Verdict} :
      HasRole document term (.struct properties) ->
      List.Forall₂ (Judges document limit)
        (properties.map (Matter.property limit path members)) verdicts ->
      Judges document limit (.asked term path (.object members))
        (.combine (fun values => .struct ((properties.map Property.name).zip values)) verdicts)
  | variant {term chosen : Term} {path : Path} {value : Json} {alternatives : List Term}
      {roles : List Role} {place : Nat} {verdict : Verdict} :
      HasRole document term (.variant alternatives) ->
      List.Forall₂ (HasRole document) alternatives roles -> IsChoice roles value place ->
      alternatives[place]? = some chosen ->
      Judges document limit (.asked chosen path value) verdict ->
      Judges document limit (.asked term path value) (verdict.map (.variant place))

end TextSchema
end PackedJson
