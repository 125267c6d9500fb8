import PackedJson.Text.Identifier
import PackedJson.TextSchema.Listing

namespace PackedJson
namespace Companion

/-!
Declarations in the Rust language that have the layout of a compiled schema.

Every declared type that can be reached from the root becomes a struct or an
enumeration; the generic containers are declared once, ahead of them.  A
variable of a type stored by reference is a pointer.  For each width of
pointers, assertions state the size and the alignment of the declared types.

Identifiers are assigned to the types of the 32-bit target.  The assertions
for the other target find them through the names of the types.
-/

/-- The declarations of the generic containers. -/
def containerDeclarations : String := String.intercalate "\n" [
  "#[repr(C)]",
  "pub struct DeflateArray<T> \x7b",
  "    pub ptr: *const T,",
  "    pub cap: usize,",
  "    pub len: usize,",
  "\x7d",
  "",
  "pub type DeflateString = DeflateArray<u8>;",
  "",
  "#[repr(C)]",
  "pub struct DeflateMap<T> \x7b",
  "    pub keys: DeflateArray<u32>,",
  "    pub values: DeflateArray<T>,",
  "    pub strings: DeflateArray<DeflateString>,",
  "\x7d",
  "",
  "#[repr(C, u8)]",
  "pub enum DeflateOption<T> \x7b",
  "    None = 0,",
  "    Some(T) = 1,",
  "\x7d",
  "",
  "#[repr(C, u8)]",
  "pub enum DeflateResult<T> \x7b",
  "    Ok(T) = 0,",
  "    Err(DeflateString) = 1,",
  "\x7d"]

/-- The identifiers that the containers and the root take. -/
def reserved : List String :=
  ["DeflateRoot", "DeflateArray", "DeflateString", "DeflateMap", "DeflateOption",
    "DeflateResult"]

/-- The types of one target, and the identifiers of its declared types. -/
structure Names where
  schema : Schema
  context : Context
  idents : List (TypeId × String)

/-- Whether a type derives from the prototype of structs or of variants. -/
def isDeclared (context : Context) (type : TypeDef) : Bool :=
  match type.prototype with
  | some prototype =>
      context.is prototype .structPrototype || context.is prototype .variantPrototype
  | none => false

/-- Give identifiers to the declared types among some types, in order. -/
def assign (schema : Schema) (context : Context) :
    List (TypeId × TypeDef) -> List String -> List (TypeId × String)
  | [], _ => []
  | (id, type) :: rest, taken =>
      if isDeclared context type then
        let ident := Text.Identifier.fresh taken (Text.Identifier.pascalCase (schema.name type))
        (id, ident) :: assign schema context rest (ident :: taken)
      else assign schema context rest taken

/-- How instances of a builtin are declared. -/
def builtinExpression (names : Names) (type : TypeDef) : Builtin -> Except SchemaError String
  | .integer => .ok "i64"
  | .number => .ok "f64"
  | .boolean => .ok "bool"
  | .char => .ok "u8"
  | .tag => .ok "u8"
  | .pointer => .ok "usize"
  | .size => .ok "usize"
  | .hash => .ok "u32"
  | .unit => .ok "()"
  | .string => .ok "DeflateString"
  | _ => .error (.unboundParameter (names.schema.name type))

/-- Whether a type is an instance of a generic builtin. -/
def isInstance (context : Context) (type : TypeDef) (generic : Builtin) : Bool :=
  match type.prototype with
  | some prototype => context.is prototype generic
  | none => false

/-- The declared container that a type is an instance of. -/
def containerName (names : Names) (type : TypeDef) : Except SchemaError String :=
  if isInstance names.context type .option then .ok "DeflateOption"
  else if isInstance names.context type .result then .ok "DeflateResult"
  else
    match type.shape with
    | .array => .ok "DeflateArray"
    | .map => .ok "DeflateMap"
    | _ => .error (names.schema.malformed type .notDeclared)

/-- How a variable is declared whose instances are declared in a given way. -/
def variableExpression (names : Names)
    (instanceExpression : TypeId -> TypeDef -> Except SchemaError String) (id : TypeId) :
    Except SchemaError String := do
  let type ← names.schema.type id
  let inner ← instanceExpression id type
  return if type.isStoredByReference then "*const " ++ inner else inner

/-- How instances of a type are declared, with a bound on the nesting of
containers. -/
def instanceWithin (names : Names) : Nat -> TypeId -> TypeDef -> Except SchemaError String
  | 0, _, type => .error (names.schema.malformed type .notDeclared)
  | levels + 1, id, type =>
      match names.context.builtinOf? id with
      | some builtin => builtinExpression names type builtin
      | none =>
          match names.idents.lookup id with
          | some ident => .ok ident
          | none => do
              let generic ← containerName names type
              match type.argument with
              | none => throw (.unboundParameter (names.schema.name type))
              | some argument =>
                  let inner ← variableExpression names (instanceWithin names levels) argument
                  return generic ++ "<" ++ inner ++ ">"

/-- How instances of a type are declared.  Containers nested in one another
are different types, of which there are no more than bytes in the arena. -/
def instanceExpression (names : Names) (id : TypeId) (type : TypeDef) :
    Except SchemaError String :=
  instanceWithin names (names.schema.arena.used + 2) id type

/-- How a field is declared. -/
def fieldExpression (names : Names) (owner : TypeDef) (field : FieldDef) :
    Except SchemaError String := do
  let id ← names.schema.fieldType owner field
  variableExpression names (instanceExpression names) id

/-- The line of a field of a struct. -/
def structLine (names : Names) (owner : TypeDef) (field : FieldDef) :
    Except SchemaError String := do
  let expression ← fieldExpression names owner field
  let name ← names.schema.text field.companionName
  return s!"    pub {name}: {expression},"

/-- The line of an alternative of an enumeration. -/
def enumLine (names : Names) (owner : TypeDef) (field : FieldDef) :
    Except SchemaError String := do
  let expression ← fieldExpression names owner field
  let name ← names.schema.text field.companionName
  return s!"    {name}({expression}) = {field.choice},"

/-- The declaration of a type under its identifier. -/
def declaration (names : Names) (type : TypeDef) (ident : String) : Except SchemaError String := do
  let fields ← names.schema.fieldsInOrder type
  if fields.isEmpty then return "#[repr(C)]\npub struct " ++ ident ++ ";"
  else
    match type.shape with
    | .variant =>
        let lines ← (fields.drop 1).mapM (enumLine names type)
        return String.intercalate "\n"
          (["#[repr(C, u8)]", "pub enum " ++ ident ++ " \x7b"] ++ lines ++ ["\x7d"])
    | _ =>
        let lines ← fields.mapM (structLine names type)
        return String.intercalate "\n"
          (["#[repr(C)]", "pub struct " ++ ident ++ " \x7b"] ++ lines ++ ["\x7d"])

/-- The declarations of the types among some types that have identifiers. -/
def declarations (names : Names) : List (TypeId × TypeDef) -> Except SchemaError (List String)
  | [] => .ok []
  | (id, type) :: rest =>
      match names.idents.lookup id with
      | none => declarations names rest
      | some ident => do
          let text ← declaration names type ident
          let others ← declarations names rest
          return "" :: text :: others

/-- The names of the declared types, each with its identifier. -/
def identsByName (names : Names) : Except SchemaError (List (String × String)) :=
  names.idents.mapM fun (id, ident) => return (names.schema.name (← names.schema.type id), ident)

/-- A statement on the size and the alignment of a declared type. -/
structure Check where
  ident : String
  size : UInt32
  align : UInt32
deriving DecidableEq, Repr

/-- The statements on the types of a list whose names belong to declared types. -/
def checksOf (schema : Schema) (byName : List (String × String)) :
    List (TypeId × TypeDef) -> Except SchemaError (List Check)
  | [] => .ok []
  | (_, type) :: rest =>
      match byName.lookup (schema.name type) with
      | none => checksOf schema byName rest
      | some ident => do
          let align ← schema.instanceAlign type
          let others ← checksOf schema byName rest
          return ⟨ident, type.size, align⟩ :: others

/-- All statements for one target; the first one is on the root. -/
def checks (names : Names) (context : Context) : Except SchemaError (List Check) := do
  let byName ← identsByName names
  let schema := names.schema
  let root ← schema.root context
  let rootType ← schema.type root
  let rootAlign ← schema.instanceAlign rootType
  let types ← Listing.listedTypes schema root
  let others ← checksOf schema byName.reverse types
  return ⟨"DeflateRoot", rootType.size, rootAlign⟩ :: others

/-- The lines of a statement. -/
def Check.lines (check : Check) : List String :=
  [s!"    assert!(core::mem::size_of::<{check.ident}>() == {check.size});",
    s!"    assert!(core::mem::align_of::<{check.ident}>() == {check.align});"]

/-- The assertions for one target. -/
def assertions (names : Names) (context : Context) (target : Target) :
    Except SchemaError String := do
  let checks ← checks names context
  let width := 8 * target.pointerWidth
  return String.intercalate "\n"
    ([s!"#[cfg(target_pointer_width = \"{width}\")]", "const _: () = \x7b"] ++
      checks.flatMap Check.lines ++ ["\x7d;"])

/-- The identifiers of the declared types that can be reached from a root. -/
def namesFor (schema : Schema) (context : Context) (root : TypeId) : Except SchemaError Names := do
  let types ← Listing.listedTypes schema root
  return ⟨schema, context, assign schema context types reserved⟩

/-- The source text of the declarations for a container. -/
def source (container : Container) : Except SchemaError String := do
  let schema := container.schema
  let root ← schema.root container.wasm
  let names ← namesFor schema container.wasm root
  let rootType ← schema.type root
  let rootExpression ← instanceExpression names root rootType
  let types ← Listing.listedTypes schema root
  let declared ← declarations names types
  let asserted ← Target.all.mapM fun target =>
    assertions names (container.context target) target
  let hash := Text.Hex.padded 8 container.schemaHash.toNat
  let lines := ["// Generated by deflate-schema; do not edit.", "",
    "pub const SCHEMA_HASH: u32 = " ++ hash ++ ";", "", containerDeclarations, "",
    "pub type DeflateRoot = " ++ rootExpression ++ ";"] ++ declared ++
    asserted.flatMap fun text => ["", text]
  return String.intercalate "\n" lines ++ "\n"

end Companion
end PackedJson
