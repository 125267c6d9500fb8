import PackedJson.TextSchema.Companion

namespace PackedJson
namespace Companion

/-!
The declarations of a companion, apart from their text.

A companion declares the containers, an alias for the type of the root, and
the declared types of the schema.  Its text is the text of these items, of the
hash of the layout and of the assertions, with blank lines between them.
-/

/-- How instances of a type are declared. -/
inductive Expression where
  | unit
  | name (ident : String)
  | applied (generic : String) (argument : Expression)
  | pointer (pointee : Expression)
deriving DecidableEq, Repr

namespace Expression

/-- The text of an expression. -/
def render : Expression -> String
  | unit => "()"
  | name ident => ident
  | applied generic argument => generic ++ "<" ++ argument.render ++ ">"
  | pointer pointee => "*const " ++ pointee.render

/-- An expression with an argument in place of a parameter. -/
def substitute (parameter : String) (argument : Expression) : Expression -> Expression
  | unit => unit
  | name ident => if ident = parameter then argument else name ident
  | applied generic inner => applied generic (substitute parameter argument inner)
  | pointer pointee => pointer (substitute parameter argument pointee)

end Expression

/-- One alternative of an enumeration, with the value of its tag. -/
structure Alternative where
  name : String
  payload : Option Expression
  choice : UInt8
deriving DecidableEq, Repr

/-- What an item declares. -/
inductive Body where
  | struct (fields : List (String × Expression))
  | enumeration (alternatives : List Alternative)
  | synonym (meaning : Expression)
deriving DecidableEq, Repr

/-- An item of the declarations, which may have a parameter. -/
structure Item where
  ident : String
  parameter : Option String := none
  body : Body
deriving DecidableEq, Repr

/-- The line of a field. -/
def fieldLine (field : String × Expression) : String :=
  s!"    pub {field.1}: {field.2.render},"

/-- The line of an alternative. -/
def Alternative.line (alternative : Alternative) : String :=
  match alternative.payload with
  | none => s!"    {alternative.name} = {alternative.choice},"
  | some payload => s!"    {alternative.name}({payload.render}) = {alternative.choice},"

/-- The identifier of an item together with its parameter. -/
def Item.heading (item : Item) : String :=
  match item.parameter with
  | none => item.ident
  | some parameter => item.ident ++ "<" ++ parameter ++ ">"

/-- The text of an item. -/
def Item.render (item : Item) : String :=
  match item.body with
  | .struct [] => "#[repr(C)]\npub struct " ++ item.heading ++ ";"
  | .struct fields => String.intercalate "\n"
      (["#[repr(C)]", "pub struct " ++ item.heading ++ " \x7b"] ++ fields.map fieldLine ++ ["\x7d"])
  | .enumeration alternatives => String.intercalate "\n"
      (["#[repr(C, u8)]", "pub enum " ++ item.heading ++ " \x7b"] ++
        alternatives.map Alternative.line ++ ["\x7d"])
  | .synonym meaning => "pub type " ++ item.heading ++ " = " ++ meaning.render ++ ";"

/-! ### Containers -/

/-- Arrays of elements of a type. -/
def arrayItem : Item where
  ident := "DeflateArray"
  parameter := some "T"
  body := .struct [("ptr", .pointer (.name "T")), ("cap", .name "usize"), ("len", .name "usize")]

/-- Texts are arrays of bytes. -/
def stringItem : Item where
  ident := "DeflateString"
  body := .synonym (.applied "DeflateArray" (.name "u8"))

/-- Maps to values of a type. -/
def mapItem : Item where
  ident := "DeflateMap"
  parameter := some "T"
  body := .struct [("keys", .applied "DeflateArray" (.name "u32")),
    ("values", .applied "DeflateArray" (.name "T")),
    ("strings", .applied "DeflateArray" (.name "DeflateString"))]

def optionItem : Item where
  ident := "DeflateOption"
  parameter := some "T"
  body := .enumeration [⟨"None", none, 0⟩, ⟨"Some", some (.name "T"), 1⟩]

def resultItem : Item where
  ident := "DeflateResult"
  parameter := some "T"
  body := .enumeration [⟨"Ok", some (.name "T"), 0⟩, ⟨"Err", some (.name "DeflateString"), 1⟩]

/-- The containers, which are declared ahead of everything else. -/
def containers : List Item := [arrayItem, stringItem, mapItem, optionItem, resultItem]

/-- The text of the containers is what every companion starts with. -/
theorem render_containers :
    String.intercalate "\n\n" (containers.map Item.render) = containerDeclarations := by
  decide +kernel

/-- The declarations of a companion. -/
structure File where
  hash : UInt32
  root : Expression
  declared : List Item
  asserted : List (Target × List Check)

/-- The text of the assertions for one target. -/
def assertionText (asserted : Target × List Check) : String :=
  let width := 8 * asserted.1.pointerWidth
  String.intercalate "\n"
    ([s!"#[cfg(target_pointer_width = \"{width}\")]", "const _: () = \x7b"] ++
      asserted.2.flatMap Check.lines ++ ["\x7d;"])

namespace File

/-- The alias for the type of the root. -/
def rootItem (file : File) : Item := { ident := "DeflateRoot", body := .synonym file.root }

/-- All items, among which identifiers are looked up. -/
def items (file : File) : List Item := containers ++ file.rootItem :: file.declared

/-- The text of a companion. -/
def render (file : File) : String :=
  String.intercalate "\n\n"
    (["// Generated by deflate-schema; do not edit.",
      "pub const SCHEMA_HASH: u32 = " ++ Text.Hex.padded 8 file.hash.toNat ++ ";"] ++
      file.items.map Item.render ++ file.asserted.map assertionText) ++ "\n"

end File

/-! ### Blank lines -/

/-- Texts with an empty line ahead of each of them. -/
theorem intercalate_blank (first : String) (texts : List String) :
    String.intercalate "\n" (first :: texts.flatMap fun text => ["", text]) =
      String.intercalate "\n\n" (first :: texts) := by
  induction texts generalizing first with
  | nil => rw [List.flatMap_nil, String.intercalate_singleton, String.intercalate_singleton]
  | cons text rest ih =>
      have twice : "\n" ++ ("" ++ "\n") = "\n\n" := rfl
      rw [List.flatMap_cons, List.cons_append, List.cons_append, List.nil_append,
        String.intercalate_cons_cons, String.intercalate_cons_cons, ih,
        String.intercalate_cons_cons, ← twice]
      simp only [String.append_assoc]

/-- The text of a companion is made of lines as the generator makes it. -/
theorem File.render_eq (file : File) : file.render = String.intercalate "\n"
    (["// Generated by deflate-schema; do not edit.", "",
      "pub const SCHEMA_HASH: u32 = " ++ Text.Hex.padded 8 file.hash.toNat ++ ";", "",
      containerDeclarations, "", "pub type DeflateRoot = " ++ file.root.render ++ ";"] ++
      (file.declared.map Item.render).flatMap (fun text => ["", text]) ++
      (file.asserted.map assertionText).flatMap fun text => ["", text]) ++ "\n" := by
  have root : file.rootItem.render = "pub type DeflateRoot = " ++ file.root.render ++ ";" := rfl
  have lines (opening hash containers root : String) (declared asserted : List String) :
      [opening, "", hash, "", containers, "", root] ++
          declared.flatMap (fun text => ["", text]) ++ asserted.flatMap (fun text => ["", text]) =
        opening :: ([hash, containers, root] ++ declared ++ asserted).flatMap
          fun text => ["", text] := by
    rw [List.flatMap_append, List.flatMap_append]
    rfl
  rw [lines, intercalate_blank, ← render_containers, ← root]
  unfold render items
  have split (opening hash root : String) (texts rest : List String) (nonempty : texts ≠ []) :
      String.intercalate "\n\n" (opening :: ([hash, String.intercalate "\n\n" texts, root] ++ rest)) =
        String.intercalate "\n\n" ([opening, hash] ++ texts ++ root :: rest) := by
    rw [String.intercalate_append_of_ne_nil (by simp) (List.cons_ne_nil _ _),
      String.intercalate_append_of_ne_nil (List.cons_ne_nil _ _) nonempty]
    simp only [List.cons_append, List.nil_append, String.intercalate_cons_cons,
      String.intercalate_singleton, String.append_assoc]
  have blocks := split "// Generated by deflate-schema; do not edit."
    ("pub const SCHEMA_HASH: u32 = " ++ Text.Hex.padded 8 file.hash.toNat ++ ";")
    file.rootItem.render (containers.map Item.render)
    (file.declared.map Item.render ++ file.asserted.map assertionText) (by simp [containers])
  rw [List.append_assoc [_, _, _], blocks]
  simp only [List.map_append, List.map_cons, List.append_assoc, List.cons_append]

end Companion
end PackedJson
