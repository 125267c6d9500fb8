import PackedJson.Proofs.Companion.Rooms
import PackedJson.Proofs.Text.Legality

namespace PackedJson
namespace Companion

open Layout Text.Identifier

/-!
The identifiers of a companion.

Each declared type of a list is given an identifier that neither the
containers nor the types ahead of it have taken.  All of them start with a
capital letter, which the types of the language do not.  So an identifier
leads to one item at most, and each item is found under its own.
-/

/-- Among items with different keys, those ahead of an item have other keys. -/
theorem exists_split {Item Key : Type} {keyOf : Item -> Key} {items : List Item} {item : Item}
    (distinct : (items.map keyOf).Nodup) (member : item ∈ items) :
    exists before after, items = before ++ item :: after ∧
      forall other, other ∈ before -> keyOf other ≠ keyOf item := by
  obtain ⟨before, after, rfl⟩ := List.append_of_mem member
  rw [List.map_append, List.map_cons] at distinct
  obtain ⟨_, _, apart⟩ := List.nodup_append.mp distinct
  exact ⟨before, after, rfl, fun other inBefore =>
    apart _ (List.mem_map_of_mem inBefore) _ List.mem_cons_self⟩

theorem lookup_of_mem {Key Value : Type} [BEq Key] [LawfulBEq Key] {entries : List (Key × Value)}
    (distinct : (entries.map Prod.fst).Nodup) {key : Key} {value : Value}
    (member : (key, value) ∈ entries) : entries.lookup key = some value := by
  obtain ⟨before, after, same, apart⟩ := exists_split distinct member
  exact List.lookup_eq_some_iff.mpr ⟨before, after, same, fun other inBefore =>
    bne_iff_ne.mpr (apart other inBefore).symm⟩

/-- Items with different identifiers are found under them. -/
theorem itemOf?_of_mem {items : List Item} (distinct : (items.map Item.ident).Nodup) {item : Item}
    (member : item ∈ items) : itemOf? items item.ident = some item := by
  obtain ⟨before, after, same, apart⟩ := exists_split distinct member
  refine List.find?_eq_some_iff_append.mpr ⟨decide_eq_true rfl, before, after, same, ?_⟩
  exact fun other inBefore => by simpa using apart other inBefore

/-! ### Assignment -/

/-- The identifiers for some names, in their order. -/
def identifiers : List String -> List String -> List String
  | [], _ => []
  | name :: rest, taken =>
      let ident := fresh taken (pascalCase name)
      ident :: identifiers rest (ident :: taken)

section Assignment

variable (schema : Schema) (context : Context) (types : List (TypeId × TypeDef)) (names : List String)
  (taken : List String)

/-- The declared types have identifiers, in their order. -/
theorem map_fst_assign : (assign schema context types taken).map Prod.fst =
    (types.filter fun entry => isDeclared context entry.2).map Prod.fst := by
  induction types generalizing taken with
  | nil => rfl
  | cons entry rest ih =>
      unfold assign
      rw [List.filter_cons]
      split
      · rw [List.map_cons, List.map_cons, ih]
      · exact ih taken

/-- Nothing but their names decides which identifiers the declared types have. -/
theorem map_snd_assign : (assign schema context types taken).map Prod.snd =
    identifiers ((types.filter fun entry => isDeclared context entry.2).map fun entry =>
      schema.name entry.2) taken := by
  induction types generalizing taken with
  | nil => rfl
  | cons entry rest ih =>
      unfold assign
      rw [List.filter_cons]
      split
      · rw [List.map_cons, List.map_cons, ih]
        rfl
      · exact ih taken

/-- The identifiers are fresh names made from the names of types. -/
theorem identifiers_eq : identifiers names taken = freshNames (names.map pascalCase) taken := by
  induction names generalizing taken with
  | nil => rfl
  | cons name rest ih => exact congrArg (_ :: ·) (ih _)

/-- No identifier that is given is taken already. -/
theorem notMem_of_identifiers {ident : String} (member : ident ∈ identifiers names taken) :
    ident ∉ taken :=
  notMem_of_freshNames (identifiers_eq names taken ▸ member)

/-- No identifier is given twice. -/
theorem nodup_identifiers : (identifiers names taken).Nodup :=
  identifiers_eq names taken ▸ nodup_freshNames _ taken

theorem isCapital_of_identifiers {ident : String} (member : ident ∈ identifiers names taken) :
    IsCapital ident := by
  rw [identifiers_eq] at member
  obtain ⟨base, isBase, isMade⟩ := exists_base_of_freshNames member
  obtain ⟨name, _, rfl⟩ := List.mem_map.mp isBase
  exact (isCapital_pascalCase name).isMadeFrom isMade

end Assignment

/-! ### Items -/

/-- The declared items have identifiers that were assigned. -/
def File.IsNamed (file : File) : Prop :=
  exists names, file.declared.map Item.ident = identifiers names reserved

namespace File.IsNamed

variable {file : File} (named : file.IsNamed)

include named

theorem nodup_ident : (file.items.map Item.ident).Nodup := by
  obtain ⟨names, same⟩ := named
  have opening : (containers.map Item.ident ++ [file.rootItem.ident]).Perm reserved := by
    change ["DeflateArray", "DeflateString", "DeflateMap", "DeflateOption", "DeflateResult",
      "DeflateRoot"].Perm reserved
    decide
  have split : file.items.map Item.ident =
      (containers.map Item.ident ++ [file.rootItem.ident]) ++ file.declared.map Item.ident := by
    unfold items
    rw [List.map_append, List.map_cons, List.append_assoc, List.singleton_append]
  rw [split, same, List.nodup_append]
  refine ⟨opening.nodup_iff.mpr (by decide), nodup_identifiers names reserved, ?_⟩
  rintro first isOpening _ isAssigned rfl
  exact notMem_of_identifiers names reserved isAssigned (opening.mem_iff.mp isOpening)

theorem isCapital {item : Item} (member : item ∈ file.items) : IsCapital item.ident := by
  obtain ⟨names, same⟩ := named
  rcases List.mem_append.mp member with isContainer | inRest
  · simp only [containers, List.mem_cons, List.not_mem_nil, or_false] at isContainer
    rcases isContainer with rfl | rfl | rfl | rfl | rfl <;> exact ⟨'D', _, rfl, rfl⟩
  · cases List.mem_cons.mp inRest with
    | inl isRoot =>
        rw [isRoot]
        change IsCapital "DeflateRoot"
        exact ⟨'D', _, rfl, rfl⟩
    | inr isDeclared =>
        refine isCapital_of_identifiers names reserved ?_
        exact same ▸ List.mem_map_of_mem isDeclared

/-- Each item is found under its identifier. -/
theorem itemOf?_eq {item : Item} (member : item ∈ file.items) :
    itemOf? file.items item.ident = some item :=
  itemOf?_of_mem named.nodup_ident member

/-- No item takes the name of a type of the language. -/
theorem itemOf?_primitive {target : Target} {ident : String} {room : Variable}
    (isPrimitive : primitiveRoom target ident = some room) : itemOf? file.items ident = none := by
  refine List.find?_eq_none.mpr fun item member same => ?_
  obtain ⟨first, rest, letters, isUpper⟩ := named.isCapital member
  rw [of_decide_eq_true same] at letters
  unfold primitiveRoom at isPrimitive
  split at isPrimitive
  all_goals first
    | (cases letters; cases isUpper)
    | cases isPrimitive

end File.IsNamed

end Companion
end PackedJson
