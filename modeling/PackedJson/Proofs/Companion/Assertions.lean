import PackedJson.Proofs.Companion.Legality

namespace PackedJson
namespace Companion

open TextSchema Heap Layout

/-!
What the assertions of a companion are on.

The assertions for a target go through the listed types and are on those whose
names belong to declared types.  Declared types have different names, so that
every declared type is asserted under its own identifier.  Names do not tell
declared types from others, though: a listed builtin or an instance of a generic
builtin is asserted, too, under the identifier of a declared type of its name.
-/

/-- An item that is declared for an entry of the list of types. -/
def Declares (context : Context) (types : List (TypeId × TypeDef)) (file : File) (item : Item)
    (entry : TypeId × TypeDef) : Prop :=
  (item, entry) ∈ file.declared.zip (types.filter fun entry => isDeclared context entry.2)

/-- The statements for a target.  The first one is on the root.  Every other one is on
a listed type that is called as the type which the identifier is declared for,
and that is this type itself unless it is not a declared one. -/
structure Asserts (schema : Schema) (context : Context) (target : Target) (root : TypeId)
    (types : List (TypeId × TypeDef)) (file : File) (checks : List Check) : Prop where
  describes : List.Forall₂ (fun item entry => item.Describes file.items schema target entry.2)
    file.declared (types.filter fun entry => isDeclared context entry.2)
  root : exists type align, schema.type root = .ok type ∧ schema.instanceAlign type = .ok align ∧
    checks.head? = some ⟨"DeflateRoot", type.size, align⟩
  own : forall item entry, Declares context types file item entry -> exists align,
    schema.instanceAlign entry.2 = .ok align ∧ ⟨item.ident, entry.2.size, align⟩ ∈ checks.tail
  others : forall check, check ∈ checks.tail -> exists item entry stated,
    Declares context types file item entry ∧ item.ident = check.ident ∧ stated ∈ types ∧
    schema.name stated.2 = schema.name entry.2 ∧
    schema.instanceAlign stated.2 = .ok check.align ∧ stated.2.size = check.size ∧
    (isDeclared context stated.2 = true -> stated = entry)

/-! ### Names of declared types -/

section Names

variable {draft : Draft} {indices : List Nat} {index : Nat}

/-- Declared types are told by their names. -/
theorem index_eq_of_nameOf {other : Nat} (named : draft.Named) (bound : index < draft.sketches.length)
    (otherBound : other < draft.sketches.length)
    (same : draft.nameOf (.declared index) = draft.nameOf (.declared other)) : index = other := by
  simp only [Draft.nameOf, List.getElem?_eq_getElem bound, List.getElem?_eq_getElem otherBound,
    Option.map_some, Option.getD_some] at same
  have inNames : index < (draft.sketches.map Sketch.name).length := by simpa using bound
  have otherInNames : other < (draft.sketches.map Sketch.name).length := by simpa using otherBound
  have isEqual := @List.Nodup.getElem_inj_iff _ _ named.distinct index inNames other otherInNames
  exact isEqual.mp (by simpa using same)

/-- A name leads to the identifier of a declared type of that name. -/
theorem exists_of_lookup {name ident : String}
    (found : (draft.identsByName indices).reverse.lookup name = some ident) :
    exists index, index ∈ indices ∧ draft.nameOf (.declared index) = name ∧
      draft.identOf indices index = ident := by
  obtain ⟨before, after, split, _⟩ := List.lookup_eq_some_iff.mp found
  have member : (name, ident) ∈ draft.identsByName indices :=
    List.mem_reverse.mp (split ▸ List.mem_append_right _ List.mem_cons_self)
  obtain ⟨index, isIndex, same⟩ := List.mem_map.mp member
  obtain ⟨isName, isIdent⟩ := Prod.mk.inj same
  exact ⟨index, isIndex, isName, isIdent⟩

/-- The name of a declared type leads to its identifier. -/
theorem lookup_nameOf (named : draft.Named)
    (bounds : forall index, index ∈ indices -> index < draft.sketches.length)
    (member : index ∈ indices) :
    (draft.identsByName indices).reverse.lookup (draft.nameOf (.declared index)) =
      some (draft.identOf indices index) := by
  cases found : (draft.identsByName indices).reverse.lookup (draft.nameOf (.declared index)) with
  | none =>
      have entered : (draft.nameOf (.declared index), draft.identOf indices index) ∈
          (draft.identsByName indices).reverse :=
        List.mem_reverse.mpr (List.mem_map_of_mem (f := fun index =>
          (draft.nameOf (.declared index), draft.identOf indices index)) member)
      have different := List.lookup_eq_none_iff.mp found _ entered
      exact absurd rfl (bne_iff_ne.mp different)
  | some ident =>
      obtain ⟨other, isOther, sameName, isIdent⟩ := exists_of_lookup found
      rw [← isIdent, index_eq_of_nameOf named (bounds other isOther) (bounds index member) sameName]

end Names

/-- A member of a list has a partner in another list of the same length. -/
theorem exists_mem_zip {First Second : Type} {firsts : List First} {seconds : List Second}
    (sameLength : firsts.length = seconds.length) {first : First} (member : first ∈ firsts) :
    exists second, (first, second) ∈ firsts.zip seconds := by
  obtain ⟨position, inFirst, rfl⟩ := List.mem_iff_getElem.mp member
  have inSecond : position < seconds.length := sameLength ▸ inFirst
  refine ⟨seconds[position], List.mem_iff_getElem.mpr ⟨position, ?_, List.getElem_zip⟩⟩
  rw [List.length_zip]
  omega

/-! ### Statements -/

section Statements

variable {draft : Draft} {root : Ref} {heap : Heap} {arena : Arena} {target : Target}
  {context : Context} {refs : List Ref} {site : Site} {settled : TypeId -> Prop} {rootId : TypeId}
  {types : List (TypeId × TypeDef)} {sizesFor : Target -> Ref -> Variable} {hash : UInt32}

/-- One entry is listed for a type. -/
theorem entry_eq_of_lists {ref : Ref} {entry other : TypeId × TypeDef}
    (listed : Lists draft heap context site settled ref entry)
    (otherListed : Lists draft heap context site settled ref other) : entry = other := by
  obtain ⟨id, type⟩ := entry
  obtain ⟨otherId, otherType⟩ := other
  obtain ⟨finds, _, fields, is⟩ := listed
  obtain ⟨otherFinds, _, otherFields, otherIs⟩ := otherListed
  cases Option.some.inj (finds.2.symm.trans otherFinds.2)
  cases hasType_inj is.stored otherIs.stored
  rfl

variable (roster : IsRoster draft root heap arena target context refs site settled rootId types)

include roster

theorem bound_of_mem (holds : heap.Holds arena) {index : Nat} (member : index ∈ declaredIn refs) :
    index < draft.sketches.length := by
  obtain ⟨id, finds, _⟩ := roster.embodies.exists_settled holds ((roster.mem_indices index).mp member)
  exact roster.embodies.bound index id finds

/-- The item of a declared type is declared for the entry of the type. -/
theorem declares_iff {item : Item} {entry : TypeId × TypeDef} :
    Declares context types (draft.file root refs sizesFor hash) item entry ↔ exists index,
      index ∈ declaredIn refs ∧ draft.item (draft.identOf (declaredIn refs)) index = item ∧
      entry ∈ types ∧ Lists draft heap context site settled (.declared index) entry := by
  have listed := roster.listed_declared
  unfold Declares
  change (item, entry) ∈ ((declaredIn refs).map _).zip _ ↔ _
  rw [List.zip_map_left, List.mem_map]
  constructor
  · rintro ⟨⟨index, other⟩, paired, same⟩
    obtain ⟨isItem, rfl⟩ := Prod.mk.inj same
    obtain ⟨isIndex, isEntry⟩ := List.of_mem_zip paired
    exact ⟨index, isIndex, isItem, (List.mem_filter.mp isEntry).1, List.forall₂_zip listed paired⟩
  · rintro ⟨index, isIndex, rfl, _, isListed⟩
    obtain ⟨other, paired⟩ := exists_mem_zip listed.length_eq isIndex
    have same := entry_eq_of_lists (List.forall₂_zip listed paired) isListed
    exact ⟨(index, other), paired, by rw [same]; rfl⟩

variable {sizeOf : Ref -> Variable} (exact : draft.Exact target sizeOf) (named : draft.Named)
  (holds : heap.Holds arena)

include exact named holds

/-- A declared type is asserted under its identifier. -/
theorem own_of_declares {item : Item} {entry : TypeId × TypeDef}
    (declares : Declares context types (draft.file root refs sizesFor hash) item entry) :
    exists align, Schema.instanceAlign ⟨arena⟩ entry.2 = .ok align ∧
      ⟨item.ident, entry.2.size, align⟩ ∈ (draft.checks target sizeOf root refs).tail := by
  obtain ⟨index, isIndex, rfl, _, listed⟩ := (declares_iff roster).mp declares
  obtain ⟨fields, is⟩ := listed.embodied
  obtain ⟨align, isAlign, isCheck⟩ :=
    check_eq roster.embodies holds exact listed.finds listed.isSettled is
  refine ⟨align, isAlign, List.mem_filterMap.mpr ⟨.declared index, ?_, ?_⟩⟩
  · exact mem_declaredIn.mp (roster.declared.symm ▸ isIndex)
  · rw [lookup_nameOf named (fun _ => bound_of_mem roster holds) isIndex, isCheck]
    rfl

/-- What is asserted besides is on a listed type of the name of a declared one. -/
theorem others_of_mem {check : Check} (member : check ∈ (draft.checks target sizeOf root refs).tail) :
    exists item entry stated, Declares context types (draft.file root refs sizesFor hash) item entry ∧
      item.ident = check.ident ∧ stated ∈ types ∧
      Schema.name ⟨arena⟩ stated.2 = Schema.name ⟨arena⟩ entry.2 ∧
      Schema.instanceAlign ⟨arena⟩ stated.2 = .ok check.align ∧ stated.2.size = check.size ∧
      (isDeclared context stated.2 = true -> stated = entry) := by
  obtain ⟨ref, isShown, isCheck⟩ := List.mem_filterMap.mp member
  obtain ⟨ident, found, rfl⟩ := Option.map_eq_some_iff.mp isCheck
  obtain ⟨index, isIndex, sameName, rfl⟩ := exists_of_lookup found
  obtain ⟨stated, isStated, listed⟩ := exists_of_mem_left roster.lists isShown
  obtain ⟨entry, isEntry, entryListed⟩ := exists_of_mem_left roster.listed_declared isIndex
  obtain ⟨fields, is⟩ := listed.embodied
  obtain ⟨entryFields, entryIs⟩ := entryListed.embodied
  obtain ⟨align, isAlign, states⟩ :=
    check_eq roster.embodies holds exact listed.finds listed.isSettled is
  rw [← states]
  refine ⟨_, entry, stated, (declares_iff roster).mpr
    ⟨index, isIndex, rfl, (List.mem_filter.mp isEntry).1, entryListed⟩, rfl, isStated, ?_, isAlign, rfl,
    fun declared => ?_⟩
  · rw [holds.name is.name, holds.name entryIs.name, sameName]
  · rw [roster.embodies.isDeclared_eq listed.finds is] at declared
    obtain ⟨other, isOther⟩ := Option.isSome_iff_exists.mp declared
    cases Ref.declaredIndex?_eq_some.mp isOther
    have bound := roster.embodies.bound _ _ listed.finds
    cases index_eq_of_nameOf named (bound_of_mem roster holds isIndex) bound sameName
    exact entry_eq_of_lists listed entryListed

end Statements

/-- The assertions in the companion of an accepted text schema are on the root and,
under the identifiers of the declared types, on these types, for each target.
Where an assertion is on a type that is not declared, that type has the name of
the declared one. -/
theorem asserts_of_compile {document : Json} {options : CompileOptions} {container : Container}
    (accepted : compile document options = .ok container) :
    exists (file : File) (checksFor : Target -> List Check),
    source container = .ok file.render ∧
    file.asserted = Target.all.map (fun target => (target, checksFor target)) ∧
    (file.items.map Item.ident).Nodup ∧ forall target, exists root types,
      container.schema.root (container.context target) = .ok root ∧
      Listing.listedTypes container.schema root = .ok types ∧
      Asserts container.schema (container.context target) target root types file
        (checksFor target) := by
  obtain ⟨slice, ⟨root, draft, cost⟩, _, drafts, bodies⟩ := bodies_of_compile accepted
  have named := named_of_draftTarget drafts
  choose sizesFor exact using bodies.complete.exists_exact
  obtain ⟨refs, rostersOf⟩ := bodies.exists_rosters
  obtain ⟨heap, rosters⟩ := rostersOf bodies
  obtain ⟨_, _, _, _, first⟩ := rosters.each .wasm32
  have isNamed : (draft.file root refs sizesFor container.schemaHash).IsNamed :=
    isNamed_file first rosters.holds
  refine ⟨_, fun target => draft.checks target (sizesFor target) root refs,
    source_eq_file rosters exact, rfl, isNamed.nodup_ident, fun target => ?_⟩
  obtain ⟨site, settled, rootId, types, roster⟩ := rosters.each target
  obtain ⟨rootType, _, rootIs⟩ := roster.embodies.exists_isEmbodied roster.finds roster.isSettled
  obtain ⟨align, isAlign, isCheck⟩ :=
    check_eq roster.embodies rosters.holds (exact target) roster.finds roster.isSettled rootIs
  refine ⟨rootId, types, roster.isRoot, roster.listed, ?_, ?_, ?_, ?_⟩
  · have resolves := @resolves_file _ _ _ _ _ _ _ _ _ _ _ sizesFor container.schemaHash roster
      rosters.holds
    refine List.forall₂_map_left_iff.mpr (((List.forall₂_and_left _ _).mpr
      ⟨fun index member => (roster.mem_indices index).mp member, roster.listed_declared⟩).imp ?_)
    exact fun index entry ⟨isReached, isListed⟩ =>
      describes_of_lists roster.embodies rosters.holds resolves isReached isListed
  · exact ⟨rootType, align, rosters.holds.type rootIs.stored, isAlign,
      congrArg some (isCheck "DeflateRoot").symm⟩
  · exact fun item entry => own_of_declares roster (exact target) named rosters.holds
  · exact fun check => others_of_mem roster (exact target) named rosters.holds

/-- The schema of records with a number and a text. -/
def entrySchema : Inferred :=
  .object [("count", .integer), ("label", .string)] ["count", "label"]

/-- A declared type may have the name of a listed builtin: the assertions are on
both of them. -/
theorem asserts_of_compile_string : exists container,
    compile entrySchema.toJson ⟨"String", {}⟩ = .ok container ∧
    exists (file : File) (checksFor : Target -> List Check), file.declared ≠ [] ∧
    source container = .ok file.render ∧
    file.asserted = Target.all.map (fun target => (target, checksFor target)) ∧
    (file.items.map Item.ident).Nodup ∧ forall target, exists root types,
      container.schema.root (container.context target) = .ok root ∧
      Listing.listedTypes container.schema root = .ok types ∧
      Asserts container.schema (container.context target) target root types file
        (checksFor target) := by
  have formed : entrySchema.Formed :=
    .object (by decide) (by simpa using ⟨.integer, .string⟩) (by simp)
  have clear : entrySchema.IsClear := .object (by simpa using ⟨.integer, .string⟩)
  obtain ⟨container, accepted, declared⟩ :=
    @exists_declared entrySchema formed clear "String" (by decide +kernel) (by decide +kernel)
  obtain ⟨file, checksFor, isSource, asserted, distinct, each⟩ := asserts_of_compile accepted
  obtain ⟨root, types, isRoot, listed, asserts⟩ := each .wasm32
  refine ⟨container, accepted, file, checksFor, fun none => ?_, isSource, asserted, distinct, each⟩
  have describes := asserts.describes
  rw [none] at describes
  exact declared root types isRoot listed (List.forall₂_nil_left_iff.mp describes)

end Companion
end PackedJson
