import PackedJson.Proofs.Companion.Naming
import PackedJson.Proofs.Companion.Texts

namespace PackedJson

/-!
The source text of a companion.

The generator lists the types of the 32-bit target, gives identifiers to the
declared ones and writes the items of the draft under them.  The assertions
that follow are on the types of both targets.  All of this is what the draft
says, given the sizes of its types; where the types are stored does not show.
-/

namespace TextSchema.Draft

open Companion Layout

variable (draft : Draft)

/-- The identifier of a declared type, given the numbers of all of them. -/
def identOf (indices : List Nat) (index : Nat) : String :=
  ((indices.zip (identifiers (indices.map fun each => draft.nameOf (.declared each)) reserved)).lookup
    index).getD ""

/-- The names of the declared types, each with its identifier. -/
def identsByName (indices : List Nat) : List (String × String) :=
  indices.map fun index => (draft.nameOf (.declared index), draft.identOf indices index)

variable (target : Target) (sizeOf : Ref -> Variable) (root : Ref) (refs : List Ref)

/-- What is stated on a type under an identifier. -/
def check (ref : Ref) (ident : String) : Check :=
  let room := draft.room target sizeOf ref
  ⟨ident, .ofNat room.size, .ofNat room.align⟩

/-- What is stated on some types, if their names belong to declared types. -/
def checksOf (byName : List (String × String)) (shown : List Ref) : List Check :=
  shown.filterMap fun ref => (byName.lookup (draft.nameOf ref)).map (draft.check target sizeOf ref)

/-- All statements for one target. -/
def checks : List Check :=
  draft.check target sizeOf root "DeflateRoot" ::
    draft.checksOf target sizeOf (draft.identsByName (declaredIn refs)).reverse
      (refs.filter draft.isListed)

/-- The companion of a draft, given the types that can be reached. -/
def file (sizesFor : Target -> Ref -> Variable) (hash : UInt32) : File where
  hash := hash
  root := draft.expression (draft.identOf (declaredIn refs)) root
  declared := (declaredIn refs).map (draft.item (draft.identOf (declaredIn refs)))
  asserted := Target.all.map fun target => (target, draft.checks target (sizesFor target) root refs)

end TextSchema.Draft

namespace Companion

open TextSchema Heap Layout

section Names

variable {draft : Draft} {root : Ref} {heap : Heap} {arena : Arena} {target other : Target}
  {context otherContext : Context} {site otherSite : Site} {settled otherSettled : TypeId -> Prop}
  {refs shown : List Ref} {types otherTypes : List (TypeId × TypeDef)}
  {idents : List (TypeId × String)} {rootId otherRootId : TypeId}

/-- The identifier of what is found for a number is that of the number. -/
theorem lookup_eq_of_finds {indices : List Nat} {index : Nat} {id : TypeId}
    (distinct : forall ref other id, site.Finds ref id -> site.Finds other id -> ref = other)
    (finds : site.Finds (.declared index) id)
    (found : List.Forall₂ (fun index entry => site.Finds (.declared index) entry.1) indices idents) :
    idents.lookup id = (indices.zip (idents.map Prod.snd)).lookup index := by
  induction found with
  | nil => rfl
  | @cons head entry _ _ headFinds _ ih =>
      have same : (id == entry.1) = (index == head) := by
        rw [Bool.eq_iff_iff, beq_iff_eq, beq_iff_eq]
        constructor
        · rintro rfl
          exact Ref.declared.inj (distinct _ _ _ finds headFinds)
        · rintro rfl
          exact Option.some.inj (finds.2.symm.trans headFinds.2)
      rw [List.map_cons, List.zip_cons_cons, List.lookup_cons, List.lookup_cons, same, ih]

section Assigned

variable (roster : IsRoster draft root heap arena target context refs site settled rootId types)

include roster

theorem nodup_idents : ((assign ⟨arena⟩ context types reserved).map Prod.fst).Nodup := by
  rw [map_fst_assign]
  exact roster.once.sublist (List.filter_sublist.map Prod.fst)

/-- The declared types have identifiers, in the order of the list. -/
theorem finds_idents (holds : heap.Holds arena) :
    List.Forall₂ (fun index entry => site.Finds (.declared index) entry.1 ∧
        draft.identOf (declaredIn refs) index = entry.2)
      (declaredIn refs) (assign ⟨arena⟩ context types reserved) := by
  have found : List.Forall₂ (fun index entry => site.Finds (.declared index) entry.1)
      (declaredIn refs) (assign ⟨arena⟩ context types reserved) := by
    refine List.forall₂_map_right_iff.mp ?_
    rw [map_fst_assign]
    exact List.forall₂_map_right_iff.mpr (roster.listed_declared.imp fun _ _ listed => listed.finds)
  have names : ((types.filter fun entry => isDeclared context entry.2).map fun entry =>
      Schema.name ⟨arena⟩ entry.2) = (declaredIn refs).map fun index =>
        draft.nameOf (.declared index) := by
    refine (List.forall₂_eq_eq_eq ▸ List.forall₂_map_left_iff.mpr (List.forall₂_map_right_iff.mpr
      (roster.listed_declared.flip.imp fun entry index listed => ?_)))
    obtain ⟨fields, is⟩ := listed.embodied
    exact holds.name is.name
  have pairs := List.forall₂_iff_get.mp found
  refine List.forall₂_iff_get.mpr ⟨pairs.1, fun position inFirst inSecond => ?_⟩
  have finds := pairs.2 position inFirst inSecond
  refine ⟨finds, ?_⟩
  unfold Draft.identOf
  rw [← names, ← map_snd_assign, ← lookup_eq_of_finds roster.embodies.distinct finds found,
    lookup_of_mem (nodup_idents roster) (List.getElem_mem inSecond)]
  rfl

/-- Identifiers belong to the declared types, and to no others. -/
theorem fits_identOf (holds : heap.Holds arena) :
    Fits draft root site (draft.identOf (declaredIn refs))
      (assign ⟨arena⟩ context types reserved) := by
  have found := finds_idents roster holds
  refine ⟨fun index id reached finds => ?_, fun ref id finds notDeclared => ?_⟩
  · obtain ⟨⟨other, ident⟩, member, entryFinds, same⟩ :=
      exists_of_mem_left found ((roster.mem_indices index).mpr reached)
    cases Option.some.inj (finds.2.symm.trans entryFinds.2)
    rw [same]
    exact lookup_of_mem (nodup_idents roster) member
  · refine List.lookup_eq_none_iff.mpr fun entry member => bne_iff_ne.mpr ?_
    rintro rfl
    obtain ⟨index, _, indexFinds, _⟩ := exists_of_mem_left found.flip member
    exact notDeclared index (roster.embodies.distinct _ _ _ finds indexFinds)

/-- The declared types are told by their names. -/
theorem identsByName_eq (holds : heap.Holds arena) :
    identsByName ⟨⟨arena⟩, context, assign ⟨arena⟩ context types reserved⟩ =
      .ok (draft.identsByName (declaredIn refs)) := by
  refine Listing.mapM_eq_ok (List.forall₂_map_right_iff.mpr
    ((finds_idents roster holds).flip.imp fun entry index ⟨finds, ident⟩ => ?_))
  obtain ⟨type, stored, name⟩ := roster.embodies.named _ _ finds
  obtain ⟨id, _⟩ := entry
  cases ident
  dsimp only at stored ⊢
  rw [holds.type stored, ← holds.name name]
  rfl

end Assigned

/-- The generator writes the items of the declared types. -/
theorem declarations_eq (embodies : Embodies draft root heap target context site settled)
    (lists : List.Forall₂ (Lists draft heap context site settled) shown types)
    (holds : heap.Holds arena) {name : Nat -> String}
    (fits : Fits draft root site name idents)
    (areReached : forall ref, ref ∈ shown -> draft.Reaches root ref) :
    declarations ⟨⟨arena⟩, context, idents⟩ types =
      .ok (((declaredIn shown).map (draft.item name)).flatMap
        fun item => ["", item.render]) := by
  induction lists with
  | nil => rfl
  | @cons ref entry _ rest listed _ ih =>
      obtain ⟨reached, othersReached⟩ := List.forall_mem_cons.mp areReached
      have others := ih othersReached
      obtain ⟨fields, is⟩ := listed.embodied
      unfold declaredIn at others ⊢
      unfold declarations
      rw [List.filterMap_cons]
      cases ref with
      | declared index =>
          simp only [fits.declared index entry.1 reached listed.finds, others, bind, Except.bind,
            declaration_eq embodies holds fits reached is]
          rfl
      | _ =>
          simp only [fits.others _ entry.1 listed.finds fun _ same => by cases same]
          exact others

/-! ### Assertions -/

/-- What is stated on the instances of a type is what the draft says. -/
theorem check_eq (embodies : Embodies draft root heap target context site settled)
    (holds : heap.Holds arena) {sizeOf : Ref -> Variable} (exact : draft.Exact target sizeOf)
    {ref : Ref} {id : TypeId} {type : TypeDef} {fields : List FieldDef} (finds : site.Finds ref id)
    (isSettled : settled id) (is : IsEmbodied draft heap context site settled ref id type fields) :
    exists align, Schema.instanceAlign ⟨arena⟩ type = .ok align ∧ forall ident,
      (⟨ident, type.size, align⟩ : Check) = draft.check target sizeOf ref ident := by
  obtain ⟨align, isAlign, room, _⟩ := embodies.exists_room holds.told exact finds isSettled is
  refine ⟨align, isAlign, fun ident => ?_⟩
  unfold Draft.check
  rw [← room]
  simp only [UInt32.ofNat_toNat]

/-- What is stated on listed types is what the draft says. -/
theorem checksOf_eq (embodies : Embodies draft root heap target context site settled)
    (lists : List.Forall₂ (Lists draft heap context site settled) shown types)
    (holds : heap.Holds arena) {sizeOf : Ref -> Variable} (exact : draft.Exact target sizeOf)
    (byName : List (String × String)) :
    checksOf ⟨arena⟩ byName types = .ok (draft.checksOf target sizeOf byName shown) := by
  induction lists with
  | nil => rfl
  | @cons ref entry _ _ listed _ ih =>
      obtain ⟨fields, is⟩ := listed.embodied
      obtain ⟨align, isAlign, isCheck⟩ :=
        check_eq embodies holds exact listed.finds listed.isSettled is
      unfold Draft.checksOf at ih ⊢
      unfold checksOf
      rw [holds.name is.name, List.filterMap_cons]
      cases byName.lookup (draft.nameOf ref) with
      | none => exact ih
      | some ident =>
          simp only [bind, Except.bind, isAlign, ih, isCheck]
          rfl

/-- The assertions for each target are those of the draft. -/
theorem assertions_eq
    (roster : IsRoster draft root heap arena target context refs site settled rootId types)
    (second : IsRoster draft root heap arena other otherContext refs otherSite otherSettled otherRootId
      otherTypes) (holds : heap.Holds arena) {sizeOf : Ref -> Variable}
    (exact : draft.Exact other sizeOf) :
    assertions ⟨⟨arena⟩, context, assign ⟨arena⟩ context types reserved⟩ otherContext other =
      .ok (assertionText (other, draft.checks other sizeOf root refs)) := by
  obtain ⟨rootType, _, rootIs⟩ := second.embodies.exists_isEmbodied second.finds second.isSettled
  obtain ⟨align, isAlign, isCheck⟩ :=
    check_eq second.embodies holds exact second.finds second.isSettled rootIs
  have others := checksOf_eq second.embodies second.lists holds exact
    (draft.identsByName (declaredIn refs)).reverse
  unfold assertions checks
  simp only [bind, Except.bind, identsByName_eq roster holds, second.isRoot,
    holds.type rootIs.stored, isAlign, second.listed, others, isCheck]
  unfold assertionText
  rfl

end Names

/-! ### The whole text -/

/-- The parts of a companion make up its text. -/
theorem source_eq {container : Container} {rootId : TypeId} {rootType : TypeDef}
    {types : List (TypeId × TypeDef)} {names : Names} {file : File}
    (hash : file.hash = container.schemaHash)
    (isRoot : container.schema.root container.wasm = .ok rootId)
    (isType : container.schema.type rootId = .ok rootType)
    (listed : Listing.listedTypes container.schema rootId = .ok types)
    (named : names = ⟨container.schema, container.wasm,
      assign container.schema container.wasm types reserved⟩)
    (root : instanceExpression names rootId rootType = .ok file.root.render)
    (declared : declarations names types =
      .ok ((file.declared.map Item.render).flatMap fun text => ["", text]))
    (asserted : Target.all.mapM (fun target => assertions names (container.context target) target) =
      .ok (file.asserted.map assertionText)) : source container = .ok file.render := by
  have isNames : namesFor container.schema container.wasm rootId = .ok names := by
    unfold namesFor
    rw [listed, named]
    rfl
  unfold source
  rw [File.render_eq, hash]
  simp only [bind, Except.bind, isRoot, isNames, isType, root, listed, declared, asserted]
  rfl

section File

variable {draft : Draft} {root : Ref} {heap : Heap} {arena : Arena} {target : Target}
  {context : Context} {refs : List Ref} {site : Site} {settled : TypeId -> Prop} {rootId : TypeId}
  {types : List (TypeId × TypeDef)} {sizesFor : Target -> Ref -> Variable} {hash : UInt32}
  (roster : IsRoster draft root heap arena target context refs site settled rootId types)
  (holds : heap.Holds arena)

include roster holds

theorem isNamed_file : (draft.file root refs sizesFor hash).IsNamed := by
  refine ⟨_, Eq.trans ?_ (map_snd_assign ⟨arena⟩ context types reserved)⟩
  change ((declaredIn refs).map _).map Item.ident = _
  rw [List.map_map]
  exact List.forall₂_eq_eq_eq ▸ List.forall₂_map_left_iff.mpr (List.forall₂_map_right_iff.mpr
    ((finds_idents roster holds).imp fun _ _ found => found.2))

/-- Identifiers lead to the items of the companion of a draft. -/
theorem resolves_file : draft.Resolves root (draft.identOf (declaredIn refs))
    (draft.file root refs sizesFor hash).items := by
  have named : (draft.file root refs sizesFor hash).IsNamed := isNamed_file roster holds
  refine ⟨fun container isContainer => ?_, fun index reached => ?_, fun target ident room => ?_⟩
  · exact named.itemOf?_eq (List.mem_append_left _ isContainer)
  · have isDeclared : draft.item (draft.identOf (declaredIn refs)) index ∈
        (draft.file root refs sizesFor hash).declared :=
      List.mem_map_of_mem ((roster.mem_indices index).mpr reached)
    exact named.itemOf?_eq (List.mem_append_right _ (List.mem_cons_of_mem _ isDeclared))
  · exact named.itemOf?_primitive

end File

/-- The companion of a container with types of a draft is the text of the items
of the draft. -/
theorem source_eq_file {draft : Draft} {root : Ref} {slice : String} {heap : Heap}
    {container : Container} {refs : List Ref} {sizesFor : Target -> Ref -> Variable}
    (rosters : Rosters draft root slice refs heap container)
    (exact : forall target, draft.Exact target (sizesFor target)) :
    source container = .ok (draft.file root refs sizesFor container.schemaHash).render := by
  have holds := rosters.holds
  obtain ⟨site, settled, rootId, types, roster⟩ := rosters.each .wasm32
  have fits := fits_identOf roster holds
  obtain ⟨rootType, _, rootIs⟩ := roster.embodies.exists_isEmbodied roster.finds roster.isSettled
  have declared := declarations_eq roster.embodies roster.lists holds fits roster.reached_of_shown
  rw [roster.declared] at declared
  refine source_eq rfl roster.isRoot (holds.type rootIs.stored) roster.listed rfl
    (instanceExpression_eq roster.embodies holds fits .root rootIs roster.finds) ?_ ?_
  · rw [List.flatMap_map]
    exact declared
  · refine Listing.mapM_eq_ok (List.forall₂_map_right_iff.mpr (List.forall₂_map_right_iff.mpr
      (List.forall₂_same.mpr fun target _ => ?_)))
    obtain ⟨_, _, _, _, second⟩ := rosters.each target
    exact assertions_eq roster second holds (exact target)

end Companion
end PackedJson
