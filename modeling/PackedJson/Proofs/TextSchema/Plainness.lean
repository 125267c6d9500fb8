import PackedJson.Proofs.TextSchema.Namesakes
import PackedJson.Proofs.TextSchema.Targets

namespace PackedJson

open Text TextSchema Heap Layout

/-!
Containers with listings that can be read back.

A container has such a listing if the names of its types are different and
plain, and if no name is broken.  It does not matter for which target, since
the names are those of the draft of the text schema.
-/

namespace Listing

/-- A listing speaks of the types that can be reached from the root. -/
def Mentions (schema : Schema) (context : Context) (id : TypeId) (type : TypeDef) : Prop :=
  exists root, schema.root context = .ok root ∧ schema.Reaches root id ∧ schema.type id = .ok type

/-- The names in a listing can be told from each other and from the rest of its lines. -/
structure IsPlain (schema : Schema) (context : Context) : Prop where
  slice : forall text, schema.text context.slice = .ok text -> IsUnbroken text
  types : forall id type, Mentions schema context id type -> IsPlainName (schema.name type)
  fields : forall id type fields field text, Mentions schema context id type ->
    schema.fieldsInOrder type = .ok fields -> field ∈ fields ->
    schema.text field.jsonName = .ok text -> IsUnbroken text
  distinct : forall id type next nextType, Mentions schema context id type ->
    Mentions schema context next nextType -> schema.name nextType = schema.name type -> next = id

end Listing

namespace TextSchema

section Embodied

variable {draft : Draft} {root ref : Ref} {heap : Heap} {arena : Arena} {target : Target}
  {context : Context} {site : Site} {settled : TypeId -> Prop} {id : TypeId} {type : TypeDef}
  (embodies : Embodies draft root heap target context site settled) (holds : heap.Holds arena)

include embodies holds

/-- What can be reached in the draft is mentioned. -/
theorem Embodies.exists_mentioned (reached : draft.Reaches root ref) : exists id type fields,
    Listing.Mentions ⟨arena⟩ context id type ∧ site.Finds ref id ∧ settled id ∧
      IsEmbodied draft heap context site settled ref id type fields := by
  obtain ⟨rootId, id, isRoot, reaches, finds, isSettled⟩ := embodies.exists_reached holds reached
  obtain ⟨type, fields, is⟩ := embodies.exists_isEmbodied finds isSettled
  refine ⟨id, type, fields, ⟨rootId, ?_, reaches, holds.told.type is.stored⟩, finds, isSettled, is⟩
  unfold Schema.root
  rw [isRoot]

/-- What is mentioned can be reached in the draft. -/
theorem Embodies.exists_of_mentioned (mentioned : Listing.Mentions ⟨arena⟩ context id type) :
    exists ref fields, draft.Reaches root ref ∧ site.Finds ref id ∧
      IsEmbodied draft heap context site settled ref id type fields := by
  obtain ⟨rootId, isRoot, reaches, found⟩ := mentioned
  obtain ⟨compiled, isCompiled, rootFinds, rootSettled⟩ := embodies.root
  unfold Schema.root at isRoot
  rw [isCompiled] at isRoot
  cases isRoot
  obtain ⟨ref, reached, finds⟩ := TextSchema.exists_reached holds
    (fun ref id finds => (embodies.outlined ref id finds).imp fun _ is => is.2) rootFinds reaches
  have isSettled := settled_of_reaches holds.told embodies.layout rootSettled reaches
  obtain ⟨other, fields, is⟩ := embodies.exists_isEmbodied finds isSettled
  cases found.symm.trans (holds.told.type is.stored)
  exact ⟨ref, fields, reached, finds, is⟩

/-- A listing can be read back if that of the draft can. -/
theorem Embodies.isPlain_iff {slice : String} (hasSlice : HasText heap context.slice slice) :
    Listing.IsPlain ⟨arena⟩ context ↔ draft.IsPlain slice root := by
  constructor
  · intro plain
    refine ⟨plain.slice slice (holds.text hasSlice), fun ref reached => ?_,
      fun ref part reached member => ?_, fun ref next reached nextReached same => ?_⟩
    · obtain ⟨id, type, fields, mentioned, _, _, is⟩ := embodies.exists_mentioned holds reached
      exact holds.name is.name ▸ plain.types id type mentioned
    · obtain ⟨id, type, fields, mentioned, _, _, is⟩ := embodies.exists_mentioned holds reached
      obtain ⟨field, inFields, shows⟩ := exists_of_mem_left is.parts member
      exact plain.fields id type _ field _ mentioned (holds.fieldsInOrder is.hasFields) inFields
        (holds.text shows.name)
    · obtain ⟨id, type, _, mentioned, finds, _, is⟩ := embodies.exists_mentioned holds reached
      obtain ⟨nextId, nextType, _, nextMentioned, nextFinds, _, nextIs⟩ :=
        embodies.exists_mentioned holds nextReached
      have sameId := plain.distinct id type nextId nextType mentioned nextMentioned (by
        rw [holds.name is.name, holds.name nextIs.name, same])
      exact embodies.distinct next ref id (sameId ▸ nextFinds) finds
  · intro plain
    refine ⟨fun text isText => ?_, fun id type mentioned => ?_,
      fun id type fields field text mentioned inOrder member isText => ?_,
      fun id type next nextType mentioned nextMentioned same => ?_⟩
    · cases isText.symm.trans (holds.text hasSlice)
      exact plain.slice
    · obtain ⟨ref, _, reached, _, is⟩ := embodies.exists_of_mentioned holds mentioned
      exact holds.name is.name ▸ plain.names ref reached
    · obtain ⟨ref, stored, reached, _, is⟩ := embodies.exists_of_mentioned holds mentioned
      cases inOrder.symm.trans (holds.fieldsInOrder is.hasFields)
      obtain ⟨part, isPart, shows⟩ := exists_of_mem_left is.parts.flip member
      cases isText.symm.trans (holds.text (ShowsPart.name shows))
      exact plain.parts ref part reached isPart
    · obtain ⟨ref, _, reached, finds, is⟩ := embodies.exists_of_mentioned holds mentioned
      obtain ⟨nextRef, _, nextReached, nextFinds, nextIs⟩ :=
        embodies.exists_of_mentioned holds nextMentioned
      rw [holds.name is.name, holds.name nextIs.name] at same
      cases plain.distinct ref nextRef reached nextReached same
      exact Option.some.inj (nextFinds.2.symm.trans finds.2)

end Embodied

/-! ### Listings of containers -/

/-- The root comes first among the types that can be reached. -/
theorem exists_rest_of_reachable {schema : Schema} {root : TypeId} {ids : List TypeId}
    (listed : schema.reachable root = .ok ids) : exists rest, ids = root :: rest := by
  cases Schema.reachable_eq_ok_iff_preorder.mp listed with
  | skip isSeen => cases isSeen
  | enter => exact ⟨_, rfl⟩

/-- The root comes first among the types that are listed, unless it is a scalar. -/
theorem exists_rest_of_listedTypes {schema : Schema} {root : TypeId} {type : TypeDef}
    {types : List (TypeId × TypeDef)} (listed : Listing.listedTypes schema root = .ok types)
    (found : schema.type root = .ok type)
    (isShown : (!(type.isBuiltin && type.fieldCount == 0)) = true) :
    exists others, types = (root, type) :: others := by
  unfold Listing.listedTypes at listed
  cases reachable : schema.reachable root with
  | error cause =>
      rw [reachable] at listed
      cases listed
  | ok ids =>
      obtain ⟨rest, rfl⟩ := exists_rest_of_reachable reachable
      rw [reachable] at listed
      change ((root :: rest).mapM (fun id => return (id, ← schema.type id)) >>= _) =
        Except.ok _ at listed
      rw [List.mapM_cons, found] at listed
      generalize (rest.mapM fun id => return (id, ← schema.type id)) = answer at listed
      cases answer with
      | error => cases listed
      | ok entries =>
          have isTypes : types = ((root, type) :: entries).filter _ := (Except.ok.inj listed).symm
          exact ⟨_, isTypes.trans (List.filter_cons_of_pos isShown)⟩

section Rosters

variable {draft : Draft} {root : Ref} {slice : String} {refs : List Ref} {heap : Heap}

/-- A root that is listed comes first. -/
theorem IsRoster.head?_shown {arena : Arena} {target : Target} {context : Context} {site : Site}
    {settled : TypeId -> Prop} {rootId : TypeId} {types : List (TypeId × TypeDef)}
    (roster : IsRoster draft root heap arena target context refs site settled rootId types)
    (holds : heap.Holds arena) (listed : draft.isListed root = true) :
    (refs.filter draft.isListed).head? = some root := by
  obtain ⟨rootType, _, is⟩ := roster.embodies.exists_isEmbodied roster.finds roster.isSettled
  obtain ⟨others, rfl⟩ := exists_rest_of_listedTypes roster.listed (holds.told.type is.stored)
    (is.isListed_eq.trans listed)
  have lists := roster.lists
  generalize refs.filter draft.isListed = shown at lists
  cases lists with
  | @cons ref _ _ _ isListed _ =>
      exact congrArg some (roster.embodies.distinct ref root rootId isListed.finds roster.finds)

/-- What a container lists is listed for its draft. -/
theorem Rosters.listable {container : Container} {sizesFor : Target -> Ref -> Variable}
    (rosters : Rosters draft root slice refs heap container) (named : draft.Named)
    (exact : forall target, draft.Exact target (sizesFor target)) (plain : draft.IsPlain slice root) :
    draft.Listable sizesFor slice root refs := by
  obtain ⟨site, settled, rootId, types, roster⟩ := rosters.each .wasm32
  refine ⟨roster.embodies.complete, named, exact, plain, roster.reached,
    roster.head?_shown rosters.holds, fun ref reached => ?_, fun index reached => ?_⟩
  · obtain ⟨id, finds, _⟩ := roster.embodies.exists_settled rosters.holds reached
    exact finds.1
  · obtain ⟨id, finds, _⟩ := roster.embodies.exists_settled rosters.holds reached
    exact roster.embodies.bound index id finds

end Rosters

end TextSchema
end PackedJson
