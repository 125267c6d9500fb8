import PackedJson.Proofs.Text.Legality
import PackedJson.Proofs.TextSchema.Assembly

namespace PackedJson
namespace TextSchema

open Text.Identifier

/-!
The names in a draft.

Declared types have different names, since each takes one that is free.  The
parts of a type get their names in generated declarations one after another:
those of a struct are made from the names of properties, and those of a variant
from the names of types.  All of this is kept from one type to the next while a
schema is drafted.
-/

/-- Alternatives are numbered one after another, and none of them is for a present value. -/
def Numbered (index : Nat) (alternatives : List Part) : Prop :=
  alternatives.map (fun part => (part.activation, part.choice)) =
    (List.range' index alternatives.length).map fun number => (0, UInt8.ofNat number)

/-- The parts of a declared type have names in generated declarations that are
made from their names in documents.  The tag of a variant is not declared, and its
alternatives are numbered. -/
inductive Labelled : Shape -> List Part -> Prop where
  | struct {parts : List Part} :
      parts.map Part.companion = freshNames ((parts.map Part.name).map snakeCase) [] ->
      Labelled .struct parts
  | variant {alternatives : List Part} :
      alternatives.map Part.companion = freshNames ((alternatives.map Part.name).map pascalCase) [] ->
      Numbered 0 alternatives -> Labelled .variant (tagPart :: alternatives)

namespace Draft

variable {draft next : Draft}

/-- Declared types have different names, which are taken, and their parts have
the names that are due to them. -/
structure Named (draft : Draft) : Prop where
  taken : forall name, name ∈ draft.sketches.map Sketch.name -> name ∈ draft.names
  distinct : (draft.sketches.map Sketch.name).Nodup
  labelled : forall (index : Nat) (sketch : Sketch) (parts : List Part),
    draft.sketches[index]? = some sketch -> sketch.parts = some parts -> Labelled sketch.shape parts

theorem named_empty : empty.Named := ⟨nofun, List.nodup_nil, nofun⟩

/-- What is noted apart from types and names does not count. -/
theorem Named.of_eq (named : draft.Named) (sketches : next.sketches = draft.sketches)
    (names : next.names = draft.names) : next.Named :=
  ⟨by rw [sketches, names]; exact named.taken, by rw [sketches]; exact named.distinct,
    by rw [sketches]; exact named.labelled⟩

/-- What a change leaves alone in each sketch it leaves alone in all of them. -/
theorem map_change {Value : Type} (valueOf : Sketch -> Value) (ref : Ref) {step : Sketch -> Sketch}
    (same : forall sketch, valueOf (step sketch) = valueOf sketch) :
    (draft.change ref step).sketches.map valueOf = draft.sketches.map valueOf := by
  cases ref with
  | declared changed =>
      refine List.ext_getElem? fun index => ?_
      rw [List.getElem?_map, List.getElem?_map, getElem?_change]
      cases draft.sketches[index]? with
      | none => split <;> rfl
      | some sketch =>
          split
          · exact congrArg some (same sketch)
          · rfl
  | _ => rfl

/-- A change of one sketch that keeps its name, and after which its parts have
the names that are due to them. -/
theorem Named.change (named : draft.Named) {changed : Nat} {step : Sketch -> Sketch}
    (sameName : forall sketch, (step sketch).name = sketch.name)
    (labelled : forall sketch parts, draft.sketches[changed]? = some sketch ->
      (step sketch).parts = some parts -> Labelled (step sketch).shape parts) :
    (draft.change (.declared changed) step).Named := by
  have sameNames := @map_change draft _ Sketch.name (.declared changed) _ sameName
  refine ⟨?_, ?_, fun index sketch parts found hasParts => ?_⟩
  · rw [sameNames]
    exact named.taken
  · rw [sameNames]
    exact named.distinct
  · rw [getElem?_change] at found
    split at found
    next isChanged =>
      subst isChanged
      obtain ⟨other, isOther, rfl⟩ := Option.map_eq_some_iff.mp found
      exact labelled other parts isOther hasParts
    next => exact named.labelled index sketch parts found hasParts

/-- Marks of a type say nothing about names. -/
theorem Named.mark (named : draft.Named) (ref : Ref) (mark : TypeFlags -> TypeFlags) :
    (draft.change ref fun sketch => { sketch with flags := mark sketch.flags }).Named := by
  cases ref with
  | declared index =>
      exact named.change (fun _ => rfl) fun sketch parts => named.labelled index sketch parts
  | _ => exact named

end Draft

/-! ### Plans -/

/-- The declared types had their shapes before. -/
def KeepShapes (draft next : Draft) : Prop :=
  draft.sketches.map Sketch.shape <+: next.sketches.map Sketch.shape

theorem KeepShapes.of_eq {draft next : Draft} (same : next.sketches.map Sketch.shape =
    draft.sketches.map Sketch.shape) : KeepShapes draft next := by
  unfold KeepShapes
  rw [same]

/-- A plan that keeps the names of a draft in order, and what it results in. -/
def Names {Result : Type} (plan : DraftM Result) (good : Result -> Prop) : Prop :=
  forall draft : Draft, draft.Named ->
    Drafts plan draft fun result next => next.Named ∧ KeepShapes draft next ∧ good result

section Combinators

variable {Result Next : Type} {plan : DraftM Result} {good : Result -> Prop} {nextGood : Next -> Prop}

theorem Names.andThen {rest : Result -> DraftM Next} (names : Names plan good)
    (continued : forall result, good result -> Names (rest result) nextGood) :
    Names (plan >>= rest) nextGood := by
  intro draft named
  refine (names draft named).andThen ?_
  rintro result middle ⟨middleNamed, keeps, isGood⟩
  refine (continued result isGood middle middleNamed).imp ?_
  rintro _ _ ⟨nextNamed, keepsMore, isNextGood⟩
  exact ⟨nextNamed, keeps.trans keepsMore, isNextGood⟩

theorem Names.imp {weaker : Result -> Prop} (names : Names plan good)
    (onGood : forall result, good result -> weaker result) : Names plan weaker :=
  fun draft named => (names draft named).imp fun result _ ⟨nextNamed, keeps, isGood⟩ =>
    ⟨nextNamed, keeps, onGood result isGood⟩

theorem names_pure {result : Result} (isGood : good result) : Names (pure result) good :=
  fun _ named => drafts_pure ⟨named, List.prefix_rfl, isGood⟩

theorem names_reject (pointer : String) (flaw : Flaw) : Names (draftReject pointer flaw) good :=
  fun _ _ => drafts_reject pointer flaw

theorem names_room (cost : Nat) : Names (draftRoom cost) fun _ => True :=
  fun _ named => drafts_of_ok rfl ⟨named, List.prefix_rfl, trivial⟩

theorem names_query (question : Draft -> Result) : Names (draftQuery question) fun _ => True :=
  fun _ named => drafts_of_ok rfl ⟨named, List.prefix_rfl, trivial⟩

/-- A step that touches neither types nor names. -/
theorem names_step {step : Draft -> Draft}
    (sketches : forall draft, (step draft).sketches = draft.sketches)
    (names : forall draft, (step draft).names = draft.names) : Names (draftStep step) fun _ => True :=
  fun draft named => drafts_of_ok rfl ⟨named.of_eq (sketches draft) (names draft),
    .of_eq (congrArg _ (sketches draft)), trivial⟩

theorem names_mark (ref : Ref) (mark : TypeFlags -> TypeFlags) :
    Names (draftMark ref mark) fun _ => True :=
  fun _ named => drafts_of_ok rfl
    ⟨named.mark ref mark, .of_eq (Draft.map_change _ ref fun _ => rfl), trivial⟩

theorem names_instance (generic : Builtin) (argument : Ref) :
    Names (draftInstance generic argument) fun _ => True :=
  fun _ named => drafts_of_ok rfl ⟨named, List.prefix_rfl, trivial⟩

theorem names_define (reference : String) (ref : Ref) :
    Names (draftDefine reference ref) fun _ => True :=
  names_step (fun _ => rfl) fun _ => rfl

theorem names_register (definition : Option String) (ref : Ref) :
    Names (draftRegister definition ref) fun _ => True := by
  cases definition with
  | none => exact names_pure trivial
  | some reference => exact names_define reference ref

end Combinators

/-! ### Parts -/

/-- Nodes are drafted so that the names stay in order. -/
def NamesNodes (drafter : NodeDrafter) : Prop :=
  forall node pointer name definition, Names (drafter node pointer name definition) fun _ => True

section Parts

variable {drafter : NodeDrafter} (nodes : NamesNodes drafter)

/-- A part gets a fresh name. -/
theorem names_companion {part : Part} (plain : part.companion = part.name) (ident : String)
    (taken : List String) : Names (draftCompanion part ident taken) fun answer =>
      answer = ({ part with companion := fresh taken ident }, fresh taken ident :: taken) := by
  unfold draftCompanion
  dsimp only
  split
  next same =>
    have named : part = { part with companion := fresh taken ident } := by
      rw [same.trans plain.symm]
    exact names_pure (congrArg (·, fresh taken ident :: taken) named)
  next => exact (names_room _).andThen fun _ _ => names_pure rfl

theorem names_wrapped (ref : Ref) (flags : FieldFlags) :
    Names (draftWrapped ref flags) fun _ => True := by
  have outer (inner : Ref) (_ : True) : Names (if flags.contains FieldFlags.required then pure inner else
      draftInstance .option inner) fun _ => True := by
    split
    · exact names_pure trivial
    · exact names_instance .option inner
  unfold draftWrapped
  cases flags.contains FieldFlags.canFail with
  | false => exact (names_pure trivial : Names (pure ref) fun _ => True).andThen outer
  | true => exact (names_instance .result ref).andThen outer

include nodes

theorem names_property (base owner : String) (required taken : List String) (property : String × Json) :
    Names (draftProperty drafter base owner required taken property) fun answer =>
      answer.1.name = property.1 ∧ answer.1.companion = fresh taken (snakeCase property.1) ∧
        answer.2 = fresh taken (snakeCase property.1) :: taken := by
  unfold draftProperty
  refine (nodes _ _ _ _).andThen fun ref _ => ?_
  refine (names_wrapped ref _).andThen fun stored _ => ?_
  refine (names_room _).andThen fun _ _ => ?_
  refine (names_companion rfl _ taken).imp ?_
  rintro _ rfl
  exact ⟨rfl, rfl, rfl⟩

theorem names_properties (base owner : String) (required : List String)
    (properties : List (String × Json)) (taken : List String) :
    Names (draftProperties drafter base owner required properties taken) fun parts =>
      parts.map Part.companion = freshNames ((parts.map Part.name).map snakeCase) taken := by
  induction properties generalizing taken with
  | nil => exact names_pure rfl
  | cons property rest ih =>
      unfold draftProperties
      refine (names_property nodes base owner required taken property).andThen ?_
      rintro answer ⟨name, companion, taken⟩
      refine (ih _).andThen fun parts same => names_pure ?_
      rw [List.map_cons, List.map_cons, List.map_cons, freshNames, companion, same, taken, name]

theorem names_propertyParts (node : Json) (pointer owner : String) (required : List String) :
    Names (draftPropertyParts drafter node pointer owner required) (Labelled .struct) := by
  unfold draftPropertyParts
  dsimp only
  cases node.member? "properties" with
  | none => exact names_pure (.struct rfl)
  | some properties =>
      cases properties with
      | object properties =>
          exact (names_properties nodes _ _ _ properties []).imp fun _ same => .struct same
      | _ => exact names_reject _ _

theorem names_alternative (pointer owner : String) (index : Nat) (taken : List String)
    (alternative : Json) :
    Names (draftAlternative drafter pointer owner index taken alternative) fun answer =>
      answer.1.companion = fresh taken (pascalCase answer.1.name) ∧
        (answer.1.activation, answer.1.choice) = (0, UInt8.ofNat index) ∧
        answer.2 = fresh taken (pascalCase answer.1.name) :: taken := by
  unfold draftAlternative
  refine (nodes _ _ _ _).andThen fun ref _ => ?_
  refine (names_query _).andThen fun label _ => ?_
  refine (names_room _).andThen fun _ _ => ?_
  refine (names_companion rfl _ taken).imp ?_
  rintro _ rfl
  exact ⟨rfl, rfl, rfl⟩

theorem names_alternatives (pointer owner : String) (alternatives : List Json) (index : Nat)
    (taken : List String) :
    Names (draftAlternatives drafter pointer owner alternatives index taken) fun parts =>
      parts.map Part.companion = freshNames ((parts.map Part.name).map pascalCase) taken ∧
        Numbered index parts := by
  induction alternatives generalizing index taken with
  | nil => exact names_pure ⟨rfl, rfl⟩
  | cons alternative rest ih =>
      unfold draftAlternatives
      refine (names_alternative nodes pointer owner index taken alternative).andThen ?_
      rintro answer ⟨companion, numbered, taken⟩
      refine (ih (index + 1) _).andThen ?_
      rintro parts ⟨same, restNumbered⟩
      refine names_pure ⟨?_, ?_⟩
      · rw [List.map_cons, List.map_cons, List.map_cons, freshNames, companion, same, taken]
      · unfold Numbered at restNumbered ⊢
        rw [List.map_cons, List.length_cons, List.range'_succ, List.map_cons, numbered, restNumbered]

end Parts

/-! ### Declared types -/

/-- A declared type has a shape. -/
def HasShape (draft : Draft) (index : Nat) (shape : Shape) : Prop :=
  (draft.sketches.map Sketch.shape)[index]? = some shape

theorem HasShape.keep {draft next : Draft} {index : Nat} {shape : Shape}
    (hasShape : HasShape draft index shape) (keeps : KeepShapes draft next) :
    HasShape next index shape := by
  obtain ⟨more, same⟩ := keeps
  unfold HasShape at hasShape ⊢
  rw [← same, List.getElem?_append_left (List.getElem?_eq_some_iff.mp hasShape).1]
  exact hasShape

/-- A declared type is made under a free name, and its parts follow. -/
theorem names_opened (title : String) (shape : Shape) (definition : Option String) (node : Json)
    {plan : String -> Ref -> DraftM Ref}
    (continues : forall name index (draft : Draft), draft.Named -> HasShape draft index shape ->
      Drafts (plan name (.declared index)) draft fun _ next => next.Named ∧ KeepShapes draft next) :
    Names (do
      let name ← draftName title
      let ref ← draftDeclared name shape
      draftRegister definition ref
      draftMark ref (nodeMarks node)
      plan name ref) fun _ => True := by
  intro draft named
  have free : Drafts (draftName title) draft fun name next => next.Named ∧
      next.sketches = draft.sketches ∧ name ∈ next.names ∧ name ∉ draft.sketches.map Sketch.name := by
    have isFresh := fresh_notMem draft.names title
    refine drafts_of_ok rfl ⟨⟨fun name member => ?_, named.distinct, named.labelled⟩, rfl,
      List.mem_cons_self, fun member => isFresh (named.taken _ member)⟩
    exact List.mem_cons_of_mem _ (named.taken name member)
  refine free.andThen ?_
  rintro name middle ⟨middleNamed, sameSketches, isTaken, isFree⟩
  have makes : Drafts (draftDeclared name shape) middle fun ref next => next.Named ∧
      KeepShapes draft next ∧ exists index, ref = .declared index ∧ HasShape next index shape := by
    refine drafts_of_ok rfl ⟨⟨?_, ?_, fun index sketch parts found hasParts => ?_⟩, ?_, _, rfl, ?_⟩
    · rw [List.map_append]
      intro other member
      cases List.mem_append.mp member with
      | inl before => exact middleNamed.taken other before
      | inr isNew => exact List.mem_singleton.mp isNew ▸ isTaken
    · rw [List.map_append, sameSketches]
      refine List.nodup_append.mpr ⟨named.distinct, List.nodup_singleton _, ?_⟩
      rintro other before _ isNew rfl
      cases List.mem_singleton.mp isNew
      exact isFree before
    · rw [List.getElem?_append] at found
      split at found
      · exact middleNamed.labelled index sketch parts found hasParts
      · rw [List.getElem?_singleton] at found
        split at found <;> cases found
        cases hasParts
    · unfold KeepShapes
      rw [List.map_append, sameSketches]
      exact List.prefix_append _ _
    · unfold HasShape
      rw [List.map_append, List.getElem?_append_right (List.length_map _).le, List.length_map,
        Nat.sub_self]
      rfl
  refine makes.andThen ?_
  rintro _ made ⟨madeNamed, keeps, index, rfl, hasShape⟩
  refine (names_register definition _ made madeNamed).andThen ?_
  rintro _ entered ⟨enteredNamed, enteredKeeps, -⟩
  refine (names_mark _ _ entered enteredNamed).andThen ?_
  rintro _ marked ⟨markedNamed, markedKeeps, -⟩
  have hasShapeStill := (hasShape.keep enteredKeeps).keep markedKeeps
  refine (continues name index marked markedNamed hasShapeStill).imp ?_
  rintro _ next ⟨nextNamed, nextKeeps⟩
  exact ⟨nextNamed, ((keeps.trans enteredKeeps).trans markedKeeps).trans nextKeeps, trivial⟩

/-- A declared type gets parts that have their names. -/
theorem names_close {draft : Draft} (named : draft.Named) {index : Nat} {shape : Shape}
    (hasShape : HasShape draft index shape) {parts : List Part} (labelled : Labelled shape parts) :
    Drafts (do
      draftParts (.declared index) parts
      return Ref.declared index) draft fun _ next => next.Named ∧ KeepShapes draft next := by
  refine drafts_of_ok rfl ⟨named.change (fun _ => rfl) fun sketch known found hasParts => ?_,
    .of_eq (Draft.map_change _ _ fun _ => rfl)⟩
  cases hasParts
  unfold HasShape at hasShape
  rw [List.getElem?_map, found] at hasShape
  cases hasShape
  exact labelled

/-! ### Nodes -/

section Nodes

variable {drafter : NodeDrafter}

theorem names_required (node : Json) (pointer : String) :
    Names (draftRequired node pointer) fun _ => True := by
  unfold draftRequired
  cases node.member? "required" with
  | none => exact names_pure trivial
  | some names =>
      cases names with
      | array names =>
          dsimp only
          cases texts? names with
          | none => exact names_reject _ _
          | some names => exact names_pure trivial
      | _ => exact names_reject _ _

theorem names_typeName (node : Json) (pointer : String) :
    Names (draftTypeName node pointer) fun _ => True := by
  unfold draftTypeName
  cases node.member? "type" with
  | none =>
      dsimp only
      split
      · exact names_pure trivial
      · exact names_reject _ _
  | some name =>
      cases name with
      | string name => exact names_pure trivial
      | _ => exact names_reject _ _

variable (nodes : NamesNodes drafter)

include nodes

theorem names_struct (node : Json) (pointer title : String) (definition : Option String) :
    Names (draftStruct drafter node pointer title definition) fun _ => True := by
  refine names_opened title .struct definition node fun name index draft named hasShape => ?_
  refine (names_required node pointer draft named).andThen ?_
  rintro required middle ⟨middleNamed, keeps, -⟩
  refine (names_propertyParts nodes node pointer name required middle middleNamed).andThen ?_
  rintro parts last ⟨lastNamed, lastKeeps, labelled⟩
  refine (names_close lastNamed ((hasShape.keep keeps).keep lastKeeps) labelled).imp ?_
  rintro _ next ⟨nextNamed, nextKeeps⟩
  exact ⟨nextNamed, (keeps.trans lastKeeps).trans nextKeeps⟩

theorem names_variant (node alternatives : Json) (pointer title : String) (definition : Option String) :
    Names (draftVariant drafter node alternatives pointer title definition) fun _ => True := by
  unfold draftVariant
  cases alternatives with
  | array alternatives =>
      dsimp only
      split
      · exact names_reject _ _
      · refine names_opened title .variant definition node fun name index draft named hasShape => ?_
        refine (names_room _ draft named).andThen ?_
        rintro _ middle ⟨middleNamed, keeps, -⟩
        refine (names_alternatives nodes pointer name alternatives 0 [] middle middleNamed).andThen ?_
        rintro parts last ⟨lastNamed, lastKeeps, same, numbered⟩
        refine (names_close lastNamed ((hasShape.keep keeps).keep lastKeeps) (.variant same numbered)).imp ?_
        rintro _ next ⟨nextNamed, nextKeeps⟩
        exact ⟨nextNamed, (keeps.trans lastKeeps).trans nextKeeps⟩
  | _ => exact names_reject _ _

theorem names_object (node : Json) (pointer title : String) (definition : Option String) :
    Names (draftObject drafter node pointer title definition) fun _ => True := by
  have struct := names_struct nodes node pointer title definition
  unfold draftObject
  cases node.member? "properties" with
  | some properties => exact struct
  | none =>
      cases node.member? "additionalProperties" with
      | none => exact struct
      | some values =>
          cases values with
          | object values => exact (nodes _ _ _ _).andThen fun value _ => names_instance .map value
          | _ => exact struct

theorem names_array (node : Json) (pointer title : String) :
    Names (draftArray drafter node pointer title) fun _ => True := by
  unfold draftArray
  cases node.member? "items" with
  | none => exact names_reject _ _
  | some items => exact (nodes _ _ _ _).andThen fun element _ => names_instance .array element

theorem names_typed (node : Json) (pointer title : String) (definition : Option String)
    (typeName : String) :
    Names (draftTyped drafter node pointer title definition typeName) fun _ => True := by
  unfold draftTyped
  split
  · exact names_object nodes node pointer title definition
  · exact names_array nodes node pointer title
  · exact names_pure trivial
  · exact names_pure trivial
  · exact names_pure trivial
  · exact names_pure trivial
  · exact names_pure trivial
  · exact names_reject _ _

theorem names_definition (reference : String) (target : Json) (pointer name : String) :
    Names (do
      draftStep fun draft => { draft with inProgress := reference :: draft.inProgress }
      let ref ← drafter target pointer name (some reference)
      draftStep fun draft => { draft with inProgress := draft.inProgress.erase reference }
      draftDefine reference ref
      return ref) fun _ => True := by
  have progress (change : List String -> List String) :
      Names (draftStep fun draft => { draft with inProgress := change draft.inProgress }) fun _ => True :=
    names_step (fun _ => rfl) fun _ => rfl
  refine (progress (reference :: ·)).andThen fun _ _ => ?_
  refine (nodes target pointer name (some reference)).andThen fun ref _ => ?_
  refine (progress (List.erase · reference)).andThen fun _ _ => ?_
  exact (names_define reference ref).andThen fun _ _ => names_pure trivial

theorem names_reference (document : Json) (pointer : String) (reference : Json) :
    Names (draftReference drafter document pointer reference) fun _ => True := by
  unfold draftReference
  cases reference with
  | string reference =>
      dsimp only
      cases definitionName? reference with
      | none => exact names_reject _ _
      | some name =>
          refine (names_query _).andThen fun found _ => ?_
          cases found with
          | some ref =>
              refine (names_query _).andThen fun answer _ => ?_
              cases answer with
              | false => exact names_pure trivial
              | true => exact (names_mark ref _).andThen fun _ _ => names_pure trivial
          | none =>
              refine (names_query _).andThen fun answer _ => ?_
              cases answer with
              | true => exact names_reject _ _
              | false =>
                  cases Json.Pointer.resolve? (String.ofList (reference.toList.drop 1)) document with
                  | none => exact names_reject _ _
                  | some target => exact names_definition nodes reference target _ name
  | _ => exact names_reject _ _

theorem names_node (document : Json) : NamesNodes (draftNode drafter document) := by
  intro node pointer name definition
  unfold draftNode
  cases node with
  | object members =>
      dsimp only
      cases Json.member? (.object members) "$ref" with
      | some reference => exact names_reference nodes document pointer reference
      | none =>
          dsimp only
          cases Json.member? (.object members) "oneOf" with
          | some alternatives => exact names_variant nodes _ alternatives _ _ definition
          | none =>
              cases Json.member? (.object members) "anyOf" with
              | some alternatives => exact names_variant nodes _ alternatives _ _ definition
              | none =>
                  exact (names_typeName _ pointer).andThen fun typeName _ =>
                    names_typed nodes _ pointer _ definition typeName
  | _ => exact names_reject _ _

end Nodes

theorem names_within (document : Json) (levels : Nat) : NamesNodes (draftWithin document levels) := by
  induction levels with
  | zero => exact fun _ pointer _ _ => names_reject pointer _
  | succ levels ih => exact names_node ih document

/-- The types of a draft have different names, and their parts the names that are
due to them. -/
theorem named_of_draftTarget {document : Json} {rootName : String} {slice : Option String}
    {drafted : Drafted Ref} (drafts : draftTarget document rootName slice Draft.empty = .ok drafted) :
    drafted.draft.Named := by
  have names : Names (draftTarget document rootName slice) fun _ => True :=
    (names_room _).andThen fun _ _ => (names_within document _ document "" rootName none).andThen
      fun _ _ => (names_room _).andThen fun _ _ => names_pure trivial
  exact (names Draft.empty Draft.named_empty drafted drafts).1

end TextSchema
end PackedJson
