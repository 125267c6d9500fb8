import PackedJson.Proofs.Json.Pointing
import PackedJson.Proofs.TextSchema.Compiled
import PackedJson.Proofs.TextSchema.Recursion

namespace PackedJson
namespace TextSchema

/-!
Where the flaws of text schemas are.

When a text schema is found to be invalid, the reference in the failure selects
a node of the schema, and this node is at fault.  The reference was put together
on the way to the node, and started anew from the text of each reference that
was followed.
-/

/-- What a flaw says of the node that has it. -/
inductive Flaw.IsOf (document : Json) : Json -> Flaw -> Prop where
  | notASchema {node : Json} : (forall members, node ≠ .object members) ->
      IsOf document node .notASchema
  | typeNotText {node value : Json} : node.member? "type" = some value ->
      (forall text, value ≠ .string text) -> IsOf document node .typeNotText
  | typeMissing {node : Json} : node.member? "type" = none -> node.member? "properties" = none ->
      node.member? "additionalProperties" = none -> IsOf document node .typeMissing
  | itemsMissing {node : Json} : node.member? "type" = some (.string "array") ->
      node.member? "items" = none -> IsOf document node .itemsMissing
  | unsupportedType {node : Json} {name : String} : node.member? "type" = some (.string name) ->
      name ∉ ["object", "array", "string", "integer", "number", "boolean", "null"] ->
      IsOf document node (.unsupportedType name)
  | referenceNotText {node value : Json} : node.member? "$ref" = some value ->
      (forall text, value ≠ .string text) -> IsOf document node .referenceNotText
  | unsupportedReference {node : Json} {reference : String} :
      node.member? "$ref" = some (.string reference) -> definitionName? reference = none ->
      IsOf document node (.unsupportedReference reference)
  | unknownReference {node : Json} {reference name : String} :
      node.member? "$ref" = some (.string reference) -> definitionName? reference = some name ->
      Json.Pointer.resolve? (String.ofList (reference.toList.drop 1)) document = none ->
      IsOf document node (.unknownReference reference)
  | recursiveDefinition {node : Json} {reference name : String} :
      node.member? "$ref" = some (.string reference) -> definitionName? reference = some name ->
      IsOf document node (.recursiveDefinition name)
  | propertiesNotAnObject {node : Json} : (forall members, node ≠ .object members) ->
      IsOf document node .propertiesNotAnObject
  | alternativesNotAnArray {node : Json} : (forall items, node ≠ .array items) ->
      IsOf document node .alternativesNotAnArray
  | alternativeCount {items : List Json} : items.isEmpty ∨ 255 < items.length ->
      IsOf document (.array items) .alternativeCount
  | requiredNotAnArray {node : Json} : (forall items, node ≠ .array items) ->
      IsOf document node .requiredNotAnArray
  | requiredNotNames {items : List Json} {item : Json} : item ∈ items ->
      (forall text, item ≠ .string text) -> IsOf document (.array items) .requiredNotNames
  | sliceNotAPointer {node : Json} : (forall text : String, node = .string text ->
      ¬(text.isEmpty ∨ text.toList.head? = some '/')) -> IsOf document node .sliceNotAPointer

/-- The reference that a failure shows: a slash stands for the whole document. -/
def shownPointer (shown : String) : String := if shown = "/" then "" else shown

/-- If a failure names a node, there is this node and it is at fault. -/
def IsLocated (document : Json) (failure : CompileError) : Prop :=
  forall pointer flaw, failure = .invalid pointer flaw -> exists node,
    Json.Pointer.resolve? (shownPointer pointer) document = some node ∧ flaw.IsOf document node

/-! ### References to nodes -/

/-- A reference selects a node, and is not taken for the whole document. -/
structure Selects (document : Json) (pointer : String) (node : Json) : Prop where
  resolved : Json.Pointer.resolve? pointer document = some node
  different : pointer ≠ "/"

section References

variable {document node inner : Json} {pointer name : String}

theorem Selects.whole (document : Json) : Selects document "" document := ⟨rfl, by decide⟩

theorem child_ne_empty (pointer name : String) : Json.Pointer.child pointer name ≠ "" := by
  intro same
  have parts := congrArg String.toList same
  rw [Json.Pointer.toList_child] at parts
  exact List.append_ne_nil_of_right_ne_nil _ (List.cons_ne_nil _ _) parts

theorem escape_ne_empty (named : name ≠ "") : Json.Pointer.escape name ≠ "" := by
  intro same
  have back := Json.Pointer.unescape_escape name
  rw [same] at back
  exact named back.symm

theorem child_ne_slash (longer : pointer ≠ "" ∨ name ≠ "") :
    Json.Pointer.child pointer name ≠ "/" := by
  intro same
  have parts := congrArg String.toList same
  rw [Json.Pointer.toList_child] at parts
  have single : pointer.toList ++ '/' :: (Json.Pointer.escape name).toList = ['/'] := parts
  have lengths := congrArg List.length single
  simp only [List.length_append, List.length_cons, List.length_nil] at lengths
  rcases longer with longer | longer
  · exact longer (String.toList_eq_nil_iff.mp (List.length_eq_zero_iff.mp (by omega)))
  · exact escape_ne_empty longer
      (String.toList_eq_nil_iff.mp (List.length_eq_zero_iff.mp (by omega)))

theorem Selects.member (selects : Selects document pointer node)
    (found : node.member? name = some inner) (longer : pointer ≠ "" ∨ name ≠ "") :
    Selects document (Json.Pointer.child pointer name) inner := by
  refine ⟨(Json.Pointer.resolve?_child selects.resolved name).trans ?_, child_ne_slash longer⟩
  cases node with
  | object members => exact found
  | _ => cases found

theorem Selects.item {items : List Json} (selects : Selects document pointer (.array items))
    {index : Nat} (found : items[index]? = some inner) :
    Selects document (Json.Pointer.child pointer (toString index)) inner := by
  refine ⟨(Json.Pointer.resolve?_child selects.resolved _).trans ?_, child_ne_slash (.inr ?_)⟩
  · rw [Json.Pointer.step?, Json.Pointer.index?_toString, Option.bind_some, found]
  · intro isEmpty
    exact Nat.toDigits_ne_nil (Nat.toList_repr.symm.trans (congrArg String.toList isEmpty))

/-- A failure at the reference to a node is located there. -/
theorem isLocated_atPointer {flaw : Flaw} (selects : Selects document pointer node)
    (isOf : flaw.IsOf document node) : IsLocated document (.atPointer pointer flaw) := by
  rintro shown _ ⟨⟩
  refine ⟨node, ?_, isOf⟩
  by_cases isEmpty : pointer.isEmpty
  · rw [if_pos isEmpty, shownPointer, if_pos rfl]
    exact String.isEmpty_iff.mp isEmpty ▸ selects.resolved
  · rw [if_neg isEmpty, shownPointer, if_neg selects.different]
    exact selects.resolved

/-- A failure to build types names no node. -/
theorem isLocated_ofSchema (document : Json) (cause : SchemaError) :
    IsLocated document (.ofSchema cause) := by
  intro pointer flaw same
  cases cause <;> cases same

end References

/-! ### Steps of the compiler -/

/-- Failures of a computation are located. -/
def Locates {Result : Type} (document : Json) (step : CompileM Result)
    (good : Result -> Prop) : Prop :=
  forall state, Run step state (fun result _ => good result)
    (fun failure _ => IsLocated document failure)

section Steps

variable {Result Next : Type} {document node : Json} {pointer : String} {good : Result -> Prop}

theorem Locates.andThen {first : CompileM Result} {second : Result -> CompileM Next}
    {nextGood : Next -> Prop} (locates : Locates document first good)
    (continued : forall result, good result -> Locates document (second result) nextGood) :
    Locates document (first >>= second) nextGood := fun state =>
  Run.andThen (locates state) (fun result middle isGood => continued result isGood middle)
    fun _ _ located => located

theorem locates_pure {result : Result} (isGood : good result) :
    Locates document (pure result) good := fun _ => isGood

theorem locates_reject {flaw : Flaw} (selects : Selects document pointer node)
    (isOf : flaw.IsOf document node) : Locates document (reject pointer flaw) good := fun _ =>
  isLocated_atPointer selects isOf

theorem locates_build (document : Json) (step : BuildM Result) :
    Locates document (build step) fun _ => True := by
  rintro ⟨builder, names, definitions, inProgress⟩
  cases ends : step builder with
  | ok result after => simp only [Run, build, ends]
  | error cause after =>
      simp only [Run, build, ends]
      exact isLocated_ofSchema document cause

theorem locates_uniqueName (document : Json) (base : String) :
    Locates document (uniqueName base) fun _ => True := fun _ => trivial

theorem locates_register (document : Json) (definition : Option String) (id : TypeId) :
    Locates document (register definition id) fun _ => True := by
  cases definition <;> exact fun _ => trivial

theorem locates_applyFlags (document node : Json) (id : TypeId) :
    Locates document (applyFlags node id) fun _ => True := by
  unfold applyFlags
  dsimp only
  split
  · exact (locates_build document _).andThen fun _ _ => locates_pure trivial
  · exact locates_pure trivial

theorem locates_nameCompanion (document : Json) (field : FieldDef) (jsonName ident : String)
    (taken : List String) :
    Locates document (nameCompanion field jsonName ident taken) fun _ => True := by
  unfold nameCompanion
  dsimp only
  split
  · exact locates_pure trivial
  · exact (locates_build document _).andThen fun _ _ => locates_pure trivial

/-- Values that are not all texts have one that is none. -/
theorem exists_of_texts? {items : List Json} (none : texts? items = none) :
    exists item, item ∈ items ∧ forall text, item ≠ .string text := by
  induction items with
  | nil => cases none
  | cons item rest ih =>
      cases item with
      | string text =>
          obtain ⟨other, isIn, notText⟩ := ih (Option.map_eq_none_iff.mp none)
          exact ⟨other, List.mem_cons_of_mem _ isIn, notText⟩
      | _ => exact ⟨_, List.mem_cons_self, nofun⟩

theorem locates_requiredNames (selects : Selects document pointer node) :
    Locates document (requiredNames node pointer) fun _ => True := by
  unfold requiredNames
  cases found : node.member? "required" with
  | none => exact locates_pure trivial
  | some value =>
      have inside := selects.member found (.inr (by decide))
      cases value with
      | array items =>
          dsimp only
          cases areTexts : texts? items with
          | some names => exact locates_pure trivial
          | none =>
              obtain ⟨item, isIn, notText⟩ := exists_of_texts? areTexts
              exact locates_reject inside (.requiredNotNames isIn notText)
      | _ => exact locates_reject inside (.requiredNotAnArray nofun)

/-- A node whose type has no name states none, and one that has a name states
it, unless it is taken for an object. -/
theorem locates_typeName (selects : Selects document pointer node) :
    Locates document (typeName node pointer) fun name =>
      name = "object" ∨ node.member? "type" = some (.string name) := by
  unfold typeName
  cases found : node.member? "type" with
  | some value =>
      cases value with
      | string name => exact locates_pure (.inr rfl)
      | _ => exact locates_reject selects (.typeNotText found nofun)
  | none =>
      dsimp only
      split
      · exact locates_pure (.inl rfl)
      · next isBare =>
          simp only [Bool.or_eq_true, not_or, Option.not_isSome_iff_eq_none] at isBare
          exact locates_reject selects (.typeMissing found isBare.1 isBare.2)

end Steps

/-! ### Nodes -/

/-- Failures are located when nodes are compiled where they are. -/
def LocatesNodes (document : Json) (compile : NodeCompiler) : Prop :=
  forall (node : Json) (pointer name : String) (definition : Option String),
    Selects document pointer node ->
      Locates document (compile node pointer name definition) fun _ => True

section Nodes

variable {document node : Json} {compile : NodeCompiler} {pointer : String}

theorem locates_property (locates : LocatesNodes document compile) (context : Context)
    (base owner : String) (required : List String) (order : Nat) (taken : List String)
    {property : String × Json}
    (selects : Selects document (Json.Pointer.child base property.1) property.2) :
    Locates document (compileProperty compile context base owner required order taken property)
      fun _ => True := by
  unfold compileProperty
  refine (locates property.2 _ _ none selects).andThen fun id _ => ?_
  refine (locates_build document _).andThen fun stored _ => ?_
  refine (locates_build document _).andThen fun field _ => ?_
  exact locates_nameCompanion document _ _ _ _

theorem locates_properties (locates : LocatesNodes document compile) (context : Context)
    (base owner : String) (required : List String) {properties : List (String × Json)}
    (select : forall property, property ∈ properties ->
      Selects document (Json.Pointer.child base property.1) property.2)
    (order : Nat) (taken : List String) :
    Locates document (compileProperties compile context base owner required properties order taken)
      fun _ => True := by
  induction properties generalizing order taken with
  | nil => exact locates_pure trivial
  | cons property rest ih =>
      unfold compileProperties
      refine (locates_property locates context base owner required order taken
        (select property List.mem_cons_self)).andThen fun compiled _ => ?_
      refine (ih (fun other isIn => select other (List.mem_cons_of_mem _ isIn)) _ _).andThen
        fun fields _ => ?_
      exact locates_pure trivial

theorem locates_propertyFields (locates : LocatesNodes document compile) (context : Context)
    (wellFormed : document.WellFormed) (selects : Selects document pointer node) (owner : String)
    (required : List String) :
    Locates document (propertyFields compile context node pointer owner required)
      fun _ => True := by
  unfold propertyFields
  dsimp only
  cases found : node.member? "properties" with
  | none => exact locates_pure trivial
  | some value =>
      have inside := selects.member found (.inr (by decide))
      cases value with
      | object properties =>
          refine locates_properties locates context _ owner required ?_ 0 []
          intro property isMember
          cases Json.Pointer.wellFormed_of_resolve wellFormed inside.resolved with
          | object distinct _ =>
              exact inside.member (Json.lookup?_of_mem distinct isMember)
                (.inl (child_ne_empty _ _))
      | _ => exact locates_reject inside (.propertiesNotAnObject nofun)

theorem locates_struct (locates : LocatesNodes document compile) (context : Context)
    (wellFormed : document.WellFormed) (selects : Selects document pointer node) (title : String)
    (definition : Option String) :
    Locates document (compileStruct compile context node pointer title definition)
      fun _ => True := by
  unfold compileStruct
  refine (locates_uniqueName document title).andThen fun name _ => ?_
  refine (locates_build document _).andThen fun id _ => ?_
  refine (locates_register document definition id).andThen fun _ _ => ?_
  refine (locates_applyFlags document node id).andThen fun _ _ => ?_
  refine (locates_requiredNames selects).andThen fun required _ => ?_
  refine (locates_propertyFields locates context wellFormed selects name required).andThen
    fun fields _ => ?_
  exact (locates_build document _).andThen fun _ _ => locates_pure trivial

theorem locates_object (locates : LocatesNodes document compile) (context : Context)
    (wellFormed : document.WellFormed) (selects : Selects document pointer node) (title : String)
    (definition : Option String) :
    Locates document (compileObject compile context node pointer title definition)
      fun _ => True := by
  unfold compileObject
  split
  · next values _ found =>
      have inside := selects.member found (.inr (by decide))
      exact (locates _ _ _ none inside).andThen fun _ _ => locates_build document _
  · exact locates_struct locates context wellFormed selects title definition

theorem locates_alternative (locates : LocatesNodes document compile) (owner : String)
    (index : Nat) (taken : List String) {alternative : Json}
    (selects : Selects document (Json.Pointer.child pointer (toString index)) alternative) :
    Locates document (compileAlternative compile pointer owner index taken alternative)
      fun _ => True := by
  unfold compileAlternative
  refine (locates alternative _ _ none selects).andThen fun id _ => ?_
  refine (locates_build document _).andThen fun label _ => ?_
  refine (locates_build document _).andThen fun field _ => ?_
  exact locates_nameCompanion document _ _ _ _

theorem locates_alternatives (locates : LocatesNodes document compile) (owner : String)
    {alternatives : List Json} (index : Nat) (taken : List String)
    (select : forall position alternative, alternatives[position]? = some alternative ->
      Selects document (Json.Pointer.child pointer (toString (index + position))) alternative) :
    Locates document (compileAlternatives compile pointer owner alternatives index taken)
      fun _ => True := by
  induction alternatives generalizing index taken with
  | nil => exact locates_pure trivial
  | cons alternative rest ih =>
      unfold compileAlternatives
      refine (locates_alternative locates owner index taken (select 0 alternative rfl)).andThen
        fun compiled _ => ?_
      refine (ih (index + 1) _ fun position other isIn => ?_).andThen fun fields _ => ?_
      · have selects := select (position + 1) other isIn
        rwa [Nat.add_comm position, ← Nat.add_assoc] at selects
      · exact locates_pure trivial

theorem locates_variant (locates : LocatesNodes document compile) (context : Context)
    {alternatives : Json} (selects : Selects document pointer alternatives) (node : Json)
    (title : String) (definition : Option String) :
    Locates document (compileVariant compile context node alternatives pointer title definition)
      fun _ => True := by
  unfold compileVariant
  cases alternatives with
  | array alternatives =>
      dsimp only
      split
      · next isWrong => exact locates_reject selects (.alternativeCount isWrong)
      · refine (locates_uniqueName document title).andThen fun name _ => ?_
        refine (locates_build document _).andThen fun id _ => ?_
        refine (locates_register document definition id).andThen fun _ _ => ?_
        refine (locates_applyFlags document node id).andThen fun _ _ => ?_
        refine (locates_build document _).andThen fun tag _ => ?_
        refine (locates_alternatives locates name 0 [] fun position alternative found => ?_).andThen
          fun fields _ => ?_
        · rw [Nat.zero_add]
          exact selects.item found
        · exact (locates_build document _).andThen fun _ _ => locates_pure trivial
  | _ => exact locates_reject selects (.alternativesNotAnArray nofun)

theorem locates_array (locates : LocatesNodes document compile) (context : Context)
    (selects : Selects document pointer node)
    (isArray : node.member? "type" = some (.string "array")) (title : String) :
    Locates document (compileArray compile context node pointer title) fun _ => True := by
  unfold compileArray
  cases found : node.member? "items" with
  | none => exact locates_reject selects (.itemsMissing isArray found)
  | some items =>
      have inside := selects.member found (.inr (by decide))
      exact (locates items _ _ none inside).andThen fun _ _ => locates_build document _

theorem locates_typed (locates : LocatesNodes document compile) (context : Context)
    (wellFormed : document.WellFormed) (selects : Selects document pointer node)
    {typeName : String}
    (isName : typeName = "object" ∨ node.member? "type" = some (.string typeName))
    (title : String) (definition : Option String) :
    Locates document (compileTyped compile context node pointer title definition typeName)
      fun _ => True := by
  have stated (notObject : typeName ≠ "object") :
      node.member? "type" = some (.string typeName) := isName.resolve_left notObject
  unfold compileTyped
  split
  · exact locates_object locates context wellFormed selects title definition
  · exact locates_array locates context selects (stated (by decide)) title
  · exact locates_pure trivial
  · exact locates_pure trivial
  · exact locates_pure trivial
  · exact locates_pure trivial
  · exact locates_pure trivial
  · next notObject notArray notString notInteger notNumber notBoolean notNull =>
      refine locates_reject selects (.unsupportedType (stated notObject) ?_)
      simp only [List.mem_cons, List.not_mem_nil, or_false, not_or]
      exact ⟨notObject, notArray, notString, notInteger, notNumber, notBoolean, notNull⟩

/-- The reference to the definition that a reference names is no slash. -/
theorem target_ne_slash {reference name : String}
    (isDefinition : definitionName? reference = some name) :
    String.ofList (reference.toList.drop 1) ≠ "/" := by
  intro same
  have rest : reference.toList.drop 1 = ['/'] := by
    have texts := congrArg String.toList same
    rwa [String.toList_ofList] at texts
  have short : reference.toList.length = 2 := by
    have lengths := congrArg List.length rest
    simp only [List.length_drop, List.length_singleton] at lengths
    omega
  have apart (start : String) (long : 2 < start.toList.length) :
      start.toList.isPrefixOf reference.toList = false := by
    rw [Bool.eq_false_iff]
    intro isPrefix
    have bound := (List.isPrefixOf_iff_prefix.mp isPrefix).length_le
    omega
  simp only [definitionName?, apart "#/$defs/" (by decide), apart "#/definitions/" (by decide),
    Bool.false_eq_true, if_false, Option.or_none] at isDefinition
  cases isDefinition

theorem locates_reference (locates : LocatesNodes document compile)
    (selects : Selects document pointer node) {reference : Json}
    (isReference : node.member? "$ref" = some reference) :
    Locates document (compileReference compile document pointer reference) fun _ => True := by
  unfold compileReference
  cases reference with
  | string reference =>
      dsimp only
      cases isDefinition : definitionName? reference with
      | none => exact locates_reject selects (.unsupportedReference isReference isDefinition)
      | some name =>
          have finds : Locates document (findDefinition? reference) fun _ => True :=
            fun _ => trivial
          have asks : Locates document (isInProgress reference) fun _ => True := fun _ => trivial
          refine finds.andThen fun found _ => ?_
          cases found with
          | some id =>
              refine asks.andThen fun answer _ => ?_
              split
              · exact (locates_build document _).andThen fun _ _ => locates_pure trivial
              · exact locates_pure trivial
          | none =>
              refine asks.andThen fun answer _ => ?_
              split
              · exact locates_reject selects (.recursiveDefinition isReference isDefinition)
              · cases resolved : Json.Pointer.resolve? (String.ofList (reference.toList.drop 1))
                  document with
                | none =>
                    exact locates_reject selects
                      (.unknownReference isReference isDefinition resolved)
                | some target =>
                    have enters : Locates document (enterDefinition reference) fun _ => True :=
                      fun _ => trivial
                    have isTarget : Selects document (String.ofList (reference.toList.drop 1))
                        target := ⟨resolved, target_ne_slash isDefinition⟩
                    refine enters.andThen fun _ _ => ?_
                    refine (locates target _ name _ isTarget).andThen fun id _ => ?_
                    exact fun _ => trivial
  | _ => exact locates_reject selects (.referenceNotText isReference nofun)

theorem locates_node (locates : LocatesNodes document compile) (context : Context)
    (wellFormed : document.WellFormed) :
    LocatesNodes document (compileNode compile context document) := by
  intro node pointer name definition selects
  unfold compileNode
  cases node with
  | object members =>
      dsimp only
      cases isReference : (Json.object members).member? "$ref" with
      | some reference => exact locates_reference locates selects isReference
      | none =>
          dsimp only
          cases isOneOf : (Json.object members).member? "oneOf" with
          | some alternatives =>
              exact locates_variant locates context (selects.member isOneOf (.inr (by decide)))
                _ _ definition
          | none =>
              cases isAnyOf : (Json.object members).member? "anyOf" with
              | some alternatives =>
                  exact locates_variant locates context (selects.member isAnyOf (.inr (by decide)))
                    _ _ definition
              | none =>
                  refine (locates_typeName selects).andThen fun typeName isName => ?_
                  exact locates_typed locates context wellFormed selects isName _ definition
  | _ => exact locates_reject selects (.notASchema nofun)

/-- Where nodes are compiled from one level to the next, failures are located on
every level, if those beyond the last one are. -/
theorem locates_from {beyond : NodeCompiler} (locates : LocatesNodes document beyond)
    (context : Context) (wellFormed : document.WellFormed) (levels : Nat) :
    LocatesNodes document (compileFrom beyond context document levels) := by
  induction levels with
  | zero => exact locates
  | succ levels ih => exact locates_node ih context wellFormed

end Nodes

/-! ### Whole documents -/

section Documents

variable {document : Json}

theorem locates_document (context : Context) (wellFormed : document.WellFormed)
    (rootName : String) :
    Locates document (compileWithin context document (nestingBound document) document "" rootName
      none) fun _ => True := by
  -- No node lies beyond the bound, so that no failure there needs a place.
  have beyond : LocatesNodes document fun _ _ _ _ => throw (.outOfMemory .uninitialized) :=
    fun _ _ _ _ _ _ => nofun
  intro state
  have located := locates_from beyond context wellFormed (nestingBound document) document ""
    rootName none (.whole document) state
  unfold Run at located ⊢
  rwa [compileWithin_eq_compileFrom, compileFrom_eq _ _ context document rootName state]

theorem locates_target (wellFormed : document.WellFormed) (rootName : String)
    (slice : Option String) (target : Target) :
    Locates document (compileTarget document rootName slice target) fun _ => True := by
  unfold compileTarget
  have begins : Locates document (modify fun state => ⟨state.builder, [], [], []⟩)
      fun _ => True := fun _ => trivial
  refine begins.andThen fun _ _ => ?_
  refine (locates_build document _).andThen fun context _ => ?_
  refine (locates_document context wellFormed rootName).andThen fun root _ => ?_
  refine (locates_build document _).andThen fun stored _ => ?_
  exact (locates_build document _).andThen fun _ _ => locates_pure trivial

theorem locates_targets (wellFormed : document.WellFormed) (rootName : String)
    (slice : Option String) :
    Locates document (compileTargets document rootName slice) fun _ => True :=
  (locates_target wellFormed rootName slice .wasm32).andThen fun _ _ =>
    (locates_target wellFormed rootName slice .native).andThen fun _ _ => locates_pure trivial

theorem isLocated_of_sliceOf {failure : CompileError} (fails : sliceOf document = .error failure) :
    IsLocated document failure := by
  unfold sliceOf at fails
  cases found : document.member? "x-slice" with
  | none =>
      rw [found] at fails
      cases fails
  | some value =>
      have selects : Selects document "/x-slice" value :=
        (Selects.whole document).member found (.inr (by decide))
      rw [found] at fails
      cases value with
      | string text =>
          dsimp only at fails
          split at fails
          · cases fails
          · next isWrong =>
              cases fails
              exact isLocated_atPointer selects (.sliceNotAPointer fun _ same =>
                Json.string.inj same ▸ isWrong)
      | _ =>
          cases fails
          exact isLocated_atPointer selects (.sliceNotAPointer nofun)

theorem isLocated_of_compile {options : CompileOptions} {failure : CompileError}
    (wellFormed : document.WellFormed) (fails : compile document options = .error failure) :
    IsLocated document failure := by
  unfold compile at fails
  cases isSlice : sliceOf document with
  | error cause =>
      rw [isSlice] at fails
      cases fails
      exact isLocated_of_sliceOf isSlice
  | ok slice =>
      simp only [isSlice, bind, Except.bind] at fails
      cases isBuilder : Builder.ofConfig options.arena with
      | error cause =>
          rw [isBuilder] at fails
          exact Except.error.inj fails ▸ isLocated_ofSchema document cause
      | ok builder =>
          have located := locates_targets wellFormed options.rootName slice ⟨builder, [], [], []⟩
          simp only [isBuilder] at fails
          unfold Run at located
          split at fails
          · next cause state ends =>
              rw [ends] at located
              exact Except.error.inj fails ▸ located
          · split at fails
            · next cause _ => exact Except.error.inj fails ▸ isLocated_ofSchema document cause
            · cases fails

/-- When a text schema is found to be invalid, the reference in the failure selects a node of it,
and that node is at fault. -/
theorem exists_node_of_invalid {options : CompileOptions} {pointer : String} {flaw : Flaw}
    (wellFormed : document.WellFormed)
    (fails : compile document options = .error (.invalid pointer flaw)) :
    exists node, Json.Pointer.resolve? (shownPointer pointer) document = some node ∧
      flaw.IsOf document node :=
  isLocated_of_compile wellFormed fails pointer flaw rfl

end Documents

/-- An array without items, behind two references by names with a slash and a
tilde in them. -/
def detourSchema : Json :=
  .object [("$ref", .string "#/$defs/a~1b"), ("$defs", .object [
    ("a/b", .object [("$ref", .string "#/$defs/m~0n")]),
    ("m~n", .object [("type", .string "array")])])]

theorem wellFormed_detourSchema : detourSchema.WellFormed := by
  have array : (Json.object [("type", .string "array")]).WellFormed :=
    .object (by decide) (List.forall_mem_cons.mpr ⟨.string _, nofun⟩)
  have reference : (Json.object [("$ref", .string "#/$defs/m~0n")]).WellFormed :=
    .object (by decide) (List.forall_mem_cons.mpr ⟨.string _, nofun⟩)
  have definitions : (Json.object [("a/b", .object [("$ref", .string "#/$defs/m~0n")]),
      ("m~n", .object [("type", .string "array")])]).WellFormed :=
    .object (by decide) (List.forall_mem_cons.mpr
      ⟨reference, List.forall_mem_cons.mpr ⟨array, nofun⟩⟩)
  exact .object (by decide) (List.forall_mem_cons.mpr
    ⟨.string _, List.forall_mem_cons.mpr ⟨definitions, nofun⟩⟩)

/-- The second reference leads to the array. -/
theorem compileWithin_detourSchema (context : Context) (rootName : String) (builder : Builder) :
    compileWithin context detourSchema (nestingBound detourSchema) detourSchema "" rootName none
      ⟨builder, [], [], []⟩ = .error (.invalid "/$defs/m~0n" .itemsMissing)
        ⟨builder, [], [], ["#/$defs/m~0n", "#/$defs/a~1b"]⟩ := rfl

/-- Where there is room for the builtins, the nodes are looked at. -/
theorem compile_detourSchema {options : CompileOptions} {builder : Builder}
    (isBuilder : Builder.ofConfig options.arena = .ok builder)
    (room : Builder.contextCost ≤ builder.arena.spare) :
    compile detourSchema options = .error (.invalid "/$defs/m~0n" .itemsMissing) := by
  have starts := starts_of_ofConfig isBuilder
  have builds := Builder.builds_newContext .wasm32 starts.holds starts.known
  cases made : Builder.newContext .wasm32 builder with
  | error cause after => exact absurd (builds.of_error made).2 (Nat.not_lt_of_le room)
  | ok context after =>
      have begins : build (Builder.newContext .wasm32) ⟨builder, [], [], []⟩ =
          .ok context ⟨after, [], [], []⟩ := by
        simp only [build, made]
      have fails : compileTargets detourSchema options.rootName none ⟨builder, [], [], []⟩ =
          .error (.invalid "/$defs/m~0n" .itemsMissing)
            ⟨after, [], [], ["#/$defs/m~0n", "#/$defs/a~1b"]⟩ := by
        have cleared : (modify fun state => ⟨state.builder, [], [], []⟩ : CompileM Unit)
            ⟨builder, [], [], []⟩ = .ok () ⟨builder, [], [], []⟩ := rfl
        simp only [compileTargets, compileTarget, bind, EStateM.bind, cleared, begins,
          compileWithin_detourSchema]
      have isSlice : sliceOf detourSchema = .ok none := rfl
      simp only [compile, isSlice, bind, Except.bind, isBuilder, fails]
      rfl

/-- The failure selects the array, whose items are missing. -/
theorem exists_node_of_invalid_detour :
    compile detourSchema {} = .error (.invalid "/$defs/m~0n" .itemsMissing) ∧
      exists node, Json.Pointer.resolve? (shownPointer "/$defs/m~0n") detourSchema = some node ∧
        Flaw.itemsMissing.IsOf detourSchema node := by
  obtain ⟨builder, isBuilder, spare⟩ : exists builder,
      Builder.ofConfig {} = .ok builder ∧ builder.arena.spare = 65535 := ⟨_, rfl, rfl⟩
  have fails := @compile_detourSchema {} builder isBuilder (spare ▸ by decide)
  exact ⟨fails, exists_node_of_invalid wellFormed_detourSchema fails⟩

end TextSchema
end PackedJson
