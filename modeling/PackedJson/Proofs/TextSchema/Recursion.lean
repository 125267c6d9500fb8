import PackedJson.Proofs.Json.Parts
import PackedJson.Proofs.Run
import PackedJson.TextSchema.Compile

namespace PackedJson
namespace TextSchema

/-!
How the compiler follows references.

A watched compiler does the same as the compiler and notes, beside the types,
into which references it descends and what the uses of references resolve to.
The nesting of nodes is not bounded: where the compiler would give up, the
watched one goes on with a compiler about which nothing is known.  The two agree
all the same, because each descent uses up a reference that was not met before.

From the notes it is read off that no reference is descended into twice, and
that all uses of one reference resolve to one type.
-/

/-- What a watched compiler notes. -/
inductive Event where
  /-- The definition behind a reference is compiled. -/
  | descends (reference : String)
  /-- A use of a reference has its type. -/
  | resolves (reference : String) (id : TypeId)

/-- The reference whose definition is compiled. -/
def Event.descent? : Event -> Option String
  | .descends reference => some reference
  | .resolves _ _ => none

/-- The references whose definitions are compiled, the latest first. -/
def descents (events : List Event) : List String := events.filterMap Event.descent?

/-- The state of a compiler, and what has been noted, the latest first. -/
structure Watched where
  state : State
  events : List Event

/-- Computations of a watched compiler. -/
abbrev WatchM := EStateM CompileError Watched

/-- How a node is compiled by a watched compiler. -/
abbrev NodeWatcher := Json -> String -> String -> Option String -> WatchM TypeId

section Watching

variable {Result : Type}

/-- The end of a computation, with what has been noted. -/
def withEvents (events : List Event) :
    EStateM.Result CompileError State Result -> EStateM.Result CompileError Watched Result
  | .ok result state => .ok result ⟨state, events⟩
  | .error failure state => .error failure ⟨state, events⟩

/-- Run a computation of the compiler, which notes nothing. -/
def unwatched (step : CompileM Result) : WatchM Result := fun watched =>
  withEvents watched.events (step watched.state)

/-- The watched state after one more event. -/
def Watched.noting (watched : Watched) (event : Event) : Watched :=
  { watched with events := event :: watched.events }

/-- Note an event. -/
def note (event : Event) : WatchM Unit := fun watched => .ok () (watched.noting event)

/-- A compiler of a node whose type is known. -/
def knowing (id : TypeId) : NodeCompiler := fun _ _ _ _ => return id

/-! ### The watched compiler -/

/-- The type of the definition that a reference names, as by
`compileReference`. -/
def watchReference (watch : NodeWatcher) (document : Json) (pointer : String)
    (reference : Json) : WatchM TypeId :=
  match reference with
  | .string reference =>
      match definitionName? reference with
      | none => unwatched (reject pointer (.unsupportedReference reference))
      | some name => do
          match ← unwatched (findDefinition? reference) with
          | some id =>
              if ← unwatched (isInProgress reference) then
                let _ ← unwatched (build (Builder.updateType id fun type =>
                  { type with flags := type.flags.insert TypeFlags.storedByReference }))
                note (.resolves reference id)
                return id
              else
                note (.resolves reference id)
                return id
          | none =>
              if ← unwatched (isInProgress reference) then
                unwatched (reject pointer (.recursiveDefinition name))
              else
                let targetPointer := String.ofList (reference.toList.drop 1)
                match Json.Pointer.resolve? targetPointer document with
                | none => unwatched (reject pointer (.unknownReference reference))
                | some target =>
                    unwatched (enterDefinition reference)
                    note (.descends reference)
                    let id ← watch target targetPointer name (some reference)
                    unwatched (leaveDefinition reference)
                    unwatched (define reference id)
                    note (.resolves reference id)
                    return id
  | _ => unwatched (reject pointer .referenceNotText)

/-- The fields of properties, as by `compileProperties`. -/
def watchProperties (watch : NodeWatcher) (context : Context) (base owner : String)
    (required : List String) :
    List (String × Json) -> Nat -> List String -> WatchM (List FieldDef)
  | [], _, _ => return []
  | property :: rest, order, taken => do
      let id ← watch property.2 (Json.Pointer.child base property.1)
        (owner ++ Text.Identifier.pascalCase property.1) none
      let compiled ← unwatched
        (compileProperty (knowing id) context base owner required order taken property)
      let fields ← watchProperties watch context base owner required rest (order + 1) compiled.2
      return compiled.1 :: fields

/-- The fields of an object, as by `propertyFields`. -/
def watchPropertyFields (watch : NodeWatcher) (context : Context) (node : Json)
    (pointer owner : String) (required : List String) : WatchM (List FieldDef) :=
  let base := Json.Pointer.child pointer "properties"
  match node.member? "properties" with
  | none => return []
  | some (.object properties) =>
      watchProperties watch context base owner required properties 0 []
  | some _ => unwatched (reject base .propertiesNotAnObject)

/-- The struct of an object, as by `compileStruct`. -/
def watchStruct (watch : NodeWatcher) (context : Context) (node : Json)
    (pointer title : String) (definition : Option String) : WatchM TypeId := do
  let name ← unwatched (uniqueName title)
  let id ← unwatched (build (Builder.newStruct context name))
  unwatched (register definition id)
  unwatched (applyFlags node id)
  let required ← unwatched (requiredNames node pointer)
  let fields ← watchPropertyFields watch context node pointer name required
  let _ ← unwatched (build (Builder.setFields id fields))
  return id

/-- The type of an object, as by `compileObject`. -/
def watchObject (watch : NodeWatcher) (context : Context) (node : Json)
    (pointer title : String) (definition : Option String) : WatchM TypeId :=
  match node.member? "properties", node.member? "additionalProperties" with
  | none, some (.object values) => do
      let value ← watch (.object values) (Json.Pointer.child pointer "additionalProperties")
        (title ++ "Value") none
      unwatched (build (Builder.mapOf context value))
  | _, _ => watchStruct watch context node pointer title definition

/-- The fields of alternatives, as by `compileAlternatives`. -/
def watchAlternatives (watch : NodeWatcher) (pointer owner : String) :
    List Json -> Nat -> List String -> WatchM (List FieldDef)
  | [], _, _ => return []
  | alternative :: rest, index, taken => do
      let id ← watch alternative (Json.Pointer.child pointer (toString index))
        (owner ++ toString index) none
      let compiled ← unwatched
        (compileAlternative (knowing id) pointer owner index taken alternative)
      let fields ← watchAlternatives watch pointer owner rest (index + 1) compiled.2
      return compiled.1 :: fields

/-- The variant of a list of alternatives, as by `compileVariant`. -/
def watchVariant (watch : NodeWatcher) (context : Context) (node alternatives : Json)
    (pointer title : String) (definition : Option String) : WatchM TypeId :=
  match alternatives with
  | .array alternatives =>
      if alternatives.isEmpty ∨ 255 < alternatives.length then
        unwatched (reject pointer .alternativeCount)
      else do
        let name ← unwatched (uniqueName title)
        let id ← unwatched (build (Builder.newVariant context name))
        unwatched (register definition id)
        unwatched (applyFlags node id)
        let tag ← unwatched (build (Builder.tagField context))
        let fields ← watchAlternatives watch pointer name alternatives 0 []
        let _ ← unwatched (build (Builder.setFields id (tag :: fields)))
        return id
  | _ => unwatched (reject pointer .alternativesNotAnArray)

/-- The array of a described element, as by `compileArray`. -/
def watchArray (watch : NodeWatcher) (context : Context) (node : Json)
    (pointer title : String) : WatchM TypeId :=
  match node.member? "items" with
  | none => unwatched (reject pointer .itemsMissing)
  | some items => do
      let element ← watch items (Json.Pointer.child pointer "items") (title ++ "Item") none
      unwatched (build (Builder.arrayOf context element))

/-- The type of a node that states the name of its type, as by `compileTyped`.
Only objects and arrays have nodes inside. -/
def watchTyped (watch : NodeWatcher) (context : Context) (node : Json)
    (pointer title : String) (definition : Option String) (typeName : String) : WatchM TypeId :=
  if typeName = "object" then watchObject watch context node pointer title definition
  else if typeName = "array" then watchArray watch context node pointer title
  else unwatched
    (compileTyped (fun _ _ _ _ => reject pointer .notASchema) context node pointer title definition
      typeName)

/-- The type of a node, as by `compileNode`. -/
def watchNode (watch : NodeWatcher) (context : Context) (document : Json) : NodeWatcher :=
  fun node pointer name definition =>
    match node with
    | .object _ =>
        match node.member? "$ref" with
        | some reference => watchReference watch document pointer reference
        | none =>
            let title := match node.member? "title" with
              | some (.string title) => title
              | _ => name
            match node.member? "oneOf", node.member? "anyOf" with
            | some alternatives, _ =>
                watchVariant watch context node alternatives
                  (Json.Pointer.child pointer "oneOf") title definition
            | none, some alternatives =>
                watchVariant watch context node alternatives
                  (Json.Pointer.child pointer "anyOf") title definition
            | none, none => do
                let typeName ← unwatched (typeName node pointer)
                watchTyped watch context node pointer title definition typeName
    | _ => unwatched (reject pointer .notASchema)

/-- The type of a node, with another compiler for nodes that are nested more
deeply. -/
def watchWithin (beyond : NodeWatcher) (context : Context) (document : Json) :
    Nat -> NodeWatcher
  | 0 => beyond
  | levels + 1 => watchNode (watchWithin beyond context document levels) context document

/-- The types of one target, as by `compileTarget`. -/
def watchTarget (beyond : NodeWatcher) (document : Json) (rootName : String)
    (slice : Option String) (target : Target) : WatchM Context := do
  unwatched (modify fun state => ⟨state.builder, [], [], []⟩)
  let context ← unwatched (build (Builder.newContext target))
  let root ← watchWithin beyond context document (nestingBound document) document "" rootName none
  let stored ← unwatched (build (Builder.storeSlice slice))
  let complete := { context with root := some root, slice := stored }
  unwatched (build (Layout.arrangeContext complete target))
  return complete

end Watching

/-! ### Steps that follow no reference -/

/-- A computation that neither begins nor ends a definition. -/
def Aside {Result : Type} (step : CompileM Result) : Prop :=
  forall state, Run step state
    (fun _ after => after.definitions = state.definitions ∧ after.inProgress = state.inProgress)
    (fun _ after => after.definitions = state.definitions ∧ after.inProgress = state.inProgress)

section Asides

variable {Result Next : Type}

theorem Aside.andThen {first : CompileM Result} {second : Result -> CompileM Next}
    (aside : Aside first) (continued : forall result, Aside (second result)) :
    Aside (first >>= second) := by
  intro state
  refine Run.andThen (aside state) ?_ (fun _ _ kept => kept)
  rintro result middle ⟨definitions, inProgress⟩
  refine (continued result middle).imp ?_ ?_
  all_goals
    rintro _ after ⟨sameDefinitions, sameProgress⟩
    exact ⟨sameDefinitions.trans definitions, sameProgress.trans inProgress⟩

theorem aside_pure (result : Result) : Aside (pure result) := fun _ => ⟨rfl, rfl⟩

theorem aside_reject (pointer : String) (flaw : Flaw) :
    Aside (reject pointer flaw : CompileM Result) := fun _ => ⟨rfl, rfl⟩

theorem aside_build (step : BuildM Result) : Aside (build step) := by
  rintro ⟨builder, names, definitions, inProgress⟩
  cases ends : step builder <;> simp only [Run, build, ends, and_self]

theorem aside_uniqueName (base : String) : Aside (uniqueName base) := fun _ => ⟨rfl, rfl⟩

theorem aside_applyFlags (node : Json) (id : TypeId) : Aside (applyFlags node id) := by
  unfold applyFlags
  dsimp only
  split
  · exact (aside_build _).andThen fun _ => aside_pure ()
  · exact aside_pure ()

theorem aside_requiredNames (node : Json) (pointer : String) :
    Aside (requiredNames node pointer) := by
  unfold requiredNames
  split
  · exact aside_pure _
  · split
    · exact aside_pure _
    · exact aside_reject _ _
  · exact aside_reject _ _

theorem aside_typeName (node : Json) (pointer : String) : Aside (typeName node pointer) := by
  unfold typeName
  split
  · exact aside_pure _
  · exact aside_reject _ _
  · split
    · exact aside_pure _
    · exact aside_reject _ _

theorem aside_nameCompanion (field : FieldDef) (jsonName ident : String) (taken : List String) :
    Aside (nameCompanion field jsonName ident taken) := by
  unfold nameCompanion
  dsimp only
  split
  · exact aside_pure _
  · exact (aside_build _).andThen fun _ => aside_pure _

theorem aside_property (id : TypeId) (context : Context) (base owner : String)
    (required : List String) (order : Nat) (taken : List String) (property : String × Json) :
    Aside (compileProperty (knowing id) context base owner required order taken property) := by
  unfold compileProperty
  exact (aside_pure id).andThen fun _ => (aside_build _).andThen fun _ =>
    (aside_build _).andThen fun _ => aside_nameCompanion _ _ _ _

theorem aside_alternative (id : TypeId) (pointer owner : String) (index : Nat)
    (taken : List String) (alternative : Json) :
    Aside (compileAlternative (knowing id) pointer owner index taken alternative) := by
  unfold compileAlternative
  exact (aside_pure id).andThen fun _ => (aside_build _).andThen fun _ =>
    (aside_build _).andThen fun _ => aside_nameCompanion _ _ _ _

/-- Only objects and arrays have nodes inside. -/
theorem compileTyped_eq (compile other : NodeCompiler) (context : Context) (node : Json)
    (pointer title : String) (definition : Option String) {typeName : String}
    (notObject : typeName ≠ "object") (notArray : typeName ≠ "array") :
    compileTyped compile context node pointer title definition typeName =
      compileTyped other context node pointer title definition typeName := by
  unfold compileTyped
  split
  · exact absurd rfl notObject
  · exact absurd rfl notArray
  all_goals rfl

theorem aside_typed (compile : NodeCompiler) (context : Context) (node : Json)
    (pointer title : String) (definition : Option String) {typeName : String}
    (notObject : typeName ≠ "object") (notArray : typeName ≠ "array") :
    Aside (compileTyped compile context node pointer title definition typeName) := by
  unfold compileTyped
  split
  · exact absurd rfl notObject
  · exact absurd rfl notArray
  all_goals first | exact aside_pure _ | exact aside_reject _ _

end Asides

/-! ### The compiler by its nested nodes -/

section Nesting

variable (compile : NodeCompiler) (context : Context) (base pointer owner : String)
  (required : List String) (number : Nat) (taken : List String)

/-- The first property comes down to the type of its node. -/
theorem compileProperties_cons (property : String × Json) (rest : List (String × Json)) :
    compileProperties compile context base owner required (property :: rest) number taken = (do
      let id ← compile property.2 (Json.Pointer.child base property.1)
        (owner ++ Text.Identifier.pascalCase property.1) none
      let compiled ←
        compileProperty (knowing id) context base owner required number taken property
      let fields ←
        compileProperties compile context base owner required rest (number + 1) compiled.2
      return compiled.1 :: fields) := by
  have byNode : compileProperty compile context base owner required number taken property = (do
      let id ← compile property.2 (Json.Pointer.child base property.1)
        (owner ++ Text.Identifier.pascalCase property.1) none
      compileProperty (knowing id) context base owner required number taken property) := rfl
  rw [compileProperties, byNode, bind_assoc]

/-- The first alternative comes down to the type of its node. -/
theorem compileAlternatives_cons (alternative : Json) (rest : List Json) :
    compileAlternatives compile pointer owner (alternative :: rest) number taken = (do
      let id ← compile alternative (Json.Pointer.child pointer (toString number))
        (owner ++ toString number) none
      let compiled ← compileAlternative (knowing id) pointer owner number taken alternative
      let fields ← compileAlternatives compile pointer owner rest (number + 1) compiled.2
      return compiled.1 :: fields) := by
  have byNode : compileAlternative compile pointer owner number taken alternative = (do
      let id ← compile alternative (Json.Pointer.child pointer (toString number))
        (owner ++ toString number) none
      compileAlternative (knowing id) pointer owner number taken alternative) := rfl
  rw [compileAlternatives, byNode, bind_assoc]

end Nesting

/-! ### What the notes say -/

/-- The type that a state has for a reference. -/
abbrev Watched.definition? (watched : Watched) (reference : String) : Option TypeId :=
  watched.state.definitions.lookup reference

/-- What has been noted so far agrees with the state. -/
structure Sound (watched : Watched) : Prop where
  once : (descents watched.events).Nodup
  met : forall reference, reference ∈ descents watched.events ->
    reference ∈ watched.state.inProgress ∨ watched.definition? reference ≠ none
  settled : forall reference id, .resolves reference id ∈ watched.events ->
    watched.definition? reference = some id

/-- How a state may have changed by compiling a node, which may be a definition
itself: of the definitions in progress that had no type, only this one may have
got one. -/
structure Moves (definition : Option String) (before after : Watched) : Prop where
  sound : Sound after
  inProgress : after.state.inProgress = before.state.inProgress
  kept : forall reference id, before.definition? reference = some id ->
    after.definition? reference = some id
  waiting : forall reference, reference ∈ before.state.inProgress ->
    definition ≠ some reference -> before.definition? reference = none ->
    after.definition? reference = none

theorem lookup_define (reference other : String) (id : TypeId)
    (definitions : List (String × TypeId)) :
    ((reference, id) :: definitions).lookup other =
      if other = reference then some id else definitions.lookup other := by
  rw [List.lookup_cons]
  by_cases same : other = reference
  · rw [if_pos same, beq_iff_eq.mpr same]
  · rw [if_neg same, beq_eq_false_iff_ne.mpr same]

section Changes

variable {definition : Option String} {before middle after : Watched} {reference : String}
  {id : TypeId}

namespace Sound

/-- Nothing that the notes are about has changed. -/
theorem quiet (sound : Sound before) (events : after.events = before.events)
    (definitions : after.state.definitions = before.state.definitions)
    (inProgress : after.state.inProgress = before.state.inProgress) : Sound after := by
  obtain ⟨⟨_, _, _, _⟩, _⟩ := after
  cases events
  cases definitions
  cases inProgress
  exact ⟨sound.once, sound.met, sound.settled⟩

/-- A use of a reference has got the type that the state has for it. -/
theorem resolves (sound : Sound before) (found : before.definition? reference = some id) :
    Sound (before.noting (.resolves reference id)) := by
  refine ⟨sound.once, sound.met, fun other otherId isNoted => ?_⟩
  cases List.mem_cons.mp isNoted with
  | inl same =>
      cases same
      exact found
  | inr earlier => exact sound.settled other otherId earlier

/-- A definition that was not met before is entered. -/
theorem enter (sound : Sound before) (missing : before.definition? reference = none)
    (new : reference ∉ before.state.inProgress) :
    Sound ⟨{ before.state with inProgress := reference :: before.state.inProgress },
      .descends reference :: before.events⟩ := by
  refine ⟨List.nodup_cons.mpr ⟨fun isNoted => ?_, sound.once⟩, fun other isNoted => ?_,
    fun other otherId isNoted => ?_⟩
  · exact (sound.met reference isNoted).elim new fun isDefined => isDefined missing
  · cases List.mem_cons.mp isNoted with
    | inl same => exact .inl (same ▸ List.mem_cons_self)
    | inr earlier => exact (sound.met other earlier).imp (List.mem_cons_of_mem _) fun found => found
  · cases List.mem_cons.mp isNoted with
    | inl same => cases same
    | inr earlier => exact sound.settled other otherId earlier

/-- A reference gets the type that it has already, or its first one, and other
definitions than this one go on. -/
theorem define (sound : Sound before)
    (free : before.definition? reference = none ∨ before.definition? reference = some id)
    {inProgress : List String}
    (others : forall other, other ∈ before.state.inProgress -> other ≠ reference ->
      other ∈ inProgress) :
    Sound ⟨{ before.state with
      definitions := (reference, id) :: before.state.definitions, inProgress := inProgress },
        before.events⟩ := by
  refine ⟨sound.once, fun other isNoted => ?_, fun other otherId isNoted => ?_⟩
  · simp only [Watched.definition?, lookup_define]
    by_cases same : other = reference
    · rw [if_pos same]
      exact .inr (Option.some_ne_none id)
    · rw [if_neg same]
      exact (sound.met other isNoted).imp_left fun member => others other member same
  · simp only [Watched.definition?, lookup_define]
    have found := sound.settled other otherId isNoted
    by_cases same : other = reference
    · rw [if_pos same]
      rw [same] at found
      rcases free with missing | isSame
      · cases missing.symm.trans found
      · exact isSame.symm.trans found
    · rw [if_neg same]
      exact found

end Sound

namespace Moves

theorem refl (sound : Sound before) : Moves definition before before :=
  ⟨sound, rfl, fun _ _ found => found, fun _ _ _ missing => missing⟩

theorem trans (first : Moves definition before middle) (second : Moves definition middle after) :
    Moves definition before after where
  sound := second.sound
  inProgress := second.inProgress.trans first.inProgress
  kept reference id found := second.kept reference id (first.kept reference id found)
  waiting reference isMember other missing :=
    second.waiting reference (first.inProgress ▸ isMember) other
      (first.waiting reference isMember other missing)

/-- What leaves all waiting definitions alone leaves all but one alone. -/
theorem ofNone (moves : Moves none before after) : Moves definition before after :=
  ⟨moves.sound, moves.inProgress, moves.kept,
    fun reference isMember _ => moves.waiting reference isMember nofun⟩

/-- Nothing that the notes are about has changed. -/
theorem quiet (sound : Sound before) (events : after.events = before.events)
    (definitions : after.state.definitions = before.state.definitions)
    (inProgress : after.state.inProgress = before.state.inProgress) :
    Moves definition before after := by
  refine ⟨sound.quiet events definitions inProgress, inProgress, ?_, ?_⟩
  · exact fun reference id found => (congrArg (List.lookup reference) definitions).trans found
  · exact fun reference _ _ missing => (congrArg (List.lookup reference) definitions).trans missing

end Moves
end Changes

/-! ### The measure of the recursion -/

section Measure

variable {document node child : Json} {definition : Option String} {before after : Watched}
  {reference : String}

/-- Whether a reference has not been met: its definition is neither compiled nor
being compiled. -/
def Watched.isNew (watched : Watched) (reference : String) : Bool :=
  (watched.definition? reference).isNone && !watched.state.inProgress.contains reference

theorem isNew_iff : before.isNew reference = true ↔
    before.definition? reference = none ∧ reference ∉ before.state.inProgress := by
  simp only [Watched.isNew, Bool.and_eq_true, Option.isNone_iff_eq_none, Bool.not_eq_true',
    Bool.eq_false_iff, ne_eq, List.contains_iff_mem]

/-- How many texts of a document are references that may still be met. -/
def unmet (document : Json) (watched : Watched) : Nat :=
  (document.strings.filter watched.isNew).length

/-- How many levels of nesting a node may still take. -/
def need (document node : Json) (watched : Watched) : Nat :=
  unmet document watched * (document.height + 1) + node.height

theorem unmet_le (sub : forall reference, after.isNew reference = true ->
    before.isNew reference = true) : unmet document after ≤ unmet document before :=
  (List.monotone_filter_right document.strings sub).length_le

theorem Moves.unmet_le (moves : Moves definition before after) :
    unmet document after ≤ unmet document before := by
  refine TextSchema.unmet_le fun reference isNew => ?_
  obtain ⟨missing, notEntered⟩ := isNew_iff.mp isNew
  refine isNew_iff.mpr ⟨?_, moves.inProgress ▸ notEntered⟩
  cases found : before.definition? reference with
  | none => rfl
  | some id => cases missing.symm.trans (moves.kept reference id found)

/-- A reference that is entered is met. -/
theorem unmet_enter (isText : reference ∈ document.strings)
    (missing : before.definition? reference = none)
    (new : reference ∉ before.state.inProgress) (events : List Event) :
    unmet document ⟨{ before.state with inProgress := reference :: before.state.inProgress },
      events⟩ < unmet document before := by
  have sub : forall other, Watched.isNew ⟨{ before.state with
      inProgress := reference :: before.state.inProgress }, events⟩ other = true ->
        before.isNew other = true := by
    intro other isNew
    obtain ⟨undefined, notEntered⟩ := isNew_iff.mp isNew
    exact isNew_iff.mpr ⟨undefined, fun member => notEntered (List.mem_cons_of_mem _ member)⟩
  have fewer := List.monotone_filter_right document.strings sub
  refine Nat.lt_of_le_of_ne fewer.length_le fun same => ?_
  -- As many references as before would be the same ones.
  have isLeft : reference ∈ document.strings.filter before.isNew :=
    List.mem_filter.mpr ⟨isText, isNew_iff.mpr ⟨missing, new⟩⟩
  rw [← fewer.eq_of_length same] at isLeft
  exact (isNew_iff.mp (List.mem_filter.mp isLeft).2).2 List.mem_cons_self

theorem need_le_nestingBound (document : Json) (watched : Watched) :
    need document document watched ≤ nestingBound document := by
  have few : unmet document watched ≤ document.count :=
    Nat.le_trans (List.length_filter_le _ _) document.length_strings_le
  have product := Nat.mul_le_mul_right (document.height + 1) few
  simp only [need, nestingBound, Nat.add_mul, Nat.one_mul]
  omega

/-- What a node may still take of a bound on the nesting, when the notes are
sound. -/
structure Ready (document node : Json) (levels : Nat) (watched : Watched) : Prop where
  sound : Sound watched
  enough : need document node watched ≤ levels

theorem Ready.moves {levels : Nat} (ready : Ready document node levels before)
    (moves : Moves definition before after) : Ready document node levels after := by
  refine ⟨moves.sound, Nat.le_trans ?_ ready.enough⟩
  exact Nat.add_le_add_right (Nat.mul_le_mul_right _ moves.unmet_le) _

/-- A node inside another one takes less. -/
theorem Ready.below {levels : Nat} (ready : Ready document node (levels + 1) before)
    (lower : child.height < node.height) : Ready document child levels before := by
  have enough := ready.enough
  unfold need at enough
  refine ⟨ready.sound, ?_⟩
  unfold need
  omega

/-- The node behind a reference that was not met before takes less, since there is
one reference less to be met. -/
theorem Ready.enter {levels : Nat} (ready : Ready document node (levels + 1) before)
    (isText : reference ∈ document.strings) (missing : before.definition? reference = none)
    (new : reference ∉ before.state.inProgress) (low : child.height ≤ document.height) :
    Ready document child levels
      ⟨{ before.state with inProgress := reference :: before.state.inProgress },
        .descends reference :: before.events⟩ := by
  have enough := ready.enough
  have fewer := unmet_enter isText missing new (.descends reference :: before.events)
  have product := Nat.mul_le_mul_right (document.height + 1) fewer
  have positive := node.height_pos
  unfold need at enough
  refine ⟨ready.sound.enter missing new, ?_⟩
  unfold need
  rw [Nat.succ_mul] at product
  omega

end Measure

/-! ### The watched compiler beside the compiler -/

/-- A watched computation ends as a computation of the compiler does, and what it
ends well with is as described. -/
def Mirrors {Result : Type} (watch : WatchM Result) (step : CompileM Result) (before : Watched)
    (good : Result -> Watched -> Prop) : Prop :=
  Run watch before
    (fun result after => step before.state = .ok result after.state ∧ good result after)
    (fun failure after => step before.state = .error failure after.state ∧ Sound after)

section Mirroring

variable {Result Next : Type} {watch : WatchM Result} {step : CompileM Result} {before : Watched}
  {good : Result -> Watched -> Prop}

theorem Mirrors.andThen {nextWatch : Result -> WatchM Next} {nextStep : Result -> CompileM Next}
    {nextGood : Next -> Watched -> Prop} (mirrors : Mirrors watch step before good)
    (continued : forall result middle, good result middle ->
      Mirrors (nextWatch result) (nextStep result) middle nextGood) :
    Mirrors (watch >>= nextWatch) (step >>= nextStep) before nextGood := by
  refine Run.andThen mirrors ?_ ?_
  · rintro result middle ⟨ends, isGood⟩
    have goesOn : (step >>= nextStep) before.state = nextStep result middle.state := by
      simp only [bind, EStateM.bind, ends]
    exact (continued result middle isGood).imp
      (fun _ _ same => ⟨goesOn.trans same.1, same.2⟩)
      (fun _ _ same => ⟨goesOn.trans same.1, same.2⟩)
  · rintro failure after ⟨ends, sound⟩
    refine ⟨?_, sound⟩
    simp only [bind, EStateM.bind, ends]

theorem Mirrors.imp {weaker : Result -> Watched -> Prop} (mirrors : Mirrors watch step before good)
    (weaken : forall result after, good result after -> weaker result after) :
    Mirrors watch step before weaker :=
  Run.imp mirrors (fun result after same => ⟨same.1, weaken result after same.2⟩)
    (fun _ _ same => same)

theorem mirrors_pure {result : Result} (isGood : good result before) :
    Mirrors (pure result) (pure result) before good := ⟨rfl, isGood⟩

/-- A note is made beside what the compiler does. -/
theorem Mirrors.noting {nextWatch : Unit -> WatchM Result} {event : Event}
    (mirrors : Mirrors (nextWatch ()) step (before.noting event) good) :
    Mirrors (note event >>= nextWatch) step before good := mirrors

/-- The compiler does something that no definition takes part in. -/
theorem mirrors_aside (aside : Aside step) (sound : Sound before) :
    Mirrors (unwatched step) step before fun _ after => Moves none before after := by
  have kept := aside before.state
  unfold Run at kept
  cases ends : step before.state with
  | ok result after =>
      rw [ends] at kept
      refine (run_of_ok (congrArg (withEvents before.events) ends)).mpr ⟨ends, ?_⟩
      exact .quiet sound rfl kept.1 kept.2
  | error failure after =>
      rw [ends] at kept
      refine (run_of_error (congrArg (withEvents before.events) ends)).mpr ⟨ends, ?_⟩
      exact sound.quiet rfl kept.1 kept.2

theorem mirrors_reject {pointer : String} {flaw : Flaw} (sound : Sound before) :
    Mirrors (unwatched (reject pointer flaw)) (reject pointer flaw) before good := ⟨rfl, sound⟩

theorem mirrors_register {definition : Option String} (id : TypeId) (sound : Sound before)
    (isFree : forall reference, definition = some reference ->
      before.definition? reference = none) :
    Mirrors (unwatched (register definition id)) (register definition id) before fun _ after =>
      Moves definition before after ∧
        forall reference, definition = some reference -> after.definition? reference = some id := by
  cases definition with
  | none => exact ⟨rfl, .refl sound, nofun⟩
  | some reference =>
      have missing := isFree reference rfl
      refine ⟨rfl, ⟨sound.define (.inl missing) fun _ member _ => member, rfl, ?_, ?_⟩, ?_⟩
      · intro other otherId found
        have different : other ≠ reference := by
          rintro rfl
          cases missing.symm.trans found
        exact (lookup_define reference other id _).trans ((if_neg different).trans found)
      · intro other _ different undefined
        have isOther : other ≠ reference := fun same => different (congrArg some same.symm)
        exact (lookup_define reference other id _).trans ((if_neg isOther).trans undefined)
      · rintro _ ⟨rfl⟩
        exact (lookup_define reference reference id _).trans (if_pos rfl)

end Mirroring

/-- What compiling a node ends well with: a definition that it is has no type yet,
or this one. -/
def Gives (definition : Option String) (before : Watched) (id : TypeId) (after : Watched) : Prop :=
  Moves definition before after ∧ forall reference, definition = some reference ->
    after.definition? reference = none ∨ after.definition? reference = some id

/-- The definition that a node may be is in progress and has no type yet. -/
def IsWaiting (definition : Option String) (watched : Watched) : Prop :=
  forall reference, definition = some reference ->
    watched.definition? reference = none ∧ reference ∈ watched.state.inProgress

/-- Nodes that a bound on the nesting suffices for are compiled alike by a watched
compiler and by a compiler. -/
def MirrorsNodes (document : Json) (watch : NodeWatcher) (compile : NodeCompiler)
    (levels : Nat) : Prop :=
  forall (node : Json) (pointer name : String) (definition : Option String) (before : Watched),
    Json.IsPart document node -> Ready document node levels before -> IsWaiting definition before ->
      Mirrors (watch node pointer name definition) (compile node pointer name definition) before
        (Gives definition before)

section Nodes

variable {document node : Json} {watch : NodeWatcher} {compile : NodeCompiler} {levels : Nat}
  {before : Watched} {definition : Option String}

/-- A node that leaves its definition alone. -/
theorem Moves.gives (moves : Moves none before after) (waiting : IsWaiting definition before)
    (id : TypeId) : Gives definition before id after := by
  refine ⟨moves.ofNone, fun reference isDefinition => .inl ?_⟩
  obtain ⟨missing, inProgress⟩ := waiting reference isDefinition
  exact moves.waiting reference inProgress nofun missing

/-- A node inside another one. -/
theorem MirrorsNodes.inside (mirrors : MirrorsNodes document watch compile levels)
    (ready : Ready document node (levels + 1) before) {child : Json}
    (isPart : Json.IsPart document child) (lower : child.height < node.height)
    (pointer name : String) :
    Mirrors (watch child pointer name none) (compile child pointer name none) before fun _ after =>
      Moves none before after :=
  (mirrors child pointer name none before isPart (ready.below lower) nofun).imp
    fun _ _ gives => gives.1

theorem mirrors_properties (mirrors : MirrorsNodes document watch compile levels)
    (context : Context) (base owner : String) (required : List String)
    {properties : List (String × Json)}
    (areInside : forall property, property ∈ properties ->
      Json.IsPart document property.2 ∧ property.2.height < node.height)
    (order : Nat) (taken : List String) (ready : Ready document node (levels + 1) before) :
    Mirrors (watchProperties watch context base owner required properties order taken)
      (compileProperties compile context base owner required properties order taken) before
      fun _ after => Moves none before after := by
  induction properties generalizing order taken before with
  | nil => exact mirrors_pure (.refl ready.sound)
  | cons property rest ih =>
      obtain ⟨isPart, lower⟩ := areInside property List.mem_cons_self
      rw [compileProperties_cons]
      refine (mirrors.inside ready isPart lower _ _).andThen ?_
      intro id found first
      refine (mirrors_aside (aside_property id context base owner required order taken property)
        first.sound).andThen ?_
      intro compiled middle second
      have moves := first.trans second
      refine (ih (fun other isIn => areInside other (List.mem_cons_of_mem _ isIn)) (order + 1)
        compiled.2 (ready.moves moves)).andThen ?_
      intro fields after last
      exact mirrors_pure (moves.trans last)

theorem mirrors_propertyFields (mirrors : MirrorsNodes document watch compile levels)
    (context : Context) (isPart : Json.IsPart document node) (pointer owner : String)
    (required : List String) (ready : Ready document node (levels + 1) before) :
    Mirrors (watchPropertyFields watch context node pointer owner required)
      (propertyFields compile context node pointer owner required) before
      fun _ after => Moves none before after := by
  unfold watchPropertyFields propertyFields
  dsimp only
  cases found : node.member? "properties" with
  | none => exact mirrors_pure (.refl ready.sound)
  | some value =>
      have isInside := isPart.member? found
      have lower := Json.height_lt_of_member? found
      cases value with
      | object properties =>
          refine mirrors_properties mirrors context _ owner required ?_ 0 [] ready
          intro property isMember
          exact ⟨isInside.member isMember,
            Nat.lt_trans (Json.height_lt_of_member isMember) lower⟩
      | _ => exact mirrors_reject ready.sound

theorem mirrors_alternatives (mirrors : MirrorsNodes document watch compile levels)
    (pointer owner : String) {alternatives : List Json}
    (areInside : forall alternative, alternative ∈ alternatives ->
      Json.IsPart document alternative ∧ alternative.height < node.height)
    (index : Nat) (taken : List String) (ready : Ready document node (levels + 1) before) :
    Mirrors (watchAlternatives watch pointer owner alternatives index taken)
      (compileAlternatives compile pointer owner alternatives index taken) before
      fun _ after => Moves none before after := by
  induction alternatives generalizing index taken before with
  | nil => exact mirrors_pure (.refl ready.sound)
  | cons alternative rest ih =>
      obtain ⟨isPart, lower⟩ := areInside alternative List.mem_cons_self
      rw [compileAlternatives_cons]
      refine (mirrors.inside ready isPart lower _ _).andThen ?_
      intro id found first
      refine (mirrors_aside (aside_alternative id pointer owner index taken alternative)
        first.sound).andThen ?_
      intro compiled middle second
      have moves := first.trans second
      refine (ih (fun other isIn => areInside other (List.mem_cons_of_mem _ isIn)) (index + 1)
        compiled.2 (ready.moves moves)).andThen ?_
      intro fields after last
      exact mirrors_pure (moves.trans last)

/-- A declared type is made and registered, and gets its fields when the nodes
inside are compiled. -/
theorem mirrors_declared (ready : Ready document node (levels + 1) before)
    (waiting : IsWaiting definition before) (title : String)
    (make : String -> BuildM TypeId) {watchNext : String -> TypeId -> WatchM TypeId}
    {stepNext : String -> TypeId -> CompileM TypeId}
    (continued : forall name id middle, Ready document node (levels + 1) middle ->
      Mirrors (watchNext name id) (stepNext name id) middle fun result after =>
        result = id ∧ Moves none middle after) :
    Mirrors (do
        let name ← unwatched (uniqueName title)
        let id ← unwatched (build (make name))
        unwatched (register definition id)
        watchNext name id)
      (do
        let name ← uniqueName title
        let id ← build (make name)
        register definition id
        stepNext name id) before (Gives definition before) := by
  refine (mirrors_aside (aside_uniqueName title) ready.sound).andThen fun name named first => ?_
  refine (mirrors_aside (aside_build (make name)) first.sound).andThen fun id made second => ?_
  have moves := first.trans second
  have isFree : forall reference, definition = some reference ->
      made.definition? reference = none := by
    intro reference isDefinition
    obtain ⟨missing, inProgress⟩ := waiting reference isDefinition
    exact moves.waiting reference inProgress nofun missing
  refine (mirrors_register id moves.sound isFree).andThen ?_
  rintro ⟨⟩ entered ⟨third, isRegistered⟩
  have registered := moves.ofNone.trans third
  refine (continued name id entered (ready.moves registered)).imp ?_
  rintro _ after ⟨rfl, last⟩
  exact ⟨registered.trans last.ofNone, fun reference isDefinition =>
    .inr (last.kept reference _ (isRegistered reference isDefinition))⟩

theorem mirrors_struct (mirrors : MirrorsNodes document watch compile levels)
    (context : Context) (isPart : Json.IsPart document node) (pointer title : String)
    (ready : Ready document node (levels + 1) before) (waiting : IsWaiting definition before) :
    Mirrors (watchStruct watch context node pointer title definition)
      (compileStruct compile context node pointer title definition) before
      (Gives definition before) := by
  refine mirrors_declared ready waiting title (Builder.newStruct context) ?_
  intro name id middle ready
  refine (mirrors_aside (aside_applyFlags node id) ready.sound).andThen fun _ flagged first => ?_
  refine (mirrors_aside (aside_requiredNames node pointer) first.sound).andThen
    fun required listed second => ?_
  have moves := first.trans second
  refine (mirrors_propertyFields mirrors context isPart pointer name required
    (ready.moves moves)).andThen fun fields described third => ?_
  refine (mirrors_aside (aside_build _) third.sound).andThen fun _ after last => ?_
  exact mirrors_pure ⟨rfl, (moves.trans third).trans last⟩

theorem mirrors_object (mirrors : MirrorsNodes document watch compile levels)
    (context : Context) (isPart : Json.IsPart document node) (pointer title : String)
    (ready : Ready document node (levels + 1) before) (waiting : IsWaiting definition before) :
    Mirrors (watchObject watch context node pointer title definition)
      (compileObject compile context node pointer title definition) before
      (Gives definition before) := by
  have asStruct := mirrors_struct mirrors context isPart pointer title ready waiting
  unfold watchObject compileObject
  cases node.member? "properties" with
  | some properties => exact asStruct
  | none =>
      cases found : node.member? "additionalProperties" with
      | none => exact asStruct
      | some further =>
          cases further with
          | object values =>
              refine (mirrors.inside ready (isPart.member? found)
                (Json.height_lt_of_member? found) _ _).andThen fun value middle first => ?_
              refine (mirrors_aside (aside_build _) first.sound).imp fun id after last => ?_
              exact (first.trans last).gives waiting id
          | _ => exact asStruct

theorem mirrors_variant (mirrors : MirrorsNodes document watch compile levels)
    (context : Context) {alternatives : Json} (isPart : Json.IsPart document alternatives)
    (lower : alternatives.height < node.height) (pointer title : String)
    (ready : Ready document node (levels + 1) before) (waiting : IsWaiting definition before) :
    Mirrors (watchVariant watch context node alternatives pointer title definition)
      (compileVariant compile context node alternatives pointer title definition) before
      (Gives definition before) := by
  unfold watchVariant compileVariant
  cases alternatives with
  | array alternatives =>
      dsimp only
      split
      · exact mirrors_reject ready.sound
      · refine mirrors_declared ready waiting title (Builder.newVariant context) ?_
        intro name id middle ready
        refine (mirrors_aside (aside_applyFlags node id) ready.sound).andThen
          fun _ flagged first => ?_
        refine (mirrors_aside (aside_build _) first.sound).andThen fun tag tagged second => ?_
        have moves := first.trans second
        have areInside : forall alternative, alternative ∈ alternatives ->
            Json.IsPart document alternative ∧ alternative.height < node.height :=
          fun alternative isItem =>
            ⟨isPart.item isItem, Nat.lt_trans (Json.height_lt_of_item isItem) lower⟩
        refine (mirrors_alternatives mirrors pointer name areInside 0 []
          (ready.moves moves)).andThen fun fields described third => ?_
        refine (mirrors_aside (aside_build _) third.sound).andThen fun _ after last => ?_
        exact mirrors_pure ⟨rfl, (moves.trans third).trans last⟩
  | _ => exact mirrors_reject ready.sound

theorem mirrors_array (mirrors : MirrorsNodes document watch compile levels)
    (context : Context) (isPart : Json.IsPart document node) (pointer title : String)
    (ready : Ready document node (levels + 1) before) :
    Mirrors (watchArray watch context node pointer title)
      (compileArray compile context node pointer title) before
      fun _ after => Moves none before after := by
  unfold watchArray compileArray
  cases found : node.member? "items" with
  | none => exact mirrors_reject ready.sound
  | some items =>
      refine (mirrors.inside ready (isPart.member? found)
        (Json.height_lt_of_member? found) _ _).andThen fun element middle first => ?_
      exact (mirrors_aside (aside_build _) first.sound).imp fun _ _ last => first.trans last

theorem mirrors_typed (mirrors : MirrorsNodes document watch compile levels)
    (context : Context) (isPart : Json.IsPart document node) (pointer title typeName : String)
    (ready : Ready document node (levels + 1) before) (waiting : IsWaiting definition before) :
    Mirrors (watchTyped watch context node pointer title definition typeName)
      (compileTyped compile context node pointer title definition typeName) before
      (Gives definition before) := by
  unfold watchTyped
  split
  next isObject =>
    subst isObject
    exact mirrors_object mirrors context isPart pointer title ready waiting
  next notObject =>
    split
    next isArray =>
      subst isArray
      exact (mirrors_array mirrors context isPart pointer title ready).imp
        fun id _ moves => moves.gives waiting id
    next notArray =>
      rw [compileTyped_eq compile (fun _ _ _ _ => reject pointer .notASchema) context node pointer
        title definition notObject notArray]
      exact (mirrors_aside (aside_typed _ context node pointer title definition notObject notArray)
        ready.sound).imp fun id _ moves => moves.gives waiting id

/-- A reference that was not met before is followed, and has its type from then
on. -/
theorem mirrors_definition (mirrors : MirrorsNodes document watch compile levels)
    (ready : Ready document node (levels + 1) before) {reference : String}
    (isText : reference ∈ document.strings) (missing : before.definition? reference = none)
    (new : reference ∉ before.state.inProgress) {target : Json}
    (isPart : Json.IsPart document target) (pointer name : String) :
    Mirrors (do
        unwatched (enterDefinition reference)
        note (.descends reference)
        let id ← watch target pointer name (some reference)
        unwatched (leaveDefinition reference)
        unwatched (define reference id)
        note (.resolves reference id)
        return id)
      (do
        enterDefinition reference
        let id ← compile target pointer name (some reference)
        leaveDefinition reference
        define reference id
        return id) before fun _ after => Moves none before after := by
  have entered := ready.enter isText missing new isPart.height
  have waiting : IsWaiting (some reference)
      ⟨{ before.state with inProgress := reference :: before.state.inProgress },
        .descends reference :: before.events⟩ := by
    rintro _ ⟨rfl⟩
    exact ⟨missing, List.mem_cons_self⟩
  have enters : Mirrors (unwatched (enterDefinition reference)) (enterDefinition reference) before
      fun _ after => after = ⟨{ before.state with
        inProgress := reference :: before.state.inProgress }, before.events⟩ := ⟨rfl, rfl⟩
  refine enters.andThen ?_
  rintro ⟨⟩ _ rfl
  refine Mirrors.noting ?_
  refine (mirrors target pointer name (some reference) _ isPart entered waiting).andThen ?_
  rintro id found ⟨moves, own⟩
  have inProgress : found.state.inProgress.erase reference = before.state.inProgress := by
    rw [moves.inProgress, List.erase_cons_head]
  have isSettled : Watched.definition? ⟨{ found.state with
      definitions := (reference, id) :: found.state.definitions,
      inProgress := found.state.inProgress.erase reference }, found.events⟩ reference = some id :=
    (lookup_define reference reference id _).trans (if_pos rfl)
  have sound := (moves.sound.define (own reference rfl) fun other isMember different =>
    (List.mem_erase_of_ne different).mpr isMember).resolves isSettled
  refine ⟨rfl, sound, inProgress, fun other otherId isFound => ?_,
    fun other isMember _ undefined => ?_⟩
  · have different : other ≠ reference := by
      rintro rfl
      cases missing.symm.trans isFound
    exact (lookup_define reference other id _).trans
      ((if_neg different).trans (moves.kept other otherId isFound))
  · have different : other ≠ reference := fun same => new (same ▸ isMember)
    have isOther : some reference ≠ some other := fun same => different (Option.some.inj same).symm
    exact (lookup_define reference other id _).trans ((if_neg different).trans
      (moves.waiting other (List.mem_cons_of_mem _ isMember) isOther undefined))

theorem mirrors_findDefinition (reference : String) :
    Mirrors (unwatched (findDefinition? reference)) (findDefinition? reference) before
      fun found after => before.definition? reference = found ∧ before = after := ⟨rfl, rfl, rfl⟩

theorem mirrors_isInProgress (reference : String) :
    Mirrors (unwatched (isInProgress reference)) (isInProgress reference) before
      fun answer after => before.state.inProgress.contains reference = answer ∧ before = after :=
  ⟨rfl, rfl, rfl⟩

/-- A use of a reference whose type is known. -/
theorem mirrors_resolved {reference : String} {id : TypeId} {middle : Watched}
    (moves : Moves none before middle) (found : middle.definition? reference = some id) :
    Mirrors (do
        note (.resolves reference id)
        return id)
      (return id) middle fun _ after => Moves none before after :=
  Mirrors.noting (mirrors_pure
    ⟨moves.sound.resolves found, moves.inProgress, moves.kept, moves.waiting⟩)

theorem mirrors_reference (mirrors : MirrorsNodes document watch compile levels)
    (isPart : Json.IsPart document node) (pointer : String) {reference : Json}
    (isReference : node.member? "$ref" = some reference)
    (ready : Ready document node (levels + 1) before) :
    Mirrors (watchReference watch document pointer reference)
      (compileReference compile document pointer reference) before
      fun _ after => Moves none before after := by
  have isInside := isPart.member? isReference
  unfold watchReference compileReference
  cases reference with
  | string reference =>
      have isText : reference ∈ document.strings :=
        isInside.strings reference List.mem_cons_self
      dsimp only
      cases definitionName? reference with
      | none => exact mirrors_reject ready.sound
      | some name =>
          refine (mirrors_findDefinition reference).andThen ?_
          rintro found _ ⟨isFound, rfl⟩
          cases found with
          | some id =>
              refine (mirrors_isInProgress reference).andThen ?_
              rintro answer _ ⟨isAnswer, rfl⟩
              cases answer with
              | false => exact mirrors_resolved (.refl ready.sound) isFound
              | true =>
                  refine (mirrors_aside (aside_build _) ready.sound).andThen ?_
                  intro type middle moves
                  exact mirrors_resolved moves (moves.kept reference id isFound)
          | none =>
              refine (mirrors_isInProgress reference).andThen ?_
              rintro answer _ ⟨isAnswer, rfl⟩
              cases answer with
              | true => exact mirrors_reject ready.sound
              | false =>
                  have new : reference ∉ before.state.inProgress := by
                    intro isMember
                    cases isAnswer.symm.trans (List.contains_iff_mem.mpr isMember)
                  simp only [Bool.false_eq_true, if_false]
                  cases resolved : Json.Pointer.resolve? (String.ofList (reference.toList.drop 1))
                    document with
                  | none => exact mirrors_reject ready.sound
                  | some target =>
                      exact mirrors_definition mirrors ready isText isFound new
                        (.resolve? resolved) _ name
  | _ => exact mirrors_reject ready.sound

theorem mirrors_node (mirrors : MirrorsNodes document watch compile levels) (context : Context) :
    MirrorsNodes document (watchNode watch context document)
      (compileNode compile context document) (levels + 1) := by
  intro node pointer name definition before isPart ready waiting
  unfold watchNode compileNode
  cases node with
  | object members =>
      dsimp only
      cases isReference : (Json.object members).member? "$ref" with
      | some reference =>
          exact (mirrors_reference mirrors isPart pointer isReference ready).imp
            fun id _ moves => moves.gives waiting id
      | none =>
          dsimp only
          cases isOneOf : (Json.object members).member? "oneOf" with
          | some alternatives =>
              exact mirrors_variant mirrors context (isPart.member? isOneOf)
                (Json.height_lt_of_member? isOneOf) _ _ ready waiting
          | none =>
              cases isAnyOf : (Json.object members).member? "anyOf" with
              | some alternatives =>
                  exact mirrors_variant mirrors context (isPart.member? isAnyOf)
                    (Json.height_lt_of_member? isAnyOf) _ _ ready waiting
              | none =>
                  refine (mirrors_aside (aside_typeName _ pointer) ready.sound).andThen ?_
                  intro typeName middle first
                  have stillWaiting : IsWaiting definition middle := by
                    intro reference isDefinition
                    obtain ⟨missing, inProgress⟩ := waiting reference isDefinition
                    exact ⟨first.waiting reference inProgress nofun missing,
                      first.inProgress ▸ inProgress⟩
                  refine (mirrors_typed mirrors context isPart pointer _ typeName
                    (ready.moves first) stillWaiting).imp ?_
                  rintro id after ⟨moves, own⟩
                  exact ⟨first.ofNone.trans moves, own⟩
  | _ => exact mirrors_reject ready.sound

end Nodes

/-! ### Whole documents -/

/-- The type of a node, with another compiler for nodes that are nested more
deeply. -/
def compileFrom (beyond : NodeCompiler) (context : Context) (document : Json) :
    Nat -> NodeCompiler
  | 0 => beyond
  | levels + 1 => compileNode (compileFrom beyond context document levels) context document

theorem compileWithin_eq_compileFrom (context : Context) (document : Json) (levels : Nat) :
    compileWithin context document levels =
      compileFrom (fun _ pointer _ _ => reject pointer .notASchema) context document levels := by
  induction levels with
  | zero => rfl
  | succ levels ih => rw [compileWithin, compileFrom, ih]

/-- Where a bound suffices, nothing is known of the nodes beyond it on either
side. -/
theorem mirrors_within (beyond : NodeWatcher) (other : NodeCompiler) (context : Context)
    (document : Json) (levels : Nat) :
    MirrorsNodes document (watchWithin beyond context document levels)
      (compileFrom other context document levels) levels := by
  induction levels with
  | zero =>
      intro node pointer name definition before _ ready _
      have enough := ready.enough
      have positive := node.height_pos
      unfold need at enough
      omega
  | succ levels ih => exact mirrors_node ih context

theorem sound_start (state : State) : Sound ⟨state, []⟩ := ⟨List.nodup_nil, nofun, nofun⟩

theorem mirrors_document (beyond : NodeWatcher) (other : NodeCompiler) (context : Context)
    (document : Json) (rootName : String) {before : Watched} (sound : Sound before) :
    Mirrors (watchWithin beyond context document (nestingBound document) document "" rootName none)
      (compileFrom other context document (nestingBound document) document "" rootName none)
      before fun _ after => Sound after :=
  (mirrors_within beyond other context document (nestingBound document) document "" rootName none
    before (.refl document) ⟨sound, need_le_nestingBound document before⟩ nofun).imp
      fun _ _ gives => gives.1.sound

section Ends

variable {Result : Type} {watch : WatchM Result} {step other : CompileM Result} {before : Watched}

/-- Computations that are mirrored by one computation end alike. -/
theorem Mirrors.unique {good : Result -> Watched -> Prop} (mirrors : Mirrors watch step before good)
    (alike : Mirrors watch other before good) : step before.state = other before.state := by
  unfold Mirrors Run at mirrors alike
  cases ends : watch before with
  | ok result after =>
      rw [ends] at mirrors alike
      exact mirrors.1.trans alike.1.symm
  | error failure after =>
      rw [ends] at mirrors alike
      exact mirrors.1.trans alike.1.symm

/-- A computation that is mirrored ends with what has been noted, which is sound. -/
theorem Mirrors.exists_events
    (mirrors : Mirrors watch step before fun _ after => Sound after) :
    exists last : Watched, watch before = withEvents last.events (step before.state) ∧
      Sound last := by
  unfold Mirrors Run at mirrors
  cases ends : watch before with
  | ok result after =>
      rw [ends] at mirrors
      exact ⟨after, (congrArg (withEvents after.events) mirrors.1).symm, mirrors.2⟩
  | error failure after =>
      rw [ends] at mirrors
      exact ⟨after, (congrArg (withEvents after.events) mirrors.1).symm, mirrors.2⟩

end Ends

/-- Documents are compiled alike whatever is done with nodes beyond the bound on
their nesting. -/
theorem compileFrom_eq (first second : NodeCompiler) (context : Context) (document : Json)
    (rootName : String) (state : State) :
    compileFrom first context document (nestingBound document) document "" rootName none state =
      compileFrom second context document (nestingBound document) document "" rootName none
        state := by
  have mirrors := mirrors_document (fun _ pointer _ _ => unwatched (reject pointer .notASchema))
    first context document rootName (sound_start state)
  exact mirrors.unique (mirrors_document _ second context document rootName (sound_start state))

theorem mirrors_target (document : Json) (rootName : String) (slice : Option String)
    (target : Target) (beyond : NodeWatcher) (state : State) :
    Mirrors (watchTarget beyond document rootName slice target)
      (compileTarget document rootName slice target) ⟨state, []⟩ fun _ after => Sound after := by
  have begins : Mirrors (unwatched (modify fun state => ⟨state.builder, [], [], []⟩))
      (modify fun state => ⟨state.builder, [], [], []⟩) ⟨state, []⟩
      fun _ after => after.events = [] := ⟨rfl, rfl⟩
  have aside {Result : Type} (step : BuildM Result) {before : Watched} (sound : Sound before) :
      Mirrors (unwatched (build step)) (build step) before fun _ after => Sound after :=
    (mirrors_aside (aside_build step) sound).imp fun _ _ moves => moves.sound
  refine begins.andThen ?_
  rintro ⟨⟩ ⟨start, _⟩ ⟨rfl⟩
  refine (aside (Builder.newContext target) (sound_start start)).andThen ?_
  intro context tabled first
  simp only [compileWithin_eq_compileFrom]
  refine (mirrors_document beyond _ context document rootName first).andThen ?_
  intro root found second
  refine (aside (Builder.storeSlice slice) second).andThen fun stored noted third => ?_
  refine (aside (Layout.arrangeContext _ target) third).andThen fun _ after last => ?_
  exact mirrors_pure last

/-- For every document, whatever is done with nodes beyond the bound on their nesting, a watched
target is compiled as the target is: no node lies beyond the bound.  In the course of it no
reference is descended into twice, and all uses of one reference resolve to one type. -/
theorem references_of_target (document : Json) (rootName : String) (slice : Option String)
    (target : Target) (beyond : NodeWatcher) (state : State) :
    exists events : List Event,
      watchTarget beyond document rootName slice target ⟨state, []⟩ =
        withEvents events (compileTarget document rootName slice target state) ∧
      (descents events).Nodup ∧
      forall reference first second, .resolves reference first ∈ events ->
        .resolves reference second ∈ events -> first = second := by
  obtain ⟨last, same, sound⟩ :=
    (mirrors_target document rootName slice target beyond state).exists_events
  refine ⟨last.events, same, sound.once, fun reference first second isFirst isSecond => ?_⟩
  exact Option.some.inj ((sound.settled reference first isFirst).symm.trans
    (sound.settled reference second isSecond))

end TextSchema
end PackedJson
