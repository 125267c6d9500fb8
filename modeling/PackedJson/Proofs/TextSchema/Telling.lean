import PackedJson.Proofs.Text.Identifier
import PackedJson.Proofs.Text.Words
import PackedJson.Proofs.TextSchema.Labels
import PackedJson.Proofs.TextSchema.Lines

namespace PackedJson

open Text

theorem Shape.isWord_name (shape : Shape) : IsWord shape.name := by
  cases shape <;> decide

theorem Shape.name_inj {first second : Shape} (same : first.name = second.name) :
    first = second := by
  cases first <;> cases second <;> first | rfl | exact absurd same (by decide)

theorem Builtin.ofName?_name (builtin : Builtin) : ofName? builtin.name = some builtin := by
  cases builtin <;> decide

theorem Builtin.name_inj {first second : Builtin} (same : first.name = second.name) :
    first = second := by
  have found := first.ofName?_name
  rw [same, second.ofName?_name] at found
  exact (Option.some.inj found).symm

theorem Builtin.isWord_name (builtin : Builtin) : IsWord builtin.name := by
  cases builtin <;> decide

namespace TextSchema

open Heap Layout

/-!
What a listing tells.

The lines of a listing are read back word by word if none of the names in them
is broken, and if the names of types can be told from those of parts.  Then two
drafts with one listing have types of the same names, and where no name is
given twice, types of one name are the same in all that packing asks for.
-/

namespace Draft

/-! ### Lines and their words -/

section Words

variable (draft : Draft) (target : Target) (sizeOf : Ref -> Variable) (ref : Ref)

/-- The manner of storage, in a word. -/
def storageWord : String :=
  if draft.isByReference ref then "by-reference" else "inline"

/-- The words behind the name of a type. -/
def typeWords : List String :=
  [(draft.outline ref).shape.name, "size=" ++ toString (draft.room target sizeOf ref).size,
    "align=" ++ toString (sizeOf ref).align, draft.storageWord ref]

/-- Whether a variant is open, as a listing has it. -/
def isOpen : Bool := (draft.outline ref).settledFlags.contains TypeFlags.nonExhaustive

theorem typeLine_of_closed (closed : draft.isOpen ref = false) :
    draft.typeLine target sizeOf ref =
      spaced (draft.nameOf ref) (draft.typeWords target sizeOf ref) := by
  have self (text : String) : toString text = text := rfl
  unfold typeLine
  unfold isOpen at closed
  refine String.toList_inj.mp ?_
  simp [spaced, typeWords, storageWord, closed, self]

theorem typeLine_of_open (opened : draft.isOpen ref = true) :
    draft.typeLine target sizeOf ref =
      spaced (draft.nameOf ref) (draft.typeWords target sizeOf ref) ++ " " ++ "non-exhaustive" := by
  have self (text : String) : toString text = text := rfl
  unfold typeLine
  unfold isOpen at opened
  refine String.toList_inj.mp ?_
  simp [spaced, typeWords, storageWord, opened, self]

/-- The place, the name and the type of a part. -/
def fieldLabel (part : Part) (place : Nat) : String :=
  "  +" ++ toString place ++ " " ++ (part.name ++ ": " ++ draft.nameOf part.type)

/-- The words behind the label of a part, except the last one. -/
def fieldWords (part : Part) : List String :=
  ["size=" ++ toString (sizeOf part.type).size,
    "hash=" ++ Hex.padded 8 (Checksum.nameHash part.name).toNat]

theorem fieldLine_eq_spaced (part : Part) (place : Nat) :
    draft.fieldLine sizeOf part place =
      spaced (draft.fieldLabel part place) (fieldWords sizeOf part) ++ " " ++
        ("act=" ++ toString part.activation.toNat) := by
  have self (text : String) : toString text = text := rfl
  have byte (number : UInt8) : toString number = toString number.toNat := rfl
  unfold fieldLine
  refine String.toList_inj.mp ?_
  simp [spaced, fieldLabel, fieldWords, self, byte]

theorem isWord_storageWord : IsWord (draft.storageWord ref) := by
  unfold storageWord
  split <;> decide

theorem isWord_typeWords (word : String) (member : word ∈ draft.typeWords target sizeOf ref) :
    IsWord word := by
  simp only [typeWords, List.mem_cons, List.not_mem_nil, or_false] at member
  rcases member with rfl | rfl | rfl | rfl
  · exact Shape.isWord_name _
  · exact IsWord.append (by decide) (isWord_natural _)
  · exact IsWord.append (by decide) (isWord_natural _)
  · exact draft.isWord_storageWord ref

theorem isWord_fieldWords (part : Part) (word : String) (member : word ∈ fieldWords sizeOf part) :
    IsWord word := by
  simp only [fieldWords, List.mem_cons, List.not_mem_nil, or_false] at member
  rcases member with rfl | rfl
  · exact IsWord.append (by decide) (isWord_natural _)
  · exact IsWord.append (by decide) (isWord_padded _ _)

theorem isWord_activation (activation : UInt8) : IsWord ("act=" ++ toString activation.toNat) :=
  IsWord.append (by decide) (isWord_natural _)

/-- The lines of types, and no others, end in one of these words. -/
def lastWords : List String := ["inline", "by-reference", "non-exhaustive"]

/-- The lines of types are told from those of parts by their last words. -/
def BeginsType (line : String) : Prop :=
  exists text word, line = text ++ " " ++ word ∧ word ∈ lastWords

theorem beginsType_typeLine : BeginsType (draft.typeLine target sizeOf ref) := by
  cases opened : draft.isOpen ref with
  | true => exact ⟨_, _, draft.typeLine_of_open target sizeOf ref opened, by decide⟩
  | false =>
      refine ⟨_, draft.storageWord ref, draft.typeLine_of_closed target sizeOf ref opened, ?_⟩
      unfold storageWord
      split <;> decide

theorem not_beginsType_fieldLine (part : Part) (place : Nat) :
    ¬ BeginsType (draft.fieldLine sizeOf part place) := by
  rintro ⟨text, word, same, isLast⟩
  have areWords : forall word, word ∈ lastWords -> IsWord word ∧ word.toList.head? ≠ some 'a' := by
    decide
  obtain ⟨isWord, notActivation⟩ := areWords word isLast
  rw [fieldLine_eq_spaced] at same
  obtain ⟨-, rfl⟩ := lastWord_inj (isWord_activation part.activation) isWord same
  rw [String.toList_append] at notActivation
  exact notActivation rfl

end Words

/-! ### What lines tell -/

section Reading

variable {draft other : Draft} {target : Target} {sizeOf otherSizeOf : Ref -> Variable}
  {ref otherRef : Ref}

/-- The line of a type tells its name and the words behind it. -/
theorem typeLine_inj (same : draft.typeLine target sizeOf ref =
      other.typeLine target otherSizeOf otherRef) :
    draft.nameOf ref = other.nameOf otherRef ∧
      draft.typeWords target sizeOf ref = other.typeWords target otherSizeOf otherRef := by
  have areWords := draft.isWord_typeWords target sizeOf ref
  have othersAre := other.isWord_typeWords target otherSizeOf otherRef
  -- No manner of storage is written like the mark of open variants.
  have mixed (draft other : Draft) (sizeOf otherSizeOf : Ref -> Variable) (ref otherRef : Ref)
      (closed : draft.isOpen ref = false) (opened : other.isOpen otherRef = true)
      (same : draft.typeLine target sizeOf ref = other.typeLine target otherSizeOf otherRef) :
      False := by
    rw [draft.typeLine_of_closed target sizeOf ref closed,
      other.typeLine_of_open target otherSizeOf otherRef opened] at same
    have storage : draft.storageWord ref = "non-exhaustive" :=
      (lastWord_inj (draft.isWord_storageWord ref) (by decide) same).2
    unfold storageWord at storage
    split at storage <;> exact absurd storage (by decide)
  cases opened : draft.isOpen ref <;> cases otherOpened : other.isOpen otherRef
  · rw [draft.typeLine_of_closed target sizeOf ref opened,
      other.typeLine_of_closed target otherSizeOf otherRef otherOpened] at same
    exact spaced_inj rfl areWords othersAre same
  · exact (mixed draft other sizeOf otherSizeOf ref otherRef opened otherOpened same).elim
  · exact (mixed other draft otherSizeOf sizeOf otherRef ref otherOpened opened same.symm).elim
  · rw [draft.typeLine_of_open target sizeOf ref opened,
      other.typeLine_of_open target otherSizeOf otherRef otherOpened] at same
    exact spaced_inj rfl areWords othersAre (lastWord_inj (by decide) (by decide) same).1

/-- What the words behind the name of a type tell. -/
structure SameWords (draft other : Draft) (target : Target) (sizeOf otherSizeOf : Ref -> Variable)
    (ref otherRef : Ref) : Prop where
  shape : (other.outline otherRef).shape = (draft.outline ref).shape
  size : (other.room target otherSizeOf otherRef).size = (draft.room target sizeOf ref).size
  align : (otherSizeOf otherRef).align = (sizeOf ref).align
  byReference : other.isByReference otherRef = draft.isByReference ref

theorem sameWords_of_eq (same : draft.typeWords target sizeOf ref =
      other.typeWords target otherSizeOf otherRef) :
    SameWords draft other target sizeOf otherSizeOf ref otherRef := by
  obtain ⟨shape, sizes⟩ := List.cons.inj same
  obtain ⟨size, aligns⟩ := List.cons.inj sizes
  obtain ⟨align, words⟩ := List.cons.inj aligns
  have storage : draft.storageWord ref = other.storageWord otherRef := (List.cons.inj words).1
  refine ⟨(Shape.name_inj shape).symm, (Identifier.numbered_inj size).symm,
    (Identifier.numbered_inj align).symm, ?_⟩
  unfold storageWord at storage
  cases first : draft.isByReference ref <;> cases second : other.isByReference otherRef
  · rfl
  · rw [first, second] at storage
    exact absurd storage (by decide)
  · rw [first, second] at storage
    exact absurd storage (by decide)
  · rfl

/-- The line of a part tells its name, its type and its activation. -/
theorem fieldLine_inj {part otherPart : Part} {place otherPlace : Nat}
    (plain : IsPlainName (draft.nameOf part.type))
    (otherPlain : IsPlainName (other.nameOf otherPart.type))
    (same : draft.fieldLine sizeOf part place = other.fieldLine otherSizeOf otherPart otherPlace) :
    otherPart.name = part.name ∧ other.nameOf otherPart.type = draft.nameOf part.type ∧
      otherPart.activation = part.activation := by
  rw [fieldLine_eq_spaced, fieldLine_eq_spaced] at same
  obtain ⟨sameText, sameWord⟩ := lastWord_inj (isWord_activation _) (isWord_activation _) same
  have activation := UInt8.toNat_inj.mp (Identifier.numbered_inj sameWord)
  have length : (fieldWords sizeOf part).length = (fieldWords otherSizeOf otherPart).length := rfl
  obtain ⟨label, -⟩ := spaced_inj length (isWord_fieldWords sizeOf part)
    (isWord_fieldWords otherSizeOf otherPart) sameText
  have lists := congrArg String.toList label
  simp only [fieldLabel, String.toList_append, List.append_assoc] at lists
  obtain ⟨-, sameRest⟩ := firstSeparator_inj (isWord_natural place).2 (isWord_natural otherPlace).2
    (List.append_cancel_left lists)
  obtain ⟨name, typeName⟩ := lastPair_inj (by decide) plain.2 otherPlain.2 sameRest
  exact ⟨(String.toList_inj.mp name).symm, (String.toList_inj.mp typeName).symm, activation.symm⟩

end Reading

/-! ### Listings that can be read back -/

/-- The names in a listing can be told from each other and from the rest. -/
structure IsPlain (draft : Draft) (slice : String) (root : Ref) : Prop where
  slice : IsUnbroken slice
  names : forall ref, draft.Reaches root ref -> IsPlainName (draft.nameOf ref)
  parts : forall ref part, draft.Reaches root ref -> part ∈ (draft.outline ref).parts ->
    IsUnbroken part.name
  distinct : forall ref next, draft.Reaches root ref -> draft.Reaches root next ->
    draft.nameOf next = draft.nameOf ref -> next = ref

section Unbroken

variable {draft : Draft} {target other : Target} {sizeOf otherSizeOf : Ref -> Variable}
  {slice : String} {root ref : Ref} {refs : List Ref}

theorem isUnbroken_typeLine (plain : IsUnbroken (draft.nameOf ref)) :
    IsUnbroken (draft.typeLine target sizeOf ref) := by
  have line := plain.spaced (draft.isWord_typeWords target sizeOf ref)
  cases opened : draft.isOpen ref with
  | false =>
      rw [draft.typeLine_of_closed target sizeOf ref opened]
      exact line
  | true =>
      rw [draft.typeLine_of_open target sizeOf ref opened]
      exact isUnbroken_append.mpr ⟨isUnbroken_append.mpr ⟨line, by decide⟩, by decide⟩

theorem isUnbroken_fieldLine {part : Part} (plain : IsUnbroken part.name)
    (typePlain : IsUnbroken (draft.nameOf part.type)) (place : Nat) :
    IsUnbroken (draft.fieldLine sizeOf part place) := by
  have label : IsUnbroken (draft.fieldLabel part place) := by
    unfold fieldLabel
    simp only [isUnbroken_append]
    exact ⟨⟨⟨by decide, (isWord_natural place).1⟩, by decide⟩, ⟨plain, by decide⟩, typePlain⟩
  rw [fieldLine_eq_spaced]
  exact isUnbroken_append.mpr ⟨isUnbroken_append.mpr
    ⟨label.spaced (isWord_fieldWords sizeOf part), by decide⟩, (isWord_activation _).1⟩

/-- No line of a type is broken. -/
theorem IsPlain.typeLines (isPlain : draft.IsPlain slice root) (reached : draft.Reaches root ref)
    (line : String) (member : line ∈ draft.typeLines target sizeOf ref) : IsUnbroken line := by
  unfold Draft.typeLines at member
  rcases List.mem_cons.mp member with rfl | inFields
  · exact isUnbroken_typeLine (isPlain.names ref reached).1
  · obtain ⟨index, bound, rfl⟩ := List.getElem_of_mem inFields
    rw [List.getElem_zipWith]
    rw [List.length_zipWith] at bound
    have isPart := List.getElem_mem (show index < (draft.outline ref).parts.length by omega)
    have typeReached := reached.next (List.mem_append_left _ (List.mem_map_of_mem isPart))
    exact isUnbroken_fieldLine (isPlain.parts ref _ reached isPart) (isPlain.names _ typeReached).1 _

/-- No line of a target is broken. -/
theorem IsPlain.contextLines (isPlain : draft.IsPlain slice root)
    (reached : forall ref, ref ∈ refs -> draft.Reaches root ref) (line : String)
    (member : line ∈ draft.contextLines target sizeOf slice root refs) : IsUnbroken line := by
  have name : IsUnbroken target.name := by
    cases target <;> decide
  unfold Draft.contextLines at member
  rcases List.mem_cons.mp member with rfl | inTypes
  · refine isUnbroken_append.mpr ⟨isUnbroken_append.mpr ⟨isUnbroken_append.mpr ⟨name, by decide⟩,
      (isPlain.names root .root).1⟩, ?_⟩
    split
    · decide
    · exact isUnbroken_append.mpr ⟨by decide, isPlain.slice⟩
  · obtain ⟨ref, inShown, isLine⟩ := List.mem_flatMap.mp inTypes
    exact isPlain.typeLines (reached ref (List.mem_of_mem_filter inShown)) line isLine

theorem length_typeLines (draft : Draft) (target : Target) (sizeOf : Ref -> Variable) (ref : Ref) :
    (draft.typeLines target sizeOf ref).length = (draft.outline ref).parts.length + 1 := by
  unfold Draft.typeLines
  rw [List.length_cons, List.length_zipWith, length_exactPlaces, List.length_map, Nat.min_self]

/-- There are as many lines for one target as for the other. -/
theorem length_contextLines (draft : Draft) (target other : Target)
    (sizeOf otherSizeOf : Ref -> Variable) (slice : String) (root : Ref) (refs : List Ref) :
    (draft.contextLines target sizeOf slice root refs).length =
      (draft.contextLines other otherSizeOf slice root refs).length := by
  unfold Draft.contextLines
  rw [List.length_cons, List.length_cons, Nat.add_right_cancel_iff]
  induction refs.filter draft.isListed with
  | nil => rfl
  | cons ref rest ih =>
      rw [List.flatMap_cons, List.flatMap_cons, List.length_append, List.length_append, ih,
        length_typeLines, length_typeLines]

/-- The lines of a type are a block that begins with the line of the type. -/
theorem isBlock_typeLines (draft : Draft) (target : Target) (sizeOf : Ref -> Variable) (ref : Ref) :
    IsBlock BeginsType (draft.typeLines target sizeOf ref) := by
  refine ⟨_, _, rfl, draft.beginsType_typeLine target sizeOf ref, fun line member => ?_⟩
  obtain ⟨index, bound, rfl⟩ := List.getElem_of_mem member
  rw [List.getElem_zipWith]
  exact not_beginsType_fieldLine draft sizeOf _ _

end Unbroken

section Listings

variable {draft other : Draft} {sizesFor otherSizesFor : Target -> Ref -> Variable}
  {slice otherSlice : String} {root otherRoot : Ref} {refs otherRefs : List Ref}

/-- A listing tells the lines of each target. -/
theorem contextLines_eq_of_layout (isPlain : draft.IsPlain slice root)
    (reached : forall ref, ref ∈ refs -> draft.Reaches root ref)
    (otherIsPlain : other.IsPlain otherSlice otherRoot)
    (otherReached : forall ref, ref ∈ otherRefs -> other.Reaches otherRoot ref)
    (same : draft.layout sizesFor slice root refs =
      other.layout otherSizesFor otherSlice otherRoot otherRefs) (target : Target) :
    draft.contextLines target (sizesFor target) slice root refs =
      other.contextLines target (otherSizesFor target) otherSlice otherRoot otherRefs := by
  have lines := lines_inj
    (fun line member => by
      obtain ⟨target, _, isLine⟩ := List.mem_flatMap.mp member
      exact isPlain.contextLines reached line isLine)
    (fun line member => by
      obtain ⟨target, _, isLine⟩ := List.mem_flatMap.mp member
      exact otherIsPlain.contextLines otherReached line isLine) same
  have length := draft.length_contextLines .wasm32 .native (sizesFor .wasm32) (sizesFor .native) slice
    root refs
  have otherLength := other.length_contextLines .wasm32 .native (otherSizesFor .wasm32)
    (otherSizesFor .native) otherSlice otherRoot otherRefs
  simp only [Target.all, List.flatMap_cons, List.flatMap_nil, List.append_nil] at lines
  -- The lines of both targets are halves of all lines.
  have total := congrArg List.length lines
  rw [List.length_append, List.length_append] at total
  obtain ⟨first, second⟩ := List.append_inj lines (by omega)
  cases target with
  | wasm32 => exact first
  | native => exact second

/-- A listing tells the lines of each type. -/
theorem typeLines_eq_of_layout (isPlain : draft.IsPlain slice root)
    (reached : forall ref, ref ∈ refs -> draft.Reaches root ref)
    (otherIsPlain : other.IsPlain otherSlice otherRoot)
    (otherReached : forall ref, ref ∈ otherRefs -> other.Reaches otherRoot ref)
    (same : draft.layout sizesFor slice root refs =
      other.layout otherSizesFor otherSlice otherRoot otherRefs) (target : Target) :
    List.Forall₂ (fun ref otherRef => draft.typeLines target (sizesFor target) ref =
        other.typeLines target (otherSizesFor target) otherRef)
      (refs.filter draft.isListed) (otherRefs.filter other.isListed) :=
  blocks_inj (draft.isBlock_typeLines target (sizesFor target))
    (other.isBlock_typeLines target (otherSizesFor target))
    (List.cons.inj (contextLines_eq_of_layout isPlain reached otherIsPlain otherReached same target)).2

end Listings

end Draft

end TextSchema
end PackedJson
