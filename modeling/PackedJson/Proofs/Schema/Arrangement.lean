import PackedJson.Proofs.Schema.Kind
import PackedJson.Schema.Layout

namespace PackedJson

/-!
Types that are laid out.

A type is laid out when the positions of its fields follow from the sizes and
alignments of their variables.  The record of a type that is only pointed to
need not be final for that.  Laying types out changes sizes, positions and the
order in which fields are stored, and nothing else: what a type says stays.
-/

/-- An alignment of variables: a power of two, and at most eight. -/
def IsAlign (align : Nat) : Prop :=
  exists exponent, exponent ≤ 3 ∧ align = 2 ^ exponent

namespace IsAlign

variable {align other : Nat}

theorem one : IsAlign 1 := ⟨0, by decide, rfl⟩

theorem pointerWidth (target : Target) : IsAlign target.pointerWidth := by
  cases target with
  | wasm32 => exact ⟨2, by decide, rfl⟩
  | native => exact ⟨3, by decide, rfl⟩

theorem pos (isAlign : IsAlign align) : 0 < align := by
  obtain ⟨exponent, _, rfl⟩ := isAlign
  exact Nat.two_pow_pos exponent

theorem le_eight (isAlign : IsAlign align) : align ≤ 8 := by
  obtain ⟨exponent, small, rfl⟩ := isAlign
  exact Nat.pow_le_pow_right (by decide) small

theorem maximum (isAlign : IsAlign align) (isOther : IsAlign other) : IsAlign (max align other) := by
  rcases Nat.le_total align other with less | less
  · rw [Nat.max_eq_right less]
    exact isOther
  · rw [Nat.max_eq_left less]
    exact isAlign

theorem dvd_of_le (isAlign : IsAlign align) (isOther : IsAlign other) (less : align ≤ other) :
    align ∣ other := by
  obtain ⟨exponent, _, rfl⟩ := isAlign
  obtain ⟨otherExponent, _, rfl⟩ := isOther
  exact Nat.pow_dvd_pow 2 ((Nat.pow_le_pow_iff_right (by decide)).mp less)

theorem dvd_alignUp (isAlign : IsAlign align) (position : Nat) : align ∣ alignUp position align := by
  obtain ⟨exponent, _, rfl⟩ := isAlign
  exact PackedJson.dvd_alignUp position exponent

theorem le_alignUp (isAlign : IsAlign align) (position : Nat) : position ≤ alignUp position align := by
  obtain ⟨exponent, _, rfl⟩ := isAlign
  exact PackedJson.le_alignUp position exponent

theorem isAlignment (isAlign : IsAlign align) : Arena.isAlignment align = true := by
  obtain ⟨exponent, small, rfl⟩ := isAlign
  have cases_ : exponent = 0 ∨ exponent = 1 ∨ exponent = 2 ∨ exponent = 3 := by omega
  rcases cases_ with rfl | rfl | rfl | rfl <;> rfl

end IsAlign

namespace Layout

/-- Size and alignment of a variable of a type.  Those of a type stored by
reference do not depend on its record. -/
def Variable.ofType (target : Target) (type : TypeDef) : Variable :=
  if type.isStoredByReference then ⟨target.pointerWidth, target.pointerWidth⟩
  else ⟨type.slot.toNat, (max type.align 1).toNat⟩

/-- The greatest alignment among some variables, and at least a given one. -/
def greatestAlign : List Variable -> Nat -> Nat
  | [], least => least
  | slot :: rest, least => greatestAlign rest (max least slot.align)

theorem isAlign_greatestAlign {slots : List Variable} {least : Nat} (isLeast : IsAlign least)
    (areAligns : forall slot, slot ∈ slots -> IsAlign slot.align) :
    IsAlign (greatestAlign slots least) := by
  induction slots generalizing least with
  | nil => exact isLeast
  | cons head rest ih =>
      exact ih (isLeast.maximum (areAligns head List.mem_cons_self))
        fun other member => areAligns other (List.mem_cons_of_mem _ member)

theorem greatestAlign_max (slots : List Variable) (first second : Nat) :
    greatestAlign slots (max first second) = max first (greatestAlign slots second) := by
  induction slots generalizing second with
  | nil => rfl
  | cons slot others ih =>
      unfold greatestAlign
      rw [Nat.max_assoc, ih]

/-! ### Exact room

The room that a type takes, in numbers of any size.  The layout gives up when
it exceeds 32 binary digits. -/

theorem le_alignUp_of_any (position align : Nat) : position ≤ alignUp position align := by
  unfold alignUp
  have masked : (position + (align - 1)) &&& (align - 1) ≤ align - 1 := Nat.and_le_right
  dsimp only
  omega

/-- The end of variables that are placed one after another from a position on. -/
def sequenceEnd : List Variable -> Nat -> Nat
  | [], position => position
  | slot :: rest, position => sequenceEnd rest (alignUp position slot.align + slot.size)

theorem le_sequenceEnd (slots : List Variable) (position : Nat) :
    position ≤ sequenceEnd slots position := by
  induction slots generalizing position with
  | nil => exact Nat.le_refl position
  | cons slot rest ih =>
      have raised := le_alignUp_of_any position slot.align
      have later := ih (alignUp position slot.align + slot.size)
      unfold sequenceEnd
      omega

/-- The greatest size among some variables, and at least a given one. -/
def greatestSize : List Variable -> Nat -> Nat
  | [], least => least
  | slot :: rest, least => greatestSize rest (max least slot.size)

/-- The room of an instance whose fields take some variables. -/
def exactRoom : Shape -> List Variable -> Variable
  | .variant, tag :: alternatives =>
      let place := alignUp tag.size (greatestAlign alternatives 1)
      let align := max tag.align (greatestAlign alternatives 1)
      ⟨alignUp (place + greatestSize alternatives 0) align, align⟩
  | _, slots => ⟨alignUp (sequenceEnd slots 0) (greatestAlign slots 1), greatestAlign slots 1⟩

theorem exactRoom_of_ne {shape : Shape} (notVariant : shape ≠ .variant) (slots : List Variable) :
    exactRoom shape slots =
      ⟨alignUp (sequenceEnd slots 0) (greatestAlign slots 1), greatestAlign slots 1⟩ := by
  cases shape with
  | variant => exact absurd rfl notVariant
  | _ => rfl

/-- The strictest alignment is that of the room. -/
theorem align_exactRoom (shape : Shape) (slots : List Variable) :
    (exactRoom shape slots).align = greatestAlign slots 1 := by
  cases shape with
  | variant =>
      cases slots with
      | nil => rfl
      | cons tag alternatives =>
          change max tag.align (greatestAlign alternatives 1) =
            greatestAlign alternatives (max 1 tag.align)
          rw [Nat.max_comm 1, greatestAlign_max]
  | _ => rfl

/-- The positions of variables that are placed one after another from a position on. -/
def sequencePlaces : List Variable -> Nat -> List Nat
  | [], _ => []
  | slot :: rest, position =>
      alignUp position slot.align :: sequencePlaces rest (alignUp position slot.align + slot.size)

/-- The positions of the fields of an instance whose fields take some variables. -/
def exactPlaces : Shape -> List Variable -> List Nat
  | .variant, tag :: alternatives =>
      0 :: alternatives.map fun _ => alignUp tag.size (greatestAlign alternatives 1)
  | _, slots => sequencePlaces slots 0

theorem exactPlaces_of_ne {shape : Shape} (notVariant : shape ≠ .variant) (slots : List Variable) :
    exactPlaces shape slots = sequencePlaces slots 0 := by
  cases shape with
  | variant => exact absurd rfl notVariant
  | _ => rfl

theorem length_sequencePlaces (slots : List Variable) (position : Nat) :
    (sequencePlaces slots position).length = slots.length := by
  induction slots generalizing position with
  | nil => rfl
  | cons slot rest ih => exact congrArg (· + 1) (ih _)

/-- There is a place for each variable. -/
theorem length_exactPlaces (shape : Shape) (slots : List Variable) :
    (exactPlaces shape slots).length = slots.length := by
  cases shape with
  | variant =>
      cases slots with
      | nil => rfl
      | cons tag alternatives =>
          change (_ :: alternatives.map _).length = _
          rw [List.length_cons, List.length_map, List.length_cons]
  | _ => exact length_sequencePlaces slots 0

/-- The fields of a struct are stored by their hashes, all others in the order of declaration. -/
def storageOrder : Shape -> List FieldDef -> List FieldDef
  | .struct, fields => Sorted.sortBy (fun field => field.hash.toNat) fields
  | _, fields => fields

theorem storageOrder_of_ne {shape : Shape} (notStruct : shape ≠ .struct) (fields : List FieldDef) :
    storageOrder shape fields = fields := by
  cases shape with
  | struct => exact absurd rfl notStruct
  | _ => rfl

theorem storageOrder_perm (shape : Shape) (fields : List FieldDef) :
    (storageOrder shape fields).Perm fields := by
  cases shape with
  | struct => exact Sorted.sortBy_perm _ fields
  | _ => exact .refl fields

/-- A field together with the variable that it takes. -/
abbrev Entry := FieldDef × Variable

/-- Fields follow one another from one position to another, each at a multiple
of its alignment. -/
def InSequence : List Entry -> Nat -> Nat -> Prop
  | [], position, stop => position ≤ stop
  | (field, slot) :: rest, position, stop =>
      position ≤ field.offset.toNat ∧ slot.align ∣ field.offset.toNat ∧
        InSequence rest (field.offset.toNat + slot.size) stop

/-- A tag at the start, and alternatives that share a place behind it. -/
def Overlaid : List Entry -> Nat -> Prop
  | [], _ => False
  | (tag, tagVariable) :: alternatives, stop =>
      tag.offset.toNat = 0 ∧ tagVariable.size ≤ stop ∧
        exists place, tagVariable.size ≤ place ∧ forall entry, entry ∈ alternatives ->
          entry.1.offset.toNat = place ∧ entry.2.align ∣ place ∧ place + entry.2.size ≤ stop

/-- The positions of the fields of a type of some shape. -/
def Placed (shape : Shape) (entries : List Entry) (stop : Nat) : Prop :=
  match shape with
  | .variant => Overlaid entries stop
  | _ => InSequence entries 0 stop

/-- How much room variables of a type take, given the alignment of its instances. -/
def HasSizes (target : Target) (type : TypeDef) (align : Nat) : Prop :=
  if type.isStoredByReference then
    type.slot.toNat = target.pointerWidth ∧ type.align.toNat = target.pointerWidth
  else type.slot.toNat = type.size.toNat ∧ type.align.toNat = align

end Layout

namespace Heap

open Layout

/-- A field takes a variable of its type.  The type is settled unless its
variables are pointers. -/
def HasVariable (heap : Heap) (target : Target) (settled : TypeId -> Prop) (field : FieldDef)
    (slot : Variable) : Prop :=
  exists inner type, field.type = some inner ∧ HasType heap inner type ∧
    slot = Variable.ofType target type ∧ IsAlign slot.align ∧
    (type.isStoredByReference = true ∨ settled inner)

/-- The records of a type and of its fields are those of a type that is laid
out, given the variables of the fields in the order of declaration. -/
structure IsArranged (heap : Heap) (target : Target) (settled : TypeId -> Prop) (type : TypeDef)
    (fields : List FieldDef) (slots : List Variable) (align : Nat) : Prop where
  takes : List.Forall₂ (HasVariable heap target settled) (Sorted.sortBy FieldDef.orderKey fields)
    slots
  placed : Placed type.shape ((Sorted.sortBy FieldDef.orderKey fields).zip slots)
    type.size.toNat
  sizes : HasSizes target type align
  isAlign : IsAlign align
  multiple : align ∣ type.size.toNat
  strictest : fields = [] ∧ type.isBuiltin = true ∨ align = greatestAlign slots 1
  /-- The room and the positions follow from the variables. -/
  exactly : fields = [] ∧ type.isBuiltin = true ∨
    type.size.toNat = (exactRoom type.shape slots).size ∧
    (Sorted.sortBy FieldDef.orderKey fields).map (fun field => field.offset.toNat) =
      exactPlaces type.shape slots
  /-- A struct is marked when two of its names have the same hash. -/
  mark : type.shape = .struct -> (type.flags.contains TypeFlags.hasHashCollisions = true ↔
    ¬ (fields.map FieldDef.hash).Nodup)
  filed : fields = storageOrder type.shape (Sorted.sortBy FieldDef.orderKey fields)

/-- A stored type is laid out. -/
def LaidOut (heap : Heap) (target : Target) (settled : TypeId -> Prop) (id : TypeId) : Prop :=
  exists type fields slots align, HasType heap id type ∧ HasFields heap id type fields ∧
    IsArranged heap target settled type fields slots align

end Heap

/-! ### What laying out changes -/

/-- The mark of equal hashes is set or unset. -/
def TypeFlags.Collides (flags later : TypeFlags) : Prop :=
  exists present, later = flags.set TypeFlags.hasHashCollisions present

theorem TypeFlags.Collides.trans {flags later last : TypeFlags} (first : flags.Collides later)
    (second : later.Collides last) : flags.Collides last := by
  obtain ⟨present, rfl⟩ := first
  obtain ⟨lastPresent, rfl⟩ := second
  refine ⟨lastPresent, ?_⟩
  obtain ⟨bits⟩ := flags
  change BitVec 5 at bits
  revert bits present lastPresent
  decide

/-- The record of a type that is neither generic nor a scalar, with other
sizes. -/
structure TypeDef.Resizes (type later : TypeDef) : Prop where
  name : later.name = type.name
  fields : later.fields = type.fields
  fieldCount : later.fieldCount = type.fieldCount
  prototype : later.prototype = type.prototype
  argument : later.argument = type.argument
  shape : later.shape = type.shape
  builtin : later.isBuiltin = type.isBuiltin
  generic : later.isGeneric = type.isGeneric
  byReference : later.isStoredByReference = type.isStoredByReference
  flags : later.flags = type.flags ∨ type.shape = .struct ∧ type.flags.Collides later.flags
  plain : type.isGeneric = false
  composite : type.isBuiltin = true -> type.fieldCount ≠ 0

theorem TypeDef.Resizes.trans {type later last : TypeDef} (first : type.Resizes later)
    (second : later.Resizes last) : type.Resizes last := by
  refine ⟨second.name.trans first.name, second.fields.trans first.fields,
    second.fieldCount.trans first.fieldCount, second.prototype.trans first.prototype,
    second.argument.trans first.argument, second.shape.trans first.shape,
    second.builtin.trans first.builtin, second.generic.trans first.generic,
    second.byReference.trans first.byReference, ?_, first.plain, first.composite⟩
  rcases second.flags with same | ⟨isStruct, collides⟩
  · rw [same]
    exact first.flags
  · refine Or.inr ⟨first.shape ▸ isStruct, ?_⟩
    rcases first.flags with same | ⟨_, earlier⟩
    · rw [← same]
      exact collides
    · exact earlier.trans collides

theorem TypeDef.Resizes.isDeclared {type later : TypeDef} (resizes : type.Resizes later)
    (declared : type.IsDeclared) : later.IsDeclared :=
  ⟨resizes.builtin.trans declared.builtin, resizes.generic.trans declared.generic,
    resizes.argument.trans declared.argument⟩

/-- A field at another position. -/
def FieldDef.Moves (field later : FieldDef) : Prop :=
  exists offset, later = { field with offset := offset }

theorem FieldDef.Moves.trans {field later last : FieldDef} (first : field.Moves later)
    (second : later.Moves last) : field.Moves last := by
  obtain ⟨offset, rfl⟩ := first
  obtain ⟨lastOffset, rfl⟩ := second
  exact ⟨lastOffset, rfl⟩

/-- The same fields at other positions, and perhaps stored in another order. -/
def FieldsMove (fields later : List FieldDef) : Prop :=
  List.Forall₂ FieldDef.Moves (Sorted.sortBy FieldDef.orderKey fields)
    (Sorted.sortBy FieldDef.orderKey later)

theorem FieldsMove.mem {fields moved : List FieldDef} (moves : FieldsMove fields moved)
    {field : FieldDef} (member : field ∈ moved) :
    exists earlier, earlier ∈ fields ∧ earlier.Moves field := by
  have inOrder := (Sorted.sortBy_perm FieldDef.orderKey moved).mem_iff.mpr member
  obtain ⟨index, bound, rfl⟩ := List.getElem_of_mem inOrder
  have parts := List.forall₂_iff_get.mp moves
  have earlierBound : index < (Sorted.sortBy FieldDef.orderKey fields).length := by omega
  exact ⟨_, (Sorted.sortBy_perm FieldDef.orderKey fields).mem_iff.mp
    (List.getElem_mem earlierBound), parts.2 index earlierBound bound⟩

theorem FieldsMove.length {fields moved : List FieldDef} (moves : FieldsMove fields moved) :
    moved.length = fields.length := by
  have same := moves.length_eq
  rw [Sorted.length_sortBy, Sorted.length_sortBy] at same
  exact same.symm

theorem forall₂_trans {Item : Type} {relation : Item -> Item -> Prop}
    (trans : forall {first second third : Item}, relation first second -> relation second third ->
      relation first third) {first second third : List Item}
    (before : List.Forall₂ relation first second) (after : List.Forall₂ relation second third) :
    List.Forall₂ relation first third := by
  induction before generalizing third with
  | nil => exact after
  | cons related _ ih =>
      cases after with
      | cons otherRelated others => exact .cons (trans related otherRelated) (ih others)

namespace Heap

/-- A cell after types were laid out. -/
inductive Rearranges : Cell -> Cell -> Prop where
  | same (cell : Cell) : Rearranges cell cell
  | type {type later : TypeDef} : type.Resizes later -> Rearranges (.type type) (.type later)
  | fields (owner : TypeId) {fields later : List FieldDef} : FieldsMove fields later ->
      Rearranges (.fields owner fields) (.fields owner later)

/-- A heap after some types were laid out. -/
def Relaid (heap later : Heap) : Prop :=
  forall position cell, heap position = some cell ->
    exists laterCell, later position = some laterCell ∧ Rearranges cell laterCell

theorem Rearranges.trans {first second third : Cell} (before : Rearranges first second)
    (after : Rearranges second third) : Rearranges first third := by
  cases before with
  | same => exact after
  | type resizes =>
      cases after with
      | same => exact .type resizes
      | type more => exact .type (resizes.trans more)
  | fields owner moves =>
      cases after with
      | same => exact .fields owner moves
      | fields _ more => exact .fields owner (forall₂_trans .trans moves more)

namespace Relaid

variable {heap later : Heap}

theorem refl (heap : Heap) : Relaid heap heap :=
  fun _ cell stored => ⟨cell, stored, .same cell⟩

theorem trans {last : Heap} (first : Relaid heap later) (second : Relaid later last) :
    Relaid heap last := by
  intro position cell stored
  obtain ⟨laterCell, laterStored, rearranges⟩ := first position cell stored
  obtain ⟨lastCell, lastStored, more⟩ := second position laterCell laterStored
  exact ⟨lastCell, lastStored, rearranges.trans more⟩

theorem hasType (relaid : Relaid heap later) {id : TypeId} {type : TypeDef}
    (stored : HasType heap id type) :
    exists laterType, HasType later id laterType ∧ (laterType = type ∨ type.Resizes laterType) := by
  obtain ⟨laterCell, laterStored, rearranges⟩ := relaid _ _ stored
  cases rearranges with
  | same => exact ⟨type, laterStored, Or.inl rfl⟩
  | type resizes => exact ⟨_, laterStored, Or.inr resizes⟩

theorem hasText (relaid : Relaid heap later) {reference : TextRef} {text : String}
    (stored : HasText heap reference text) : HasText later reference text := by
  refine ⟨stored.1, fun nonempty => ?_⟩
  obtain ⟨laterCell, laterStored, rearranges⟩ := relaid _ _ (stored.2 nonempty)
  cases rearranges with
  | same => exact laterStored

theorem fieldIs (relaid : Relaid heap later) {member : Member} {order : Nat}
    {field laterField : FieldDef} (is : field.Is heap member order) (moves : field.Moves laterField) :
    laterField.Is later member order := by
  obtain ⟨offset, rfl⟩ := moves
  exact ⟨relaid.hasText is.name, is.type, is.hash, is.order, is.flags, is.activation, is.choice,
    relaid.hasText is.companion⟩

theorem fieldsAre (relaid : Relaid heap later) {members : List Member} {order : Nat}
    {fields laterFields : List FieldDef} (are : FieldsAre heap order members fields)
    (moves : List.Forall₂ FieldDef.Moves fields laterFields) :
    FieldsAre later order members laterFields := by
  induction moves generalizing order members with
  | nil =>
      cases members with
      | nil => exact .nil
      | cons => cases are
  | cons move _ ih =>
      cases members with
      | nil => cases are
      | cons member rest =>
          cases are with
          | cons is others => exact .cons (relaid.fieldIs is move) (ih others)

theorem moves_refl (fields : List FieldDef) : List.Forall₂ FieldDef.Moves fields fields :=
  List.forall₂_same.mpr fun field _ => ⟨field.offset, rfl⟩

theorem hasFields (relaid : Relaid heap later) {id : TypeId} {type : TypeDef}
    {fields : List FieldDef} (stored : HasFields heap id type fields) :
    exists laterFields, HasFields later id type laterFields ∧ FieldsMove fields laterFields := by
  by_cases isEmpty : fields = []
  · subst isEmpty
    exact ⟨[], ⟨stored.1, fun nonempty => absurd rfl nonempty⟩, .nil⟩
  · obtain ⟨laterCell, laterStored, rearranges⟩ := relaid _ _ (stored.2 isEmpty)
    cases rearranges with
    | same => exact ⟨fields, ⟨stored.1, fun _ => laterStored⟩, moves_refl _⟩
    | @fields _ _ laterFields moves =>
        have sameLength := moves.length_eq
        rw [Sorted.length_sortBy, Sorted.length_sortBy] at sameLength
        exact ⟨laterFields, ⟨stored.1.trans sameLength, fun _ => laterStored⟩, moves⟩

/-- What a type says does not change. -/
theorem declares (relaid : Relaid heap later) {id : TypeId} {declaration : Declaration}
    (declares : Declares heap id declaration) : Declares later id declaration := by
  obtain ⟨type, fields, stored, hasFields, is⟩ := declares
  obtain ⟨laterFields, laterHasFields, moves⟩ := relaid.hasFields hasFields
  have members := relaid.fieldsAre is.members moves
  obtain ⟨laterType, laterStored, same | resizes⟩ := relaid.hasType stored
  · subst same
    exact ⟨laterType, laterFields, laterStored, laterHasFields, is.shape, is.prototype,
      is.argument, is.builtin, is.generic, is.byReference, members⟩
  · have laterHas : HasFields later id laterType laterFields := by
      refine ⟨(congrArg UInt32.toNat resizes.fieldCount).trans laterHasFields.1, ?_⟩
      rw [resizes.fields]
      exact laterHasFields.2
    exact ⟨laterType, laterFields, laterStored, laterHas, resizes.shape.trans is.shape,
      resizes.prototype.trans is.prototype, resizes.argument.trans is.argument,
      resizes.builtin.trans is.builtin, resizes.generic.trans is.generic,
      fun byReference => resizes.isDeclared (is.byReference (resizes.byReference ▸ byReference)),
      members⟩

/-- Scalars are not touched. -/
theorem hasType_of_scalar (relaid : Relaid heap later) {id : TypeId} {type : TypeDef}
    (stored : HasType heap id type) (isBuiltin : type.isBuiltin = true)
    (isScalar : type.fieldCount = 0) : HasType later id type := by
  obtain ⟨laterType, laterStored, same | resizes⟩ := relaid.hasType stored
  · exact same ▸ laterStored
  · exact absurd isScalar (resizes.composite isBuiltin)

/-- Generic types are not touched. -/
theorem hasType_of_generic (relaid : Relaid heap later) {id : TypeId} {type : TypeDef}
    (stored : HasType heap id type) (isGeneric : type.isGeneric = true) : HasType later id type := by
  obtain ⟨laterType, laterStored, same | resizes⟩ := relaid.hasType stored
  · exact same ▸ laterStored
  · cases isGeneric.symm.trans resizes.plain

end Relaid
end Heap

namespace Builder

open Heap

variable {heap later : Heap} {target : Target} {context : Context} {id : TypeId}

theorem IsScalar.relaid {name : String} {size : Nat} (scalar : IsScalar heap id name size)
    (relaid : Relaid heap later) : IsScalar later id name size := by
  obtain ⟨stored, hasType, hasText⟩ := scalar
  exact ⟨stored, relaid.hasType_of_scalar hasType (TypeDef.isBuiltin_scalar _ _) rfl,
    relaid.hasText hasText⟩

/-- Types keep their kinds when types are laid out. -/
theorem IsKind.relaid {kind : Kind} (is : IsKind heap target context id kind)
    (relaid : Relaid heap later) : IsKind later target context id kind := by
  obtain ⟨declares, details⟩ := is
  refine ⟨relaid.declares declares, ?_⟩
  cases kind with
  | scalar builtin =>
      obtain ⟨same, size, member, scalar⟩ := details
      exact ⟨same, size, member, scalar.relaid relaid⟩
  | map value keys values strings =>
      exact ⟨relaid.declares details.1, relaid.declares details.2.1, relaid.declares details.2.2⟩
  | _ => exact details

/-- The table stays in order when types are laid out. -/
theorem Known.relaid {instances : Instances} (known : Known heap instances)
    (relaid : Relaid heap later) : Known later instances := by
  intro generic argument id found
  obtain ⟨⟨type, stored, isGeneric, nonzero⟩, ⟨cell, idStored⟩⟩ := known generic argument id found
  obtain ⟨laterCell, laterStored, _⟩ := relaid _ _ idStored
  exact ⟨⟨type, relaid.hasType_of_generic stored isGeneric, isGeneric, nonzero⟩,
    ⟨laterCell, laterStored⟩⟩

end Builder
end PackedJson
