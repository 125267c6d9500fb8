import Mathlib.Data.List.Forall2
import Mathlib.Data.List.Nodup
import PackedJson.Proofs.Schema.Building

namespace PackedJson

/-!
What a type says, apart from sizes and positions.

A declaration lists the members of a type in the order in which they were
declared.  The records of a type keep to it while types are added, while a
declared type is marked as stored by reference, and when the type is laid
out.
-/

/-- What a field says, apart from its position. -/
structure Member where
  name : String
  type : Option TypeId
  flags : FieldFlags := FlagSet.empty
  activation : UInt8 := 0
  choice : UInt8 := 0
  /-- The name in generated declarations. -/
  companion : String := name

/-- What a type says, apart from its size and its name. -/
structure Declaration where
  shape : Shape
  prototype : Option TypeId
  argument : Option TypeId
  builtin : Bool
  generic : Bool
  members : List Member

namespace FieldDef

/-- The place in the order of declaration, by which fields are sorted. -/
def orderKey (field : FieldDef) : Nat := field.order.toNat

/-- A field record says what a member does, in a given place of the order. -/
structure Is (heap : Heap) (member : Member) (order : Nat) (field : FieldDef) : Prop where
  name : heap.HasText field.jsonName member.name
  type : field.type = member.type
  hash : field.hash = Checksum.nameHash member.name
  order : field.order = UInt32.ofNat order
  flags : field.flags = member.flags
  activation : field.activation = member.activation
  choice : field.choice = member.choice
  companion : heap.HasText field.companionName member.companion

end FieldDef

/-- Field records say what some members do, which are declared one after
another from a place of the order on. -/
def FieldsAre (heap : Heap) (order : Nat) (members : List Member) (fields : List FieldDef) : Prop :=
  List.Forall₂ (fun entry field => field.Is heap entry.1 entry.2) (members.zipIdx order) fields

namespace TypeFlags

/-- Marks that a text schema may set leave the other properties as they are. -/
theorem contains_insert_mark (flags : TypeFlags) :
    (flags.insert storedByReference).contains builtin = flags.contains builtin ∧
    (flags.insert storedByReference).contains generic = flags.contains generic ∧
    (flags.insert nonExhaustive).contains builtin = flags.contains builtin ∧
    (flags.insert nonExhaustive).contains generic = flags.contains generic := by
  obtain ⟨bits⟩ := flags
  change BitVec 5 at bits
  revert bits
  decide

/-- What is stored by reference stays so when marks are added. -/
theorem contains_byReference (flags : TypeFlags) :
    (flags.insert storedByReference).contains storedByReference = true ∧
    (flags.contains storedByReference = true ->
      (flags.insert nonExhaustive).contains storedByReference = true) := by
  obtain ⟨bits⟩ := flags
  change BitVec 5 at bits
  revert bits
  decide

end TypeFlags

namespace TypeDef

/-- A type that a text schema declares.  Only these are ever marked. -/
structure IsDeclared (type : TypeDef) : Prop where
  builtin : type.isBuiltin = false
  generic : type.isGeneric = false
  argument : type.argument = none

/-- A declared type with other marks. -/
structure Remarks (type later : TypeDef) : Prop where
  declared : type.IsDeclared
  still : later.IsDeclared
  same : exists flags, later = { type with flags := flags }

theorem IsDeclared.remarks {type : TypeDef} (declared : type.IsDeclared) : type.Remarks type :=
  ⟨declared, declared, type.flags, rfl⟩

theorem Remarks.trans {type later last : TypeDef} (first : type.Remarks later)
    (second : later.Remarks last) : type.Remarks last := by
  obtain ⟨flags, same⟩ := first.same
  obtain ⟨lastFlags, lastSame⟩ := second.same
  subst same
  exact ⟨first.declared, second.still, lastFlags, lastSame⟩

theorem IsDeclared.markedByReference {type : TypeDef} (declared : type.IsDeclared) :
    type.Remarks { type with flags := type.flags.insert TypeFlags.storedByReference } := by
  have marks := TypeFlags.contains_insert_mark type.flags
  exact ⟨declared, ⟨marks.1.trans declared.builtin, marks.2.1.trans declared.generic,
    declared.argument⟩, _, rfl⟩

theorem IsDeclared.markedNonExhaustive {type : TypeDef} (declared : type.IsDeclared) :
    type.Remarks { type with flags := type.flags.insert TypeFlags.nonExhaustive } := by
  have marks := TypeFlags.contains_insert_mark type.flags
  exact ⟨declared, ⟨marks.2.2.1.trans declared.builtin, marks.2.2.2.trans declared.generic,
    declared.argument⟩, _, rfl⟩

/-- The records of a type and of its fields say what a declaration does. -/
structure Is (heap : Heap) (declaration : Declaration) (type : TypeDef) (fields : List FieldDef) :
    Prop where
  shape : type.shape = declaration.shape
  prototype : type.prototype = declaration.prototype
  argument : type.argument = declaration.argument
  builtin : type.isBuiltin = declaration.builtin
  generic : type.isGeneric = declaration.generic
  /-- Only declared types are stored by reference. -/
  byReference : type.isStoredByReference = true -> type.IsDeclared
  members : FieldsAre heap 0 declaration.members (Sorted.sortBy FieldDef.orderKey fields)

end TypeDef

namespace Heap

/-- The type of an identifier says what a declaration does. -/
def Declares (heap : Heap) (id : TypeId) (declaration : Declaration) : Prop :=
  exists type fields, HasType heap id type ∧ HasFields heap id type fields ∧
    type.Is heap declaration fields

/-- Later contents of a cell: a declared type may be marked. -/
inductive Becomes : Cell -> Cell -> Prop where
  | same (cell : Cell) : Becomes cell cell
  | marked {type later : TypeDef} : type.Remarks later -> Becomes (.type type) (.type later)

/-- One heap comes later than another one: cells were added, and declared
types were marked. -/
def Grows (heap later : Heap) : Prop :=
  forall position cell, heap position = some cell ->
    exists laterCell, later position = some laterCell ∧ Becomes cell laterCell

theorem Becomes.trans {first second third : Cell} (before : Becomes first second)
    (after : Becomes second third) : Becomes first third := by
  cases before with
  | same => exact after
  | marked marks =>
      cases after with
      | same => exact .marked marks
      | marked later => exact .marked (marks.trans later)

namespace Grows

variable {heap later : Heap}

theorem refl (heap : Heap) : Grows heap heap :=
  fun _ cell stored => ⟨cell, stored, .same cell⟩

theorem trans {last : Heap} (first : Grows heap later) (second : Grows later last) :
    Grows heap last := by
  intro position cell stored
  obtain ⟨laterCell, laterStored, becomes⟩ := first position cell stored
  obtain ⟨lastCell, lastStored, lastBecomes⟩ := second position laterCell laterStored
  exact ⟨lastCell, lastStored, becomes.trans lastBecomes⟩

/-- A declared type is marked. -/
theorem mark (grows : Grows heap later) {id : TypeId} {type marked : TypeDef}
    (stored : HasType later id type) (marks : type.Remarks marked) :
    Grows heap (later.set id.offset.toNat (.type marked)) := by
  intro position cell present
  obtain ⟨laterCell, laterStored, becomes⟩ := grows position cell present
  by_cases same : position = id.offset.toNat
  · subst same
    cases stored.symm.trans laterStored
    exact ⟨_, set_same _ _ _, becomes.trans (.marked marks)⟩
  · exact ⟨laterCell, (set_other _ _ same).trans laterStored, becomes⟩

theorem free (grows : Grows heap later) {position : Nat} (free : later position = none) :
    heap position = none := by
  cases stored : heap position with
  | none => rfl
  | some cell =>
      obtain ⟨laterCell, laterStored, _⟩ := grows position cell stored
      rw [free] at laterStored
      cases laterStored

theorem hasType (grows : Grows heap later) {id : TypeId} {type : TypeDef}
    (stored : HasType heap id type) :
    exists laterType, HasType later id laterType ∧
      (laterType = type ∨ type.Remarks laterType) := by
  obtain ⟨laterCell, laterStored, becomes⟩ := grows _ _ stored
  cases becomes with
  | same => exact ⟨type, laterStored, Or.inl rfl⟩
  | marked marks => exact ⟨_, laterStored, Or.inr marks⟩

/-- Types that are not declared stay as they are. -/
theorem hasType_of_not (grows : Grows heap later) {id : TypeId} {type : TypeDef}
    (stored : HasType heap id type) (other : ¬ type.IsDeclared) : HasType later id type := by
  obtain ⟨laterType, laterStored, same | marks⟩ := grows.hasType stored
  · exact same ▸ laterStored
  · exact absurd marks.declared other

theorem hasFields (grows : Grows heap later) {id : TypeId} {type : TypeDef}
    {fields : List FieldDef} (stored : HasFields heap id type fields) :
    HasFields later id type fields := by
  refine ⟨stored.1, fun nonempty => ?_⟩
  obtain ⟨laterCell, laterStored, becomes⟩ := grows _ _ (stored.2 nonempty)
  cases becomes with
  | same => exact laterStored

theorem hasText (grows : Grows heap later) {reference : TextRef} {text : String}
    (stored : HasText heap reference text) : HasText later reference text := by
  refine ⟨stored.1, fun nonempty => ?_⟩
  obtain ⟨laterCell, laterStored, becomes⟩ := grows _ _ (stored.2 nonempty)
  cases becomes with
  | same => exact laterStored

theorem fieldIs (grows : Grows heap later) {member : Member} {order : Nat} {field : FieldDef}
    (is : field.Is heap member order) : field.Is later member order :=
  ⟨grows.hasText is.name, is.type, is.hash, is.order, is.flags, is.activation, is.choice,
    grows.hasText is.companion⟩

theorem fieldsAre (grows : Grows heap later) {order : Nat} {members : List Member}
    {fields : List FieldDef} (are : FieldsAre heap order members fields) :
    FieldsAre later order members fields :=
  are.imp fun _ _ is => grows.fieldIs is

theorem declares (grows : Grows heap later) {id : TypeId} {declaration : Declaration}
    (declares : Declares heap id declaration) : Declares later id declaration := by
  obtain ⟨type, fields, hasType, hasFields, is⟩ := declares
  have members := grows.fieldsAre is.members
  obtain ⟨laterType, laterStored, same | ⟨declared, still, flags, same⟩⟩ := grows.hasType hasType
  · subst same
    exact ⟨_, fields, laterStored, grows.hasFields hasFields, is.shape, is.prototype, is.argument,
      is.builtin, is.generic, is.byReference, members⟩
  · subst same
    exact ⟨_, fields, laterStored, grows.hasFields hasFields, is.shape, is.prototype, is.argument,
      still.builtin.trans (declared.builtin.symm.trans is.builtin),
      still.generic.trans (declared.generic.symm.trans is.generic), fun _ => still, members⟩

end Grows

theorem Extends.grows {heap larger : Heap} (extends_ : Extends heap larger) : Grows heap larger :=
  fun position cell stored => ⟨cell, extends_ position cell stored, .same cell⟩

/-! ### All cells but one -/

section Without

variable {heap : Heap} {id : TypeId} {type : TypeDef}

theorem hasType_without {other : TypeId} {otherType : TypeDef} (stored : HasType heap other otherType)
    (different : other ≠ id) : HasType (heap.without id.offset.toNat) other otherType := by
  have elsewhere : other.offset.toNat ≠ id.offset.toNat := by
    intro same
    obtain ⟨offset⟩ := other
    obtain ⟨idOffset⟩ := id
    exact different (congrArg TypeId.mk (Offset.toNat_inj.mp same))
  exact (without_other heap elsewhere).trans stored

theorem hasFields_without (hasType : HasType heap id type) {otherId : TypeId} {other : TypeDef}
    {fields : List FieldDef} (stored : HasFields heap otherId other fields) :
    HasFields (heap.without id.offset.toNat) otherId other fields := by
  refine ⟨stored.1, fun nonempty => ?_⟩
  have present := stored.2 nonempty
  have elsewhere : other.fields.toNat ≠ id.offset.toNat := by
    intro same
    rw [same] at present
    cases hasType.symm.trans present
  exact (without_other heap elsewhere).trans present

theorem hasText_without (hasType : HasType heap id type) {reference : TextRef} {text : String}
    (stored : HasText heap reference text) :
    HasText (heap.without id.offset.toNat) reference text := by
  refine ⟨stored.1, fun nonempty => ?_⟩
  have present := stored.2 nonempty
  have elsewhere : reference.offset.toNat ≠ id.offset.toNat := by
    intro same
    rw [same] at present
    cases hasType.symm.trans present
  exact (without_other heap elsewhere).trans present

theorem fieldsAre_without (hasType : HasType heap id type) {order : Nat} {members : List Member}
    {fields : List FieldDef} (are : FieldsAre heap order members fields) :
    FieldsAre (heap.without id.offset.toNat) order members fields :=
  are.imp fun _ _ is => ⟨hasText_without hasType is.name, is.type, is.hash, is.order, is.flags,
    is.activation, is.choice, hasText_without hasType is.companion⟩

/-- What other types say does not depend on one type. -/
theorem declares_without (hasType : HasType heap id type) {other : TypeId}
    {declaration : Declaration} (declares : Declares heap other declaration)
    (different : other ≠ id) : Declares (heap.without id.offset.toNat) other declaration := by
  obtain ⟨otherType, fields, stored, hasFields, is⟩ := declares
  exact ⟨otherType, fields, hasType_without stored different, hasFields_without hasType hasFields,
    is.shape, is.prototype, is.argument, is.builtin, is.generic, is.byReference,
    fieldsAre_without hasType is.members⟩

end Without

theorem without_extends_set (heap : Heap) (position : Nat) (cell : Cell) :
    (heap.without position).Extends (heap.set position cell) := by
  intro other otherCell stored
  obtain ⟨different, present⟩ := of_without stored
  exact (set_other heap cell different).trans present

/-- Cells that were there before a type was made are not affected by it. -/
theorem Grows.altered {heap middle later : Heap} {position : Nat} (grows : Grows heap middle)
    (free : heap position = none) (kept : (middle.without position).Extends later) :
    Grows heap later := by
  intro other cell stored
  obtain ⟨middleCell, middleStored, becomes⟩ := grows other cell stored
  refine ⟨middleCell, kept _ _ ((without_other middle ?_).trans middleStored), becomes⟩
  intro same
  subst same
  cases free.symm.trans stored

/-! ### A type has one declaration -/

theorem hasText_inj {heap : Heap} {reference : TextRef} {first second : String}
    (firstText : HasText heap reference first) (secondText : HasText heap reference second) :
    first = second := by
  have sameSize := firstText.1.symm.trans secondText.1
  by_cases isEmpty : first = ""
  · subst isEmpty
    exact (String.utf8ByteSize_eq_zero_iff.mp sameSize.symm).symm
  · have nonempty : second ≠ "" := by
      intro secondEmpty
      subst secondEmpty
      exact isEmpty (String.utf8ByteSize_eq_zero_iff.mp sameSize)
    cases (firstText.2 isEmpty).symm.trans (secondText.2 nonempty)
    rfl

theorem fieldIs_inj {heap : Heap} {field : FieldDef} {order otherOrder : Nat}
    {first second : Member} (firstIs : field.Is heap first order)
    (secondIs : field.Is heap second otherOrder) : first = second := by
  obtain ⟨firstName, firstType, firstFlags, firstActivation, firstChoice, firstCompanion⟩ := first
  obtain ⟨secondName, secondType, secondFlags, secondActivation, secondChoice, secondCompanion⟩ :=
    second
  have name := hasText_inj firstIs.name secondIs.name
  have type := firstIs.type.symm.trans secondIs.type
  have flags := firstIs.flags.symm.trans secondIs.flags
  have activation := firstIs.activation.symm.trans secondIs.activation
  have choice := firstIs.choice.symm.trans secondIs.choice
  have companion := hasText_inj firstIs.companion secondIs.companion
  simp only at name type flags activation choice companion
  subst name type flags activation choice companion
  rfl

theorem fieldsAre_inj {heap : Heap} {fields : List FieldDef} {order : Nat}
    {first second : List Member} (firstAre : FieldsAre heap order first fields)
    (secondAre : FieldsAre heap order second fields) : first = second := by
  induction fields generalizing order first second with
  | nil =>
      cases first with
      | cons => cases firstAre
      | nil =>
          cases second with
          | cons => cases secondAre
          | nil => rfl
  | cons field rest ih =>
      cases first with
      | nil => cases firstAre
      | cons firstMember firstRest =>
          cases second with
          | nil => cases secondAre
          | cons secondMember secondRest =>
              cases firstAre with
              | cons firstIs firstOthers =>
                  cases secondAre with
                  | cons secondIs secondOthers =>
                      rw [ih firstOthers secondOthers]
                      exact congrArg (· :: secondRest) (fieldIs_inj firstIs secondIs)

theorem hasFields_inj {heap : Heap} {id : TypeId} {type : TypeDef} {first second : List FieldDef}
    (firstFields : HasFields heap id type first) (secondFields : HasFields heap id type second) :
    first = second := by
  have sameLength := firstFields.1.symm.trans secondFields.1
  by_cases isEmpty : first = []
  · subst isEmpty
    exact (List.length_eq_zero_iff.mp sameLength.symm).symm
  · have nonempty : second ≠ [] := by
      intro secondEmpty
      subst secondEmpty
      exact isEmpty (List.length_eq_zero_iff.mp sameLength)
    cases (firstFields.2 isEmpty).symm.trans (secondFields.2 nonempty)
    rfl

theorem declares_inj {heap : Heap} {id : TypeId} {first second : Declaration}
    (firstDeclares : Declares heap id first) (secondDeclares : Declares heap id second) :
    first = second := by
  obtain ⟨type, fields, stored, hasFields, firstIs⟩ := firstDeclares
  obtain ⟨otherType, otherFields, otherStored, otherHasFields, secondIs⟩ := secondDeclares
  cases hasType_inj stored otherStored
  cases hasFields_inj hasFields otherHasFields
  have shape := firstIs.shape.symm.trans secondIs.shape
  have prototype := firstIs.prototype.symm.trans secondIs.prototype
  have argument := firstIs.argument.symm.trans secondIs.argument
  have builtin := firstIs.builtin.symm.trans secondIs.builtin
  have generic := firstIs.generic.symm.trans secondIs.generic
  have members := fieldsAre_inj firstIs.members secondIs.members
  obtain ⟨⟩ := first
  obtain ⟨⟩ := second
  simp only at shape prototype argument builtin generic members
  subst shape prototype argument builtin generic members
  rfl

/-! ### Declarations as a schema shows them -/

end Heap

/-! ### Records stored in the order of declaration -/

theorem Sorted.sortBy_of_pairwise {Item : Type} {key : Item -> Nat} {items : List Item}
    (sorted : items.Pairwise fun first second => key first ≤ key second) :
    Sorted.sortBy key items = items := by
  induction items with
  | nil => rfl
  | cons head rest ih =>
      have parts := List.pairwise_cons.mp sorted
      change Sorted.insertBy key head (Sorted.sortBy key rest) = head :: rest
      rw [ih parts.2]
      cases rest with
      | nil => rfl
      | cons next others => exact if_pos (parts.1 next List.mem_cons_self)

/-- Sorting by distinct keys gives one result, whatever the order before. -/
theorem Sorted.sortBy_of_perm {Item : Type} {key : Item -> Nat} {items other : List Item}
    (ascending : items.Pairwise fun first second => key first < key second)
    (perm : other.Perm items) : Sorted.sortBy key other = items := by
  refine List.Perm.eq_of_pairwise ?_ (Sorted.pairwise_sortBy key other)
    (ascending.imp Nat.le_of_lt) ((Sorted.sortBy_perm key other).trans perm)
  intro first second inOther inItems firstLe secondLe
  have inItemsToo := perm.mem_iff.mp ((Sorted.sortBy_perm key other).mem_iff.mp inOther)
  have distinct : (items.map key).Nodup := List.pairwise_map.mpr (ascending.imp Nat.ne_of_lt)
  exact List.inj_on_of_nodup_map distinct inItemsToo inItems (Nat.le_antisymm firstLe secondLe)

namespace FieldsAre

variable {heap : Heap} {order : Nat} {members : List Member} {fields : List FieldDef}

theorem length (are : FieldsAre heap order members fields) : fields.length = members.length := by
  have same := List.Forall₂.length_eq are
  rw [List.length_zipIdx] at same
  exact same.symm

theorem get (are : FieldsAre heap order members fields) {index : Nat}
    (inMembers : index < members.length) (inFields : index < fields.length) :
    fields[index].Is heap members[index] (order + index) := by
  have inEntries : index < (members.zipIdx order).length := by rwa [List.length_zipIdx]
  have is := (List.forall₂_iff_get.mp are).2 index inEntries inFields
  simp only [List.get_eq_getElem, List.getElem_zipIdx] at is
  exact is

/-- What fields say is what the members say. -/
theorem map_eq {Said : Type} {ofField : FieldDef -> Said} {ofMember : Member -> Said}
    (are : FieldsAre heap order members fields)
    (same : forall member place field, field.Is heap member place ->
      ofField field = ofMember member) : fields.map ofField = members.map ofMember := by
  apply List.ext_getElem
  · rw [List.length_map, List.length_map]
    exact are.length
  · intro index inFields inMembers
    rw [List.getElem_map, List.getElem_map]
    rw [List.length_map] at inFields inMembers
    exact same _ _ _ (are.get inMembers inFields)

/-- The fields have the types of the members. -/
theorem types_eq (are : FieldsAre heap order members fields) :
    fields.filterMap FieldDef.type = members.filterMap Member.type := by
  have filtered {First : Type} (typeOf : First -> Option TypeId) (items : List First) :
      items.filterMap typeOf = (items.map typeOf).filterMap fun type => type := by
    rw [List.filterMap_map]
    rfl
  rw [filtered FieldDef.type, are.map_eq fun _ _ _ is => is.type, ← filtered Member.type]

/-- The fields have the hashes of the names of the members. -/
theorem hashes_eq (are : FieldsAre heap order members fields) :
    fields.map FieldDef.hash = members.map fun member => Checksum.nameHash member.name :=
  are.map_eq fun _ _ _ is => is.hash

theorem cons {member : Member} {field : FieldDef} (is : field.Is heap member order)
    (are : FieldsAre heap (order + 1) members fields) :
    FieldsAre heap order (member :: members) (field :: fields) :=
  List.Forall₂.cons is are

theorem nil : FieldsAre heap order [] [] := List.Forall₂.nil

theorem order_le (are : FieldsAre heap order members fields)
    (small : order + members.length ≤ 2 ^ 32) :
    forall field, field ∈ fields -> order ≤ field.orderKey := by
  induction members generalizing order fields with
  | nil =>
      cases are
      intro field member
      cases member
  | cons member rest ih =>
      cases are with
      | cons is others =>
          rw [List.length_cons] at small
          intro field inFields
          cases List.mem_cons.mp inFields with
          | inl same =>
              subst same
              unfold FieldDef.orderKey
              rw [is.order, UInt32.toNat_ofNat']
              exact Nat.le_of_eq (Nat.mod_eq_of_lt (by omega)).symm
          | inr later => exact Nat.le_of_succ_le (ih others (by omega) field later)

/-- The records of members follow one another in the order of declaration. -/
theorem ascending (are : FieldsAre heap order members fields)
    (small : order + members.length ≤ 2 ^ 32) :
    fields.Pairwise fun first second => first.orderKey < second.orderKey := by
  induction members generalizing order fields with
  | nil =>
      cases are
      exact List.Pairwise.nil
  | cons member rest ih =>
      cases are with
      | cons is others =>
          rw [List.length_cons] at small
          refine List.pairwise_cons.mpr ⟨?_, ih others (by omega)⟩
          intro field later
          have above := order_le others (by omega) field later
          have first : FieldDef.orderKey _ = order :=
            (congrArg UInt32.toNat is.order).trans
              ((UInt32.toNat_ofNat' ..).trans (Nat.mod_eq_of_lt (by omega)))
          omega

theorem sortBy_eq (are : FieldsAre heap order members fields)
    (small : order + members.length ≤ 2 ^ 32) :
    Sorted.sortBy FieldDef.orderKey fields = fields :=
  Sorted.sortBy_of_pairwise ((are.ascending small).imp Nat.le_of_lt)

end FieldsAre

end PackedJson
