import PackedJson.Proofs.Packing.Instances
import PackedJson.Proofs.Packing.Lockstep

namespace PackedJson

theorem PackError.eq_of_violation? {failure : PackError} {violation : Violation}
    (known : failure.violation? = some violation) : failure = .violation violation := by
  cases failure <;> cases known
  rfl

namespace Packer

open Arena TextSchema Layout Heap

/-!
The course of packing with a compiled text schema.

Values of every type are written in lockstep.  The only bytes that packing
reads back are those of the keys of a map, and of these it knows what they are:
slots that were taken hold their keys, and the others are empty.  So the search
for a slot ends at the same one in both destinations.
-/

variable {coupling : Coupling} {regions : List Extent} {left right : PackState}

/-! ### Violations -/

section Violations

variable {step : PackM Unit} {good : Unit -> List Extent -> PackState -> PackState -> Prop}
  {failure : PackError} {violation : Violation} {before after : PackState}

theorem gather_of_ok (first : Option Violation) (ends : step before = .ok () after) :
    gather step first before = .ok first after := by
  simp only [gather, ends]

theorem gather_of_violation (first : Option Violation)
    (ends : step before = .error (.violation violation) after) :
    gather step first before = .ok (some (first.getD violation)) after := by
  simp only [gather, ends]

theorem gather_of_error (first : Option Violation) (ends : step before = .error failure after)
    (other : failure.violation? = none) : gather step first before = .error failure after := by
  simp only [gather, ends]
  cases failure with
  | violation => cases other
  | _ => rfl

/-- A step among siblings goes on after a violation in both destinations. -/
theorem Lockstep.gather (locked : Lockstep coupling regions step left right good)
    (first : Option Violation) :
    InStep coupling regions (Packer.gather step first) left right := by
  cases locked with
  | ends leftEnds rightEnds more joins _ =>
      exact .ends (gather_of_ok first leftEnds) (gather_of_ok first rightEnds) more joins trivial
  | @fails failure other _ _ _ leftEnds rightEnds alike more joins =>
      have same := coupling.violation _ _ alike
      cases isViolation : failure.violation? with
      | none =>
          exact .fails (gather_of_error first leftEnds isViolation)
            (gather_of_error first rightEnds (same.trans isViolation)) alike more joins
      | some violation =>
          cases PackError.eq_of_violation? isViolation
          cases PackError.eq_of_violation? (same.trans isViolation)
          exact .ends (gather_of_violation first leftEnds) (gather_of_violation first rightEnds) more
            joins trivial
  | excused leftEnds isExcused =>
      exact .excused (gather_of_error first leftEnds (coupling.excusedViolation _ isExcused))
        isExcused

theorem attempt_of_ok (ends : step before = .ok () after) :
    attempt step before = .ok none after := by
  simp only [attempt, ends]

theorem attempt_of_violation (ends : step before = .error (.violation violation) after) :
    attempt step before = .ok (some violation)
      ⟨after.data, after.violations.take before.violations.length⟩ := by
  simp only [attempt, ends]

theorem attempt_of_error (ends : step before = .error failure after)
    (other : failure.violation? = none) : attempt step before = .error failure after := by
  simp only [attempt, ends]
  cases failure with
  | violation => cases other
  | _ => rfl

/-- An attempt captures the same violation in both destinations. -/
theorem Lockstep.attempt (locked : Lockstep coupling regions step left right good)
    (joins : coupling.Joins regions left right) :
    InStep coupling regions (Packer.attempt step) left right := by
  cases locked with
  | ends leftEnds rightEnds more joined _ =>
      exact .ends (attempt_of_ok leftEnds) (attempt_of_ok rightEnds) more joined trivial
  | @fails failure other _ _ _ leftEnds rightEnds alike more joined =>
      have same := coupling.violation _ _ alike
      cases isViolation : failure.violation? with
      | none =>
          exact .fails (attempt_of_error leftEnds isViolation)
            (attempt_of_error rightEnds (same.trans isViolation)) alike more joined
      | some violation =>
          cases PackError.eq_of_violation? isViolation
          cases PackError.eq_of_violation? (same.trans isViolation)
          refine .ends (attempt_of_violation leftEnds) (attempt_of_violation rightEnds) more
            ⟨joined.twins, ?_⟩ trivial
          rw [joined.violations, joins.violations]
  | excused leftEnds isExcused =>
      exact .excused (attempt_of_error leftEnds (coupling.excusedViolation _ isExcused)) isExcused

theorem lockstep_raise (joins : coupling.Joins regions left right) (complaint : Complaint)
    (path : Path) : InStep coupling regions (raise complaint path : PackM Unit) left right := by
  refine .fails rfl rfl (coupling.self _ id) (List.Subset.refl _) ⟨joins.twins, ?_⟩
  simp only [joins.violations]

theorem lockstep_settle (joins : coupling.Joins regions left right) (first : Option Violation) :
    InStep coupling regions (settle first) left right := by
  cases first with
  | none => exact .pure joins trivial
  | some violation => exact .throw joins id

/-- A walk is in lockstep when its steps are. -/
theorem lockstep_foldlM {Item State : Type} {step : State -> Item -> PackM State}
    {items : List Item} (state : State) (joins : coupling.Joins regions left right)
    (each : forall item later leftAfter rightAfter, item ∈ items -> regions ⊆ later ->
      coupling.Joins later leftAfter rightAfter -> forall state,
      InStep coupling later (step state item) leftAfter rightAfter) :
    InStep coupling regions (items.foldlM step state) left right := by
  induction items generalizing state regions left right with
  | nil => exact .pure joins trivial
  | cons item rest ih =>
      rw [List.foldlM_cons]
      refine (each item _ _ _ List.mem_cons_self (List.Subset.refl _) joins state).andThen ?_
      intro next later leftAfter rightAfter more joined _
      refine ih next joined fun other further _ _ member evenMore => ?_
      exact each other further _ _ (List.mem_cons_of_mem _ member) (List.Subset.trans more evenMore)

end Violations

/-! ### Values inside values -/

/-- A writer writes a value into a variable of a type in lockstep. -/
def WritesAlike (coupling : Coupling) (packer : Packer) (write : Writer) (id : TypeId)
    (path : Path) (value : Json) : Prop :=
  forall type place regions left right, packer.schema.type id = .ok type ->
    coupling.Joins regions left right -> Covers regions [variableOf place type] ->
    InStep coupling regions (write id place path value) left right

section Values

variable {packer : Packer} {write same : Writer} {id inner : TypeId} {type : TypeDef}
  {place : Offset} {path : Path} {value : Json} {segment : Segment}

theorem lockstep_nested (writes : WritesAlike coupling packer write id (path.child segment) value)
    (found : packer.schema.type id = .ok type) (joins : coupling.Joins regions left right)
    (covers : Covers regions [variableOf place type]) :
    InStep coupling regions (packer.nested write id place path segment value) left right := by
  unfold nested
  split
  · exact lockstep_raise joins _ _
  · exact writes type place _ _ _ found joins covers

/-- The fields of a struct are written. -/
theorem lockstep_object {typed : List Typed} {align : UInt32}
    (sound : packer.schema.IsSound packer.target type typed align)
    (fields : forall members field, value = .object members -> field ∈ typed ->
      exists name inner, packer.schema.text field.1.jsonName = .ok name ∧
        field.1.type = some inner ∧ packer.schema.type inner = .ok field.2 ∧
        forall part, Json.lookup? name members = some part ->
          WritesAlike coupling packer write inner (path.child (.key name)) part)
    (joins : coupling.Joins regions left right) (covers : Covers regions [instanceOf place type]) :
    InStep coupling regions (packer.object write type place path value) left right := by
  cases value with
  | object members =>
      unfold object
      simp only [ask_ok sound.inOrder, pure_bind]
      refine (lockstep_foldlM none joins ?_).andThen fun first _ _ _ _ joined _ =>
        lockstep_settle joined first
      intro item later leftAfter rightAfter member more joined first
      obtain ⟨field, isField, rfl⟩ := List.mem_map.mp member
      obtain ⟨name, inner, isName, isType, found, writes⟩ := fields members field rfl isField
      have granted := covers_more covers more
      have room := joined.leftRoom granted
      have fits := sound.fits field isField
      cases isPart : Json.lookup? name members with
      | none =>
          unfold writeField
          rw [ask_ok isName, pure_bind]
          simp only [isPart]
          split
          · exact (lockstep_raise joined _ _).gather first
          · exact .pure joined trivial
      | some part =>
          rw [writeField_eq isName isPart isType fits room first]
          exact (lockstep_nested (writes part isPart) found joined
            (covers_inside granted (fieldPlace_inside fits room).2)).gather first
  | _ => exact lockstep_raise joins _ _

/-- The items of an array are written from some index on. -/
theorem lockstep_writeItems {argument : TypeId} {element : TypeDef} {storage : Offset}
    {items : List Json} {start count : Nat} (fits : start + items.length ≤ count)
    (found : packer.schema.type argument = .ok element)
    (writes : forall item path, item ∈ items -> WritesAlike coupling packer write argument path item)
    (joins : coupling.Joins regions left right)
    (covers : 0 < count -> Covers regions [elementsOf storage count element])
    (first : Option Violation) :
    InStep coupling regions
      (packer.writeItems write argument element.slot.toNat storage path items start first) left
      right := by
  induction items generalizing start first regions left right with
  | nil => exact .pure joins trivial
  | cons item rest ih =>
      rw [List.length_cons] at fits
      have bound : start < count := by omega
      have granted := covers (by omega)
      have room := joins.leftRoom granted
      obtain ⟨writesItem, writesRest⟩ := List.forall_mem_cons.mp fun item member path =>
        writes item path member
      unfold writeItems
      rw [element_position room bound, pure_bind]
      have region := variableOf_element room bound
      refine ((lockstep_nested (writesItem _) found joins (region ▸ covers_inside granted
        (elementOf_inside storage element bound))).gather first).andThen ?_
      intro next later _ _ more joined _
      exact ih (by omega) (fun other path member => writesRest other member path) joined
        (fun positive => covers_more (covers positive) more) next

/-- The items of an array are written. -/
theorem lockstep_array {layout : Schema.ArrayLayout} {argument : TypeId} {element : TypeDef}
    (isArray : IsArray packer type layout) (isArgument : type.argument = some argument)
    (found : packer.schema.type argument = .ok element) (isAlign : IsAlign element.align.toNat)
    (writes : forall items item path, value = .array items -> item ∈ items ->
      WritesAlike coupling packer write argument path item)
    (joins : coupling.Joins regions left right) (covers : Covers regions [instanceOf place type]) :
    InStep coupling regions (packer.array write type place path value) left right := by
  cases value with
  | array items =>
      unfold array
      simp only [argument_eq isArgument, ask_ok found, pure_bind]
      refine (lockstep_arrayStorage isArray joins covers isArgument found isAlign).andThen ?_
      intro storage later _ _ _ joined member
      refine (lockstep_writeItems (Nat.le_of_eq (Nat.zero_add _)) found (writes items · · rfl) joined
        (fun positive => covers_of_mem (member positive)) none).andThen ?_
      exact fun first _ _ _ _ ends _ => lockstep_settle ends first
  | _ => exact lockstep_raise joins _ _

/-! ### Alternatives -/

section Alternatives

variable {tag zero one : Typed} {alternatives : List Typed} {payload : Nat}

theorem lockstep_writeTag (tagged : IsTagged packer type tag alternatives payload)
    (joins : coupling.Joins regions left right) (covers : Covers regions [instanceOf place type])
    (raw : UInt8) : InStep coupling regions (packer.writeTag place type tag.1 raw) left right := by
  rw [tagged.writeTag_eq (joins.leftRoom covers)]
  exact lockstep_writeUnsigned joins (covers_inside covers (tagged.tag_inside place)) (by decide)

/-- A tag and the alternative behind it are written. -/
theorem lockstep_tagged (tagged : IsTagged packer type tag alternatives payload)
    {alternative : Typed} (isOne : alternative ∈ alternatives)
    (found : packer.schema.type inner = .ok alternative.2) (raw : UInt8)
    (writes : WritesAlike coupling packer same inner path value)
    (joins : coupling.Joins regions left right) (covers : Covers regions [instanceOf place type]) :
    InStep coupling regions (do
      packer.writeTag place type tag.1 raw
      same inner (place.advance payload) path value) left right := by
  have isPayload := (tagged.payload_inside isOne (joins.leftRoom covers)).2.1
  refine (lockstep_writeTag tagged joins covers raw).andThen ?_
  exact fun _ _ _ _ more joined _ => writes _ _ _ _ _ found joined
    (covers_more (covers_inside covers isPayload) more)

theorem lockstep_option (option : IsOption packer type inner tag zero one payload)
    (writes : value ≠ .null -> WritesAlike coupling packer same inner path value)
    (joins : coupling.Joins regions left right) (covers : Covers regions [instanceOf place type]) :
    InStep coupling regions (packer.option same type place path value) left right := by
  by_cases isNull : value = .null
  · subst isNull
    rw [option_absent_eq option]
    exact lockstep_writeTag option.tagged joins covers 0
  · obtain ⟨_, isInner, _, found⟩ := option.one.type
    cases isInner
    rw [option_present_eq option (joins.leftRoom covers) isNull]
    exact lockstep_tagged option.tagged (List.mem_cons_of_mem _ List.mem_cons_self) found 1
      (writes isNull) joins covers

/-- A result is written, or the violation that its value raised. -/
theorem lockstep_result {layout : Schema.ArrayLayout} (isText : IsText packer one.2 layout)
    (result : IsResult packer type inner tag zero one payload)
    (writes : WritesAlike coupling packer same inner path value)
    (joins : coupling.Joins regions left right) (covers : Covers regions [instanceOf place type]) :
    InStep coupling regions (packer.result same type place path value) left right := by
  have tagged := result.tagged
  have room := joins.leftRoom covers
  have isPayload := (tagged.payload_inside List.mem_cons_self room).2.1
  have isOne := (tagged.payload_inside (List.mem_cons_of_mem _ List.mem_cons_self) room).2.1
  rw [isText.variableOf_eq] at isOne
  obtain ⟨sameRest, rest, _, remaining⟩ := result.payload_rest isText room
  rw [← sameRest] at rest
  obtain ⟨_, isInner, _, found⟩ := result.zero.type
  cases isInner
  rw [result.steps_eq room]
  refine ((writes _ _ _ _ _ found joins (covers_inside covers isPayload)).attempt joins).andThen ?_
  intro captured later leftAfter _ more joined _
  have granted := covers_more covers more
  cases captured with
  | none => exact lockstep_writeTag tagged joined granted 0
  | some violation =>
      simp only
      rw [result.capture_eq (joined.leftRoom granted)]
      refine (lockstep_zero joined (covers_inside granted rest) remaining).andThen ?_
      intro _ second _ _ further zeroed _
      have grantedNext := covers_more granted further
      refine (lockstep_writeTag tagged zeroed grantedNext 1).andThen ?_
      exact fun _ _ _ _ last ends _ => lockstep_writeText isText.isArray ends
        (covers_inside (covers_more grantedNext last) isOne) _

/-- A variant is written as the alternative of the form of the value. -/
theorem lockstep_variant {members : List Member} {roles : List Role}
    (tagged : IsTagged packer type tag alternatives payload)
    (has : List.Forall₂ (HasMember packer) members alternatives)
    (are : List.Forall₂ (fun member role => exists inner, member.type = some inner ∧
      packer.form? inner = pure (Role.form? role) ∧
      (role.form? ≠ none -> WritesAlike coupling packer same inner path value)) members roles)
    (joins : coupling.Joins regions left right) (covers : Covers regions [instanceOf place type]) :
    InStep coupling regions (packer.variant same type place path value) left right := by
  have sameLength := has.length_eq
  have rolesLength := are.length_eq
  have candidates := @candidates_of_forms packer type alternatives members roles has
    (are.imp fun member role isAlternative => by
      obtain ⟨inner, isType, found, _⟩ := isAlternative
      exact ⟨inner, isType, found⟩)
  have fieldsLength : (alternatives.map Prod.fst).length = roles.length := by
    rw [List.length_map, ← sameLength, rolesLength]
  cases chosen : choose (candidatesOf (alternatives.map Prod.fst) roles) value with
  | none =>
      rw [variant_none_eq tagged candidates chosen]
      exact .throw joins id
  | some field =>
      obtain ⟨index, isField, isChoice⟩ := isChoice_of_choose fieldsLength chosen
      obtain ⟨inFields, rfl⟩ := List.getElem?_eq_some_iff.mp isField
      rw [List.length_map] at inFields fieldsLength
      have inRoles : index < roles.length := by omega
      have hasMember := (List.forall₂_iff_get.mp has).2 index (by omega) inFields
      have isAlternative := (List.forall₂_iff_get.mp are).2 index (by omega) inRoles
      obtain ⟨inner, isType, _, writes⟩ := isAlternative
      obtain ⟨other, isOther, isInner, found⟩ := hasMember.type
      cases isType.symm.trans isOther
      have isOne := List.getElem_mem inFields
      rw [List.getElem_map] at chosen
      rw [variant_some_eq tagged candidates isOne chosen isInner (joins.leftRoom covers)]
      exact lockstep_tagged tagged isOne found _
        (writes (form?_ne_none_of_isChoice isChoice inRoles)) joins covers

end Alternatives

end Values

/-! ### Maps -/

section Maps

variable {packer : Packer} {document : Json} {write : Writer} {type : TypeDef} {term : Term}
  {keys values strings : Column} {text : Schema.ArrayLayout} {place : Offset} {path : Path}
  {value : Json}

/-- The hashes of a map are written into its first array. -/
theorem lockstep_writeHashes {storage : Offset} {element : TypeDef}
    (hashSize : element.slot.toNat = 4) {hashes : List UInt32} {start count : Nat}
    (fits : start + hashes.length ≤ count) (joins : coupling.Joins regions left right)
    (covers : 0 < count -> Covers regions [elementsOf storage count element]) :
    InStep coupling regions (writeHashes storage hashes start) left right := by
  induction hashes generalizing start regions left right with
  | nil => exact .pure joins trivial
  | cons hash rest ih =>
      rw [List.length_cons] at fits
      have bound : start < count := by omega
      have granted := covers (by omega)
      have room := joins.leftRoom granted
      have position := element_position room bound
      have region := variableOf_element room bound
      have word := covers_inside granted (elementOf_inside storage element bound)
      rw [← region] at word
      rw [hashSize] at position
      unfold variableOf at word
      rw [hashSize] at word
      unfold writeHashes
      rw [position, pure_bind]
      refine (lockstep_writeUnsigned joins word (by decide)).andThen ?_
      exact fun _ _ _ _ more joined _ =>
        ih (by omega) joined fun positive => covers_more (covers positive) more

/-- The arrays of a map are made with room for its members. -/
theorem lockstep_mapStorage (isMap : IsMap packer type keys values strings text)
    (joins : coupling.Joins regions left right) (covers : Covers regions [instanceOf place type])
    (names : List String) :
    Lockstep coupling regions (packer.mapStorage place values.argument
        ⟨keys.part, values.part, strings.part⟩ names) left right
      fun storage later _ _ => 0 < names.length ->
        elementsOf storage.strings names.length strings.element ∈ later ∧
        elementsOf storage.values names.length values.element ∈ later := by
  have isKeys := isMap.isKeys
  have isValues := isMap.isValues
  have isStrings := isMap.isStrings
  have room := joins.leftRoom covers
  have recordOf {column : Column} {later : List Extent} (isColumn : IsColumn packer type column)
      (more : regions ⊆ later) : Covers later [instanceOf (column.record place) column.array] :=
    covers_inside (covers_more covers more) (isColumn.inside room)
  have storageOf {column : Column} {later : List Extent} {leftAfter rightAfter : PackState}
      (isColumn : IsColumn packer type column) (more : regions ⊆ later)
      (joined : coupling.Joins later leftAfter rightAfter) :=
    @lockstep_arrayStorage coupling later leftAfter rightAfter packer column.array column.layout
      (column.record place) names.length isColumn.isArray joined (recordOf isColumn more)
      column.argument column.element isColumn.argument isColumn.element isColumn.isAlign
  unfold mapStorage
  simp only [ask_ok isKeys.found, ask_ok isValues.found, ask_ok isStrings.found,
    isKeys.position room, isValues.position room, isStrings.position room,
    argument_eq isStrings.argument, ask_ok isStrings.element, ask_ok isValues.element, pure_bind]
  refine (storageOf isKeys (List.Subset.refl _) joins).andThen ?_
  intro hashStorage first _ _ moreFirst joinedFirst keysMember
  have fits : 0 + (Sorted.sortBy UInt32.toNat (names.map Checksum.nameHash)).length ≤
      names.length := by
    rw [Nat.zero_add, Sorted.length_sortBy, List.length_map]
  refine (lockstep_writeHashes isMap.hashes fits joinedFirst
    fun positive => covers_of_mem (keysMember positive)).andThen ?_
  intro _ second _ _ moreSecond joinedSecond _
  have untilSecond := List.Subset.trans moreFirst moreSecond
  refine (storageOf isValues untilSecond joinedSecond).andThen ?_
  intro valueStorage third _ _ moreThird joinedThird valuesMember
  refine (storageOf isStrings (List.Subset.trans untilSecond moreThird) joinedThird).andThen ?_
  intro stringStorage fourth _ _ moreFourth joinedFourth stringsMember
  exact .pure joinedFourth fun positive =>
    ⟨stringsMember positive, moreFourth (valuesMember positive)⟩

/-- Some members were written into the same slots of two destinations. -/
structure AreAlike (packer : Packer) (slots : Slots) (leftBase rightBase : Nat)
    (left right : PackState) (leftDone rightDone : List Slotted) : Prop where
  leftRoom : slots.HaveRoom packer leftBase left.data
  rightRoom : slots.HaveRoom packer rightBase right.data
  left : slots.AreWritten packer leftBase left.data leftDone
  right : slots.AreWritten packer rightBase right.data rightDone
  sameSlots : rightDone.map Slotted.slot = leftDone.map Slotted.slot
  sameNames : rightDone.map Slotted.name = leftDone.map Slotted.name

variable {slots : Slots} {leftBase rightBase : Nat} {leftDone rightDone : List Slotted}
  {name : String}

/-- A member goes to the same slot in both destinations. -/
theorem AreAlike.exists_slot
    (are : AreAlike packer slots leftBase rightBase left right leftDone rightDone)
    (type : TypeDef) {rest : List String}
    (perm : ((leftDone.map Slotted.name ++ name :: rest).map Checksum.nameHash).Perm slots.hashes)
    (isNew : name ∉ leftDone.map Slotted.name) :
    exists slot, slots.slotFor lastSlot leftDone name = some slot ∧ slot < slots.hashes.length ∧
      packer.mapSlot type slots.storage name left = .ok slot left ∧
      packer.mapSlot type slots.storage name right = .ok slot right := by
  obtain ⟨slot, isSlot, bound, _, _, leftFound⟩ :=
    @Slots.mapSlot_eq _ _ _ _ _ _ type _ finds_lastSlot are.leftRoom are.left _ perm isNew
  obtain ⟨other, isOther, _, _, _, rightFound⟩ := @Slots.mapSlot_eq _ _ _ _ _ _ type _
    finds_lastSlot are.rightRoom are.right _ (are.sameNames ▸ perm) (are.sameNames ▸ isNew)
  have same : slots.slotFor lastSlot rightDone name = slots.slotFor lastSlot leftDone name := by
    unfold Slots.slotFor
    rw [are.sameSlots]
  cases isSlot.symm.trans (same.symm.trans isOther)
  exact ⟨slot, isSlot, bound, leftFound, rightFound⟩

theorem lockstep_writeMember
    (are : AreAlike packer slots leftBase rightBase left right leftDone rightDone)
    {rest : List String}
    (perm : ((leftDone.map Slotted.name ++ name :: rest).map Checksum.nameHash).Perm slots.hashes)
    (isNew : name ∉ leftDone.map Slotted.name)
    (writes : WritesAlike coupling packer write slots.values.argument (path.child (.key name)) value)
    (joins : coupling.Joins regions left right)
    (stringsCovered : Covers regions
      [elementsOf slots.storage.strings slots.hashes.length slots.strings.element])
    (valuesCovered : Covers regions
      [elementsOf slots.storage.values slots.hashes.length slots.values.element])
    (first : Option Violation) :
    InStep coupling regions (packer.writeMember write type slots.values.argument slots.storage path
      first (name, value)) left right := by
  have room := are.leftRoom
  obtain ⟨slot, _, bound, leftFound, rightFound⟩ := are.exists_slot type perm isNew
  have finds : Lockstep coupling regions (packer.mapSlot type slots.storage name) left right
      fun result _ _ _ => result = slot :=
    .ends leftFound rightFound (List.Subset.refl _) joins rfl
  have keyCovered : Covers regions [instanceOf (slots.keyAt slot) slots.strings.element] := by
    rw [room.keyRegion_eq bound]
    exact covers_inside stringsCovered (elementOf_inside _ _ bound)
  have valueCovered : Covers regions [variableOf (slots.valueAt slot) slots.values.element] := by
    rw [room.valueRegion_eq bound]
    exact covers_inside valuesCovered (elementOf_inside _ _ bound)
  have valuePlace : Packer.element slots.storage.values slot slots.storage.valueStride =
      pure (slots.valueAt slot) := by
    rw [room.valueStride]
    exact element_position room.values bound
  unfold writeMember
  simp only
  refine finds.andThen ?_
  rintro _ later _ _ more joined rfl
  rw [room.keyPlace_eq bound, pure_bind, valuePlace, room.stringType]
  simp only [pure_bind]
  refine (lockstep_writeText room.isText.isArray joined (covers_more keyCovered more) name).andThen ?_
  intro _ last _ _ further ends _
  exact (lockstep_nested writes room.isValue ends
    (covers_more valueCovered (List.Subset.trans more further))).gather first

/-- The members of a map are written into the same slots of both destinations. -/
theorem lockstep_writeMembers {members : List (String × Json)}
    (are : AreAlike packer slots leftBase rightBase left right leftDone rightDone)
    (perm : ((leftDone.map Slotted.name ++ members.map Prod.fst).map Checksum.nameHash).Perm
      slots.hashes)
    (distinct : (leftDone.map Slotted.name ++ members.map Prod.fst).Nodup)
    (runs : forall member, member ∈ members ->
      Writes document packer write slots.values.argument term (path.child (.key member.1)) member.2)
    (writes : forall member, member ∈ members ->
      WritesAlike coupling packer write slots.values.argument (path.child (.key member.1)) member.2)
    (joins : coupling.Joins regions left right)
    (stringsCovered : Covers regions
      [elementsOf slots.storage.strings slots.hashes.length slots.strings.element])
    (valuesCovered : Covers regions
      [elementsOf slots.storage.values slots.hashes.length slots.values.element])
    (first : Option Violation) :
    InStep coupling regions (members.foldlM (packer.writeMember write type slots.values.argument
      slots.storage path) first) left right := by
  induction members generalizing regions left right leftDone rightDone first with
  | nil => exact .pure joins trivial
  | cons member rest ih =>
      obtain ⟨name, value⟩ := member
      obtain ⟨runsMember, runsRest⟩ := List.forall_mem_cons.mp runs
      obtain ⟨writesMember, writesRest⟩ := List.forall_mem_cons.mp writes
      rw [List.map_cons] at perm distinct
      have isNew : name ∉ leftDone.map Slotted.name := fun member =>
        (List.nodup_append.mp distinct).2.2 name member name List.mem_cons_self rfl
      rw [List.foldlM_cons]
      have leftRun := @Slots.run_writeMember _ _ _ _ _ _ _ _ type _ _ _ _ finds_lastSlot are.leftRoom
        are.left _ perm isNew runsMember first
      have rightRun := @Slots.run_writeMember _ _ _ _ _ _ _ _ type _ _ _ _ finds_lastSlot
        are.rightRoom are.right _ (are.sameNames ▸ perm) (are.sameNames ▸ isNew) runsMember first
      refine ((lockstep_writeMember are perm isNew writesMember joins stringsCovered valuesCovered
        first).withRuns leftRun rightRun).andThen ?_
      rintro next later leftAfter rightAfter more joined
        ⟨_, ⟨leftSlotted, leftName, _, leftSlot, _, leftRoom, leftAre⟩,
          rightSlotted, rightName, _, rightSlot, _, rightRoom, rightAre⟩
      have sameSlot : rightSlotted.slot = leftSlotted.slot := by
        unfold Slots.slotFor at leftSlot rightSlot
        rw [are.sameSlots] at rightSlot
        exact Option.some.inj (rightSlot.symm.trans leftSlot)
      have split : (leftDone ++ [leftSlotted]).map Slotted.name ++ rest.map Prod.fst =
          leftDone.map Slotted.name ++ name :: rest.map Prod.fst := by
        rw [List.map_append, List.map_singleton, leftName, List.append_assoc,
          List.singleton_append]
      refine ih ⟨leftRoom, rightRoom, leftAre, rightAre, ?_, ?_⟩ (split ▸ perm) (split ▸ distinct)
        runsRest writesRest joined (covers_more stringsCovered more)
        (covers_more valuesCovered more) next
      · rw [List.map_append, List.map_append, are.sameSlots, List.map_singleton, List.map_singleton,
          sameSlot]
      · rw [List.map_append, List.map_append, are.sameNames, List.map_singleton, List.map_singleton,
          leftName, rightName]

/-- An object is written as a map. -/
theorem lockstep_map (isMap : IsMap packer type keys values strings text)
    (distinct : forall members, value = .object members -> (members.map Prod.fst).Nodup)
    (runs : forall members member, value = .object members -> member ∈ members ->
      Writes document packer write values.argument term (path.child (.key member.1)) member.2)
    (writes : forall members member, value = .object members -> member ∈ members ->
      WritesAlike coupling packer write values.argument (path.child (.key member.1)) member.2)
    (joins : coupling.Joins regions left right) (covers : Covers regions [instanceOf place type]) :
    InStep coupling regions (packer.map write type place path value) left right := by
  cases value with
  | object members =>
      unfold map
      simp only [ask_ok isMap.isLayout, argument_eq isMap.argument, pure_bind]
      refine ((lockstep_mapStorage isMap joins covers (members.map Prod.fst)).withRuns
        (does_mapStorage isMap (joins.leftRoom covers) (members.map Prod.fst))
        (does_mapStorage isMap (joins.rightRoom covers) (members.map Prod.fst))).andThen ?_
      rintro storage later leftAfter rightAfter _ joined
        ⟨granted, ⟨_, _, _, leftStored⟩, _, _, _, rightStored⟩
      refine Lockstep.andThen (?_ : InStep _ _ _ _ _) fun first _ _ _ _ ends _ =>
        lockstep_settle ends first
      rcases Nat.eq_zero_or_pos (members.map Prod.fst).length with isEmpty | positive
      · rw [List.length_map] at isEmpty
        cases List.length_eq_zero_iff.mp isEmpty
        exact .pure joined trivial
      · obtain ⟨leftRoom, leftAre⟩ := leftStored.haveRoom isMap positive
        obtain ⟨rightRoom, rightAre⟩ := rightStored.haveRoom isMap positive
        obtain ⟨stringsMember, valuesMember⟩ := granted positive
        have count := length_slotsOf values strings text storage (members.map Prod.fst)
        exact lockstep_writeMembers
          ⟨leftRoom, rightRoom, leftAre, rightAre, rfl, rfl⟩ (Sorted.sortBy_perm _ _).symm
          (distinct members rfl) (runs members · rfl) (writes members · rfl) joined
          (covers_of_mem (count ▸ stringsMember)) (covers_of_mem (count ▸ valuesMember)) none
  | _ => exact lockstep_raise joins _ _

end Maps

/-! ### Instances and variables -/

section Instances

variable {packer : Packer} {heap : Heap} {document : Json} {promises : Promises}
  {settled : TypeId -> Prop} {id : TypeId} {type : TypeDef} {typed : List Typed} {align : UInt32}
  {declaration : Declaration} {term : Term} {role : Role} {place : Offset} {path : Path}
  {value : Json} {same write : Writer}

/-- The values inside a value are written in lockstep. -/
def AlikeInside (coupling : Coupling) (packer : Packer) (promises : Promises)
    (settled : TypeId -> Prop) (write : Writer) (value : Json) : Prop :=
  forall id term path part, settled id -> promises id term -> part.WellFormed ->
    part.height < value.height -> WritesAlike coupling packer write id path part

/-- A value is written in lockstep as it is handed on by a role. -/
def AlikeOnward (coupling : Coupling) (document : Json) (packer : Packer) (promises : Promises)
    (settled : TypeId -> Prop) (same : Writer) (bound : Nat) (path : Path) (value : Json) : Prop :=
  forall id term role, settled id -> promises id term -> HasRole document term role ->
    role.handoffs < bound -> WritesAlike coupling packer same id path value

/-- A number, or a complaint. -/
theorem lockstep_scalar {name : TextRef} {size raw : Nat} (small : size ≤ 8)
    (joins : coupling.Joins regions left right)
    (covers : Covers regions [instanceOf place (TypeDef.scalar name (UInt32.ofNat size))]) :
    InStep coupling regions (writeUnsigned place size raw) left right := by
  rw [instanceOf_scalar place name small] at covers
  exact lockstep_writeUnsigned joins covers small

theorem lockstep_integer {name : TextRef} (joins : coupling.Joins regions left right)
    (covers : Covers regions [instanceOf place (TypeDef.scalar name (UInt32.ofNat 8))]) :
    InStep coupling regions (integer place path value) left right := by
  unfold integer
  split
  · split
    · exact lockstep_scalar (Nat.le_refl 8) joins covers
    · exact lockstep_raise joins _ _
  · exact lockstep_raise joins _ _

theorem lockstep_number {name : TextRef} (joins : coupling.Joins regions left right)
    (covers : Covers regions [instanceOf place (TypeDef.scalar name (UInt32.ofNat 8))]) :
    InStep coupling regions (number place path value) left right := by
  unfold number
  split
  · exact lockstep_scalar (Nat.le_refl 8) joins covers
  · exact lockstep_raise joins _ _

theorem lockstep_boolean {name : TextRef} (joins : coupling.Joins regions left right)
    (covers : Covers regions [instanceOf place (TypeDef.scalar name (UInt32.ofNat 1))]) :
    InStep coupling regions (boolean place path value) left right := by
  unfold boolean
  split
  · exact lockstep_scalar (by decide) joins covers
  · exact lockstep_raise joins _ _

theorem lockstep_unit (joins : coupling.Joins regions left right) :
    InStep coupling regions (unit path value) left right := by
  unfold unit
  split
  · exact .pure joins trivial
  · exact lockstep_raise joins _ _

theorem lockstep_string {layout : Schema.ArrayLayout} (isArray : IsArray packer type layout)
    (joins : coupling.Joins regions left right) (covers : Covers regions [instanceOf place type]) :
    InStep coupling regions (packer.string type place path value) left right := by
  unfold Packer.string
  split
  · exact lockstep_writeText isArray joins covers _
  · exact lockstep_raise joins _ _

/-- The fields of a struct are written in lockstep. -/
theorem Packs.alike_fields {properties : List Property} {members : List Member}
    (served : List.Forall₂ (ServesProperty promises) properties members)
    (has : List.Forall₂ (HasMember packer) members typed)
    (areSettled : forall member, member ∈ members -> forall inner, member.type = some inner ->
      settled inner) {entries : List (String × Json)} (wellFormed : (Json.object entries).WellFormed)
    (alike : AlikeInside coupling packer promises settled write (.object entries)) {field : Typed}
    (isField : field ∈ typed) :
    exists name inner, packer.schema.text field.1.jsonName = .ok name ∧
      field.1.type = some inner ∧ packer.schema.type inner = .ok field.2 ∧
      forall part, Json.lookup? name entries = some part ->
        WritesAlike coupling packer write inner (path.child (.key name)) part := by
  obtain ⟨index, inTyped, rfl⟩ := List.getElem_of_mem isField
  have sameLength := has.length_eq
  have servedLength := served.length_eq
  have hasMember := (List.forall₂_iff_get.mp has).2 index (by omega) inTyped
  have serves := (List.forall₂_iff_get.mp served).2 index (by omega) (by omega)
  obtain ⟨_, _, inner, isType, promised⟩ := serves
  obtain ⟨other, isOther, isInner, found⟩ := hasMember.type
  cases isType.symm.trans isOther
  have innerSettled := areSettled _ (List.getElem_mem (by omega)) inner isType
  refine ⟨_, inner, hasMember.name, isInner, found, fun part isPart => ?_⟩
  have isMember := Json.mem_of_lookup? isPart
  cases wellFormed with
  | object _ areWellFormed =>
      exact alike inner _ _ part innerSettled promised (areWellFormed _ isMember)
        (Json.height_lt_of_member isMember)

/-- The alternatives of a variant are written in lockstep. -/
theorem Packs.alike_alternatives (packs : Packs packer heap document promises settled)
    {alternatives : List Term} {members : List Member}
    (served : List.Forall₂ (ServesAlternative promises) alternatives members)
    (areSettled : forall member, member ∈ members -> forall inner, member.type = some inner ->
      settled inner)
    (onward : AlikeOnward coupling document packer promises settled same 1 path value) :
    exists roles : List Role, List.Forall₂ (fun member role => exists inner,
      member.type = some inner ∧ packer.form? inner = pure (Role.form? role) ∧
      (role.form? ≠ none -> WritesAlike coupling packer same inner path value)) members roles := by
  induction served with
  | nil => exact ⟨[], .nil⟩
  | @cons alternative member _ _ serves _ ih =>
      obtain ⟨isSettled, othersSettled⟩ := List.forall_mem_cons.mp areSettled
      obtain ⟨roles, are⟩ := ih othersSettled
      obtain ⟨inner, isType, promised⟩ := serves
      obtain ⟨role, kind, hasRole, serves, is⟩ := packs.serving.serves inner _ promised
      have innerSettled := isSettled inner isType
      refine ⟨role :: roles, .cons ⟨inner, isType, packs.form?_eq innerSettled serves is,
        fun hasForm => ?_⟩ are⟩
      exact onward inner _ role innerSettled promised hasRole (handoffs_of_form hasForm)

/-- A value is written into an instance in lockstep. -/
theorem Packs.lockstep_instance (packs : Packs packer heap document promises settled)
    (isSettled : settled id) (promised : promises id term) (hasRole : HasRole document term role)
    (found : packer.schema.type id = .ok type) (wellFormed : value.WellFormed)
    (inside : WritesInside document packer promises settled write value)
    (alike : AlikeInside coupling packer promises settled write value)
    (onward : AlikeOnward coupling document packer promises settled same role.handoffs path value)
    (joins : coupling.Joins regions left right) (covers : Covers regions [instanceOf place type]) :
    InStep coupling regions (packer.writeInstance same write id type place path value) left
      right := by
  obtain ⟨other, kind, isRole, serves, is⟩ := packs.serving.serves id term promised
  cases hasRole_inj hasRole isRole
  have scalar (builtin : Builtin) (size : Nat)
      (member : (builtin, size) ∈ Builder.scalarSizes packer.target)
      (isScalar : id = packer.context.builtin builtin) :
      exists name, type = TypeDef.scalar name (UInt32.ofNat size) := by
    obtain ⟨name, isFound⟩ := packs.scalar member
    rw [← isScalar] at isFound
    exact ⟨name, Except.ok.inj (found.symm.trans isFound)⟩
  obtain ⟨shown, typed, align, shows⟩ := packs.shows isSettled is.declares
  cases found.symm.trans shows.found
  cases serves with
  | integer =>
      have isInteger := is.details.1
      obtain ⟨name, rfl⟩ := scalar .integer 8 (by simp [Builder.scalarSizes]) isInteger
      rw [packs.writeInstance_builtin isInteger]
      exact lockstep_integer joins covers
  | number =>
      have isNumber := is.details.1
      obtain ⟨name, rfl⟩ := scalar .number 8 (by simp [Builder.scalarSizes]) isNumber
      rw [packs.writeInstance_builtin isNumber]
      exact lockstep_number joins covers
  | boolean =>
      have isBoolean := is.details.1
      obtain ⟨name, rfl⟩ := scalar .boolean 1 (by simp [Builder.scalarSizes]) isBoolean
      rw [packs.writeInstance_builtin isBoolean]
      exact lockstep_boolean joins covers
  | null =>
      rw [packs.writeInstance_builtin is.details.1]
      exact lockstep_unit joins
  | string =>
      have isString : id = packer.context.builtin .string := is.details
      obtain ⟨layout, isArray⟩ := shows.isArray packs rfl rfl
      rw [packs.writeInstance_builtin isString]
      exact lockstep_string isArray joins covers
  | array promisedElement =>
      have elementSettled := packs.settled_argument isSettled is.declares rfl
      obtain ⟨layout, isArray⟩ := shows.isArray packs rfl rfl
      obtain ⟨element, isElement, isAlign⟩ := packs.element elementSettled
      rw [packs.writeInstance_declared is.declares rfl shows rfl]
      refine lockstep_array isArray shows.argument isElement isAlign ?_ joins covers
      rintro items item _ rfl isItem
      cases wellFormed with
      | array areWellFormed =>
          exact alike _ _ _ item elementSettled promisedElement (areWellFormed item isItem)
            (Json.height_lt_of_item isItem)
  | map promisedValue =>
      have valueSettled := packs.settled_argument isSettled is.declares rfl
      obtain ⟨keys, values, strings, text, isMap, rfl⟩ := shows.isMap packs is isSettled
      rw [packs.writeInstance_declared is.declares rfl shows rfl]
      have parts (members : List (String × Json)) (member : String × Json)
          (isObject : value = .object members) (isMember : member ∈ members) :
          member.2.WellFormed ∧ member.2.height < value.height := by
        subst isObject
        cases wellFormed with
        | object _ areWellFormed => exact ⟨areWellFormed member isMember,
            Json.height_lt_of_member isMember⟩
      refine lockstep_map isMap ?_ (fun members member isObject isMember =>
        inside _ _ _ member.2 valueSettled promisedValue (parts members member isObject isMember).1
          (parts members member isObject isMember).2) (fun members member isObject isMember =>
        alike _ _ _ member.2 valueSettled promisedValue (parts members member isObject isMember).1
          (parts members member isObject isMember).2) joins covers
      rintro members rfl
      cases wellFormed with
      | object distinct _ => exact distinct
  | option promisedInner =>
      have innerSettled := packs.settled_argument isSettled is.declares rfl
      obtain ⟨innerRole, _, hasInner, _⟩ := packs.serving.serves _ _ promisedInner
      obtain ⟨tag, zero, one, payload, option⟩ := shows.isWrapper packs rfl rfl rfl rfl rfl
      rw [packs.writeInstance_declared is.declares rfl shows rfl]
      exact lockstep_option option (fun _ => onward _ _ innerRole innerSettled promisedInner hasInner
        (handoffs_of_option hasRole hasInner)) joins covers
  | result promisedInner =>
      have innerSettled := packs.settled_argument isSettled is.declares rfl
      obtain ⟨innerRole, _, hasInner, _⟩ := packs.serving.serves _ _ promisedInner
      obtain ⟨tag, zero, one, payload, result⟩ := shows.isWrapper packs rfl rfl rfl rfl rfl
      obtain ⟨text, layout, isText⟩ := packs.text (packs.settled_member isSettled is.declares
        (List.mem_cons_of_mem _ (List.mem_cons_of_mem _ List.mem_cons_self)) rfl)
      obtain ⟨_, isString, _, isOne⟩ := result.one.type
      cases isString
      cases isText.found.symm.trans isOne
      rw [packs.writeInstance_declared is.declares rfl shows rfl]
      exact lockstep_result isText result (onward _ _ innerRole innerSettled promisedInner hasInner
        (handoffs_of_result hasRole hasInner)) joins covers
  | struct served =>
      rw [packs.writeInstance_declared is.declares rfl shows rfl]
      refine lockstep_object shows.sound ?_ joins covers
      rintro members field rfl isField
      exact Packs.alike_fields served shows.members (fun member isMember inner =>
        packs.settled_member isSettled is.declares isMember) wellFormed alike isField
  | variant served =>
      obtain ⟨tag, alternatives, payload, _, tagged, has⟩ := shows.isTagged packs rfl rfl
      obtain ⟨roles, are⟩ := packs.alike_alternatives served (fun member isMember inner =>
        packs.settled_member isSettled is.declares (List.mem_cons_of_mem _ isMember)) onward
      rw [packs.writeInstance_declared is.declares rfl shows rfl]
      exact lockstep_variant tagged has are joins covers

/-- Room for an instance is handed out in both destinations or in none. -/
theorem Shows.lockstep_allocInstance (shows : Shows packer id declaration type typed align)
    (joins : coupling.Joins regions left right) :
    Lockstep coupling regions (packer.allocInstance type) left right
      fun target later _ _ => instanceOf target type ∈ later := by
  have supported : isAlignment (max align.toNat 1) = true := by
    rw [Nat.max_eq_left shows.isAlign.pos]
    exact shows.isAlign.isAlignment
  unfold allocInstance
  rw [ask_ok shows.sound.instanceAlign, pure_bind]
  exact lockstep_alloc joins supported

/-- A value is written into a variable in lockstep. -/
theorem Packs.lockstep_variable (packs : Packs packer heap document promises settled)
    (isSettled : settled id) (promised : promises id term) (hasRole : HasRole document term role)
    (found : packer.schema.type id = .ok type) (wellFormed : value.WellFormed)
    (inside : WritesInside document packer promises settled write value)
    (alike : AlikeInside coupling packer promises settled write value)
    (onward : AlikeOnward coupling document packer promises settled same role.handoffs path value)
    (joins : coupling.Joins regions left right) (covers : Covers regions [variableOf place type]) :
    InStep coupling regions (packer.writeVariable same write id place path value) left right := by
  obtain ⟨_, _, _, _, is⟩ := packs.serving.serves id term promised
  obtain ⟨_, typed, align, shows⟩ := packs.shows isSettled is.declares
  cases found.symm.trans shows.found
  unfold writeVariable
  rw [ask_ok found, pure_bind]
  cases shows.variables with
  | inr inline =>
      obtain ⟨isInline, sameRegion⟩ := inline
      rw [if_neg (by rw [isInline]; decide)]
      exact packs.lockstep_instance isSettled promised hasRole found wellFormed inside alike onward
        joins (sameRegion place ▸ covers)
  | inl byReference =>
      obtain ⟨isReference, width⟩ := byReference
      unfold variableOf at covers
      rw [width] at covers
      rw [if_pos isReference]
      refine (shows.lockstep_allocInstance joins).andThen ?_
      intro target later _ _ more joined member
      refine (lockstep_writePointer joined (covers_more covers more)).andThen ?_
      exact fun _ _ _ _ further ends _ => packs.lockstep_instance isSettled promised hasRole found
        wellFormed inside alike onward ends (covers_of_mem (further member))

/-- A value that is handed on is written in lockstep. -/
theorem Packs.alike_wrapped (packs : Packs packer heap document promises settled) {steps : Nat}
    {earlier : List Handoff} (isSettled : settled id) (promised : promises id term)
    (hasRole : HasRole document term role) (wellFormed : value.WellFormed)
    (inside : WritesInside document packer promises settled write value)
    (alike : AlikeInside coupling packer promises settled write value)
    (enough : role.handoffs < steps) (areEarlier : AreEarlier packer heap earlier role.handoffs) :
    WritesAlike coupling packer (packer.writeWrapped write steps earlier) id path value := by
  induction steps generalizing earlier id term role with
  | zero => exact absurd enough (Nat.not_lt_zero _)
  | succ steps ih =>
      intro type place regions left right found joins covers
      obtain ⟨_, kind, isRole, serves, is⟩ := packs.serving.serves id term promised
      cases hasRole_inj hasRole isRole
      have handoffs := packs.handoffsOf_eq serves
      have isNew := @AreEarlier.isNew packer heap id _ place earlier _ left.data.used areEarlier
        is.declares handoffs
      have leftSame := @writeWrapped_eq packer id place path value write steps earlier left isNew
      have rightSame := @writeWrapped_eq packer id place path value write steps earlier right
        (joins.used.symm ▸ isNew)
      rw [joins.used] at rightSame
      refine .of_eq leftSame rightSame (packs.lockstep_variable isSettled promised hasRole found
        wellFormed inside alike ?_ joins covers)
      intro innerId innerTerm innerRole innerSettled innerPromised hasInner fewer
      exact ih innerSettled innerPromised hasInner (by omega)
        (areEarlier.next is.declares handoffs fewer)

/-- Values up to some height are written in lockstep. -/
theorem Packs.alike_write (packs : Packs packer heap document promises settled) {levels : Nat}
    (isSettled : settled id) (promised : promises id term) (wellFormed : value.WellFormed)
    (low : value.height < levels) :
    WritesAlike coupling packer (packer.write levels) id path value := by
  induction levels generalizing id term path value with
  | zero => exact absurd low (Nat.not_lt_zero _)
  | succ levels ih =>
      obtain ⟨role, _, hasRole, _⟩ := packs.serving.serves id term promised
      refine packs.alike_wrapped isSettled promised hasRole wellFormed ?_ ?_
        (handoffs_lt_limit role) nofun
      · exact fun _ _ _ _ partSettled partPromised partWellFormed lower =>
          packs.writes partSettled partPromised partWellFormed (by omega)
      · exact fun _ _ _ _ partSettled partPromised partWellFormed lower =>
          ih partSettled partPromised partWellFormed (by omega)

/-- A document is packed in lockstep into two destinations.  The first region
that is handed out is the root. -/
theorem Packs.lockstep_pack (packs : Packs packer heap document promises settled) {root : TypeId}
    (isSettled : settled root) (promised : promises root ⟨document, false, false⟩)
    (wellFormed : value.WellFormed) (leftViolations rightViolations : List Violation) :
    Lockstep coupling [] (packer.pack root value) ⟨coupling.first, leftViolations⟩
      ⟨coupling.second, rightViolations⟩ fun place later _ _ =>
        exists type, packer.schema.type root = .ok type ∧ instanceOf place type ∈ later := by
  obtain ⟨role, kind, hasRole, serves, is⟩ := packs.serving.serves root _ promised
  obtain ⟨type, typed, align, shows⟩ := packs.shows isSettled is.declares
  have joins : coupling.Joins [] ⟨coupling.first, []⟩ ⟨coupling.second, []⟩ := ⟨.start, rfl⟩
  have inside : WritesInside document packer promises settled (packer.write value.height) value :=
    fun _ _ _ _ partSettled partPromised partWellFormed lower =>
      packs.writes partSettled partPromised partWellFormed lower
  have alike : AlikeInside coupling packer promises settled (packer.write value.height) value :=
    fun _ _ _ _ partSettled partPromised partWellFormed lower =>
      packs.alike_write partSettled partPromised partWellFormed lower
  have onward : AlikeOnward coupling document packer promises settled
      (packer.writeWrapped (packer.write value.height) handoffLimit []) role.handoffs Path.root
      value :=
    fun _ _ innerRole innerSettled innerPromised hasInner _ => packs.alike_wrapped innerSettled
      innerPromised hasInner wellFormed inside alike (handoffs_lt_limit innerRole) nofun
  have steps (state : PackState) : packer.pack root value state = (do
      let place ← packer.allocInstance type
      packer.writeInstance (packer.writeWrapped (packer.write value.height) handoffLimit [])
        (packer.write value.height) root type place Path.root value
      return place : PackM Offset) ⟨state.data, []⟩ := by
    unfold pack
    simp only [ask_ok shows.found, pure_bind]
    rfl
  have locked : Lockstep coupling [] (do
      let place ← packer.allocInstance type
      packer.writeInstance (packer.writeWrapped (packer.write value.height) handoffLimit [])
        (packer.write value.height) root type place Path.root value
      return place : PackM Offset) ⟨coupling.first, []⟩ ⟨coupling.second, []⟩ fun place later _ _ =>
        exists type, packer.schema.type root = .ok type ∧ instanceOf place type ∈ later := by
    refine (shows.lockstep_allocInstance joins).andThen ?_
    intro place later _ _ _ joined member
    refine (packs.lockstep_instance isSettled promised hasRole shows.found wellFormed inside alike
      onward joined (covers_of_mem member)).andThen ?_
    exact fun _ _ _ _ more ends _ => .pure ends ⟨type, shows.found, more member⟩
  cases locked with
  | ends leftEnds rightEnds more joined isRoot =>
      exact .ends ((steps _).trans leftEnds) ((steps _).trans rightEnds) more joined isRoot
  | fails leftEnds rightEnds alike more joined =>
      exact .fails ((steps _).trans leftEnds) ((steps _).trans rightEnds) alike more joined
  | excused leftEnds isExcused => exact .excused ((steps _).trans leftEnds) isExcused

end Instances

end Packer
end PackedJson
