import PackedJson.Proofs.Packing.Scalars

namespace PackedJson
namespace Packer

open Arena TextSchema

/-!
Writing arrays, and reading them back.

The elements of an array follow one another in a region of their own.  The
walk over the items writes each into its element, so that all of them are
there in the end.
-/

/-- A writer writes a value of a type for a term into any variable. -/
def Writes (document : Json) (packer : Packer) (write : Writer) (id : TypeId) (term : Term)
    (path : Path) (value : Json) : Prop :=
  forall type place state, packer.schema.type id = .ok type ->
    HasRoom state.data (variableOf place type) ->
    FillsVariable document packer id type place term path value (write id place path value) state

section Inner

variable {document : Json} {packer : Packer} {write : Writer} {id : TypeId} {term : Term}
  {path : Path} {value : Json} {type : TypeDef} {place : Offset} {segment : Segment}

/-- A value inside a value, as a part of a walk. -/
def innerPart (packer : Packer) (id : TypeId) (type : TypeDef) (term : Term) (place : Offset)
    (path : Path) (segment : Segment) (value : Json) : Part :=
  ⟨variableOf place type, .inner packer.maxDepth term path segment value, value.WellFormed,
    packer.ReadsVariable id place⟩

/-- A value one step further inside is written, or it is too deep. -/
theorem writesPart_nested
    (writes : Writes document packer write id term (path.child segment) value)
    (found : packer.schema.type id = .ok type) {state : PackState}
    (room : HasRoom state.data (variableOf place type)) :
    WritesPart document packer.maxDepth (innerPart packer id type term place path segment value)
      (gather (packer.nested write id place path segment value)) state := by
  apply Fills.gathers
  unfold nested innerPart Matter.inner
  split
  · exact fills_raise (.settled _)
  · exact writes type place state found room

end Inner

/-! ### Room for elements -/

section Storage

variable {packer : Packer} {heap : Heap} {document : Json} {promises : Promises}
  {settled : TypeId -> Prop} {id : TypeId} {type : TypeDef} {layout : Schema.ArrayLayout}
  {place storage : Offset} {length : Nat} {state : PackState}

/-- A region for elements was handed out. -/
structure HasElements (storage : Offset) (size : Nat) (before : Arena) (fresh : List Extent)
    (after : Arena) : Prop where
  member : (⟨storage.toNat, size⟩ : Extent) ∈ fresh
  behind : before.used ≤ storage.toNat
  room : HasRoom after ⟨storage.toNat, size⟩
  zero : after.Zero ⟨storage.toNat, size⟩
  present : storage.isNull = false

/-- An array was made with room for some elements. -/
structure IsMade (packer : Packer) (layout : Schema.ArrayLayout) (place storage : Offset)
    (length stride : Nat) (before : Arena) (fresh : List Extent) (after : Arena) : Prop where
  parts : HasParts packer layout place storage length after
  empty : length = 0 -> storage = Offset.null
  elements : 0 < length -> HasElements storage (length * stride) before fresh after

theorem argument_eq {argument : TypeId} (isArgument : type.argument = some argument) :
    packer.argument type = pure argument := by
  unfold Packer.argument
  rw [isArgument]

theorem isAlignment_max {align : UInt32} (isAlign : IsAlign align.toNat) :
    isAlignment (max (max align 1).toNat 1) = true := by
  have positive := isAlign.pos
  rw [UInt32.toNat_max, UInt32.toNat_one, Nat.max_eq_left positive, Nat.max_eq_left positive]
  exact isAlign.isAlignment

/-- Empty room is handed out, or there is none. -/
theorem does_makeRoom (size alignment : Nat) (writable : state.data.Writable)
    (supported : isAlignment (max alignment 1) = true) :
    Does [] (onData (Arena.alloc size alignment)) state fun storage fresh after =>
      HasElements storage size state.data fresh after.data := by
  refine (does_alloc size alignment writable supported).imp ?_
  rintro storage fresh after _ ⟨rfl, allocated⟩
  exact ⟨List.mem_cons_self, allocated.start,
    ⟨allocated.grown.writable writable, allocated.within⟩,
    fun position ⟨low, high⟩ => allocated.zero position low high,
    Offset.isNull_eq_false_iff.mpr allocated.within.1⟩

/-- Room for elements is handed out, or there is none. -/
theorem does_allocArray {stride : Nat} {align : UInt32} (writable : state.data.Writable)
    (isAlign : IsAlign align.toNat) :
    Does [] (onData (Arena.allocArray length stride (max align 1).toNat)) state
      fun storage fresh after => HasElements storage (length * stride) state.data fresh after.data := by
  unfold Arena.allocArray
  split
  · exact does_makeRoom _ _ writable (isAlignment_max isAlign)
  · exact ⟨trivial, [], .start⟩

/-- An array with items takes room for them and then writes its record. -/
theorem arrayStorage_eq (isArray : IsArray packer type layout) {argument : TypeId}
    {element : TypeDef} (isArgument : type.argument = some argument)
    (found : packer.schema.type argument = .ok element) :
    packer.arrayStorage type place length =
      if length = 0 then do
        packer.writeParts layout place Offset.null length length
        return Offset.null
      else do
        let storage ←
          onData (Arena.allocArray length element.slot.toNat (max element.align 1).toNat)
        packer.writeParts layout place storage length length
        return storage := by
  unfold arrayStorage writeParts
  split
  next isEmpty =>
    simp only [ask_ok isArray.isLayout, pure_bind, bind_assoc]
  next isFull =>
    simp only [ask_ok isArray.isLayout, argument_eq isArgument, ask_ok found,
      pure_bind, bind_assoc]

theorem does_arrayStorage (isArray : IsArray packer type layout)
    (room : HasRoom state.data (instanceOf place type)) {argument : TypeId} {element : TypeDef}
    (isArgument : type.argument = some argument)
    (found : packer.schema.type argument = .ok element) (isAlign : IsAlign element.align.toNat) :
    Does [instanceOf place type] (packer.arrayStorage type place length) state
      fun storage fresh after =>
        IsMade packer layout place storage length element.slot.toNat state.data fresh after.data := by
  have parts {middle : PackState} (storage : Offset)
      (middleRoom : HasRoom middle.data (instanceOf place type)) :
      Does [instanceOf place type] (do
        packer.writeParts layout place storage length length
        return storage) middle fun result _ after => result = storage ∧
          HasParts packer layout place storage length after.data := by
    refine (does_writeParts isArray middleRoom).andThen (.refl _) ?_
    intro _ fresh after _ hasParts
    exact .pure ⟨rfl, hasParts⟩
  by_cases isEmpty : length = 0
  · rw [arrayStorage_eq isArray isArgument found, if_pos isEmpty]
    refine (parts Offset.null room).imp ?_
    rintro _ fresh after _ ⟨rfl, hasParts⟩
    exact ⟨hasParts, fun _ => rfl, fun positive => absurd isEmpty (Nat.ne_of_gt positive)⟩
  · rw [arrayStorage_eq isArray isArgument found, if_neg isEmpty]
    refine (does_allocArray room.writable isAlign).andThen (.nil _) ?_
    intro storage fresh middle moves has
    refine ((parts storage (room.moved moves)).imp ?_).covered (Covers.refl _).append
    rintro _ more after moved ⟨rfl, hasParts⟩
    have end_ := room.end_le
    have behind := has.behind
    have survives := moved.evolves.preserves_region has.room.writable has.room.end_le
      fun other member => by
        cases List.mem_singleton.mp member
        exact Or.inr (Nat.le_trans end_ behind)
    exact ⟨hasParts, fun isZero => absurd isZero isEmpty, fun _ => ⟨List.mem_append_right _ has.member,
      has.behind, has.room.moved moved, survives.zero has.zero fun _ => id, has.present⟩⟩

end Storage

/-! ### Reading elements -/

section Reading

variable {packer : Packer} {id : TypeId} {type : TypeDef} {layout : Schema.ArrayLayout}
  {place storage : Offset} {length : Nat} {data : Arena}

theorem collect_eq {Result : Type} {read : Nat -> Except InstanceError Result}
    {results : List Result} {start : Nat}
    (reads : forall index (bound : index < results.length),
      read (start + index) = .ok results[index]) :
    Reader.collect read results.length start = .ok results := by
  induction results generalizing start with
  | nil => rfl
  | cons result rest ih =>
      have first := reads 0 (Nat.succ_pos _)
      have others : Reader.collect read rest.length (start + 1) = .ok rest := ih fun index bound => by
        have next := reads (index + 1) (Nat.succ_lt_succ bound)
        rw [Nat.add_right_comm, Nat.add_assoc]
        exact next
      rw [List.length_cons]
      unfold Reader.collect
      rw [Nat.add_zero] at first
      simp only [first, others, bind, Except.bind]
      rfl

theorem exists_list {Item : Type} {holds : Nat -> Item -> Prop} {count : Nat}
    (each : forall index, index < count -> exists item, holds index item) :
    exists items : List Item, items.length = count ∧
      forall index (bound : index < items.length), holds index items[index] := by
  refine ⟨List.ofFn fun index : Fin count => (each index index.isLt).choose, List.length_ofFn, ?_⟩
  intro index bound
  rw [List.getElem_ofFn]
  exact (each index (by simpa only [List.length_ofFn] using bound)).choose_spec

theorem length_eq (isArray : IsArray packer type layout)
    (has : HasParts packer layout place storage length data)
    (room : HasRoom data (instanceOf place type)) :
    (packer.reader data).length ⟨id, type, place⟩ = .ok length := by
  unfold Reader.length Reader.lengthWithin
  simp only [isArray.shape]
  unfold Reader.arrayLength
  rw [arrayParts_of_hasParts isArray has room id]
  rfl

/-- An element is the variable at its position. -/
theorem index_eq (isArray : IsArray packer type layout)
    (has : HasParts packer layout place storage length data)
    (room : HasRoom data (instanceOf place type)) {argument : TypeId} {element : TypeDef}
    (isArgument : type.argument = some argument)
    (found : packer.schema.type argument = .ok element) (present : storage.isNull = false)
    {position : Nat} (bound : position < length)
    (small : storage.toNat + position * element.slot.toNat < Offset.spaceSize) :
    (packer.reader data).index ⟨id, type, place⟩ position =
      (packer.reader data).variableAt argument
        (storage.advance (position * element.slot.toNat)) := by
  have nonNull : storage.nonNull? = some storage := by
    unfold Offset.nonNull?
    rw [present]
    rfl
  unfold Reader.index
  simp only [isArray.shape, ne_eq, not_true_eq_false, if_false, bind, Except.bind]
  rw [arrayParts_of_hasParts isArray has room id, nonNull]
  simp only [bound, decide_true, isArgument]
  simp only [reader, Reader.ofSchema, found]
  rw [if_neg (by omega), Offset.add?_eq_advance small]

/-- The elements of an array are read where they were written. -/
theorem reads_array (isArray : IsArray packer type layout)
    (has : HasParts packer layout place storage length data)
    (room : HasRoom data (instanceOf place type)) {argument : TypeId} {element : TypeDef}
    (isArgument : type.argument = some argument)
    (found : packer.schema.type argument = .ok element)
    (present : 0 < length -> storage.isNull = false ∧
      storage.toNat + length * element.slot.toNat < Offset.spaceSize)
    {values : List Value} (sameLength : values.length = length)
    (reads : forall index (bound : index < values.length), packer.ReadsVariable argument
      (storage.advance (index * element.slot.toNat)) values[index] data) :
    packer.ReadsInstance id type place (.array values) data := by
  obtain ⟨elements, count, areRead⟩ := @exists_list Place
    (fun index found => exists inValues : index < values.length,
      (packer.reader data).variableAt argument
        (storage.advance (index * element.slot.toNat)) = .ok found ∧
      Reads (packer.reader data) found values[index])
    values.length (fun index bound => by
      obtain ⟨found, isFound, isRead⟩ := reads index bound
      exact ⟨found, bound, isFound, isRead⟩)
  have areElements : (packer.reader data).elements ⟨id, type, place⟩ = .ok elements := by
    unfold Reader.elements
    rw [length_eq isArray has room]
    simp only [bind, Except.bind]
    rw [← sameLength, ← count]
    apply collect_eq
    intro index bound
    have inside : index < length := by omega
    obtain ⟨isPresent, small⟩ := present (by omega)
    have smaller := Nat.mul_le_mul_right element.slot.toNat (Nat.le_of_lt inside)
    rw [Nat.zero_add, index_eq isArray has room isArgument found isPresent inside (by omega)]
    obtain ⟨_, isFound, _⟩ := areRead index bound
    exact isFound
  refine .array areElements (List.forall₂_iff_get.mpr ⟨count, fun index inElements _ => ?_⟩)
  obtain ⟨_, _, isRead⟩ := areRead index inElements
  exact isRead

end Reading

/-! ### Arrays -/

section Arrays

variable {packer : Packer} {document : Json} {id argument : TypeId} {type element : TypeDef}
  {layout : Schema.ArrayLayout} {place storage : Offset} {term elementTerm : Term} {path : Path}
  {write : Writer} {items : List Json} {state : PackState}

/-- An item of an array, as a part of a walk. -/
def itemPart (packer : Packer) (argument : TypeId) (element : TypeDef) (term : Term)
    (storage : Offset) (path : Path) (entry : Json × Nat) : Part :=
  innerPart packer argument element term (storage.advance (entry.2 * element.slot.toNat)) path
    (.index entry.2) entry.1

theorem writeItems_eq (first : Option Violation) (start : Nat) :
    packer.writeItems write argument element.slot.toNat storage path items start first =
      (items.zipIdx start).foldlM (fun first entry => do
        let place ← Packer.element storage entry.2 element.slot.toNat
        gather (packer.nested write argument place path (.index entry.2) entry.1) first) first := by
  induction items generalizing first start with
  | nil => rfl
  | cons item rest ih =>
      rw [List.zipIdx_cons, List.foldlM_cons]
      unfold writeItems
      simp only [bind_assoc, ih]

/-- The region of some elements. -/
def elementsOf (storage : Offset) (count : Nat) (element : TypeDef) : Extent :=
  ⟨storage.toNat, count * element.slot.toNat⟩

/-- The region of one element. -/
def elementOf (storage : Offset) (index : Nat) (element : TypeDef) : Extent :=
  ⟨storage.toNat + index * element.slot.toNat, element.slot.toNat⟩

/-- The regions of some elements, one by one. -/
def eachOf (storage : Offset) (count : Nat) (element : TypeDef) : List Extent :=
  (List.range count).map fun index => elementOf storage index element

theorem elementOf_inside (storage : Offset) (element : TypeDef) {index count : Nat}
    (bound : index < count) :
    (elementOf storage index element).Inside (elementsOf storage count element) := by
  have next := Nat.mul_le_mul_right element.slot.toNat (Nat.succ_le_of_lt bound)
  rw [Nat.succ_mul] at next
  exact ⟨Nat.le_add_right _ _, by simp only [elementOf, elementsOf]; omega⟩

theorem elementOf_apart (storage : Offset) (element : TypeDef) {first second : Nat}
    (different : first ≠ second) :
    (elementOf storage first element).Apart (elementOf storage second element) := by
  rcases Nat.lt_or_gt_of_ne different with before | behind
  · have next := Nat.mul_le_mul_right element.slot.toNat (Nat.succ_le_of_lt before)
    rw [Nat.succ_mul] at next
    exact Or.inl (by simp only [elementOf]; omega)
  · have next := Nat.mul_le_mul_right element.slot.toNat (Nat.succ_le_of_lt behind)
    rw [Nat.succ_mul] at next
    exact Or.inr (by simp only [elementOf]; omega)

/-- The position of an element is an offset. -/
theorem toNat_element {data : Arena} {count index : Nat}
    (room : HasRoom data (elementsOf storage count element)) (bound : index < count) :
    (storage.advance (index * element.slot.toNat)).toNat =
      storage.toNat + index * element.slot.toNat := by
  have smaller := Nat.mul_le_mul_right element.slot.toNat (Nat.le_of_lt bound)
  exact room.toNat_advance (by simp only [elementsOf]; omega)

theorem variableOf_element {data : Arena} {count index : Nat}
    (room : HasRoom data (elementsOf storage count element)) (bound : index < count) :
    variableOf (storage.advance (index * element.slot.toNat)) element =
      elementOf storage index element := by
  unfold variableOf elementOf
  rw [toNat_element room bound]

theorem element_position {data : Arena} {count index : Nat}
    (room : HasRoom data (elementsOf storage count element)) (bound : index < count) :
    Packer.element storage index element.slot.toNat =
      pure (storage.advance (index * element.slot.toNat)) := by
  have smaller := Nat.mul_le_mul_right element.slot.toNat (Nat.le_of_lt bound)
  have inUse := room.end_le
  have used := room.writable.used_lt
  simp only [elementsOf] at inUse
  exact element_eq (by omega)

/-- The items of an array, as the parts of a walk. -/
def itemParts (packer : Packer) (argument : TypeId) (element : TypeDef) (term : Term)
    (storage : Offset) (path : Path) (items : List Json) : List Part :=
  items.zipIdx.map (itemPart packer argument element term storage path)

theorem length_itemParts :
    (itemParts packer argument element elementTerm storage path items).length = items.length := by
  simp only [itemParts, List.length_map, List.length_zipIdx]

theorem getElem_itemParts {index : Nat} (bound : index < items.length)
    (inParts : index < (itemParts packer argument element elementTerm storage path items).length) :
    (itemParts packer argument element elementTerm storage path items)[index] =
      itemPart packer argument element elementTerm storage path (items[index], index) := by
  simp only [itemParts, List.getElem_map, List.getElem_zipIdx, Nat.zero_add]

section Regions

variable (room : 0 < items.length -> HasRoom state.data (elementsOf storage items.length element))

include room

theorem region_itemPart {index : Nat} (bound : index < items.length) :
    (itemPart packer argument element elementTerm storage path (items[index], index)).region =
      elementOf storage index element :=
  variableOf_element (room (by omega)) bound

theorem regions_itemParts :
    (itemParts packer argument element elementTerm storage path items).map Part.region =
      eachOf storage items.length element := by
  apply List.ext_getElem
  · simp only [List.length_map, length_itemParts, eachOf, List.length_range]
  · intro index inParts inRange
    have bound : index < items.length := by
      simpa only [eachOf, List.length_map, List.length_range] using inRange
    simp only [List.getElem_map, getElem_itemParts bound, region_itemPart room bound, eachOf,
      List.getElem_range]

theorem areApart_itemParts :
    AreApart (itemParts packer argument element elementTerm storage path items) state.data := by
  refine ⟨fun part member => ?_, List.pairwise_iff_getElem.mpr ?_⟩
  · obtain ⟨index, inParts, rfl⟩ := List.getElem_of_mem member
    have bound : index < items.length := by rwa [length_itemParts] at inParts
    rw [getElem_itemParts bound, region_itemPart room bound]
    exact Nat.le_trans (elementOf_inside storage element bound).2 (room (by omega)).end_le
  · intro first second inFirst inSecond before
    rw [length_itemParts] at inFirst inSecond
    rw [getElem_itemParts inFirst, getElem_itemParts inSecond, region_itemPart room inFirst,
      region_itemPart room inSecond]
    exact elementOf_apart storage element (Nat.ne_of_lt before)

theorem writes_itemParts (found : packer.schema.type argument = .ok element)
    (writes : forall item path, item ∈ items ->
      Writes document packer write argument elementTerm path item) :
    List.Forall₂ (fun part entry => forall middle : PackState, Grown state.data middle.data ->
      WritesPart document packer.maxDepth part (fun first => do
        let place ← Packer.element storage entry.2 element.slot.toNat
        gather (packer.nested write argument place path (.index entry.2) entry.1) first) middle)
      (itemParts packer argument element elementTerm storage path items) items.zipIdx := by
  refine List.forall₂_iff_get.mpr ⟨?_, fun index inParts inItems middle grown => ?_⟩
  · rw [length_itemParts, List.length_zipIdx]
  · have bound : index < items.length := by rwa [length_itemParts] at inParts
    have isEntry : (items.zipIdx 0)[index] = (items[index], index) := by
      simp only [List.getElem_zipIdx, Nat.zero_add]
    have whole := room (by omega)
    simp only [List.get_eq_getElem, isEntry, getElem_itemParts bound]
    rw [element_position whole bound]
    simp only [pure_bind]
    refine writesPart_nested (writes _ _ (List.getElem_mem bound)) found ?_
    rw [variableOf_element whole bound]
    exact (whole.inside (elementOf_inside storage element bound)).grown grown

end Regions

/-- The items of an array were written into its elements. -/
def AreElements (packer : Packer) (argument : TypeId) (element : TypeDef) (storage : Offset)
    (items : List Json) (before after : Arena) (values : List Value) : Prop :=
  values.length = items.length ∧
    (before.Zero (elementsOf storage items.length element) ->
      (forall item, item ∈ items -> item.WellFormed) ->
      forall index (bound : index < values.length),
        Lasts (Since (elementsOf storage items.length element) before.used after.used) after
          (packer.ReadsVariable argument (storage.advance (index * element.slot.toNat))
            values[index]))

theorem areElements_of_areWritten {before after : Arena} {values : List Value}
    (room : 0 < items.length -> HasRoom before (elementsOf storage items.length element))
    (written : AreWritten (itemParts packer argument element elementTerm storage path items)
      (values.map Verdict.fits) before after) :
    AreElements packer argument element storage items before after values := by
  have length := written.length_eq
  rw [length_itemParts, List.length_map] at length
  refine ⟨length.symm, fun zero wellFormed index bound => ?_⟩
  have inItems : index < items.length := by omega
  have whole := room (by omega)
  have inside := elementOf_inside storage element inItems
  have lasts := (List.forall₂_iff_get.mp written).2 index (by rwa [length_itemParts])
    (by rwa [List.length_map]) values[index]
  simp only [List.get_eq_getElem, getElem_itemParts inItems, List.getElem_map, itemPart,
    innerPart, variableOf_element whole inItems] at lasts
  exact (lasts trivial (zero.inside inside) (wellFormed _ (List.getElem_mem inItems))).mono
    fun position since => since.mono inside (Nat.le_refl _) (Nat.le_refl _)

/-- The walk over the items of an array. -/
theorem run_writeItems (found : packer.schema.type argument = .ok element)
    (writes : forall item path, item ∈ items ->
      Writes document packer write argument elementTerm path item)
    (room : 0 < items.length -> HasRoom state.data (elementsOf storage items.length element))
    (writable : state.data.Writable) (first : Option Violation) :
    Run (packer.writeItems write argument element.slot.toNat storage path items 0 first) state
      (fun next after => exists verdicts, Gathered document packer.maxDepth
        (eachOf storage items.length element)
        (Matter.items packer.maxDepth elementTerm path items 0) state first next verdicts after ∧
        forall values : List Value, verdicts = values.map Verdict.fits ->
          AreElements packer argument element storage items state.data after.data values)
      (Refuses (forall matter, matter ∈ Matter.items packer.maxDepth elementTerm path items 0 ->
          IsDecided document packer.maxDepth matter)
        (eachOf storage items.length element) state) := by
  have matters : (itemParts packer argument element elementTerm storage path items).map Part.matter =
      Matter.items packer.maxDepth elementTerm path items 0 := by
    simp only [itemParts, List.map_map]
    rfl
  have regions : (itemParts packer argument element elementTerm storage path items).map
      Part.region = eachOf storage items.length element := regions_itemParts room
  rw [writeItems_eq, ← regions, ← matters]
  refine Run.imp (run_walk (.refl state.data) writable (areApart_itemParts room)
    (writes_itemParts room found writes) first) ?_ fun _ _ => Refuses.mono List.forall_mem_map.mp
  rintro next after ⟨verdicts, gathered, written⟩
  refine ⟨verdicts, gathered, ?_⟩
  rintro values rfl
  exact areElements_of_areWritten room written

theorem covers_eachOf {fresh owned : List Extent} {count : Nat}
    (member : 0 < count -> elementsOf storage count element ∈ fresh) :
    Covers (fresh ++ owned) (eachOf storage count element) := by
  intro region isRegion
  obtain ⟨index, inRange, rfl⟩ := List.mem_map.mp isRegion
  have bound := List.mem_range.mp inRange
  exact ⟨_, List.mem_append_left _ (member (by omega)), elementOf_inside storage element bound⟩

/-- A value is written as an array. -/
theorem fills_array (hasRole : HasRole document term (.array elementTerm))
    (isArray : IsArray packer type layout) (isArgument : type.argument = some argument)
    (found : packer.schema.type argument = .ok element) (isAlign : IsAlign element.align.toNat)
    {value : Json} (writes : forall items item path, value = .array items -> item ∈ items ->
      Writes document packer write argument elementTerm path item)
    (room : HasRoom state.data (instanceOf place type)) :
    FillsInstance document packer id type place term path value
      (packer.array write type place path value) state := by
  cases value with
  | array items =>
      have judged (verdicts : List Verdict) := @Judges.array document packer.maxDepth term
        elementTerm path items verdicts hasRole
      unfold array
      simp only [argument_eq isArgument, ask_ok found, pure_bind]
      refine Run.andThen (does_arrayStorage isArray room isArgument found isAlign) ?_
        fun _ _ refuses => refuses.fails fun _ => trivial
      rintro storage middle ⟨fresh, moves, made⟩
      have writable := (room.moved moves).writable
      have elementsRoom (positive : 0 < items.length) :
          HasRoom middle.data (elementsOf storage items.length element) :=
        (made.elements positive).room
      have covers : Covers (fresh ++ [instanceOf place type])
          (eachOf storage items.length element) :=
        covers_eachOf fun positive => (made.elements positive).member
      refine Run.andThen (run_writeItems found (writes items · · rfl) elementsRoom writable none)
        ?_ ?_
      · rintro first after ⟨verdicts, gathered, areElements⟩
        refine fills_settle (gathered.of_moves moves covers) judged ?_
        intro values same _ wellFormed later preserves
        obtain ⟨more, evolves⟩ := gathered.changes
        have middleRoom := room.moved moves
        have grown := evolves.grown writable
        have earlier := (moves.evolves.grown room.writable).used
        have laterRoom := (middleRoom.grown grown).grown preserves.grown
        have survives : Preserves (instanceOf place type).Has middle.data after.data := by
          refine evolves.preserves_region writable middleRoom.end_le fun other member => ?_
          obtain ⟨index, inRange, rfl⟩ := List.mem_map.mp member
          have behind := (made.elements (by have := List.mem_range.mp inRange; omega)).behind
          have end_ := room.end_le
          exact Or.inl (by simp only [elementOf]; omega)
        have hasParts := (made.parts.preserved isArray middleRoom survives fun _ has => has).preserved
          isArray (middleRoom.grown grown) preserves fun _ => Or.inl
        obtain ⟨sameLength, areRead⟩ := areElements values same
        refine reads_array isArray hasParts laterRoom isArgument found (fun positive => ?_) sameLength
          fun index bound => ?_
        · have has := made.elements positive
          exact ⟨has.present, Nat.lt_of_le_of_lt has.room.end_le has.room.writable.used_lt⟩
        · have has := made.elements (by omega)
          cases wellFormed with
          | array areWellFormed =>
              refine areRead has.zero areWellFormed index bound later (preserves.mono ?_)
              intro position since
              cases since with
              | inl inside =>
                  have stop := has.room.end_le
                  exact Since.of_behind has.behind (Nat.le_trans stop grown.used) inside
              | inr behind => exact Or.inr ⟨Nat.le_trans earlier behind.1, behind.2⟩
      · exact fun failure after refuses =>
          (refuses.of_moves moves covers).fails (IsDecided.items hasRole)
  | _ => exact fills_complaint hasRole rfl

end Arrays

end Packer
end PackedJson
