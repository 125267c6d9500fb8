import PackedJson.Proofs.Arena.Twins
import PackedJson.Proofs.Packing.Maps

namespace PackedJson

/-- The destination has no room left for a request. -/
def PackError.IsExhausted : PackError -> Prop
  | .outOfMemory (.exhausted ..) => True
  | _ => False

namespace Packer

open Arena

/-!
Packing into two destinations at once.

A step that never reads what it has not written does the same in two
destinations, as long as both answer its requests for room alike.  `Lockstep`
says so of a step that starts in two states: both runs end with one result, or
with failures that count as alike, or the first run fails in a way that excuses
it from the comparison.  Either way both destinations went through the same
changes up to there.
-/

/-- Two destinations that answer requests alike.  Some failures of the first
one are excused, and then nothing is said of the second one. -/
structure Coupling where
  first : Arena
  second : Arena
  excused : PackError -> Prop
  alike : PackError -> PackError -> Prop
  firstWritable : first.Writable
  secondWritable : second.Writable
  used : second.used = first.used
  /-- Only the room of a destination makes a difference. -/
  self : forall failure, ¬ failure.IsExhausted -> alike failure failure
  violation : forall failure other, alike failure other -> other.violation? = failure.violation?
  excusedViolation : forall failure, excused failure -> failure.violation? = none
  granted : forall regions left right size alignment offset leftAfter,
    Twins first second regions left right -> isAlignment (max alignment 1) = true ->
    alloc size alignment left = .ok offset leftAfter ->
    exists rightAfter, alloc size alignment right = .ok offset rightAfter
  refused : forall regions left right size alignment cause leftAfter,
    Twins first second regions left right -> isAlignment (max alignment 1) = true ->
    alloc size alignment left = .error cause leftAfter -> excused (.ofArena cause) ∨
      exists other rightAfter, alloc size alignment right = .error other rightAfter ∧
        alike (.ofArena cause) (.ofArena other)

variable {Result Next Item State : Type} {coupling : Coupling} {regions : List Extent}
  {left right : PackState}

/-- The destinations have gone through the same changes, and the same
violations were noted. -/
structure Coupling.Joins (coupling : Coupling) (regions : List Extent) (left right : PackState) :
    Prop where
  twins : Twins coupling.first coupling.second regions left.data right.data
  violations : right.violations = left.violations

theorem Coupling.Joins.used (joins : coupling.Joins regions left right) :
    right.data.used = left.data.used :=
  joins.twins.used coupling.firstWritable coupling.secondWritable coupling.used

/-- A step does the same in two states. -/
inductive Lockstep (coupling : Coupling) (regions : List Extent) (step : PackM Result)
    (left right : PackState) (good : Result -> List Extent -> PackState -> PackState -> Prop) :
    Prop where
  | ends {result : Result} {leftAfter rightAfter : PackState} {later : List Extent} :
      step left = .ok result leftAfter -> step right = .ok result rightAfter ->
      regions ⊆ later -> coupling.Joins later leftAfter rightAfter ->
      good result later leftAfter rightAfter -> Lockstep coupling regions step left right good
  | fails {failure other : PackError} {leftAfter rightAfter : PackState} {later : List Extent} :
      step left = .error failure leftAfter -> step right = .error other rightAfter ->
      coupling.alike failure other -> regions ⊆ later ->
      coupling.Joins later leftAfter rightAfter -> Lockstep coupling regions step left right good
  | excused {failure : PackError} {leftAfter : PackState} :
      step left = .error failure leftAfter -> coupling.excused failure ->
      Lockstep coupling regions step left right good

/-- A step does the same in two states, whatever it results in. -/
abbrev InStep (coupling : Coupling) (regions : List Extent) (step : PackM Result)
    (left right : PackState) : Prop :=
  Lockstep coupling regions step left right fun _ _ _ _ => True

section Rules

variable {step : PackM Result} {good weaker : Result -> List Extent -> PackState -> PackState -> Prop}
  {nextGood : Next -> List Extent -> PackState -> PackState -> Prop}

theorem bind_of_ok {next : Result -> PackM Next} {before after : PackState} {result : Result}
    (ends : step before = .ok result after) : (step >>= next) before = next result after := by
  simp only [bind, EStateM.bind, ends]

theorem bind_of_error {next : Result -> PackM Next} {before after : PackState}
    {failure : PackError} (ends : step before = .error failure after) :
    (step >>= next) before = .error failure after := by
  simp only [bind, EStateM.bind, ends]

theorem Lockstep.imp (locked : Lockstep coupling regions step left right good)
    (onGood : forall result later leftAfter rightAfter, regions ⊆ later ->
      coupling.Joins later leftAfter rightAfter -> good result later leftAfter rightAfter ->
      weaker result later leftAfter rightAfter) :
    Lockstep coupling regions step left right weaker := by
  cases locked with
  | ends leftEnds rightEnds more joins isGood =>
      exact .ends leftEnds rightEnds more joins (onGood _ _ _ _ more joins isGood)
  | fails leftEnds rightEnds alike more joins => exact .fails leftEnds rightEnds alike more joins
  | excused leftEnds isExcused => exact .excused leftEnds isExcused

/-- The step may be written in another way. -/
theorem Lockstep.of_eq {other : PackM Result} (leftSame : step left = other left)
    (rightSame : step right = other right)
    (locked : Lockstep coupling regions other left right good) :
    Lockstep coupling regions step left right good := by
  cases locked with
  | ends leftEnds rightEnds more joins isGood =>
      exact .ends (leftSame.trans leftEnds) (rightSame.trans rightEnds) more joins isGood
  | fails leftEnds rightEnds alike more joins =>
      exact .fails (leftSame.trans leftEnds) (rightSame.trans rightEnds) alike more joins
  | excused leftEnds isExcused => exact .excused (leftSame.trans leftEnds) isExcused

/-- What is known of either run holds at the end of both. -/
theorem Lockstep.withRuns (locked : Lockstep coupling regions step left right good)
    {leftGood rightGood : Result -> PackState -> Prop}
    {leftBad rightBad : PackError -> PackState -> Prop}
    (leftRun : Run step left leftGood leftBad) (rightRun : Run step right rightGood rightBad) :
    Lockstep coupling regions step left right fun result later leftAfter rightAfter =>
      good result later leftAfter rightAfter ∧ leftGood result leftAfter ∧
        rightGood result rightAfter := by
  cases locked with
  | ends leftEnds rightEnds more joins isGood =>
      exact .ends leftEnds rightEnds more joins
        ⟨isGood, leftRun.of_ok leftEnds, rightRun.of_ok rightEnds⟩
  | fails leftEnds rightEnds alike more joins => exact .fails leftEnds rightEnds alike more joins
  | excused leftEnds isExcused => exact .excused leftEnds isExcused

theorem Lockstep.pure {result : Result} (joins : coupling.Joins regions left right)
    (isGood : good result regions left right) :
    Lockstep coupling regions (pure result) left right good :=
  .ends rfl rfl (List.Subset.refl _) joins isGood

theorem Lockstep.throw {failure : PackError} (joins : coupling.Joins regions left right)
    (other : ¬ failure.IsExhausted) : Lockstep coupling regions (throw failure) left right good :=
  .fails rfl rfl (coupling.self failure other) (List.Subset.refl _) joins

/-- Two steps after one another. -/
theorem Lockstep.andThen {next : Result -> PackM Next}
    (locked : Lockstep coupling regions step left right good)
    (continued : forall result later leftAfter rightAfter, regions ⊆ later ->
      coupling.Joins later leftAfter rightAfter -> good result later leftAfter rightAfter ->
      Lockstep coupling later (next result) leftAfter rightAfter nextGood) :
    Lockstep coupling regions (step >>= next) left right nextGood := by
  cases locked with
  | ends leftEnds rightEnds more joins isGood =>
      have leftNext : (step >>= next) left = next _ _ := bind_of_ok leftEnds
      have rightNext : (step >>= next) right = next _ _ := bind_of_ok rightEnds
      cases continued _ _ _ _ more joins isGood with
      | ends leftLast rightLast further lastJoins isNext =>
          exact .ends (leftNext.trans leftLast) (rightNext.trans rightLast)
            (List.Subset.trans more further) lastJoins isNext
      | fails leftLast rightLast alike further lastJoins =>
          exact .fails (leftNext.trans leftLast) (rightNext.trans rightLast) alike
            (List.Subset.trans more further) lastJoins
      | excused leftLast isExcused => exact .excused (leftNext.trans leftLast) isExcused
  | fails leftEnds rightEnds alike more joins =>
      exact .fails (bind_of_error leftEnds) (bind_of_error rightEnds) alike more joins
  | excused leftEnds isExcused => exact .excused (bind_of_error leftEnds) isExcused

end Rules

/-! ### Regions that were handed out -/

section Regions

variable {region inner : Extent}

theorem Coupling.Joins.leftRoom (joins : coupling.Joins regions left right)
    (covers : Covers regions [region]) : HasRoom left.data region := by
  obtain ⟨whole, member, inside⟩ := covers region List.mem_cons_self
  exact HasRoom.inside ⟨joins.twins.leftWritable coupling.firstWritable,
    joins.twins.evolvesLeft.within coupling.firstWritable member⟩ inside

theorem Coupling.Joins.rightRoom (joins : coupling.Joins regions left right)
    (covers : Covers regions [region]) : HasRoom right.data region := by
  obtain ⟨whole, member, inside⟩ := covers region List.mem_cons_self
  exact HasRoom.inside ⟨joins.twins.rightWritable coupling.secondWritable,
    joins.twins.evolvesRight.within coupling.secondWritable member⟩ inside

theorem covers_inside (covers : Covers regions [region]) (inside : inner.Inside region) :
    Covers regions [inner] :=
  covers.trans (.one inside)

theorem covers_more {later : List Extent} (covers : Covers regions [region])
    (more : regions ⊆ later) : Covers later [region] :=
  (Covers.of_subset fun _ member => more member).trans covers

theorem covers_of_mem (member : region ∈ regions) : Covers regions [region] :=
  .single member ⟨Nat.le_refl _, Nat.le_refl _⟩

end Regions

/-! ### Room and numbers -/

section Writes

variable {size alignment width value : Nat} {place : Offset} {region : Extent}

/-- Room is handed out in both destinations or in none. -/
theorem lockstep_alloc (joins : coupling.Joins regions left right)
    (supported : isAlignment (max alignment 1) = true) :
    Lockstep coupling regions (onData (Arena.alloc size alignment)) left right
      fun storage later _ _ => ⟨storage.toNat, size⟩ ∈ later := by
  obtain ⟨leftData, leftViolations⟩ := left
  obtain ⟨rightData, rightViolations⟩ := right
  have writable := joins.twins.leftWritable coupling.firstWritable
  have writableToo := joins.twins.rightWritable coupling.secondWritable
  cases leftEnds : Arena.alloc size alignment leftData with
  | ok offset leftAfter =>
      obtain ⟨rightAfter, rightEnds⟩ :=
        coupling.granted _ _ _ _ _ _ _ joins.twins supported leftEnds
      have leftGrants : onData (Arena.alloc size alignment) ⟨leftData, leftViolations⟩ =
          .ok offset ⟨leftAfter, leftViolations⟩ := by
        simp only [onData, leftEnds]
      have rightGrants : onData (Arena.alloc size alignment) ⟨rightData, rightViolations⟩ =
          .ok offset ⟨rightAfter, rightViolations⟩ := by
        simp only [onData, rightEnds]
      exact .ends leftGrants rightGrants (List.subset_cons_self _ _)
        ⟨joins.twins.alloc leftEnds rightEnds, joins.violations⟩ List.mem_cons_self
  | error cause leftAfter =>
      cases ((run_alloc size alignment writable supported).of_error leftEnds).1
      have leftFails : onData (Arena.alloc size alignment) ⟨leftData, leftViolations⟩ =
          .error (.ofArena cause) ⟨leftData, leftViolations⟩ := by
        simp only [onData, leftEnds]
      cases coupling.refused _ _ _ _ _ _ _ joins.twins supported leftEnds with
      | inl isExcused => exact .excused leftFails isExcused
      | inr refused =>
          obtain ⟨other, rightAfter, rightEnds, alike⟩ := refused
          cases ((run_alloc size alignment writableToo supported).of_error rightEnds).1
          refine .fails leftFails ?_ alike (List.Subset.refl _) joins
          simp only [onData, rightEnds]

/-- Bytes are written into a region that was handed out. -/
theorem lockstep_write {source : ByteArray} (joins : coupling.Joins regions left right)
    (member : region ∈ regions) (inside : Extent.Inside ⟨place.toNat, source.size⟩ region)
    (before : place.toNat < region.start + region.length) :
    InStep coupling regions (onData (Arena.write place source)) left right := by
  obtain ⟨leftData, leftViolations⟩ := left
  obtain ⟨rightData, rightViolations⟩ := right
  have covers := covers_of_mem member
  have room := joins.leftRoom covers
  have roomToo := joins.rightRoom covers
  have leftRun := run_write place source room.writable room.within inside.1 inside.2 before
  have rightRun := run_write place source roomToo.writable roomToo.within inside.1 inside.2 before
  cases leftEnds : Arena.write place source leftData with
  | error => exact (leftRun.of_error leftEnds).elim
  | ok _ leftAfter =>
      cases rightEnds : Arena.write place source rightData with
      | error => exact (rightRun.of_error rightEnds).elim
      | ok _ rightAfter =>
          have leftWrites : onData (Arena.write place source) ⟨leftData, leftViolations⟩ =
              .ok () ⟨leftAfter, leftViolations⟩ := by
            simp only [onData, leftEnds]
          have rightWrites : onData (Arena.write place source) ⟨rightData, rightViolations⟩ =
              .ok () ⟨rightAfter, rightViolations⟩ := by
            simp only [onData, rightEnds]
          exact .ends leftWrites rightWrites (List.Subset.refl _)
            ⟨joins.twins.write member inside leftEnds rightEnds, joins.violations⟩ trivial

/-- A number of some bytes is written as these bytes. -/
theorem writeUnsigned_eq {state : PackState} (room : HasRoom state.data ⟨place.toNat, width⟩)
    (positive : 0 < width) (narrow : width ≤ 8) :
    writeUnsigned place width value state =
      onData (Arena.write place (LittleEndian.encode width value).toByteArray) state := by
  have readable := isReadable_of_within room.within (Nat.le_refl _) (Nat.le_refl _)
    (Nat.lt_add_of_pos_right positive)
  have open_ : state.data.isReadOnly = false := by
    obtain ⟨_, shape⟩ := room.writable
    unfold isReadOnly
    cases kind : state.data.storage <;> simp only [kind] at shape ⊢
  have allowed : state.data.checkWritable place width = .ok () := by
    simp only [checkWritable, open_, readable, Bool.false_eq_true, if_false, if_true]
  simp only [writeUnsigned, Nat.ne_of_gt positive, if_false, allowed, Nat.not_lt.mpr narrow]

theorem lockstep_writeUnsigned (joins : coupling.Joins regions left right)
    (covers : Covers regions [⟨place.toNat, width⟩]) (narrow : width ≤ 8) :
    InStep coupling regions (writeUnsigned place width value) left right := by
  rcases Nat.eq_zero_or_pos width with none | positive
  · subst none
    exact .ends rfl rfl (List.Subset.refl _) joins trivial
  · have leftEq := @writeUnsigned_eq width value place left (joins.leftRoom covers) positive narrow
    have rightEq := @writeUnsigned_eq width value place right (joins.rightRoom covers) positive narrow
    obtain ⟨whole, member, low, high⟩ := covers _ List.mem_cons_self
    have size : (LittleEndian.encode width value).toByteArray.size = width := by
      rw [List.size_toByteArray, LittleEndian.length_encode]
    simp only at low high
    exact .of_eq leftEq rightEq
      (lockstep_write joins member ⟨low, by simp only [size]; omega⟩ (by omega))

/-- Filling a region with zeros is writing zeros into it. -/
theorem zero_eq_write (place : Offset) (length : Nat) :
    Arena.zero place length = Arena.write place (zeros length) := by
  funext data
  unfold Arena.zero Arena.write
  rw [size_zeros]
  cases data.checkWritable place length <;> rfl

theorem lockstep_zero (joins : coupling.Joins regions left right)
    (covers : Covers regions [⟨place.toNat, width⟩]) (positive : 0 < width) :
    InStep coupling regions (onData (Arena.zero place width)) left right := by
  obtain ⟨whole, member, low, high⟩ := covers _ List.mem_cons_self
  simp only at low high
  rw [zero_eq_write]
  exact lockstep_write joins member ⟨low, by simp only [size_zeros]; omega⟩ (by omega)

variable {packer : Packer} {target : Offset}

theorem lockstep_writeSize (joins : coupling.Joins regions left right)
    (covers : Covers regions [⟨place.toNat, packer.target.pointerWidth⟩]) :
    InStep coupling regions (packer.writeSize place value) left right := by
  unfold writeSize
  split
  · exact .throw joins id
  · exact lockstep_writeUnsigned joins covers packer.target.pointerWidth_le

theorem lockstep_writePointer (joins : coupling.Joins regions left right)
    (covers : Covers regions [⟨place.toNat, packer.target.pointerWidth⟩]) :
    InStep coupling regions (packer.writePointer place target) left right := by
  unfold writePointer
  split
  · exact lockstep_writeUnsigned joins covers packer.target.pointerWidth_le
  · simp only
    split
    · exact .throw joins id
    · exact lockstep_writeUnsigned joins covers packer.target.pointerWidth_le

theorem onData_bind {first : ArenaM Result} {next : Result -> ArenaM Next} :
    onData (first >>= next) = onData first >>= fun result => onData (next result) := by
  funext state
  obtain ⟨data, violations⟩ := state
  simp only [onData, bind, EStateM.bind]
  cases first data <;> rfl

/-- A text goes to a region of its own, in one place in both destinations. -/
theorem lockstep_storeText (joins : coupling.Joins regions left right) (text : String) :
    InStep coupling regions (onData (Arena.storeText text)) left right := by
  have size : text.toUTF8.size = text.utf8ByteSize := rfl
  unfold Arena.storeText
  rw [onData_bind]
  refine (lockstep_alloc joins rfl).andThen ?_
  intro start later _ _ _ joined member
  rw [onData_bind]
  have inside : Extent.Inside ⟨start.toNat, text.toUTF8.size⟩
      ⟨start.toNat, text.utf8ByteSize + 1⟩ := ⟨Nat.le_refl _, by simp only [size]; omega⟩
  refine (lockstep_write joined member inside (by simp only; omega)).andThen ?_
  exact fun _ _ _ _ _ written _ => .ends rfl rfl (List.Subset.refl _) written trivial

end Writes

/-! ### Arrays and texts -/

section Arrays

variable {packer : Packer} {type : TypeDef} {layout : Schema.ArrayLayout} {place storage : Offset}
  {length capacity : Nat}

/-- The record of an array is written. -/
theorem lockstep_writeParts (isArray : IsArray packer type layout)
    (joins : coupling.Joins regions left right) (covers : Covers regions [instanceOf place type]) :
    InStep coupling regions (packer.writeParts layout place storage capacity length) left right := by
  obtain ⟨pointerInside, capacityInside, lengthInside⟩ := isArray.inside place
  have room := joins.leftRoom covers
  have position {delta : UInt32}
      (inside : (packer.wordAt place delta).Inside (instanceOf place type)) :
      Packer.inside place delta = pure (place.advance delta.toNat) :=
    room.inside_eq (Nat.le_trans (Nat.le_add_right _ _) inside.2)
  have word {delta : UInt32} {later : List Extent} (more : regions ⊆ later)
      (inside : (packer.wordAt place delta).Inside (instanceOf place type)) :
      Covers later [⟨(place.advance delta.toNat).toNat, packer.target.pointerWidth⟩] := by
    rw [word_eq room inside]
    exact covers_inside (covers_more covers more) inside
  unfold writeParts
  rw [position pointerInside, position capacityInside, position lengthInside]
  simp only [pure_bind]
  refine (lockstep_writePointer joins (word (List.Subset.refl _) pointerInside)).andThen ?_
  intro _ second _ _ more joined _
  refine (lockstep_writeSize joined (word more capacityInside)).andThen ?_
  intro _ third _ _ further ends _
  exact lockstep_writeSize ends (word (List.Subset.trans more further) lengthInside)

/-- A text is written. -/
theorem lockstep_writeText (isArray : IsArray packer type layout)
    (joins : coupling.Joins regions left right) (covers : Covers regions [instanceOf place type])
    (text : String) : InStep coupling regions (packer.writeText type place text) left right := by
  rw [writeText_eq isArray]
  refine (lockstep_storeText joins text).andThen ?_
  exact fun _ _ _ _ more joined _ => lockstep_writeParts isArray joined (covers_more covers more)

/-- An array is made with room for some elements. -/
theorem lockstep_arrayStorage (isArray : IsArray packer type layout)
    (joins : coupling.Joins regions left right) (covers : Covers regions [instanceOf place type])
    {argument : TypeId} {element : TypeDef} (isArgument : type.argument = some argument)
    (found : packer.schema.type argument = .ok element) (isAlign : IsAlign element.align.toNat) :
    Lockstep coupling regions (packer.arrayStorage type place length) left right
      fun storage later _ _ => 0 < length -> elementsOf storage length element ∈ later := by
  have parts {later : List Extent} {leftAfter rightAfter : PackState} (storage : Offset)
      (more : regions ⊆ later) (joined : coupling.Joins later leftAfter rightAfter)
      (member : 0 < length -> elementsOf storage length element ∈ later) :
      Lockstep coupling later (do
        packer.writeParts layout place storage length length
        return storage) leftAfter rightAfter fun storage later _ _ =>
          0 < length -> elementsOf storage length element ∈ later := by
    refine (lockstep_writeParts isArray joined (covers_more covers more)).andThen ?_
    exact fun _ _ _ _ further ends _ => .pure ends fun positive => further (member positive)
  rw [arrayStorage_eq isArray isArgument found]
  split
  next isEmpty =>
    exact parts _ (List.Subset.refl _) joins fun positive => absurd isEmpty (Nat.ne_of_gt positive)
  next =>
    have makes : Lockstep coupling regions
        (onData (Arena.allocArray length element.slot.toNat (max element.align 1).toNat)) left right
        fun storage later _ _ => elementsOf storage length element ∈ later := by
      unfold Arena.allocArray
      split
      · exact lockstep_alloc joins (isAlignment_max isAlign)
      · exact .throw joins id
    exact makes.andThen fun storage later _ _ more joined member =>
      parts storage more joined fun _ => member

end Arrays

end Packer
end PackedJson
