import Mathlib.Algebra.GroupWithZero.Nat
import PackedJson.Proofs.Packing.Courses
import PackedJson.Proofs.Packing.Indifference
import PackedJson.Proofs.TextSchema.Belonging

namespace PackedJson

open Arena

/-!
The room that packing takes.

A step spends some room when it takes no more than that of the destination, and
lacks room only where there is less than that to begin with.  What steps spend
adds up, and so the room that a document takes can be stated in advance: it
depends on the document and on the size of the largest type only.  Maps are left
out here, and so are results, where the message of a violation takes room that
does not depend on the document alone.
-/

/-! ### Room in an arena -/

namespace Arena

/-- The room behind the used part of an arena, up to the end of the buffer in
which that part ends. -/
def room (arena : Arena) : Nat :=
  match arena.storage with
  | .owned capacity buffers _ =>
      if arena.used / capacity < buffers then capacity - arena.used % capacity else 0
  | .borrowed => min arena.bytes.size positionLimit - arena.used
  | _ => 0

theorem room_le {arena : Arena} (writable : arena.Writable) : arena.room ≤ positionLimit := by
  obtain ⟨_, shape⟩ := writable
  unfold room
  split
  next capacity buffers growable isOwned =>
    rw [isOwned] at shape
    obtain ⟨_, _, some, limit, _⟩ := shape
    have one : 1 * capacity ≤ buffers * capacity := Nat.mul_le_mul_right capacity some
    split <;> omega
  · omega
  · exact Nat.zero_le _

theorem Written.room {before after : Arena} {start : Nat} {source : List UInt8}
    (written : Written before start source after) : after.room = before.room := by
  unfold Arena.room
  rw [written.storage, written.used, written.size]

/-- A request is placed in the buffer in which the used part ends, if there is
room for it. -/
theorem ownedPlacement_of_room {capacity buffers used size exponent : Nat} {growable : Bool}
    (inside : used / capacity < buffers)
    (enough : size + 2 ^ exponent ≤ capacity - used % capacity) :
    ownedPlacement capacity buffers used growable size (2 ^ exponent) =
      .ok ⟨alignUp used (2 ^ exponent), alignUp used (2 ^ exponent) + size, buffers⟩ ∧
    (alignUp used (2 ^ exponent) + size) / capacity = used / capacity := by
  have above := le_alignUp used exponent
  have below := alignUp_lt used exponent
  have positive : 0 < capacity := by omega
  have parts := Nat.div_add_mod' used capacity
  have rest := Nat.mod_lt used positive
  have next : (used / capacity + 1) * capacity = used / capacity * capacity + capacity := by
    rw [Nat.add_mul, Nat.one_mul]
  have same {position : Nat} (low : used ≤ position)
      (high : position < used / capacity * capacity + capacity) :
      position / capacity = used / capacity :=
    Nat.div_eq_of_lt_le (by omega) (by omega)
  have start := same above (by omega)
  refine ⟨?_, same (by omega) (by omega)⟩
  unfold ownedPlacement
  simp only [start, next]
  rw [if_neg (by omega), if_pos ⟨inside, by omega⟩]

theorem borrowedPlacement_of_room {length used size exponent : Nat}
    (enough : size + 2 ^ exponent ≤ min length positionLimit - used) :
    borrowedPlacement length used size (2 ^ exponent) =
      .ok ⟨alignUp used (2 ^ exponent), alignUp used (2 ^ exponent) + size, 1⟩ := by
  have below := alignUp_lt used exponent
  have positive : 0 < 2 ^ exponent := Nat.two_pow_pos exponent
  unfold borrowedPlacement
  simp only
  rw [if_neg (by omega), if_neg (by omega)]

/-- A request is placed where there is room for it and for a gap in front of it,
and takes no more. -/
theorem exists_placement {arena : Arena} {size alignment : Nat} (writable : arena.Writable)
    (supported : isAlignment (max alignment 1) = true) (enough : size + 16 ≤ arena.room) :
    exists place, arena.placement size alignment = .ok place ∧
      arena.room ≤ (arena.occupy place).room + (size + 16) := by
  obtain ⟨exponent, small, power⟩ := exists_of_isAlignment supported
  have gap : 2 ^ exponent ≤ 2 ^ 4 := Nat.pow_le_pow_right (by decide) small
  obtain ⟨storage, bytes, used⟩ := arena
  have below := alignUp_lt used exponent
  unfold placement
  rw [if_neg (not_not.mpr supported), power]
  cases storage with
  | absent => exact absurd writable.2 id
  | readOnly => exact absurd writable.2 id
  | owned capacity buffers growable =>
      unfold room at enough
      simp only at enough
      split at enough
      next inside =>
        obtain ⟨placed, sameBuffer⟩ := @ownedPlacement_of_room capacity buffers used size exponent
          growable inside (by omega)
        refine ⟨_, placed, ?_⟩
        have parts := Nat.div_add_mod' used capacity
        have laterParts := Nat.div_add_mod' (alignUp used (2 ^ exponent) + size) capacity
        unfold room occupy
        simp only [sameBuffer, inside, if_true] at laterParts ⊢
        omega
      · omega
  | borrowed =>
      unfold room at enough
      simp only at enough
      refine ⟨_, @borrowedPlacement_of_room bytes.size used size exponent (by omega), ?_⟩
      have fits : alignUp used (2 ^ exponent) + (zeros (alignUp used (2 ^ exponent) + size -
          alignUp used (2 ^ exponent))).size ≤ bytes.size := by
        rw [size_zeros]
        omega
      unfold room occupy
      simp only [size_overwrite fits]
      omega

/-- A request takes no more room than it asks for and than a gap in front of it
may take, and it is not refused where there is that much. -/
theorem run_alloc_room {arena : Arena} (size alignment : Nat) (writable : arena.Writable)
    (supported : isAlignment (max alignment 1) = true) :
    Run (alloc size alignment) arena (fun _ after => arena.room ≤ after.room + (size + 16))
      (fun _ _ => arena.room < size + 16) := by
  rcases Nat.lt_or_ge arena.room (size + 16) with less | enough
  · unfold Run
    split
    · omega
    · exact less
  · obtain ⟨place, placed, room⟩ := exists_placement writable supported enough
    unfold Run alloc
    rw [placed]
    exact room

end Arena

namespace Packer

open Arena TextSchema Layout Heap

section Steps

variable {Result Next : Type} {before middle after state : PackState} {cost more : Nat}

/-- The destination has grown, and has lost no more than some room. -/
structure Costs (cost : Nat) (before after : PackState) : Prop where
  grown : Grown before.data after.data
  room : before.data.room ≤ after.data.room + cost

theorem Costs.refl (cost : Nat) (state : PackState) : Costs cost state state :=
  ⟨.refl state.data, Nat.le_add_right _ _⟩

theorem Costs.trans (first : Costs cost before middle) (second : Costs more middle after) :
    Costs (cost + more) before after := by
  have room := first.room
  have moreRoom := second.room
  exact ⟨first.grown.trans second.grown, by omega⟩

/-- A step costs no more than some room.  It lacks room only where there is less
than that. -/
def Spends (cost : Nat) (step : PackM Result) (before : PackState)
    (good : Result -> PackState -> Prop) : Prop :=
  Run step before (fun result after => Costs cost before after ∧ good result after)
    (fun failure after => Costs cost before after ∧
      (failure.isRetryable = true -> before.data.room < cost))

variable {step : PackM Result} {good weaker : Result -> PackState -> Prop}
  {nextGood : Next -> PackState -> Prop}

theorem Spends.pure {result : Result} (isGood : good result state) :
    Spends cost (pure result) state good :=
  run_pure.mpr ⟨.refl cost state, isGood⟩

/-- A failure that is not for lack of room costs nothing. -/
theorem spends_throw {failure : PackError} (other : failure.isRetryable = false) :
    Spends cost (throw failure) state good :=
  run_throw.mpr ⟨.refl cost state, fun isRetryable => absurd isRetryable (by simp [other])⟩

/-- A request for more room than there can be. -/
theorem spends_tooLarge {failure : PackError} (writable : state.data.Writable)
    (much : positionLimit < cost) : Spends cost (throw failure) state good := by
  have limited := room_le writable
  exact run_throw.mpr ⟨.refl cost state, fun _ => by omega⟩

theorem Spends.imp (spends : Spends cost step state good) (enough : cost ≤ more)
    (onGood : forall result after, Costs cost state after -> good result after ->
      weaker result after) :
    Spends more step state weaker := by
  have raised {after : PackState} (costs : Costs cost state after) : Costs more state after :=
    ⟨costs.grown, Nat.le_trans costs.room (Nat.add_le_add_left enough _)⟩
  refine Run.imp spends ?_ ?_
  · exact fun result after ⟨costs, isGood⟩ => ⟨raised costs, onGood result after costs isGood⟩
  · exact fun failure after ⟨costs, lacks⟩ =>
      ⟨raised costs, fun isRetryable => Nat.lt_of_lt_of_le (lacks isRetryable) enough⟩

theorem Spends.mono (spends : Spends cost step state good) (enough : cost ≤ more) :
    Spends more step state good :=
  spends.imp enough fun _ _ _ => id

/-- What steps cost adds up. -/
theorem Spends.andThen {next : Result -> PackM Next} (spends : Spends cost step state good)
    (continued : forall result middle, Costs cost state middle -> good result middle ->
      Spends more (next result) middle nextGood) :
    Spends (cost + more) (step >>= next) state nextGood := by
  refine Run.andThen spends ?_ ?_
  · rintro result middle ⟨costs, isGood⟩
    refine Run.imp (continued result middle costs isGood) ?_ ?_
    · exact fun _ after ⟨moreCosts, isNext⟩ => ⟨costs.trans moreCosts, isNext⟩
    · refine fun failure after ⟨moreCosts, lacks⟩ => ⟨costs.trans moreCosts, fun isRetryable => ?_⟩
      have room := costs.room
      have less := lacks isRetryable
      omega
  · refine fun failure after ⟨costs, lacks⟩ => ⟨?_, fun isRetryable => ?_⟩
    · exact ⟨costs.grown, Nat.le_trans costs.room (by omega)⟩
    · exact Nat.lt_of_lt_of_le (lacks isRetryable) (Nat.le_add_right _ _)

/-- What follows may cost nothing. -/
theorem Spends.thenFree {next : Result -> PackM Next} (spends : Spends cost step state good)
    (continued : forall result middle, Costs cost state middle -> good result middle ->
      Spends 0 (next result) middle nextGood) : Spends cost (step >>= next) state nextGood :=
  spends.andThen continued

/-- What comes first may cost nothing. -/
theorem Spends.freeThen {next : Result -> PackM Next} (spends : Spends 0 step state good)
    (continued : forall result middle, Costs 0 state middle -> good result middle ->
      Spends cost (next result) middle nextGood) : Spends cost (step >>= next) state nextGood :=
  (spends.andThen continued).mono (Nat.le_of_eq (Nat.zero_add _))

theorem spends_raise (complaint : Complaint) (path : Path) :
    Spends cost (raise complaint path : PackM Result) state fun _ _ => True :=
  ⟨⟨.refl state.data, Nat.le_add_right _ _⟩, nofun⟩

theorem spends_mismatch (expected : Expectation) (path : Path) (value : Json) :
    Spends cost (mismatch expected path value : PackM Result) state fun _ _ => True :=
  spends_raise _ _

theorem spends_settle (first : Option Violation) :
    Spends cost (settle first) state fun _ _ => True := by
  cases first with
  | none => exact .pure trivial
  | some violation => exact spends_throw rfl

/-- A step among siblings costs the same when its violation is noted. -/
theorem Spends.gather {step : PackM Unit} {good : Unit -> PackState -> Prop}
    (spends : Spends cost step state good) (first : Option Violation) :
    Spends cost (Packer.gather step first) state fun _ _ => True := by
  unfold Spends Run at spends ⊢
  cases ends : step state with
  | ok _ after =>
      rw [ends] at spends
      rw [gather_of_ok first ends]
      exact ⟨spends.1, trivial⟩
  | error failure after =>
      rw [ends] at spends
      cases isViolation : failure.violation? with
      | none =>
          rw [gather_of_error first ends isViolation]
          exact spends
      | some violation =>
          cases PackError.eq_of_violation? isViolation
          rw [gather_of_violation first ends]
          exact ⟨spends.1, trivial⟩

/-- A walk costs what its steps cost. -/
theorem spends_foldlM {Item State : Type} {step : State -> Item -> PackM State}
    {items : List Item} {costs : Item -> Nat} (start : State)
    (each : forall item later, item ∈ items -> Grown state.data later.data -> forall current,
      Spends (costs item) (step current item) later fun _ _ => True) :
    Spends (items.map costs).sum (items.foldlM step start) state fun _ _ => True := by
  induction items generalizing start state with
  | nil => exact .pure trivial
  | cons item rest ih =>
      rw [List.foldlM_cons, List.map_cons, List.sum_cons]
      refine (each item _ List.mem_cons_self (.refl _) start).andThen ?_
      intro next middle taken _
      exact ih next fun other later member grown =>
        each other later (List.mem_cons_of_mem _ member) (taken.grown.trans grown)

end Steps

/-! ### Room and numbers -/

section Writes

variable {state : PackState} {place : Offset} {width value size alignment cost : Nat}
  {packer : Packer}

/-- A region is handed out, or there is no room for it. -/
theorem spends_alloc (writable : state.data.Writable)
    (supported : isAlignment (max alignment 1) = true) :
    Spends (size + 16) (onData (Arena.alloc size alignment)) state
      fun offset after => HasRoom after.data ⟨offset.toNat, size⟩ := by
  unfold Spends
  rw [run_onData]
  refine ((run_alloc size alignment writable supported).both
    (run_alloc_room size alignment writable supported)).imp ?_ ?_
  · exact fun offset after ⟨allocated, room⟩ =>
      ⟨⟨allocated.grown, room⟩, allocated.grown.writable writable, allocated.within⟩
  · rintro cause after ⟨⟨rfl, _⟩, lacks⟩
    exact ⟨.refl _ _, fun _ => lacks⟩

/-- Bytes are written into a region. -/
theorem spends_write {region : Extent} {source : ByteArray} (room : HasRoom state.data region)
    (inside : Extent.Inside ⟨place.toNat, source.size⟩ region)
    (before : place.toNat < region.start + region.length) :
    Spends cost (onData (Arena.write place source)) state fun _ _ => True := by
  unfold Spends
  rw [run_onData]
  refine (run_write place source room.writable room.within inside.1 inside.2 before).imp ?_
    fun _ _ => False.elim
  intro _ after written
  exact ⟨⟨written.grown, Nat.le_trans (Nat.le_of_eq written.room.symm) (Nat.le_add_right _ _)⟩,
    trivial⟩

theorem spends_writeUnsigned (room : HasRoom state.data ⟨place.toNat, width⟩) (narrow : width ≤ 8) :
    Spends cost (writeUnsigned place width value) state fun _ _ => True := by
  rcases Nat.eq_zero_or_pos width with rfl | positive
  · exact .pure trivial
  · have size : (LittleEndian.encode width value).toByteArray.size = width := by
      rw [List.size_toByteArray, LittleEndian.length_encode]
    have written : Spends cost
        (onData (Arena.write place (LittleEndian.encode width value).toByteArray)) state
        fun _ _ => True :=
      spends_write room ⟨Nat.le_refl _, by rw [size]⟩ (Nat.lt_add_of_pos_right positive)
    unfold Spends Run at written ⊢
    rwa [writeUnsigned_eq room positive narrow]

theorem positionLimit_le (target : Target) : positionLimit ≤ target.maxPointer := by
  cases target <;> decide

/-- A size that has too many bytes is larger than any room. -/
theorem spends_writeSize (room : HasRoom state.data ⟨place.toNat, packer.target.pointerWidth⟩)
    (small : value ≤ max cost positionLimit) :
    Spends cost (packer.writeSize place value) state fun _ _ => True := by
  have limited := positionLimit_le packer.target
  unfold writeSize
  split
  · exact spends_tooLarge room.writable (show positionLimit < cost by omega)
  · exact spends_writeUnsigned room packer.target.pointerWidth_le

/-- Pointers to all offsets fit the pointers of the target. -/
def AllFit (packer : Packer) : Prop :=
  packer.pointerBase + positionLimit ≤ packer.target.maxPointer

/-- Offsets themselves are pointers of both targets. -/
theorem allFit_zero (schema : Schema) (context : Context) (target : Target) (maxDepth : Nat) :
    AllFit ⟨schema, context, target, 0, maxDepth⟩ := by
  unfold AllFit
  rw [Nat.zero_add]
  exact positionLimit_le target

theorem spends_writePointer (fit : packer.AllFit) (target : Offset)
    (room : HasRoom state.data ⟨place.toNat, packer.target.pointerWidth⟩) :
    Spends cost (packer.writePointer place target) state fun _ _ => True := by
  have inSpace : target.toNat ≤ positionLimit := Nat.le_of_lt_succ target.raw.toNat_lt
  have fits : packer.pointerBase + positionLimit ≤ packer.target.maxPointer := fit
  unfold writePointer
  split
  · exact spends_writeUnsigned room packer.target.pointerWidth_le
  · simp only
    rw [if_neg (by omega)]
    exact spends_writeUnsigned room packer.target.pointerWidth_le

/-- A text goes to a region of its own. -/
theorem spends_storeText (writable : state.data.Writable) (text : String) :
    Spends (text.utf8ByteSize + 17) (onData (Arena.storeText text)) state
      fun _ after => text.utf8ByteSize + 1 ≤ after.data.used := by
  have size : text.toUTF8.size = text.utf8ByteSize := rfl
  unfold Arena.storeText
  rw [onData_bind]
  refine Spends.mono ((spends_alloc writable rfl).thenFree ?_) (by omega)
  intro start middle _ room
  rw [onData_bind]
  have inside : Extent.Inside ⟨start.toNat, text.toUTF8.size⟩
      ⟨start.toNat, text.utf8ByteSize + 1⟩ := ⟨Nat.le_refl _, by simp only [size]; omega⟩
  refine Spends.thenFree (spends_write room inside (by simp only; omega)) ?_
  intro _ after costs _
  have bound := (room.grown costs.grown).end_le
  exact .pure (by simp only at bound; omega)

end Writes

/-! ### Arrays and texts -/

section Arrays

variable {packer : Packer} {type element : TypeDef} {layout : Schema.ArrayLayout}
  {place storage : Offset} {capacity length cost : Nat} {state : PackState} {argument : TypeId}

/-- The record of an array is written. -/
theorem spends_writeParts (isArray : IsArray packer type layout) (fit : packer.AllFit)
    (room : HasRoom state.data (instanceOf place type))
    (smallCapacity : capacity ≤ max cost positionLimit)
    (smallLength : length ≤ max cost positionLimit) :
    Spends (cost + cost) (packer.writeParts layout place storage capacity length) state
      fun _ _ => True := by
  obtain ⟨pointerInside, capacityInside, lengthInside⟩ := isArray.inside place
  have position {delta : UInt32}
      (inside : (packer.wordAt place delta).Inside (instanceOf place type)) :
      Packer.inside place delta = pure (place.advance delta.toNat) :=
    room.inside_eq (Nat.le_trans (Nat.le_add_right _ _) inside.2)
  have word {delta : UInt32} {later : PackState} (grown : Grown state.data later.data)
      (inside : (packer.wordAt place delta).Inside (instanceOf place type)) :
      HasRoom later.data ⟨(place.advance delta.toNat).toNat, packer.target.pointerWidth⟩ := by
    rw [word_eq room inside]
    exact (room.grown grown).inside inside
  unfold writeParts
  rw [position pointerInside, position capacityInside, position lengthInside]
  simp only [pure_bind]
  refine (spends_writePointer fit storage (word (.refl _) pointerInside)).freeThen ?_
  intro _ middle costs _
  refine (spends_writeSize (word costs.grown capacityInside) smallCapacity).andThen ?_
  intro _ after more _
  exact spends_writeSize (word (costs.grown.trans more.grown) lengthInside) smallLength

/-- A text takes its bytes, one more, and a gap. -/
theorem spends_writeText (isArray : IsArray packer type layout) (fit : packer.AllFit)
    (room : HasRoom state.data (instanceOf place type)) (text : String) :
    Spends (text.utf8ByteSize + 17) (packer.writeText type place text) state fun _ _ => True := by
  rw [writeText_eq isArray]
  refine (spends_storeText room.writable text).thenFree ?_
  intro storage middle costs stored
  have later := room.grown costs.grown
  have inUse := later.writable.used_lt
  have limit : positionLimit = Offset.spaceSize - 1 := rfl
  have small : text.utf8ByteSize ≤ max 0 positionLimit := by omega
  have smallMore : text.utf8ByteSize + 1 ≤ max 0 positionLimit := by omega
  exact spends_writeParts isArray fit later smallMore small

/-- An array is made with room for its elements. -/
theorem spends_arrayStorage (isArray : IsArray packer type layout) (fit : packer.AllFit)
    (room : HasRoom state.data (instanceOf place type))
    (isArgument : type.argument = some argument)
    (found : packer.schema.type argument = .ok element) (isAlign : IsAlign element.align.toNat) :
    Spends (length * element.slot.toNat + 16 + (length + length))
      (packer.arrayStorage type place length) state fun storage after =>
        0 < length -> HasRoom after.data (elementsOf storage length element) := by
  have parts {middle : PackState} (storage : Offset)
      (later : HasRoom middle.data (instanceOf place type))
      (elements : 0 < length -> HasRoom middle.data (elementsOf storage length element)) :
      Spends (length + length) (do
        packer.writeParts layout place storage length length
        return storage) middle fun storage after =>
          0 < length -> HasRoom after.data (elementsOf storage length element) := by
    refine Spends.thenFree (spends_writeParts isArray fit later (Nat.le_max_left _ _)
      (Nat.le_max_left _ _)) ?_
    exact fun _ _ costs _ => .pure fun positive => (elements positive).grown costs.grown
  rw [arrayStorage_eq isArray isArgument found]
  split
  next isEmpty =>
    exact (parts _ room fun positive => absurd isEmpty (Nat.ne_of_gt positive)).mono
      (Nat.le_add_left _ _)
  next =>
    have makes : Spends (length * element.slot.toNat + 16)
        (onData (Arena.allocArray length element.slot.toNat (max element.align 1).toNat)) state
        fun storage after => HasRoom after.data (elementsOf storage length element) := by
      unfold Arena.allocArray
      split
      · exact spends_alloc room.writable (isAlignment_max isAlign)
      next large =>
        have limit : positionLimit = 2 ^ 32 - 1 := rfl
        exact spends_tooLarge room.writable (by omega)
    refine makes.andThen fun storage middle costs elements => ?_
    exact parts storage (room.grown costs.grown) fun _ => elements

end Arrays

/-! ### Values inside values -/

/-- A writer spends some room on a value in a variable of a type. -/
def SpendsFor (cost : Nat) (packer : Packer) (write : Writer) (id : TypeId) (path : Path)
    (value : Json) : Prop :=
  forall type place state, packer.schema.type id = .ok type ->
    HasRoom state.data (variableOf place type) ->
    Spends cost (write id place path value) state fun _ _ => True

section Values

variable {packer : Packer} {write same : Writer} {id inner : TypeId} {type : TypeDef}
  {place : Offset} {path : Path} {value : Json} {segment : Segment} {state : PackState}
  {cost : Nat} {costOf : Json -> Nat}

theorem spends_nested (spends : SpendsFor cost packer write id (path.child segment) value)
    (found : packer.schema.type id = .ok type) (room : HasRoom state.data (variableOf place type)) :
    Spends cost (packer.nested write id place path segment value) state fun _ _ => True := by
  unfold nested
  split
  · exact spends_raise _ _
  · exact spends type place state found room

/-- What is found under different names are different members. -/
theorem sum_lookup?_le {names : List String} (distinct : names.Nodup)
    (members : List (String × Json)) :
    (names.map fun name => ((Json.lookup? name members).map costOf).getD 0).sum ≤
      (members.map fun member => costOf member.2).sum := by
  induction members generalizing names with
  | nil => simp [Json.lookup?]
  | cons member rest ih =>
      obtain ⟨key, value⟩ := member
      have others {others : List String} (absent : key ∉ others) :
          (others.map fun name => ((Json.lookup? name ((key, value) :: rest)).map costOf).getD 0) =
            others.map fun name => ((Json.lookup? name rest).map costOf).getD 0 := by
        refine List.map_congr_left fun name member => ?_
        rw [Json.lookup?, if_neg (ne_of_mem_of_not_mem member absent).symm]
      rw [List.map_cons, List.sum_cons]
      by_cases present : key ∈ names
      · obtain ⟨before, after, rfl⟩ := List.append_of_mem present
        have split := List.nodup_middle.mp distinct
        obtain ⟨absent, remaining⟩ := List.nodup_cons.mp split
        obtain ⟨notBefore, notAfter⟩ := not_or.mp fun member => absent (List.mem_append.mpr member)
        have rests := ih remaining
        rw [List.map_append, List.sum_append] at rests
        rw [List.map_append, List.map_cons, List.sum_append, List.sum_cons, others notBefore,
          others notAfter]
        have own :
            ((Json.lookup? key ((key, value) :: rest)).map costOf).getD 0 = costOf value := by
          rw [Json.lookup?, if_pos rfl]
          rfl
        change _ ≤ costOf value + _
        omega
      · rw [others present]
        exact Nat.le_trans (ih distinct) (Nat.le_add_left _ _)

/-- The cost of the member that a field is written from. -/
def fieldCost (schema : Schema) (members : List (String × Json)) (costOf : Json -> Nat)
    (field : FieldDef) : Nat :=
  ((schema.text field.jsonName).toOption.bind fun name =>
    (Json.lookup? name members).map costOf).getD 0

theorem fieldCost_eq {schema : Schema} {members : List (String × Json)} {field : FieldDef}
    {name : String} (isName : schema.text field.jsonName = .ok name) :
    fieldCost schema members costOf field =
      ((Json.lookup? name members).map costOf).getD 0 := by
  rw [fieldCost, isName]
  rfl

/-- The fields of a struct are written, each from a member of its own. -/
theorem spends_object {typed : List Typed} {align : UInt32} {names : List String}
    (sound : packer.schema.IsSound packer.target type typed align)
    (named : List.Forall₂ (fun name field => packer.schema.text field.1.jsonName = .ok name) names
      typed) (distinct : names.Nodup) {members : List (String × Json)}
    (fields : forall name field part, field ∈ typed ->
      packer.schema.text field.1.jsonName = .ok name -> Json.lookup? name members = some part ->
      exists inner, field.1.type = some inner ∧ packer.schema.type inner = .ok field.2 ∧
        SpendsFor (costOf part) packer write inner (path.child (.key name)) part)
    (room : HasRoom state.data (instanceOf place type)) :
    Spends (members.map fun member => costOf member.2).sum
      (packer.object write type place path (.object members)) state fun _ _ => True := by
  have sum : ((typed.map Prod.fst).map (fieldCost packer.schema members costOf)).sum ≤
      (members.map fun member => costOf member.2).sum := by
    refine Nat.le_trans (Nat.le_of_eq (congrArg List.sum ?_)) (sum_lookup?_le distinct members)
    clear distinct fields sound
    induction named with
    | nil => rfl
    | cons isName _ ih =>
        rw [List.map_cons, List.map_cons, List.map_cons, ih, fieldCost_eq isName]
  unfold object
  simp only [ask_ok sound.inOrder, pure_bind]
  refine Spends.mono (Spends.thenFree (spends_foldlM none ?_) fun first _ _ _ =>
    spends_settle first) (Nat.le_trans (Nat.le_of_eq (Nat.add_zero _)) sum)
  intro item later member grown first
  obtain ⟨field, isField, rfl⟩ := List.mem_map.mp member
  have areNamed : forall field, field ∈ typed -> exists name,
      packer.schema.text field.1.jsonName = .ok name :=
    forall_right named fun name _ isName => ⟨name, isName⟩
  obtain ⟨name, isName⟩ := areNamed field isField
  have laterRoom := room.grown grown
  have fits := sound.fits field isField
  cases isPart : Json.lookup? name members with
  | none =>
      unfold writeField
      rw [ask_ok isName, pure_bind]
      simp only [isPart]
      split
      · exact (spends_raise _ _).gather first
      · exact .pure trivial
  | some part =>
      obtain ⟨inner, isType, found, spends⟩ := fields name field part isField isName isPart
      rw [writeField_eq isName isPart isType fits laterRoom first]
      have own : fieldCost packer.schema members costOf field.1 = costOf part := by
        rw [fieldCost_eq isName, isPart]
        rfl
      rw [own]
      exact (spends_nested spends found
        (laterRoom.inside (fieldPlace_inside fits laterRoom).2)).gather first

/-- The items of an array are written from some index on. -/
theorem spends_writeItems {argument : TypeId} {element : TypeDef} {storage : Offset}
    {items : List Json} {start count : Nat} (fits : start + items.length ≤ count)
    (found : packer.schema.type argument = .ok element)
    (spends : forall item path, item ∈ items ->
      SpendsFor (costOf item) packer write argument path item)
    (room : 0 < count -> HasRoom state.data (elementsOf storage count element))
    (first : Option Violation) :
    Spends (items.map costOf).sum
      (packer.writeItems write argument element.slot.toNat storage path items start first) state
      fun _ _ => True := by
  induction items generalizing start first state with
  | nil => exact .pure trivial
  | cons item rest ih =>
      rw [List.length_cons] at fits
      have bound : start < count := by omega
      have whole := room (by omega)
      obtain ⟨spendsItem, spendsRest⟩ := List.forall_mem_cons.mp fun item member path =>
        spends item path member
      unfold writeItems
      rw [element_position whole bound, pure_bind, List.map_cons, List.sum_cons]
      have own := whole.inside (elementOf_inside storage element bound)
      rw [← variableOf_element whole bound] at own
      refine ((spends_nested (spendsItem _) found own).gather first).andThen ?_
      intro next middle costs _
      exact ih (by omega) (fun other path member => spendsRest other member path)
        (fun positive => (room positive).grown costs.grown) next

/-- The items of an array are written, behind room for all of them. -/
theorem spends_array {layout : Schema.ArrayLayout} {argument : TypeId} {element : TypeDef}
    {items : List Json} (isArray : IsArray packer type layout) (fit : packer.AllFit)
    (isArgument : type.argument = some argument)
    (found : packer.schema.type argument = .ok element) (isAlign : IsAlign element.align.toNat)
    (spends : forall item path, item ∈ items ->
      SpendsFor (costOf item) packer write argument path item)
    (room : HasRoom state.data (instanceOf place type)) :
    Spends (items.length * element.slot.toNat + 16 + (items.length + items.length) +
        (items.map costOf).sum)
      (packer.array write type place path (.array items)) state fun _ _ => True := by
  unfold array
  simp only [argument_eq isArgument, ask_ok found, pure_bind]
  refine (spends_arrayStorage isArray fit room isArgument found isAlign).andThen ?_
  intro storage middle _ elements
  refine Spends.thenFree (spends_writeItems (Nat.le_of_eq (Nat.zero_add _)) found spends
    elements none) ?_
  exact fun first _ _ _ => spends_settle first

/-! ### Alternatives -/

section Alternatives

variable {tag zero one : Typed} {alternatives : List Typed} {payload : Nat}

theorem spends_writeTag (tagged : IsTagged packer type tag alternatives payload)
    (room : HasRoom state.data (instanceOf place type)) (raw : UInt8) :
    Spends cost (packer.writeTag place type tag.1 raw) state fun _ _ => True := by
  rw [tagged.writeTag_eq room]
  exact spends_writeUnsigned (room.inside (tagged.tag_inside place)) (by decide)

/-- A tag and the alternative behind it are written. -/
theorem spends_tagged (tagged : IsTagged packer type tag alternatives payload)
    {alternative : Typed} (isOne : alternative ∈ alternatives)
    (found : packer.schema.type inner = .ok alternative.2) (raw : UInt8)
    (spends : SpendsFor cost packer same inner path value)
    (room : HasRoom state.data (instanceOf place type)) :
    Spends cost (do
      packer.writeTag place type tag.1 raw
      same inner (place.advance payload) path value) state fun _ _ => True := by
  have isPayload := (tagged.payload_inside isOne room).2.1
  refine (spends_writeTag tagged room raw).freeThen ?_
  exact fun _ _ costs _ => spends _ _ _ found ((room.grown costs.grown).inside isPayload)

theorem spends_option (option : IsOption packer type inner tag zero one payload)
    (spends : value ≠ .null -> SpendsFor cost packer same inner path value)
    (room : HasRoom state.data (instanceOf place type)) :
    Spends cost (packer.option same type place path value) state fun _ _ => True := by
  by_cases isNull : value = .null
  · subst isNull
    rw [option_absent_eq option]
    exact spends_writeTag option.tagged room 0
  · obtain ⟨_, isInner, _, found⟩ := option.one.type
    cases isInner
    rw [option_present_eq option room isNull]
    exact spends_tagged option.tagged (List.mem_cons_of_mem _ List.mem_cons_self) found 1
      (spends isNull) room

/-- A variant is written as the alternative of the form of the value. -/
theorem spends_variant {members : List Member} (roles : List Role)
    (tagged : IsTagged packer type tag alternatives payload)
    (has : List.Forall₂ (HasMember packer) members alternatives)
    (are : List.Forall₂ (fun member role => exists inner, member.type = some inner ∧
      packer.form? inner = pure (Role.form? role) ∧
      (role.form? ≠ none -> SpendsFor cost packer same inner path value)) members roles)
    (room : HasRoom state.data (instanceOf place type)) :
    Spends cost (packer.variant same type place path value) state fun _ _ => True := by
  have sameLength := has.length_eq
  have rolesLength := are.length_eq
  have candidates := @candidates_of_forms packer type alternatives members roles has
    (are.imp fun member role isAlternative => by
      obtain ⟨inner, isType, found, _⟩ := isAlternative
      exact ⟨inner, isType, found⟩)
  have fieldsLength : (alternatives.map Prod.fst).length = roles.length := by
    rw [List.length_map, ← sameLength, rolesLength]
  cases chosen : choose (candidatesOf (alternatives.map Prod.fst) roles) value with
  | none =>
      rw [variant_none_eq tagged candidates chosen]
      exact spends_throw rfl
  | some field =>
      obtain ⟨index, isField, isChoice⟩ := isChoice_of_choose fieldsLength chosen
      obtain ⟨inFields, rfl⟩ := List.getElem?_eq_some_iff.mp isField
      rw [List.length_map] at inFields fieldsLength
      have inRoles : index < roles.length := by omega
      have hasMember := (List.forall₂_iff_get.mp has).2 index (by omega) inFields
      have isAlternative := (List.forall₂_iff_get.mp are).2 index (by omega) inRoles
      obtain ⟨inner, isType, _, spends⟩ := isAlternative
      obtain ⟨other, isOther, isInner, found⟩ := hasMember.type
      cases isType.symm.trans isOther
      have isOne := List.getElem_mem inFields
      rw [List.getElem_map] at chosen
      rw [variant_some_eq tagged candidates isOne chosen isInner room]
      exact spends_tagged tagged isOne found _
        (spends (form?_ne_none_of_isChoice isChoice inRoles)) room

end Alternatives

/-! ### Values without parts -/

/-- A scalar is written as a number, or its value is complained about. -/
theorem writeBuiltin_cases {builtin : Builtin} {size : Nat}
    (isScalar : (builtin, size) ∈ [(Builtin.integer, 8), (.number, 8), (.boolean, 1)]) :
    (exists raw, packer.writeBuiltin type place path value builtin =
      writeUnsigned place size raw) ∨
    exists complaint, packer.writeBuiltin type place path value builtin = raise complaint path := by
  simp only [List.mem_cons, Prod.mk.injEq, List.not_mem_nil, or_false] at isScalar
  rcases isScalar with ⟨rfl, rfl⟩ | ⟨rfl, rfl⟩ | ⟨rfl, rfl⟩
  · change (exists raw, integer place path value = _) ∨ exists complaint,
      integer place path value = _
    unfold integer
    split
    · split
      · exact .inl ⟨_, rfl⟩
      · exact .inr ⟨_, rfl⟩
    · exact .inr ⟨_, rfl⟩
  · change (exists raw, number place path value = _) ∨ exists complaint,
      number place path value = _
    unfold number
    split
    · exact .inl ⟨_, rfl⟩
    · exact .inr ⟨_, rfl⟩
  · change (exists raw, boolean place path value = _) ∨ exists complaint,
      boolean place path value = _
    unfold boolean
    split
    · exact .inl ⟨_, rfl⟩
    · exact .inr ⟨_, rfl⟩

/-- Scalars take no room but their own. -/
theorem spends_scalar {builtin : Builtin} {size : Nat} {name : TextRef}
    (isScalar : (builtin, size) ∈ [(Builtin.integer, 8), (.number, 8), (.boolean, 1)])
    (small : size ≤ 8)
    (room : HasRoom state.data (instanceOf place (TypeDef.scalar name (UInt32.ofNat size)))) :
    Spends cost (packer.writeBuiltin type place path value builtin) state fun _ _ => True := by
  rw [instanceOf_scalar place name small] at room
  obtain ⟨raw, isNumber⟩ | ⟨complaint, isComplaint⟩ :=
    @writeBuiltin_cases packer type place path value builtin size isScalar
  · rw [isNumber]
    exact spends_writeUnsigned room small
  · rw [isComplaint]
    exact spends_raise complaint path

theorem spends_unit : Spends cost (unit path value) state fun _ _ => True := by
  unfold unit
  split
  · exact .pure trivial
  · exact spends_mismatch _ _ _

end Values

/-! ### Values of all types -/

mutual

/-- The room that a value takes besides its own variables, where a variable
takes no more than some room. -/
def roomInside (unit : Nat) : Json -> Nat
  | .string text => unit + text.utf8ByteSize
  | .array items => unit + roomOfItems unit items
  | .object members => roomOfMembers unit members
  | _ => 0

/-- The room of the items of an array.  Each takes an element, and may be handed
on to three variables more. -/
def roomOfItems (unit : Nat) : List Json -> Nat
  | [] => 0
  | item :: rest => 5 * unit + roomInside unit item + roomOfItems unit rest

/-- The room of the members of an object. -/
def roomOfMembers (unit : Nat) : List (String × Json) -> Nat
  | [] => 0
  | (_, value) :: rest => 4 * unit + roomInside unit value + roomOfMembers unit rest

end

/-- The room that a value takes in a variable. -/
def roomOf (unit : Nat) (value : Json) : Nat := 4 * unit + roomInside unit value

theorem roomOfMembers_eq (unit : Nat) (members : List (String × Json)) :
    roomOfMembers unit members = (members.map fun member => roomOf unit member.2).sum := by
  induction members with
  | nil => rfl
  | cons member rest ih => rw [roomOfMembers, ih]; rfl

theorem roomOfItems_eq (unit : Nat) (items : List Json) :
    roomOfItems unit items = items.length * unit + (items.map (roomOf unit)).sum := by
  induction items with
  | nil => simp [roomOfItems]
  | cons item rest ih =>
      rw [roomOfItems, ih, List.length_cons, Nat.add_mul, List.map_cons, List.sum_cons, roomOf]
      omega

/-- A role whose values take room that can be told in advance: no map, no
result, and no two properties of one name. -/
def IsFrugal : Role -> Prop
  | .map _ => False
  | .result _ => False
  | .struct properties => (properties.map Property.name).Nodup
  | _ => True

section Instances

variable {packer : Packer} {heap : Heap} {document : Json} {promises : Promises}
  {settled : TypeId -> Prop} {id : TypeId} {type : TypeDef} {typed : List Typed} {align : UInt32}
  {declaration : Declaration} {term : Term} {role : Role} {place : Offset} {path : Path}
  {value : Json} {same write : Writer} {state : PackState} {largest : Nat}

/-- The types that packing meets are no larger than some size, and are all of
frugal roles. -/
structure Bounded (packer : Packer) (document : Json) (promises : Promises)
    (settled : TypeId -> Prop) (largest : Nat) : Prop where
  fit : packer.AllFit
  sizes : forall id type, settled id -> packer.schema.type id = .ok type ->
    type.size.toNat ≤ largest
  frugal : forall id term role, promises id term -> HasRole document term role -> IsFrugal role

/-- The room for a variable, with the gap in front of it. -/
def unitOf (largest : Nat) : Nat := largest + 17

/-- The values inside a value take the room that is told for them. -/
def SpendsInside (packer : Packer) (promises : Promises) (settled : TypeId -> Prop) (unit : Nat)
    (write : Writer) (value : Json) : Prop :=
  forall id term path part, settled id -> promises id term -> part.height < value.height ->
    SpendsFor (roomOf unit part) packer write id path part

/-- A value that is handed on by a role takes a variable for each time that it
is handed on. -/
def SpendsOnward (document : Json) (packer : Packer) (promises : Promises)
    (settled : TypeId -> Prop) (unit : Nat) (same : Writer) (bound : Nat) (path : Path)
    (value : Json) : Prop :=
  forall id term role, settled id -> promises id term -> HasRole document term role ->
    role.handoffs < bound -> SpendsFor (bound * unit + roomInside unit value) packer same id path
      value

/-- The fields of a struct are named as its properties are. -/
theorem named_of_serves {properties : List Property} {members : List Member}
    (served : List.Forall₂ (ServesProperty promises) properties members)
    (has : List.Forall₂ (HasMember packer) members typed) :
    List.Forall₂ (fun name field => packer.schema.text field.1.jsonName = .ok name)
      (properties.map Property.name) typed := by
  induction served generalizing typed with
  | nil =>
      cases has
      exact .nil
  | cons serves _ ih =>
      cases has with
      | cons hasMember others => exact .cons (serves.1 ▸ hasMember.name) (ih others)

/-- A field of a struct is of a type that is meant for a property of its name. -/
theorem Packs.exists_fieldType (packs : Packs packer heap document promises settled)
    (isSettled : settled id) (declares : Declares heap id declaration) {properties : List Property}
    (served : List.Forall₂ (ServesProperty promises) properties declaration.members)
    (has : List.Forall₂ (HasMember packer) declaration.members typed) {field : Typed}
    (isField : field ∈ typed) :
    exists (property : Property) (inner : TypeId),
      packer.schema.text field.1.jsonName = .ok property.name ∧ field.1.type = some inner ∧
      packer.schema.type inner = .ok field.2 ∧ settled inner ∧ promises inner property.term := by
  obtain ⟨index, inTyped, rfl⟩ := List.getElem_of_mem isField
  have sameLength := has.length_eq
  have servedLength := served.length_eq
  have hasMember := (List.forall₂_iff_get.mp has).2 index (by omega) inTyped
  obtain ⟨name, _, inner, isType, promised⟩ :=
    (List.forall₂_iff_get.mp served).2 index (by omega) (by omega)
  obtain ⟨other, isOther, isInner, found⟩ := hasMember.type
  cases isType.symm.trans isOther
  exact ⟨_, inner, name ▸ hasMember.name, isInner, found,
    packs.settled_member isSettled declares (List.getElem_mem (by omega)) isType, promised⟩

/-- A variable is as large as an instance, or as a pointer. -/
theorem Packs.slot_le (packs : Packs packer heap document promises settled)
    (isSettled : settled id) (found : packer.schema.type id = .ok type) :
    type.slot.toNat ≤ max type.size.toNat 8 := by
  obtain ⟨declaration, declares, _⟩ := packs.serving.layout.declared id isSettled
  obtain ⟨other, typed, align, shows⟩ := packs.shows isSettled declares
  cases found.symm.trans shows.found
  cases shows.sound.stored with
  | inl byReference =>
      exact Nat.le_trans (Nat.le_of_eq byReference.2.1)
        (Nat.le_trans packer.target.pointerWidth_le (Nat.le_max_right _ _))
  | inr inline =>
      rw [inline.2.1]
      exact Nat.le_max_left _ _

/-- A value takes the room that is told for it in an instance. -/
theorem Packs.spends_instance (packs : Packs packer heap document promises settled)
    (bounded : Bounded packer document promises settled largest) (isSettled : settled id)
    (promised : promises id term) (hasRole : HasRole document term role)
    (found : packer.schema.type id = .ok type)
    (inside : SpendsInside packer promises settled (unitOf largest) write value)
    (onward : SpendsOnward document packer promises settled (unitOf largest) same role.handoffs path
      value)
    (room : HasRoom state.data (instanceOf place type)) :
    Spends (role.handoffs * unitOf largest + roomInside (unitOf largest) value)
      (packer.writeInstance same write id type place path value) state fun _ _ => True := by
  obtain ⟨other, kind, isRole, serves, is⟩ := packs.serving.serves id term promised
  cases hasRole_inj hasRole isRole
  have frugal := bounded.frugal id term role promised hasRole
  obtain ⟨shown, typed, align, shows⟩ := packs.shows isSettled is.declares
  cases found.symm.trans shows.found
  have scalar (builtin : Builtin) (size : Nat) (cost : Nat)
      (isNumber : (builtin, size) ∈ [(Builtin.integer, 8), (.number, 8), (.boolean, 1)])
      (member : (builtin, size) ∈ Builder.scalarSizes packer.target)
      (isScalar : id = packer.context.builtin builtin) :
      Spends cost (packer.writeInstance same write id type place path value) state
        fun _ _ => True := by
    obtain ⟨name, isFound⟩ := packs.scalar member
    rw [← isScalar] at isFound
    cases found.symm.trans isFound
    rw [packs.writeInstance_builtin isScalar]
    exact spends_scalar isNumber (size_le_of_mem member) room
  cases serves with
  | integer => exact scalar .integer 8 _ (by simp) (by simp [Builder.scalarSizes]) is.details.1
  | number => exact scalar .number 8 _ (by simp) (by simp [Builder.scalarSizes]) is.details.1
  | boolean => exact scalar .boolean 1 _ (by simp) (by simp [Builder.scalarSizes]) is.details.1
  | null =>
      rw [packs.writeInstance_builtin is.details.1]
      exact spends_unit
  | string =>
      have isString : id = packer.context.builtin .string := is.details
      obtain ⟨layout, isArray⟩ := shows.isArray packs rfl rfl
      rw [packs.writeInstance_builtin isString]
      change Spends _ (packer.string type place path value) state fun _ _ => True
      unfold Packer.string
      split
      · refine (spends_writeText isArray bounded.fit room _).mono ?_
        rw [roomInside, unitOf]
        omega
      · exact spends_mismatch _ _ _
  | array promisedElement =>
      have elementSettled := packs.settled_argument isSettled is.declares rfl
      obtain ⟨layout, isArray⟩ := shows.isArray packs rfl rfl
      obtain ⟨element, isElement, isAlign⟩ := packs.element elementSettled
      have slot := packs.slot_le elementSettled isElement
      have small := bounded.sizes _ _ elementSettled isElement
      rw [packs.writeInstance_declared is.declares rfl shows rfl]
      cases value with
      | array items =>
          refine (spends_array isArray bounded.fit shows.argument isElement isAlign
            (fun item path member => inside _ _ _ item elementSettled promisedElement
              (Json.height_lt_of_item member)) room).mono ?_
          have elements := Nat.mul_le_mul_left items.length
            (show element.slot.toNat + 2 ≤ unitOf largest by unfold unitOf; omega)
          rw [Nat.mul_add] at elements
          have gap : 16 ≤ unitOf largest := by unfold unitOf; omega
          rw [roomInside, roomOfItems_eq]
          omega
      | _ => exact spends_mismatch _ _ _
  | map => exact frugal.elim
  | result => exact frugal.elim
  | option promisedInner =>
      have innerSettled := packs.settled_argument isSettled is.declares rfl
      obtain ⟨innerRole, _, hasInner, _⟩ := packs.serving.serves _ _ promisedInner
      obtain ⟨tag, zero, one, payload, option⟩ := shows.isWrapper packs rfl rfl rfl rfl rfl
      rw [packs.writeInstance_declared is.declares rfl shows rfl]
      exact spends_option option (fun _ => onward _ _ innerRole innerSettled promisedInner hasInner
        (handoffs_of_option hasRole hasInner)) room
  | struct served =>
      rw [packs.writeInstance_declared is.declares rfl shows rfl]
      have named := named_of_serves served shows.members
      cases value with
      | object members =>
          have fields : Spends (members.map fun member => roomOf (unitOf largest) member.2).sum
              (packer.object write type place path (.object members)) state fun _ _ => True := by
            refine spends_object shows.sound named frugal ?_ room
            intro name field part isField isName isPart
            obtain ⟨property, inner, _, isType, isFound, innerSettled, promisedInner⟩ :=
              packs.exists_fieldType isSettled is.declares served shows.members isField
            exact ⟨inner, isType, isFound, inside inner _ _ part innerSettled promisedInner
              (Json.height_lt_of_member (Json.mem_of_lookup? isPart))⟩
          rw [roomInside, roomOfMembers_eq]
          exact fields.mono (Nat.le_add_left _ _)
      | _ => exact spends_mismatch _ _ _
  | variant served =>
      obtain ⟨tag, alternatives, payload, _, tagged, has⟩ := shows.isTagged packs rfl rfl
      obtain ⟨entries, _, offer⟩ := packs.offers served fun member isMember inner =>
        packs.settled_member isSettled is.declares (List.mem_cons_of_mem _ isMember)
      rw [packs.writeInstance_declared is.declares rfl shows rfl]
      refine spends_variant (entries.map Prod.snd) tagged has
        (List.forall₂_map_right_iff.mpr (offer.imp fun member entry offers => ?_)) room
      obtain ⟨inner, isType, innerSettled, promisedInner, form⟩ := offers.type
      exact ⟨inner, isType, form, fun hasForm => onward inner _ _ innerSettled promisedInner
        offers.hasRole (handoffs_of_form hasForm)⟩

/-- Room for an instance is handed out, or there is none. -/
theorem Shows.spends_allocInstance (shows : Shows packer id declaration type typed align)
    (small : type.size.toNat ≤ largest) (writable : state.data.Writable) :
    Spends (unitOf largest) (packer.allocInstance type) state fun target after =>
      HasRoom after.data (instanceOf target type) := by
  have supported : isAlignment (max align.toNat 1) = true := by
    rw [Nat.max_eq_left shows.isAlign.pos]
    exact shows.isAlign.isAlignment
  unfold allocInstance
  rw [ask_ok shows.sound.instanceAlign, pure_bind]
  exact (spends_alloc writable supported).mono (by unfold unitOf; omega)

/-- A value takes the room that is told for it in a variable. -/
theorem Packs.spends_variable (packs : Packs packer heap document promises settled)
    (bounded : Bounded packer document promises settled largest) (isSettled : settled id)
    (promised : promises id term) (hasRole : HasRole document term role)
    (found : packer.schema.type id = .ok type)
    (inside : SpendsInside packer promises settled (unitOf largest) write value)
    (onward : SpendsOnward document packer promises settled (unitOf largest) same role.handoffs path
      value)
    (room : HasRoom state.data (variableOf place type)) :
    Spends ((role.handoffs + 1) * unitOf largest + roomInside (unitOf largest) value)
      (packer.writeVariable same write id place path value) state fun _ _ => True := by
  obtain ⟨_, _, _, _, is⟩ := packs.serving.serves id term promised
  obtain ⟨_, typed, align, shows⟩ := packs.shows isSettled is.declares
  cases found.symm.trans shows.found
  unfold writeVariable
  rw [ask_ok found, pure_bind]
  cases shows.variables with
  | inr inline =>
      obtain ⟨isInline, sameRegion⟩ := inline
      rw [if_neg (by rw [isInline]; decide)]
      refine (packs.spends_instance bounded isSettled promised hasRole found inside onward
        (sameRegion place ▸ room)).mono ?_
      rw [Nat.add_mul]
      omega
  | inl byReference =>
      obtain ⟨isReference, width⟩ := byReference
      unfold variableOf at room
      rw [width] at room
      rw [if_pos isReference]
      have small := bounded.sizes id type isSettled found
      let rest := role.handoffs * unitOf largest + roomInside (unitOf largest) value
      have total : unitOf largest + (0 + rest) =
          (role.handoffs + 1) * unitOf largest + roomInside (unitOf largest) value := by
        rw [Nat.add_mul]
        omega
      rw [← total]
      refine (shows.spends_allocInstance small room.writable).andThen ?_
      intro target middle costs targetRoom
      refine (spends_writePointer bounded.fit target (room.grown costs.grown)).andThen ?_
      exact fun _ _ more _ => packs.spends_instance bounded isSettled promised hasRole found inside
        onward (targetRoom.grown more.grown)

/-- A value that is handed on takes the room that is told for it. -/
theorem Packs.spends_wrapped (packs : Packs packer heap document promises settled) {steps : Nat}
    {earlier : List Handoff} (bounded : Bounded packer document promises settled largest)
    (isSettled : settled id) (promised : promises id term) (hasRole : HasRole document term role)
    (inside : SpendsInside packer promises settled (unitOf largest) write value)
    (enough : role.handoffs < steps) (areEarlier : AreEarlier packer heap earlier role.handoffs) :
    SpendsFor ((role.handoffs + 1) * unitOf largest + roomInside (unitOf largest) value) packer
      (packer.writeWrapped write steps earlier) id path value := by
  induction steps generalizing earlier id term role with
  | zero => exact absurd enough (Nat.not_lt_zero _)
  | succ steps ih =>
      intro type place state found room
      obtain ⟨_, kind, isRole, serves, is⟩ := packs.serving.serves id term promised
      cases hasRole_inj hasRole isRole
      have handoffs := packs.handoffsOf_eq serves
      have isNew := @AreEarlier.isNew packer heap id _ place earlier _ state.data.used areEarlier
        is.declares handoffs
      have started := @writeWrapped_eq packer id place path value write steps earlier state isNew
      have onward : SpendsOnward document packer promises settled (unitOf largest)
          (packer.writeWrapped write steps (⟨id, place, state.data.used⟩ ::
            earlier.filter fun other => other.used == state.data.used)) role.handoffs path
          value := by
        intro inner innerTerm innerRole innerSettled innerPromised hasInner fewer innerType
          innerPlace later innerFound innerRoom
        refine (ih innerSettled innerPromised hasInner (by omega)
          (areEarlier.next is.declares handoffs fewer) _ _ _ innerFound innerRoom).mono ?_
        exact Nat.add_le_add_right (Nat.mul_le_mul_right _ fewer) _
      have spends := packs.spends_variable bounded isSettled promised hasRole found inside onward
        room
      unfold Spends Run at spends ⊢
      rw [started]
      exact spends

/-- Values up to some height take the room that is told for them. -/
theorem Packs.spends_write (packs : Packs packer heap document promises settled) {levels : Nat}
    (bounded : Bounded packer document promises settled largest) (isSettled : settled id)
    (promised : promises id term) (low : value.height < levels) :
    SpendsFor (roomOf (unitOf largest) value) packer (packer.write levels) id path value := by
  induction levels generalizing id term path value with
  | zero => exact absurd low (Nat.not_lt_zero _)
  | succ levels ih =>
      obtain ⟨role, _, hasRole, _⟩ := packs.serving.serves id term promised
      intro type place state found room
      have areEarlier : AreEarlier packer heap [] role.handoffs := nofun
      refine (packs.spends_wrapped bounded isSettled promised hasRole ?_ (handoffs_lt_limit role)
        areEarlier type place state found room).mono ?_
      · exact fun _ _ _ _ partSettled partPromised lower => ih partSettled partPromised (by omega)
      · exact Nat.add_le_add_right (Nat.mul_le_mul_right _ role.handoffs_lt_four) _

/-- A document takes the room that is told for it.  Packing it does not lack room
where there is that much. -/
theorem Packs.spends_pack (packs : Packs packer heap document promises settled) {root : TypeId}
    (bounded : Bounded packer document promises settled largest) (isSettled : settled root)
    (promised : promises root ⟨document, false, false⟩) (writable : state.data.Writable) :
    Spends (roomOf (unitOf largest) value) (packer.pack root value) state fun _ _ => True := by
  obtain ⟨role, kind, hasRole, serves, is⟩ := packs.serving.serves root _ promised
  obtain ⟨type, typed, align, shows⟩ := packs.shows isSettled is.declares
  let start : PackState := { state with violations := [] }
  have inside : SpendsInside packer promises settled (unitOf largest) (packer.write value.height)
      value :=
    fun _ _ _ _ partSettled partPromised lower =>
      packs.spends_write bounded partSettled partPromised lower
  have onward : SpendsOnward document packer promises settled (unitOf largest)
      (packer.writeWrapped (packer.write value.height) handoffLimit []) role.handoffs Path.root
      value := by
    intro inner innerTerm innerRole innerSettled innerPromised hasInner fewer innerType innerPlace
      later innerFound innerRoom
    have areEarlier : AreEarlier packer heap [] innerRole.handoffs := nofun
    refine (packs.spends_wrapped bounded innerSettled innerPromised hasInner inside
      (handoffs_lt_limit innerRole) areEarlier _ _ _ innerFound innerRoom).mono ?_
    exact Nat.add_le_add_right (Nat.mul_le_mul_right _ fewer) _
  have steps : Run (packer.pack root value) state = Run (do
      let place ← packer.allocInstance type
      packer.writeInstance (packer.writeWrapped (packer.write value.height) handoffLimit [])
        (packer.write value.height) root type place Path.root value
      return place) start := by
    unfold pack
    simp only [ask_ok shows.found, pure_bind]
    rfl
  have small := bounded.sizes root type isSettled shows.found
  have spends : Spends (unitOf largest + (role.handoffs * unitOf largest +
      roomInside (unitOf largest) value)) (do
        let place ← packer.allocInstance type
        packer.writeInstance (packer.writeWrapped (packer.write value.height) handoffLimit [])
          (packer.write value.height) root type place Path.root value
        return place) start fun _ _ => True := by
    have allocated : Spends (unitOf largest) (packer.allocInstance type) start
        fun target after => HasRoom after.data (instanceOf target type) :=
      shows.spends_allocInstance small writable
    refine allocated.andThen ?_
    intro place middle _ room
    refine (packs.spends_instance bounded isSettled promised hasRole shows.found inside onward
      room).thenFree ?_
    exact fun _ _ _ _ => .pure trivial
  have enough := Nat.mul_le_mul_right (unitOf largest) role.handoffs_lt_four
  rw [Nat.succ_mul] at enough
  have total : unitOf largest +
      (role.handoffs * unitOf largest + roomInside (unitOf largest) value) ≤
        roomOf (unitOf largest) value := by
    unfold roomOf
    omega
  unfold Spends
  rw [steps]
  refine Run.imp (spends.mono total) ?_ ?_
  · exact fun _ _ ⟨costs, isGood⟩ => ⟨⟨costs.grown, costs.room⟩, isGood⟩
  · exact fun _ _ ⟨costs, lacks⟩ => ⟨⟨costs.grown, costs.room⟩, lacks⟩

end Instances

/-! ### Compiled text schemas -/

/-- Where a compiled text schema asks for frugal roles only, packing a document
takes no more than the room that is told for it, and does not lack room where
there is that much. -/
theorem spends_pack_of_compile {document : Json} {options : CompileOptions} {container : Container}
    (accepted : compile document options = .ok container)
    (frugal : forall term role, Asks document term -> HasRole document term role -> IsFrugal role)
    {target : Target} {pointerBase maxDepth largest : Nat} {root : TypeId}
    (isRoot : container.schema.root (container.context target) = .ok root)
    (fit : (container.packer target pointerBase maxDepth).AllFit)
    (sizes : forall id type, container.schema.Reaches root id ->
      container.schema.type id = .ok type -> type.size.toNat ≤ largest)
    (value : Json) {state : PackState} (writable : state.data.Writable) :
    Spends (roomOf (unitOf largest) value)
      ((container.packer target pointerBase maxDepth).pack root value) state fun _ _ => True := by
  obtain ⟨heap, promises, settled, holds, serving⟩ := isCompiled_of_compile accepted target
  have whole : Packs (container.packer target pointerBase maxDepth) heap document
      (fun id term => promises id term ∧ Asks document term) settled := ⟨holds.told, serving.asked⟩
  obtain ⟨packs, promised⟩ := whole.reached isRoot
  exact packs.spends_pack ⟨fit, sizes, fun _ term role asked => frugal term role asked.2⟩ .root
    promised writable

end Packer
end PackedJson
