import PackedJson.Proofs.Packing.MapStorage

namespace PackedJson
namespace Packer

open Arena TextSchema Layout

/-!
Writing maps, and reading them back.

Each member of an object takes a slot of the hash of its name.  A slot is free
as long as its key is empty.  The members that were dealt with hold distinct
slots, and the others are still empty; since there are as many slots of a hash
as names of that hash, the next member finds a free one.  In the end the slots
are taken by the members in some order.
-/

/-! ### Numbers in the destination -/

section Numbers

variable {packer : Packer} {place : Offset} {state : PackState}

theorem readUnsigned_of_hasNumber {width value : Nat}
    (has : state.data.HasNumber place width value) (writable : state.data.Writable)
    (positive : 0 < width) : readUnsigned place width state = .ok value state := by
  obtain ⟨bytes, found, decoded⟩ := has.slice writable positive
  unfold readUnsigned
  rw [found, ← decoded]

/-- A pointer that was written leads back to its target. -/
theorem readPointer_eq {target : Offset}
    (has : state.data.HasNumber place packer.target.pointerWidth
      (Reader.rawPointer packer.pointerBase target)) (writable : state.data.Writable) :
    packer.readPointer place state = .ok target.nonNull? state := by
  have raw := readUnsigned_of_hasNumber has writable packer.target.pointerWidth_pos
  unfold readPointer
  simp only [bind, EStateM.bind, raw]
  unfold Reader.rawPointer Offset.nonNull?
  cases isNull : target.isNull with
  | true => rfl
  | false =>
      have positive := Offset.isNull_eq_false_iff.mp isNull
      have back : Offset.ofNat? (packer.pointerBase + target.toNat - packer.pointerBase) =
          some target := by
        unfold Offset.ofNat?
        rw [Nat.add_sub_cancel_left, if_pos target.toNat_lt, Offset.ofNat_toNat]
      simp only [Bool.false_eq_true, if_false, back,
        if_neg (by omega : ¬ packer.pointerBase + target.toNat = 0),
        if_neg (by omega : ¬ packer.pointerBase + target.toNat < packer.pointerBase)]
      rfl

end Numbers

/-! ### Slots -/

/-- The slots of a map that is being written. -/
structure Slots where
  storage : MapStorage
  values : Column
  strings : Column
  text : Schema.ArrayLayout
  hashes : List UInt32

/-- A member that was dealt with, and the slot that it took. -/
structure Slotted where
  slot : Nat
  name : String
  value : Json
  verdict : Verdict

namespace Slots

variable (slots : Slots)

/-- The variable of a key. -/
def keyAt (slot : Nat) : Offset :=
  slots.storage.strings.advance (slot * slots.strings.element.slot.toNat)

/-- The variable of a value. -/
def valueAt (slot : Nat) : Offset :=
  slots.storage.values.advance (slot * slots.values.element.slot.toNat)

/-- The region of a key. -/
def keyRegion (slot : Nat) : Extent := elementOf slots.storage.strings slot slots.strings.element

/-- The region of a value. -/
def valueRegion (slot : Nat) : Extent := elementOf slots.storage.values slot slots.values.element

/-- The regions of all keys and values. -/
def regions : List Extent :=
  eachOf slots.storage.strings slots.hashes.length slots.strings.element ++
    eachOf slots.storage.values slots.hashes.length slots.values.element

/-- There is room for the members, handed out before some time. -/
structure HaveRoom (packer : Packer) (base : Nat) (data : Arena) : Prop where
  isText : IsText packer slots.strings.element slots.text
  isValue : packer.schema.type slots.values.argument = .ok slots.values.element
  hashes : slots.storage.hashes = slots.hashes.toArray
  sorted : slots.hashes.Pairwise fun first second => first.toNat ≤ second.toNat
  valueStride : slots.storage.valueStride = slots.values.element.slot.toNat
  stringType : slots.storage.stringType = slots.strings.element
  strings : HasRoom data
    (elementsOf slots.storage.strings slots.hashes.length slots.strings.element)
  values : HasRoom data (elementsOf slots.storage.values slots.hashes.length slots.values.element)
  apart : (elementsOf slots.storage.strings slots.hashes.length slots.strings.element).Apart
    (elementsOf slots.storage.values slots.hashes.length slots.values.element)
  stringsBefore : slots.storage.strings.toNat +
    slots.hashes.length * slots.strings.element.slot.toNat ≤ base
  valuesBefore : slots.storage.values.toNat +
    slots.hashes.length * slots.values.element.slot.toNat ≤ base
  started : base ≤ data.used

/-- A member was written into its slot. -/
structure IsWritten (packer : Packer) (base : Nat) (data : Arena) (slotted : Slotted) : Prop where
  inBounds : slotted.slot < slots.hashes.length
  hash : hashAt slots.hashes slotted.slot = (Checksum.nameHash slotted.name).toNat
  key : Lasts (Since (slots.keyRegion slotted.slot) base data.used) data
    (packer.HoldsText slots.text (slots.keyAt slotted.slot) slotted.name)
  value : forall meaning, slotted.verdict = .fits meaning -> slotted.value.WellFormed ->
    Lasts (Since (slots.valueRegion slotted.slot) base data.used) data
      (packer.ReadsVariable slots.values.argument (slots.valueAt slotted.slot) meaning)

/-- Some members were written, and the slots of the others are empty. -/
structure AreWritten (packer : Packer) (base : Nat) (data : Arena) (done : List Slotted) :
    Prop where
  written : forall slotted, slotted ∈ done -> slots.IsWritten packer base data slotted
  distinct : (done.map Slotted.slot).Nodup
  free : forall slot, slot < slots.hashes.length -> slot ∉ done.map Slotted.slot ->
    data.Zero (slots.keyRegion slot) ∧ data.Zero (slots.valueRegion slot)

section Regions

variable {slots : Slots} {packer : Packer} {base slot : Nat} {data after : Arena}

theorem HaveRoom.grown (room : slots.HaveRoom packer base data) (grown : Grown data after) :
    slots.HaveRoom packer base after :=
  { room with
    strings := room.strings.grown grown
    values := room.values.grown grown
    started := Nat.le_trans room.started grown.used }

theorem HaveRoom.keyRegion_eq (room : slots.HaveRoom packer base data)
    (bound : slot < slots.hashes.length) :
    instanceOf (slots.keyAt slot) slots.strings.element = slots.keyRegion slot := by
  rw [← room.isText.variableOf_eq]
  exact variableOf_element room.strings bound

theorem HaveRoom.valueRegion_eq (room : slots.HaveRoom packer base data)
    (bound : slot < slots.hashes.length) :
    variableOf (slots.valueAt slot) slots.values.element = slots.valueRegion slot :=
  variableOf_element room.values bound

theorem HaveRoom.key (room : slots.HaveRoom packer base data)
    (bound : slot < slots.hashes.length) : HasRoom data (slots.keyRegion slot) :=
  room.strings.inside (elementOf_inside _ _ bound)

theorem HaveRoom.value (room : slots.HaveRoom packer base data)
    (bound : slot < slots.hashes.length) : HasRoom data (slots.valueRegion slot) :=
  room.values.inside (elementOf_inside _ _ bound)

theorem HaveRoom.key_before (room : slots.HaveRoom packer base data)
    (bound : slot < slots.hashes.length) :
    (slots.keyRegion slot).start + (slots.keyRegion slot).length ≤ base :=
  Nat.le_trans (elementOf_inside slots.storage.strings slots.strings.element bound).2
    room.stringsBefore

theorem HaveRoom.value_before (room : slots.HaveRoom packer base data)
    (bound : slot < slots.hashes.length) :
    (slots.valueRegion slot).start + (slots.valueRegion slot).length ≤ base :=
  Nat.le_trans (elementOf_inside slots.storage.values slots.values.element bound).2
    room.valuesBefore

/-- Keys are apart from values. -/
theorem HaveRoom.key_apart (room : slots.HaveRoom packer base data) {other : Nat}
    (bound : slot < slots.hashes.length) (otherBound : other < slots.hashes.length) :
    (slots.keyRegion slot).Apart (slots.valueRegion other) := by
  obtain ⟨keyLow, keyHigh⟩ := elementOf_inside slots.storage.strings slots.strings.element bound
  obtain ⟨valueLow, valueHigh⟩ :=
    elementOf_inside slots.storage.values slots.values.element otherBound
  unfold keyRegion valueRegion
  cases room.apart with
  | inl before => exact Or.inl (by omega)
  | inr behind => exact Or.inr (by omega)

theorem covers_slot (bound : slot < slots.hashes.length) :
    Covers slots.regions [slots.keyRegion slot, slots.valueRegion slot] := by
  have inRange := List.mem_range.mpr bound
  exact .of_subset (List.forall_mem_cons.mpr
    ⟨List.mem_append_left _ (List.mem_map.mpr ⟨slot, inRange, rfl⟩),
      List.forall_mem_singleton.mpr (List.mem_append_right _ (List.mem_map.mpr ⟨slot, inRange, rfl⟩))⟩)

/-- What ends before the keys and the values is apart from them. -/
theorem apart_regions {region : Extent}
    (beforeKeys : 0 < slots.hashes.length ->
      region.start + region.length ≤ slots.storage.strings.toNat)
    (beforeValues : 0 < slots.hashes.length ->
      region.start + region.length ≤ slots.storage.values.toNat) :
    forall other, other ∈ slots.regions -> region.Apart other := by
  intro other member
  cases List.mem_append.mp member with
  | inl isKey => exact apart_eachOf (Nat.le_refl _) beforeKeys other isKey
  | inr isValue => exact apart_eachOf (Nat.le_refl _) beforeValues other isValue

end Regions

/-! ### Finding a slot -/

section Finding

variable {slots : Slots} {packer : Packer} {base slot : Nat} {state : PackState}
  {done : List Slotted} {name : String} {type : TypeDef} {search : Search}

theorem HaveRoom.keyPlace_eq (room : slots.HaveRoom packer base state.data)
    (bound : slot < slots.hashes.length) :
    keyPlace slots.storage slot = pure (slots.keyAt slot) := by
  unfold keyPlace
  rw [room.stringType]
  exact element_position room.strings bound

/-- A slot whose key is empty is free. -/
theorem storedKey_of_zero (room : slots.HaveRoom packer base state.data)
    (bound : slot < slots.hashes.length) (zero : state.data.Zero (slots.keyRegion slot)) :
    packer.storedKey slots.storage slot state = .ok none state := by
  have isArray := room.isText.isArray
  have keyRoom := room.key bound
  rw [← room.keyRegion_eq bound] at keyRoom zero
  obtain ⟨inside, _, _⟩ := isArray.inside (slots.keyAt slot)
  have word := word_eq keyRoom inside
  have isZero : state.data.HasNumber ((slots.keyAt slot).advance slots.text.pointer.toNat)
      packer.target.pointerWidth (Reader.rawPointer packer.pointerBase Offset.null) := by
    have within := (keyRoom.inside inside).within
    rw [← word] at inside within
    exact (zero.inside inside).hasNumber within
  unfold storedKey
  rw [room.keyPlace_eq bound, pure_bind, room.stringType, ask_ok isArray.isLayout, pure_bind,
    keyRoom.inside_eq (Nat.le_trans (Nat.le_add_right _ _) inside.2), pure_bind]
  simp only [bind, EStateM.bind, readPointer_eq isZero keyRoom.writable]
  rfl

/-- A slot holds the key that was written into it. -/
theorem storedKey_of_holdsText (room : slots.HaveRoom packer base state.data)
    (bound : slot < slots.hashes.length)
    (holds : packer.HoldsText slots.text (slots.keyAt slot) name state.data) :
    packer.storedKey slots.storage slot state = .ok (some name.toUTF8) state := by
  have isArray := room.isText.isArray
  have keyRoom := room.key bound
  rw [← room.keyRegion_eq bound] at keyRoom
  obtain ⟨pointerInside, _, lengthInside⟩ := isArray.inside (slots.keyAt slot)
  obtain ⟨start, hasParts, hasBytes⟩ := holds
  have nonNull : start.nonNull? = some start := by
    unfold Offset.nonNull?
    rw [hasBytes.present]
    rfl
  have isLength := readUnsigned_of_hasNumber hasParts.length keyRoom.writable
    packer.target.pointerWidth_pos
  have isKey : readBytes start name.utf8ByteSize state = .ok name.toUTF8 state := by
    unfold readBytes
    rw [hasBytes.slice keyRoom.writable]
  unfold storedKey
  rw [room.keyPlace_eq bound, pure_bind, room.stringType, ask_ok isArray.isLayout, pure_bind,
    keyRoom.inside_eq (Nat.le_trans (Nat.le_add_right _ _) pointerInside.2), pure_bind,
    keyRoom.inside_eq (Nat.le_trans (Nat.le_add_right _ _) lengthInside.2)]
  simp only [bind, EStateM.bind, readPointer_eq hasParts.pointer keyRoom.writable, nonNull, pure,
    EStateM.pure, isLength, isKey]

/-- The first free slot is found among slots that hold other keys. -/
theorem freeSlot_eq (room : slots.HaveRoom packer base state.data)
    (are : slots.AreWritten packer base state.data done)
    (isNew : name ∉ done.map Slotted.name) {candidates : List Nat}
    (inBounds : forall slot, slot ∈ candidates -> slot < slots.hashes.length) :
    packer.freeSlot slots.storage name.toUTF8 candidates state =
      .ok (candidates.find? fun slot => slot ∉ done.map Slotted.slot) state := by
  induction candidates with
  | nil => rfl
  | cons slot rest ih =>
      obtain ⟨bound, restBounds⟩ := List.forall_mem_cons.mp inBounds
      unfold freeSlot
      by_cases taken : slot ∈ done.map Slotted.slot
      · have isTaken : ¬ decide (slot ∉ done.map Slotted.slot) = true := fun free =>
          of_decide_eq_true free taken
        rw [List.find?_cons_of_neg (p := fun slot => decide (slot ∉ done.map Slotted.slot)) isTaken]
        obtain ⟨slotted, member, rfl⟩ := List.mem_map.mp taken
        have stored := storedKey_of_holdsText room bound (are.written slotted member).key.now
        have different : ¬ slotted.name.toUTF8.data = name.toUTF8.data := by
          intro same
          have sameName := String.toByteArray_inj.mp (ByteArray.ext same)
          exact isNew (sameName ▸ List.mem_map.mpr ⟨slotted, member, rfl⟩)
        simp only [bind, EStateM.bind, stored, different, if_false, ih restBounds]
      · have isFree : decide (slot ∉ done.map Slotted.slot) = true := decide_eq_true taken
        rw [List.find?_cons_of_pos (p := fun slot => decide (slot ∉ done.map Slotted.slot)) isFree]
        simp only [bind, EStateM.bind, storedKey_of_zero room bound (are.free slot bound taken).1]
        rfl

/-- The slot that a key goes to: the first candidate that is not taken. -/
def slotFor (slots : Slots) (search : Search) (done : List Slotted) (name : String) : Option Nat :=
  (slotsFrom search slots.hashes.toArray (Checksum.nameHash name)).find? fun slot =>
    slot ∉ done.map Slotted.slot

theorem of_slotFor (isSlot : slots.slotFor search done name = some slot) :
    slot ∈ slotsFrom search slots.hashes.toArray (Checksum.nameHash name) ∧
      slot ∉ done.map Slotted.slot := by
  unfold slotFor at isSlot
  have isFree := List.find?_some (p := fun slot => decide (slot ∉ done.map Slotted.slot)) isSlot
  exact ⟨List.mem_of_find?_eq_some isSlot, of_decide_eq_true isFree⟩

/-- A member finds a free slot of the hash of its name. -/
theorem mapSlot_eq (finds : search.Finds) (room : slots.HaveRoom packer base state.data)
    (are : slots.AreWritten packer base state.data done) {rest : List String}
    (perm : ((done.map Slotted.name ++ name :: rest).map Checksum.nameHash).Perm slots.hashes)
    (isNew : name ∉ done.map Slotted.name) :
    exists slot, slots.slotFor search done name = some slot ∧ slot < slots.hashes.length ∧
      slot ∉ done.map Slotted.slot ∧
      hashAt slots.hashes slot = (Checksum.nameHash name).toNat ∧
      mapSlotFrom search packer type slots.storage name state = .ok slot state := by
  have takenHashes : (done.map Slotted.slot).map (hashAt slots.hashes) =
      (done.map Slotted.name).map fun name => (Checksum.nameHash name).toNat := by
    simp only [List.map_map]
    exact List.map_congr_left fun slotted member => (are.written slotted member).hash
  have sameHashes : ((done.map Slotted.name).map Checksum.nameHash).map UInt32.toNat =
      (done.map Slotted.name).map fun name => (Checksum.nameHash name).toNat := by
    rw [List.map_map]
    rfl
  have fewer : ((done.map Slotted.slot).map (hashAt slots.hashes)).count
      (Checksum.nameHash name).toNat <
      (((done.map Slotted.name ++ name :: rest).map Checksum.nameHash).map UInt32.toNat).count
        (Checksum.nameHash name).toNat := by
    rw [takenHashes, List.map_append, List.map_append, sameHashes, List.count_append, List.map_cons,
      List.map_cons, List.count_cons_self]
    omega
  obtain ⟨free, inCandidates, isFree⟩ := exists_free_slot room.sorted finds perm fewer
  have someFree : (slots.slotFor search done name).isSome = true :=
    List.find?_isSome.mpr ⟨free, inCandidates, decide_eq_true isFree⟩
  obtain ⟨slot, isSlot⟩ := Option.isSome_iff_exists.mp someFree
  obtain ⟨isCandidate, isFree⟩ := of_slotFor isSlot
  obtain ⟨inBounds, hash⟩ := of_mem_slotsFrom room.sorted finds isCandidate
  refine ⟨slot, isSlot, inBounds, isFree, hash, ?_⟩
  have found : packer.freeSlot slots.storage name.toUTF8
      (slotsFrom search slots.hashes.toArray (Checksum.nameHash name)) state = .ok (some slot) state :=
    isSlot ▸ freeSlot_eq room are isNew fun _ member => (of_mem_slotsFrom room.sorted finds member).1
  unfold mapSlotFrom
  rw [room.hashes]
  simp only [bind, EStateM.bind, found]
  rfl

end Finding

/-! ### Writing the members -/

section Members

variable {slots : Slots} {packer : Packer} {document : Json} {base slot : Nat}
  {state middle after : PackState} {done : List Slotted} {name : String} {value : Json}
  {verdict : Verdict} {type : TypeDef} {term : Term} {path : Path} {write : Writer}
  {data later : Arena} {owned fresh : List Extent} {search : Search}

/-- A member outlasts changes of other slots. -/
theorem IsWritten.carry {slotted : Slotted}
    (written : slots.IsWritten packer base data slotted) (evolves : Evolves owned data fresh later)
    (room : slots.HaveRoom packer base data)
    (apart : forall region, region ∈ owned -> region.start + region.length ≤ base ∧
      (slots.keyRegion slotted.slot).Apart region ∧
      (slots.valueRegion slotted.slot).Apart region) :
    slots.IsWritten packer base later slotted := by
  have bound := written.inBounds
  have writable := room.strings.writable
  refine ⟨bound, written.hash, ?_, fun meaning fits wellFormed => ?_⟩
  · exact written.key.carry evolves writable (room.key bound).end_le fun region member =>
      ⟨(apart region member).2.1, (apart region member).1⟩
  · exact (written.value meaning fits wellFormed).carry evolves writable
      (room.value bound).end_le fun region member =>
        ⟨(apart region member).2.2, (apart region member).1⟩

/-- A member was written when its key was, and then its value. -/
theorem HaveRoom.isWritten {before : Arena} {more : List Extent} {slotted : Slotted}
    (room : slots.HaveRoom packer base before) (middleRoom : slots.HaveRoom packer base data)
    (bound : slotted.slot < slots.hashes.length)
    (hash : hashAt slots.hashes slotted.slot = (Checksum.nameHash slotted.name).toNat)
    (hasKey : Lasts (Since (slots.keyRegion slotted.slot) before.used data.used) data
      (packer.HoldsText slots.text (slots.keyAt slotted.slot) slotted.name))
    (evolves : Evolves [slots.valueRegion slotted.slot] data more later)
    (hasValue : forall meaning, slotted.verdict = .fits meaning -> slotted.value.WellFormed ->
      Lasts (Since (slots.valueRegion slotted.slot) data.used later.used) later
        (packer.ReadsVariable slots.values.argument (slots.valueAt slotted.slot) meaning)) :
    slots.IsWritten packer base later slotted := by
  refine ⟨bound, hash, ?_, fun meaning fits wellFormed => ?_⟩
  · refine ((hasKey.mono fun position since => since.mono ⟨Nat.le_refl _, Nat.le_refl _⟩
      room.started (Nat.le_refl _)).carry evolves middleRoom.strings.writable
      (middleRoom.key bound).end_le fun region member => ?_)
    cases List.mem_singleton.mp member
    exact ⟨room.key_apart bound bound, room.value_before bound⟩
  · exact (hasValue meaning fits wellFormed).mono fun position since =>
      since.mono ⟨Nat.le_refl _, Nat.le_refl _⟩ middleRoom.started (Nat.le_refl _)

/-- The slots of different members are apart. -/
theorem HaveRoom.slots_apart (room : slots.HaveRoom packer base data) {other : Nat}
    (bound : slot < slots.hashes.length) (otherBound : other < slots.hashes.length)
    (different : other ≠ slot) :
    forall region, region ∈ [slots.keyRegion slot, slots.valueRegion slot] ->
      region.start + region.length ≤ base ∧ (slots.keyRegion other).Apart region ∧
      (slots.valueRegion other).Apart region := by
  refine List.forall_mem_cons.mpr ⟨⟨room.key_before bound, elementOf_apart _ _ different,
    (room.key_apart bound otherBound).symm⟩, List.forall_mem_singleton.mpr
    ⟨room.value_before bound, room.key_apart otherBound bound, elementOf_apart _ _ different⟩⟩

/-- One more member was written. -/
theorem AreWritten.add (are : slots.AreWritten packer base data done)
    (room : slots.HaveRoom packer base data) {slotted : Slotted}
    (evolves : Evolves [slots.keyRegion slotted.slot, slots.valueRegion slotted.slot] data fresh
      later)
    (written : slots.IsWritten packer base later slotted)
    (isFree : slotted.slot ∉ done.map Slotted.slot) :
    slots.AreWritten packer base later (done ++ [slotted]) := by
  have bound := written.inBounds
  have writable := room.strings.writable
  refine ⟨?_, ?_, ?_⟩
  · intro other member
    cases List.mem_append.mp member with
    | inl earlier =>
        have isWritten := are.written other earlier
        have different : other.slot ≠ slotted.slot := fun same =>
          isFree (same ▸ List.mem_map.mpr ⟨other, earlier, rfl⟩)
        exact isWritten.carry evolves room (room.slots_apart bound isWritten.inBounds different)
    | inr last =>
        cases List.mem_singleton.mp last
        exact written
  · rw [List.map_append, List.map_singleton]
    exact List.nodup_append.mpr ⟨are.distinct, List.nodup_singleton _, fun slot member other isLast =>
      by
        cases List.mem_singleton.mp isLast
        exact fun same => isFree (same ▸ member)⟩
  · intro slot inBounds free
    rw [List.map_append, List.map_singleton, List.mem_append, List.mem_singleton, not_or] at free
    obtain ⟨keyZero, valueZero⟩ := are.free slot inBounds free.1
    have apart := room.slots_apart bound inBounds free.2
    exact ⟨(evolves.preserves_region writable (room.key inBounds).end_le fun region member =>
        (apart region member).2.1).zero keyZero fun _ => id,
      (evolves.preserves_region writable (room.value inBounds).end_le fun region member =>
        (apart region member).2.2).zero valueZero fun _ => id⟩

/-- A member of a map is written. -/
theorem run_writeMember (finds : search.Finds) (room : slots.HaveRoom packer base state.data)
    (are : slots.AreWritten packer base state.data done) {rest : List String}
    (perm : ((done.map Slotted.name ++ name :: rest).map Checksum.nameHash).Perm slots.hashes)
    (isNew : name ∉ done.map Slotted.name)
    (writes : Writes document packer write slots.values.argument term (path.child (.key name)) value)
    (first : Option Violation) :
    Run (writeMemberFrom search packer write type slots.values.argument slots.storage path first
        (name, value)) state
      (fun next after => exists slotted : Slotted, slotted.name = name ∧ slotted.value = value ∧
        slots.slotFor search done name = some slotted.slot ∧
        Gathered document packer.maxDepth slots.regions
          [Matter.inner packer.maxDepth term path (.key name) value] state first next
          [slotted.verdict] after ∧
        slots.HaveRoom packer base after.data ∧
        slots.AreWritten packer base after.data (done ++ [slotted]))
      (Refuses (IsDecided document packer.maxDepth
          (.inner packer.maxDepth term path (.key name) value)) slots.regions state) := by
  obtain ⟨slot, isSlot, bound, isFree, hash, found⟩ :=
    @mapSlot_eq _ _ _ _ _ _ type search finds room are _ perm isNew
  have writable := room.strings.writable
  have keyRoom := room.key bound
  have covers := covers_slot bound
  have keyCovered : Covers slots.regions [slots.keyRegion slot] :=
    covers.trans (.single List.mem_cons_self ⟨Nat.le_refl _, Nat.le_refl _⟩)
  rw [← room.keyRegion_eq bound] at keyRoom
  have valuePlace : Packer.element slots.storage.values slot slots.storage.valueStride =
      pure (slots.valueAt slot) := by
    rw [room.valueStride]
    exact element_position room.values bound
  unfold writeMemberFrom
  simp only
  rw [run_bind, run_of_ok found, room.keyPlace_eq bound, pure_bind, valuePlace, room.stringType]
  simp only [pure_bind]
  refine Run.andThen (does_writeText room.isText.isArray keyRoom) ?_ ?_
  · rintro _ middle ⟨fresh, moves, hasKey⟩
    rw [room.keyRegion_eq bound] at moves hasKey
    have grown := moves.evolves.grown writable
    have middleRoom := room.grown grown
    have valueRoom := middleRoom.value bound
    have regionOf := middleRoom.valueRegion_eq bound
    rw [← regionOf] at valueRoom
    refine Run.imp (writesPart_nested writes room.isValue valueRoom first) ?_ ?_
    · rintro next after ⟨verdict, gathered, isGood⟩
      simp only [innerPart, regionOf] at gathered isGood
      obtain ⟨more, evolves⟩ := gathered.changes
      have valueMember : slots.valueRegion slot ∈ [slots.keyRegion slot, slots.valueRegion slot] :=
        List.mem_cons_of_mem _ List.mem_cons_self
      have both : Evolves [slots.keyRegion slot, slots.valueRegion slot] state.data (more ++ fresh)
          after.data :=
        (moves.evolves.mono (.single List.mem_cons_self ⟨Nat.le_refl _, Nat.le_refl _⟩)).trans
          evolves (Covers.single valueMember ⟨Nat.le_refl _, Nat.le_refl _⟩).append
      have zero : middle.data.Zero (slots.valueRegion slot) :=
        (moves.evolves.preserves_region writable (room.value bound).end_le fun region member => by
          cases List.mem_singleton.mp member
          exact (room.key_apart bound bound).symm).zero (are.free slot bound isFree).2 fun _ => id
      have written : slots.IsWritten packer base after.data ⟨slot, name, value, verdict⟩ :=
        room.isWritten middleRoom bound hash hasKey evolves fun meaning fits wellFormed =>
          isGood meaning fits zero wellFormed
      exact ⟨⟨slot, name, value, verdict⟩, rfl, rfl, isSlot,
        gathered.of_moves (moves.mono keyCovered) (covers.trans
          (.single valueMember ⟨Nat.le_refl _, Nat.le_refl _⟩)).append,
        middleRoom.grown (evolves.grown middleRoom.strings.writable),
        are.add room both written isFree⟩
    · rintro failure after refuses
      simp only [innerPart, regionOf] at refuses
      exact refuses.of_moves (moves.mono keyCovered) (covers.trans
        (.single (List.mem_cons_of_mem _ List.mem_cons_self) ⟨Nat.le_refl _, Nat.le_refl _⟩)).append
  · rintro failure after ⟨expected, fresh, evolves⟩
    rw [room.keyRegion_eq bound] at evolves
    exact ⟨expected.mono fun _ => trivial, fresh, evolves.mono keyCovered⟩

/-- The walk over the members of a map. -/
theorem run_writeMembers {members : List (String × Json)} (finds : search.Finds)
    (room : slots.HaveRoom packer base state.data)
    (are : slots.AreWritten packer base state.data done)
    (perm : ((done.map Slotted.name ++ members.map Prod.fst).map Checksum.nameHash).Perm slots.hashes)
    (distinct : (done.map Slotted.name ++ members.map Prod.fst).Nodup)
    (writes : forall member, member ∈ members ->
      Writes document packer write slots.values.argument term (path.child (.key member.1)) member.2)
    (first : Option Violation) :
    Run (members.foldlM (writeMemberFrom search packer write type slots.values.argument slots.storage
        path) first) state
      (fun next after => exists more : List Slotted, more.map Slotted.name = members.map Prod.fst ∧
        more.map Slotted.value = members.map Prod.snd ∧
        Gathered document packer.maxDepth slots.regions
          (Matter.members packer.maxDepth term path members) state first next
          (more.map Slotted.verdict) after ∧
        slots.HaveRoom packer base after.data ∧
        slots.AreWritten packer base after.data (done ++ more))
      (Refuses (forall matter, matter ∈ Matter.members packer.maxDepth term path members ->
          IsDecided document packer.maxDepth matter) slots.regions state) := by
  induction members generalizing state done first with
  | nil =>
      refine run_pure.mpr ⟨[], rfl, rfl, .nil _ _ _, room, ?_⟩
      rw [List.append_nil]
      exact are
  | cons member rest ih =>
      obtain ⟨name, value⟩ := member
      obtain ⟨writesMember, writesRest⟩ := List.forall_mem_cons.mp writes
      rw [List.map_cons] at perm distinct
      have isNew : name ∉ done.map Slotted.name := fun member =>
        (List.nodup_append.mp distinct).2.2 name member name List.mem_cons_self rfl
      rw [List.foldlM_cons]
      refine Run.andThen (run_writeMember finds room are perm isNew writesMember first) ?_
        fun _ _ => Refuses.mono fun decided => decided _ List.mem_cons_self
      rintro next middle ⟨slotted, isName, isValue, _, gathered, middleRoom, middleAre⟩
      have split : (done ++ [slotted]).map Slotted.name ++ rest.map Prod.fst =
          done.map Slotted.name ++ name :: rest.map Prod.fst := by
        rw [List.map_append, List.map_singleton, isName, List.append_assoc, List.singleton_append]
      refine Run.imp (ih middleRoom middleAre (split ▸ perm) (split ▸ distinct) writesRest next) ?_ ?_
      · rintro last after ⟨more, names, values, continued, afterRoom, afterAre⟩
        refine ⟨slotted :: more, ?_, ?_, ?_, afterRoom, ?_⟩
        · rw [List.map_cons, List.map_cons, isName, names]
        · rw [List.map_cons, List.map_cons, isValue, values]
        · exact gathered.append continued
        · rw [List.append_assoc, List.singleton_append] at afterAre
          exact afterAre
      · rintro failure after ⟨expected, fresh, evolves⟩
        obtain ⟨earlier, evolved⟩ := gathered.changes
        exact ⟨expected.mono fun decided other member => decided other
          (List.mem_cons_of_mem _ member), _, evolved.trans evolves (Covers.refl _).append⟩

end Members

/-! ### Reading the members -/

section Reading

variable {slots : Slots} {packer : Packer} {id : TypeId} {type : TypeDef} {place : Offset}
  {keys : Column} {hashStorage : Offset} {data : Arena} {done : List Slotted} {base : Nat}

/-- The slots of all members are all slots. -/
theorem AreWritten.perm (are : slots.AreWritten packer base data done)
    (all : done.length = slots.hashes.length) :
    (List.range slots.hashes.length).Perm (done.map Slotted.slot) := by
  have subset : done.map Slotted.slot ⊆ List.range slots.hashes.length := by
    intro slot member
    obtain ⟨slotted, isDone, rfl⟩ := List.mem_map.mp member
    exact List.mem_range.mpr (are.written slotted isDone).inBounds
  refine ((List.Nodup.subperm are.distinct subset).perm_of_length_le ?_).symm
  rw [List.length_range, List.length_map, all]

end Reading

end Slots

/-- What a reader finds of a map: its arrays, and in each slot a key and a
value. -/
structure HoldsMap (packer : Packer) (slots : Slots) (keys : Column) (place hashStorage : Offset)
    (entries : List (Nat × String × Value)) (data : Arena) : Prop where
  keysParts : HasParts packer keys.layout (keys.record place) hashStorage slots.hashes.length data
  valuesParts : HasParts packer slots.values.layout (slots.values.record place) slots.storage.values
    slots.hashes.length data
  stringsParts : HasParts packer slots.strings.layout (slots.strings.record place)
    slots.storage.strings slots.hashes.length data
  hashes : 0 < slots.hashes.length -> HasHashes slots.hashes hashStorage data
  perm : (List.range slots.hashes.length).Perm (entries.map Prod.fst)
  hash : forall entry, entry ∈ entries ->
    hashAt slots.hashes entry.1 = (Checksum.nameHash entry.2.1).toNat
  key : forall entry, entry ∈ entries ->
    packer.HoldsText slots.text (slots.keyAt entry.1) entry.2.1 data
  value : forall entry, entry ∈ entries ->
    packer.ReadsVariable slots.values.argument (slots.valueAt entry.1) entry.2.2 data

/-- There is room for the members of a map, unless it has none. -/
def HasSlots (packer : Packer) (slots : Slots) (data : Arena) : Prop :=
  0 < slots.hashes.length -> exists base, slots.HaveRoom packer base data ∧
    slots.storage.strings.isNull = false ∧ slots.storage.values.isNull = false

/-- The parallel arrays of a map, as a reader finds them. -/
def arraysOf (keys : Column) (slots : Slots) (place : Offset) : Reader.MapArrays :=
  ⟨⟨keys.part.type, keys.array, keys.record place⟩,
    ⟨slots.values.part.type, slots.values.array, slots.values.record place⟩,
    ⟨slots.strings.part.type, slots.strings.array, slots.strings.record place⟩⟩

section Reading

variable {slots : Slots} {packer : Packer} {id : TypeId} {type : TypeDef} {place : Offset}
  {keys : Column} {hashStorage : Offset} {data : Arena} {entries : List (Nat × String × Value)}
  {base : Nat}

theorem IsColumn.variableAt_eq {column : Column} (isColumn : IsColumn packer type column)
    (room : HasRoom data (instanceOf place type)) :
    Reader.inside ⟨id, type, place⟩ column.part.offset = .ok (column.record place) ∧
      (packer.reader data).variableAt column.part.type (column.record place) =
        .ok ⟨column.part.type, column.array, column.record place⟩ := by
  have fits := isColumn.fits
  have used := room.writable.used_lt
  have bound := room.end_le
  simp only [instanceOf] at bound
  exact ⟨reader_inside (by simp only; omega), variableAt_inline isColumn.found isColumn.inline⟩

/-- The member in a slot is read. -/
theorem mapEntry_eq (isMap : IsMap packer type keys slots.values slots.strings slots.text)
    (isString : packer.context.builtinOf? (packer.context.builtin .string) = some .string)
    (room : HasRoom data (instanceOf place type)) (slotsRoom : slots.HaveRoom packer base data)
    (present : slots.storage.strings.isNull = false ∧ slots.storage.values.isNull = false)
    (holds : HoldsMap packer slots keys place hashStorage entries data)
    {entry : Nat × String × Value} (member : entry ∈ entries) :
    exists found, (packer.reader data).mapEntry (arraysOf keys slots place) entry.1 =
        .ok (entry.2.1, found) ∧ Reads (packer.reader data) found entry.2.2 := by
  have bound : entry.1 < slots.hashes.length :=
    List.mem_range.mp (holds.perm.mem_iff.mpr (List.mem_map.mpr ⟨entry, member, rfl⟩))
  have stringsEnd := slotsRoom.strings.end_le
  have valuesEnd := slotsRoom.values.end_le
  have used := room.writable.used_lt
  simp only [elementsOf] at stringsEnd valuesEnd
  have smallKey := Nat.mul_le_mul_right slots.strings.element.slot.toNat (Nat.le_of_lt bound)
  have smallValue := Nat.mul_le_mul_right slots.values.element.slot.toNat (Nat.le_of_lt bound)
  have keyRoom := slotsRoom.key bound
  rw [← slotsRoom.keyRegion_eq bound] at keyRoom
  obtain ⟨found, isFound, isRead⟩ := holds.value entry member
  refine ⟨found, ?_, isRead⟩
  have isKey : (packer.reader data).index
      ⟨slots.strings.part.type, slots.strings.array, slots.strings.record place⟩ entry.1 =
        .ok ⟨slots.strings.argument, slots.strings.element, slots.keyAt entry.1⟩ := by
    rw [index_eq isMap.isStrings.isArray holds.stringsParts (isMap.isStrings.room room)
      isMap.isStrings.argument isMap.isStrings.element present.1 bound (by omega)]
    exact variableAt_inline isMap.isStrings.element isMap.isText.inline
  have isValue : (packer.reader data).index
      ⟨slots.values.part.type, slots.values.array, slots.values.record place⟩ entry.1 =
        .ok found := by
    rw [index_eq isMap.isValues.isArray holds.valuesParts (isMap.isValues.room room)
      isMap.isValues.argument isMap.isValues.element present.2 bound (by omega)]
    exact isFound
  have isText : (packer.reader data).text
      ⟨slots.strings.argument, slots.strings.element, slots.keyAt entry.1⟩ = .ok entry.2.1 :=
    text_of_holdsText isMap.isText.isArray (holds.key entry member) keyRoom
      (isMap.isString ▸ isString)
  unfold Reader.mapEntry arraysOf
  simp only [bind, Except.bind, isKey, isText, isValue]
  rfl

/-- The arrays of a map are found. -/
theorem mapArrays_eq (isMap : IsMap packer type keys slots.values slots.strings slots.text)
    (room : HasRoom data (instanceOf place type)) :
    (packer.reader data).mapArrays ⟨id, type, place⟩ = .ok (arraysOf keys slots place) := by
  have isLayout := isMap.isLayout
  obtain ⟨keysInside, keysAt⟩ := @IsColumn.variableAt_eq _ id _ _ _ _ isMap.isKeys room
  obtain ⟨valuesInside, valuesAt⟩ := @IsColumn.variableAt_eq _ id _ _ _ _ isMap.isValues room
  obtain ⟨stringsInside, stringsAt⟩ := @IsColumn.variableAt_eq _ id _ _ _ _ isMap.isStrings room
  unfold Reader.mapArrays
  rw [if_neg (not_not_intro isMap.shape)]
  simp only [reader, Reader.ofSchema, isLayout, bind, Except.bind, keysInside, valuesInside,
    stringsInside] at keysAt valuesAt stringsAt ⊢
  simp only [keysAt, valuesAt, stringsAt]
  rfl

/-- What a reader finds of the members of a map: slot by slot, with their
hashes, and put in the order of the members. -/
structure FindsEntries (reader : Reader) (place : Place) (arrays : Reader.MapArrays)
    (hashes : List UInt32) (members : List (String × Value)) (found ordered : List (String × Place)) :
    Prop where
  entries : reader.mapEntries place = .ok found
  entry : forall slot (bound : slot < found.length), reader.mapEntry arrays slot = .ok found[slot]
  hashes : found.map (fun entry => Checksum.nameHash entry.1) = hashes
  perm : found.Perm ordered
  names : ordered.map Prod.fst = members.map Prod.fst
  reads : List.Forall₂ (Reads reader) (ordered.map Prod.snd) (members.map Prod.snd)

/-- In each slot there is one member; the members are found slot by slot. -/
theorem exists_mapEntries (isMap : IsMap packer type keys slots.values slots.strings slots.text)
    (isString : packer.context.builtinOf? (packer.context.builtin .string) = some .string)
    (room : HasRoom data (instanceOf place type)) (hasSlots : HasSlots packer slots data)
    (holds : HoldsMap packer slots keys place hashStorage entries data) :
    exists found ordered, FindsEntries (packer.reader data) ⟨id, type, place⟩
      (arraysOf keys slots place) slots.hashes (entries.map Prod.snd) found ordered := by
  obtain ⟨found, count, areFound⟩ := @exists_list (String × Place)
    (fun slot read => exists entry, entry ∈ entries ∧ entry.1 = slot ∧
      (packer.reader data).mapEntry (arraysOf keys slots place) slot = .ok read ∧
      read.1 = entry.2.1 ∧ Reads (packer.reader data) read.2 entry.2.2)
    slots.hashes.length (fun slot bound => by
      obtain ⟨entry, member, rfl⟩ := List.mem_map.mp
        (holds.perm.mem_iff.mp (List.mem_range.mpr bound))
      obtain ⟨base, haveRoom, present⟩ := hasSlots (by omega)
      obtain ⟨read, isRead, reads⟩ :=
        mapEntry_eq isMap isString room haveRoom present holds member
      exact ⟨_, entry, member, rfl, isRead, rfl, reads⟩)
  have isEntry (slot : Nat) (bound : slot < found.length) :
      (packer.reader data).mapEntry (arraysOf keys slots place) slot = .ok found[slot] := by
    obtain ⟨_, _, _, isRead, _⟩ := areFound slot bound
    exact isRead
  have areEntries : (packer.reader data).mapEntries ⟨id, type, place⟩ = .ok found := by
    have isLength : (packer.reader data).length (arraysOf keys slots place).keys =
        .ok slots.hashes.length :=
      length_eq isMap.isKeys.isArray holds.keysParts (isMap.isKeys.room room)
    unfold Reader.mapEntries
    simp only [bind, Except.bind, mapArrays_eq isMap room, isLength]
    rw [← count]
    refine collect_eq fun slot bound => ?_
    rw [Nat.zero_add]
    exact isEntry slot bound
  have hashes : found.map (fun entry => Checksum.nameHash entry.1) = slots.hashes := by
    refine List.ext_getElem (by rw [List.length_map, count]) fun slot inFound inHashes => ?_
    rw [List.length_map] at inFound
    obtain ⟨entry, member, rfl, _, name, _⟩ := areFound slot inFound
    have isHash := holds.hash entry member
    rw [hashAt_eq inHashes] at isHash
    rw [List.getElem_map, name]
    exact (UInt32.toNat_inj.mp isHash).symm
  let foundAt (slot : Nat) : String × Place := found[slot]?.getD ("", ⟨id, type, place⟩)
  have isFound (entry : Nat × String × Value) (member : entry ∈ entries) :
      (foundAt entry.1).1 = entry.2.1 ∧ Reads (packer.reader data) (foundAt entry.1).2 entry.2.2 := by
    have bound : entry.1 < found.length :=
      count ▸ List.mem_range.mp (holds.perm.mem_iff.mpr (List.mem_map.mpr ⟨entry, member, rfl⟩))
    obtain ⟨other, isOther, same, _, name, reads⟩ := areFound entry.1 bound
    obtain rfl : other = entry := List.inj_on_of_nodup_map
      (holds.perm.nodup_iff.mp List.nodup_range) isOther member same
    simp only [foundAt, List.getElem?_eq_getElem bound, Option.getD_some]
    exact ⟨name, reads⟩
  have perm : found.Perm ((entries.map Prod.fst).map foundAt) := by
    have all : found = (List.range slots.hashes.length).map foundAt := by
      apply List.ext_getElem
      · rw [List.length_map, List.length_range, count]
      · intro slot inFound inRange
        simp only [List.getElem_map, List.getElem_range, foundAt, List.getElem?_eq_getElem inFound,
          Option.getD_some]
    rw [all]
    exact holds.perm.map foundAt
  refine ⟨found, _, areEntries, isEntry, hashes, perm, ?_, ?_⟩
  · simp only [List.map_map]
    exact List.map_congr_left fun entry member => (isFound entry member).1
  · simp only [List.map_map]
    refine List.forall₂_map_left_iff.mpr (List.forall₂_map_right_iff.mpr ?_)
    exact List.forall₂_same.mpr fun entry member => (isFound entry member).2

/-- The members of a map are read, in the order of their slots. -/
theorem reads_map (isMap : IsMap packer type keys slots.values slots.strings slots.text)
    (isString : packer.context.builtinOf? (packer.context.builtin .string) = some .string)
    (room : HasRoom data (instanceOf place type)) (hasSlots : HasSlots packer slots data)
    (holds : HoldsMap packer slots keys place hashStorage entries data) :
    packer.ReadsInstance id type place (.map (entries.map Prod.snd)) data := by
  obtain ⟨found, ordered, finds⟩ :=
    @exists_mapEntries slots packer id _ _ _ _ _ _ isMap isString room hasSlots holds
  exact .map finds.entries finds.perm finds.names finds.reads

end Reading

/-! ### Maps -/

section Maps

variable {packer : Packer} {document : Json} {id : TypeId} {type : TypeDef} {place : Offset}
  {keys values strings : Column} {text : Schema.ArrayLayout} {term valueTerm : Term} {path : Path}
  {write : Writer} {state : PackState} {search : Search}

/-- The slots of a map that was made for some names. -/
def slotsOf (values strings : Column) (text : Schema.ArrayLayout) (storage : MapStorage)
    (names : List String) : Slots :=
  ⟨storage, values, strings, text, Sorted.sortBy UInt32.toNat (names.map Checksum.nameHash)⟩

theorem length_slotsOf (values strings : Column) (text : Schema.ArrayLayout) (storage : MapStorage)
    (names : List String) :
    (slotsOf values strings text storage names).hashes.length = names.length := by
  simp only [slotsOf, Sorted.length_sortBy, List.length_map]

/-- The room of a map that was made. -/
theorem IsStored.haveRoom {names : List String} {storage : MapStorage} {hashStorage : Offset}
    {before after : Arena} {fresh : List Extent}
    (stored : IsStored packer keys values strings place names storage hashStorage before fresh after)
    (isMap : IsMap packer type keys values strings text) (positive : 0 < names.length) :
    (slotsOf values strings text storage names).HaveRoom packer after.used after ∧
      (slotsOf values strings text storage names).AreWritten packer after.used after [] := by
  have count := length_slotsOf values strings text storage names
  have hasValues := stored.valuesMade.elements positive
  have hasStrings := stored.stringsMade.elements positive
  refine ⟨⟨isMap.isText, isMap.isValues.element, stored.hashes, Sorted.pairwise_sortBy _ _,
    stored.valueStride, stored.stringType, ?_, ?_, ?_, ?_, ?_, Nat.le_refl _⟩,
    ⟨nofun, List.nodup_nil, fun slot bound _ => ⟨?_, ?_⟩⟩⟩
  · rw [count]
    exact hasStrings.room
  · rw [count]
    exact hasValues.room
  · rw [count]
    exact stored.apart positive
  · rw [count]
    exact hasStrings.room.end_le
  · rw [count]
    exact hasValues.room.end_le
  · rw [count] at bound
    exact hasStrings.zero.inside (elementOf_inside _ _ bound)
  · rw [count] at bound
    exact hasValues.zero.inside (elementOf_inside _ _ bound)

/-- The members that were written, with their meanings. -/
def entriesOf (done : List Slotted) (meanings : List Value) : List (Nat × String × Value) :=
  List.zipWith (fun slotted meaning => (slotted.slot, slotted.name, meaning)) done meanings

section Written

variable {storage : MapStorage} {hashStorage : Offset} {names : List String}
  {fresh : List Extent} {middle after : PackState} {done : List Slotted} {meanings : List Value}
  {slots : Slots}

theorem map_fst_entriesOf (sameLength : done.length = meanings.length) :
    (entriesOf done meanings).map Prod.fst = done.map Slotted.slot := by
  apply List.ext_getElem
  · simp only [entriesOf, List.length_map, List.length_zipWith, sameLength, Nat.min_self]
  · intro index _ _
    simp only [entriesOf, List.getElem_map, List.getElem_zipWith]

theorem map_snd_entriesOf :
    (entriesOf done meanings).map Prod.snd = (done.map Slotted.name).zip meanings := by
  apply List.ext_getElem
  · simp only [entriesOf, List.length_map, List.length_zipWith, List.length_zip]
  · intro index _ _
    simp only [entriesOf, List.getElem_map, List.getElem_zipWith, List.getElem_zip]

/-- Each of the entries belongs to a member whose value fits. -/
theorem mem_entriesOf (verdicts : done.map Slotted.verdict = meanings.map Verdict.fits)
    {entry : Nat × String × Value} (member : entry ∈ entriesOf done meanings) :
    exists slotted, slotted ∈ done ∧ entry.1 = slotted.slot ∧ entry.2.1 = slotted.name ∧
      slotted.verdict = .fits entry.2.2 := by
  obtain ⟨index, inEntries, rfl⟩ := List.getElem_of_mem member
  have bounds := inEntries
  rw [entriesOf, List.length_zipWith] at bounds
  have inDone : index < done.length := by omega
  have inMeanings : index < meanings.length := by omega
  simp only [entriesOf, List.getElem_zipWith]
  refine ⟨done[index], List.getElem_mem inDone, rfl, rfl, ?_⟩
  have same := congrArg (fun verdicts => verdicts[index]?) verdicts
  simp only [List.getElem?_map, List.getElem?_eq_getElem inDone,
    List.getElem?_eq_getElem inMeanings, Option.map_some, Option.some.injEq] at same
  exact same

variable (isMap : IsMap packer type keys values strings text)
  (room : HasRoom state.data (instanceOf place type))
  (moves : Moves [instanceOf place type] state fresh middle)
  (stored : IsStored packer keys values strings place names storage hashStorage state.data fresh
    middle.data)
  (changes : Changes (slotsOf values strings text storage names).regions middle after)

include room moves stored changes

/-- The record of an array of a map is still there when the members were
written. -/
theorem hasParts_later {column : Column} {start : Offset} {later : Arena}
    (isColumn : IsColumn packer type column)
    (has : HasParts packer column.layout (column.record place) start names.length middle.data)
    (preserves : Preserves (Since (instanceOf place type) state.data.used after.data.used) after.data
      later) :
    HasParts packer column.layout (column.record place) start names.length later := by
  obtain ⟨more, evolves⟩ := changes
  have middleRoom := room.moved moves
  have inside := isColumn.inside room
  have recordEnd := Nat.le_trans inside.2 room.end_le
  have columnRoom := isColumn.room middleRoom
  have count := length_slotsOf values strings text storage names
  have survives := evolves.preserves_region middleRoom.writable columnRoom.end_le
    (Slots.apart_regions
      (fun positive => Nat.le_trans recordEnd
        (stored.stringsMade.elements (count ▸ positive)).behind)
      (fun positive => Nat.le_trans recordEnd
        (stored.valuesMade.elements (count ▸ positive)).behind))
  have grown := evolves.grown middleRoom.writable
  exact (has.preserved isColumn.isArray columnRoom survives fun _ inRecord => inRecord).preserved
    isColumn.isArray (columnRoom.grown grown) preserves fun position inRecord => Or.inl
      ⟨Nat.le_trans inside.1 inRecord.1, Nat.lt_of_lt_of_le inRecord.2 inside.2⟩

include isMap

/-- The map is there when its members were written. -/
theorem holdsMap_of_areWritten (sameNames : done.map Slotted.name = names)
    (verdicts : done.map Slotted.verdict = meanings.map Verdict.fits)
    (wellFormed : forall slotted, slotted ∈ done -> slotted.value.WellFormed)
    (written : 0 < names.length ->
      (slotsOf values strings text storage names).HaveRoom packer middle.data.used after.data ∧
      (slotsOf values strings text storage names).AreWritten packer middle.data.used after.data done)
    {later : Arena}
    (preserves : Preserves (Since (instanceOf place type) state.data.used after.data.used) after.data
      later) :
    HoldsMap packer (slotsOf values strings text storage names) keys place hashStorage
      (entriesOf done meanings) later := by
  have count := length_slotsOf values strings text storage names
  have doneCount : done.length = names.length := by rw [← sameNames, List.length_map]
  have meaningsCount : done.length = meanings.length := by
    have same := congrArg List.length verdicts
    rwa [List.length_map, List.length_map] at same
  have earlier := (moves.evolves.grown room.writable).used
  have keepsRegion {region : Extent} (behind : state.data.used ≤ region.start)
      (inUse : region.start + region.length ≤ after.data.used) {position : Nat}
      (since : Since region middle.data.used after.data.used position) :
      Since (instanceOf place type) state.data.used after.data.used position := by
    cases since with
    | inl has => exact Since.of_behind behind inUse has
    | inr handedOut => exact Or.inr ⟨Nat.le_trans earlier handedOut.1, handedOut.2⟩
  refine ⟨?_, ?_, ?_, fun positive => ?_, ?_, fun entry member => ?_, fun entry member => ?_,
    fun entry member => ?_⟩
  · rw [count]
    exact hasParts_later room moves stored changes isMap.isKeys stored.keysParts preserves
  · rw [count]
    exact hasParts_later room moves stored changes isMap.isValues stored.valuesMade.parts
      preserves
  · rw [count]
    exact hasParts_later room moves stored changes isMap.isStrings stored.stringsMade.parts
      preserves
  · rw [count] at positive
    obtain ⟨more, evolves⟩ := changes
    have middleRoom := room.moved moves
    have hashes := stored.hashesStored positive
    have inUse := hashes.has.within.2.1
    have survives := @Evolves.preserves_region _ _ _ _ evolves middleRoom.writable
      ⟨hashStorage.toNat, _⟩ inUse (Slots.apart_regions (fun _ => hashes.beforeStrings)
        fun _ => hashes.beforeValues)
    have grown := (evolves.grown middleRoom.writable).used
    refine (hashes.has.preserved survives fun _ => id).preserved preserves fun position has => ?_
    exact Since.of_behind hashes.behind (Nat.le_trans inUse grown) has
  · rw [map_fst_entriesOf meaningsCount]
    rcases Nat.eq_zero_or_pos names.length with isEmpty | positive
    · rw [count, isEmpty]
      rw [List.length_eq_zero_iff.mp (doneCount.trans isEmpty)]
      exact List.Perm.refl _
    · exact (written positive).2.perm (by rw [count, doneCount])
  · obtain ⟨slotted, isDone, isSlot, isName, _⟩ := mem_entriesOf verdicts member
    obtain ⟨_, areWritten⟩ := written (doneCount ▸ List.length_pos_of_mem isDone)
    rw [isSlot, isName]
    exact (areWritten.written slotted isDone).hash
  · obtain ⟨slotted, isDone, isSlot, isName, _⟩ := mem_entriesOf verdicts member
    have positive : 0 < names.length := doneCount ▸ List.length_pos_of_mem isDone
    obtain ⟨slotsRoom, areWritten⟩ := written positive
    have isWritten := areWritten.written slotted isDone
    have behind := (stored.stringsMade.elements positive).behind
    rw [isSlot, isName]
    exact isWritten.key later (preserves.mono fun position =>
      keepsRegion (Nat.le_trans behind (Nat.le_add_right _ _))
        (slotsRoom.key isWritten.inBounds).end_le)
  · obtain ⟨slotted, isDone, isSlot, _, fits⟩ := mem_entriesOf verdicts member
    have positive : 0 < names.length := doneCount ▸ List.length_pos_of_mem isDone
    obtain ⟨slotsRoom, areWritten⟩ := written positive
    have isWritten := areWritten.written slotted isDone
    have behind := (stored.valuesMade.elements positive).behind
    rw [isSlot]
    exact isWritten.value _ fits (wellFormed slotted isDone) later (preserves.mono fun position =>
      keepsRegion (Nat.le_trans behind (Nat.le_add_right _ _))
        (slotsRoom.value isWritten.inBounds).end_le)

end Written

/-- The slots of a map were handed out with its arrays. -/
theorem IsStored.covers {names : List String} {storage : MapStorage} {hashStorage : Offset}
    {before after : Arena} {fresh owned : List Extent}
    (stored : IsStored packer keys values strings place names storage hashStorage before fresh
      after) :
    Covers (fresh ++ owned) (slotsOf values strings text storage names).regions := by
  unfold Slots.regions
  rw [length_slotsOf values strings text storage names]
  intro region member
  cases List.mem_append.mp member with
  | inl isKey =>
      exact covers_eachOf (fun positive => (stored.stringsMade.elements positive).member) region
        isKey
  | inr isValue =>
      exact covers_eachOf (fun positive => (stored.valuesMade.elements positive).member) region
        isValue

/-- The members of a map are written into its slots.  A map without members has
no slots. -/
theorem IsStored.run_members {members : List (String × Json)} {storage : MapStorage}
    {hashStorage : Offset} {before : Arena} {fresh : List Extent}
    (stored : IsStored packer keys values strings place (members.map Prod.fst) storage hashStorage
      before fresh state.data)
    (finds : search.Finds) (isMap : IsMap packer type keys values strings text)
    (distinct : (members.map Prod.fst).Nodup)
    (writes : forall member, member ∈ members ->
      Writes document packer write values.argument valueTerm (path.child (.key member.1))
        member.2) :
    Run (members.foldlM (writeMemberFrom search packer write type values.argument storage path) none)
      state
      (fun first after => exists done : List Slotted,
        done.map Slotted.name = members.map Prod.fst ∧
        done.map Slotted.value = members.map Prod.snd ∧
        Gathered document packer.maxDepth
          (slotsOf values strings text storage (members.map Prod.fst)).regions
          (Matter.members packer.maxDepth valueTerm path members) state none first
          (done.map Slotted.verdict) after ∧
        (0 < (members.map Prod.fst).length ->
          (slotsOf values strings text storage (members.map Prod.fst)).HaveRoom packer
            state.data.used after.data ∧
          (slotsOf values strings text storage (members.map Prod.fst)).AreWritten packer
            state.data.used after.data done))
      (Refuses (forall matter, matter ∈ Matter.members packer.maxDepth valueTerm path members ->
          IsDecided document packer.maxDepth matter)
        (slotsOf values strings text storage (members.map Prod.fst)).regions state) := by
  rcases Nat.eq_zero_or_pos (members.map Prod.fst).length with isEmpty | positive
  · rw [List.length_map] at isEmpty
    cases List.length_eq_zero_iff.mp isEmpty
    exact run_pure.mpr ⟨[], rfl, rfl, .nil _ _ _, fun impossible =>
      absurd impossible (Nat.lt_irrefl 0)⟩
  · obtain ⟨slotsRoom, areWritten⟩ := stored.haveRoom isMap positive
    refine Run.imp (Slots.run_writeMembers finds slotsRoom areWritten
      (Sorted.sortBy_perm _ _).symm distinct writes none) ?_ fun _ _ refuses => refuses
    rintro first after ⟨done, names, areValues, gathered, afterRoom, afterAre⟩
    exact ⟨done, names, areValues, gathered, fun _ => ⟨afterRoom, afterAre⟩⟩

/-- A map with some names and some meanings is in the destination. -/
structure ShowsMap (packer : Packer) (type : TypeDef) (place : Offset) (names : List String)
    (meanings : List Value) (keys : Column) (slots : Slots) (hashStorage : Offset)
    (entries : List (Nat × String × Value)) (data : Arena) : Prop where
  isMap : IsMap packer type keys slots.values slots.strings slots.text
  room : HasRoom data (instanceOf place type)
  sorted : slots.hashes.Pairwise fun first second => first.toNat ≤ second.toNat
  hasSlots : HasSlots packer slots data
  holds : HoldsMap packer slots keys place hashStorage entries data
  members : entries.map Prod.snd = names.zip meanings
  areAll : names.length = meanings.length

/-- An object is written as a map, whichever slot a search finds. -/
theorem fills_mapFrom (finds : search.Finds) (hasRole : HasRole document term (.map valueTerm))
    (isMap : IsMap packer type keys values strings text) {members : List (String × Json)}
    (distinct : (members.map Prod.fst).Nodup)
    (writes : forall member, member ∈ members ->
      Writes document packer write values.argument valueTerm (path.child (.key member.1)) member.2)
    (room : HasRoom state.data (instanceOf place type)) :
    Fills document packer.maxDepth [instanceOf place type] (.asked term path (.object members))
      (mapFrom search packer write type place path (.object members)) state fun meaning after =>
        exists meanings, meaning = .map ((members.map Prod.fst).zip meanings) ∧
          List.Forall₂ (fun matter meaning => Judges document packer.maxDepth matter (.fits meaning))
            (Matter.members packer.maxDepth valueTerm path members) meanings ∧
          ((Json.object members).WellFormed -> exists slots hashStorage entries,
            Lasts (Since (instanceOf place type) state.data.used after.data.used) after.data
              (ShowsMap packer type place (members.map Prod.fst) meanings keys slots hashStorage
                entries)) := by
  have judged (verdicts : List Verdict) := @Judges.map document packer.maxDepth term valueTerm
    path members verdicts hasRole
  unfold mapFrom
  simp only [ask_ok isMap.isLayout, argument_eq isMap.argument, pure_bind]
  refine Run.andThen (does_mapStorage isMap room (members.map Prod.fst)) ?_
    fun _ _ refuses => refuses.fails fun _ => trivial
  rintro storage middle ⟨fresh, moves, hashStorage, stored⟩
  refine Run.andThen (stored.run_members finds isMap distinct writes)
    ?_ fun failure after refuses => (refuses.of_moves moves stored.covers).fails
      (IsDecided.members hasRole)
  rintro first after ⟨done, names, areValues, gathered, written⟩
  refine fills_settle (gathered.of_moves moves stored.covers) judged ?_
  intro meanings verdicts
  have judges := gathered.judged
  rw [verdicts, List.forall₂_map_right_iff] at judges
  refine ⟨meanings, rfl, judges, fun wellFormed => ⟨slotsOf values strings text storage
    (members.map Prod.fst), hashStorage, entriesOf done meanings, fun later preserves => ?_⟩⟩
  have middleRoom := room.moved moves
  obtain ⟨more, evolves⟩ := gathered.changes
  have laterRoom := (middleRoom.grown (evolves.grown middleRoom.writable)).grown preserves.grown
  have areWellFormed : forall slotted, slotted ∈ done -> slotted.value.WellFormed := by
    intro slotted isDone
    have isValue : slotted.value ∈ members.map Prod.snd :=
      areValues ▸ List.mem_map.mpr ⟨slotted, isDone, rfl⟩
    obtain ⟨member, isMember, same⟩ := List.mem_map.mp isValue
    cases wellFormed with
    | object _ allWellFormed => exact same ▸ allWellFormed member isMember
  have hasSlots : HasSlots packer (slotsOf values strings text storage (members.map Prod.fst))
      later := by
    intro positive
    rw [length_slotsOf] at positive
    exact ⟨middle.data.used, (written positive).1.grown preserves.grown,
      (stored.stringsMade.elements positive).present,
      (stored.valuesMade.elements positive).present⟩
  have sameLength : (members.map Prod.fst).length = meanings.length := by
    have length := congrArg List.length verdicts
    rw [List.length_map, List.length_map] at length
    rw [← names, List.length_map, length]
  exact ⟨isMap, laterRoom, Sorted.pairwise_sortBy _ _, hasSlots,
    holdsMap_of_areWritten isMap room moves stored gathered.changes names verdicts areWellFormed
      written preserves, by rw [map_snd_entriesOf, names], sameLength⟩

/-- A value is written as a map. -/
theorem fills_map (isString : packer.context.builtinOf? (packer.context.builtin .string) =
      some .string) (hasRole : HasRole document term (.map valueTerm))
    (isMap : IsMap packer type keys values strings text) {value : Json}
    (distinct : forall members, value = .object members -> (members.map Prod.fst).Nodup)
    (writes : forall members member, value = .object members -> member ∈ members ->
      Writes document packer write values.argument valueTerm (path.child (.key member.1)) member.2)
    (room : HasRoom state.data (instanceOf place type)) :
    FillsInstance document packer id type place term path value
      (packer.map write type place path value) state := by
  cases value with
  | object members =>
      rw [map_eq_from]
      refine (fills_mapFrom finds_lastSlot hasRole isMap (distinct members rfl) (writes members · rfl)
        room).imp ?_
      rintro fresh _ after _ ⟨meanings, rfl, _, shows⟩ _ wellFormed
      obtain ⟨slots, hashStorage, entries, lasts⟩ := shows wellFormed
      refine lasts.imp fun later shows => ?_
      have reads := @reads_map slots packer id _ _ _ _ _ _ shows.isMap isString shows.room
        shows.hasSlots shows.holds
      rw [shows.members] at reads
      exact reads
  | _ => exact fills_complaint hasRole rfl

end Maps

end Packer
end PackedJson
