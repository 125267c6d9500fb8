import PackedJson.Proofs.Arena.Destinations
import PackedJson.Proofs.Packing.Integers
import PackedJson.Proofs.TextSchema.Embodiment
import PackedJson.Proofs.TextSchema.Inferring

namespace PackedJson
namespace Packer

open Arena TextSchema Heap Builder

/-!
Packing arrays of nulls.

Nulls take no room.  An array of them takes room for its record, and then asks
for a region of no bytes, which starts where the record ends.  Whether a
destination hands out empty regions at its very end decides over such arrays.
-/

section Nulls

variable {packer : Packer} {heap : Heap} {document : Json} {promises : Promises}
  {settled : TypeId -> Prop} {id : TypeId} {type : TypeDef} {layout : Schema.ArrayLayout}
  {place storage : Offset} {path : Path} {levels length index : Nat} {state : PackState}

/-! ### The record of an array -/

theorem writeSize_of_le (fits : length ≤ packer.target.maxPointer) :
    packer.writeSize place length = writeUnsigned place packer.target.pointerWidth length :=
  if_neg (Nat.not_lt_of_le fits)

theorem writePointer_of_le (fits : packer.pointerBase + storage.toNat ≤ packer.target.maxPointer) :
    packer.writePointer place storage = writeUnsigned place packer.target.pointerWidth
      (Reader.rawPointer packer.pointerBase storage) := by
  unfold writePointer Reader.rawPointer
  split
  · rfl
  · exact if_neg (Nat.not_lt_of_le fits)

/-- The record of an array is written, if what it says suits the target. -/
theorem run_writeParts (isArray : IsArray packer type layout)
    (room : HasRoom state.data (instanceOf place type))
    (pointerFits : packer.pointerBase + storage.toNat ≤ packer.target.maxPointer)
    (lengthFits : length ≤ packer.target.maxPointer) :
    Run (packer.writeParts layout place storage length length) state (fun _ _ => True)
      (fun _ _ => False) := by
  obtain ⟨pointerInside, capacityInside, lengthInside⟩ := isArray.inside place
  have position {delta : UInt32}
      (inside : (packer.wordAt place delta).Inside (instanceOf place type)) :
      Packer.inside place delta = pure (place.advance delta.toNat) :=
    room.inside_eq (Nat.le_trans (Nat.le_add_right _ _) inside.2)
  have word {delta : UInt32} {before : PackState} {value : Nat}
      (inside : (packer.wordAt place delta).Inside (instanceOf place type))
      (small : value < 256 ^ packer.target.pointerWidth)
      (beforeRoom : HasRoom before.data (instanceOf place type)) :
      Run (writeUnsigned (place.advance delta.toNat) packer.target.pointerWidth value) before
        (fun _ after => HasRoom after.data (instanceOf place type)) (fun _ _ => False) := by
    have within := (beforeRoom.inside inside).within
    rw [← word_eq beforeRoom inside] at within
    exact (run_writeUnsigned beforeRoom.writable within packer.target.pointerWidth_le small).imp
      (fun _ _ ⟨moves, _⟩ => beforeRoom.moved moves) (fun _ _ => id)
  have pointerSmall : Reader.rawPointer packer.pointerBase storage <
      256 ^ packer.target.pointerWidth := by
    unfold Reader.rawPointer
    split
    · exact Nat.pow_pos (by decide)
    · exact maxPointer_lt pointerFits
  unfold writeParts
  rw [position pointerInside, position capacityInside, position lengthInside]
  simp only [pure_bind, writePointer_of_le pointerFits, writeSize_of_le lengthFits]
  refine Run.andThen (word pointerInside pointerSmall room) ?_ (fun _ _ => id)
  intro _ _ pointerRoom
  refine Run.andThen (word capacityInside (maxPointer_lt lengthFits) pointerRoom) ?_ (fun _ _ => id)
  intro _ _ capacityRoom
  exact (word lengthInside (maxPointer_lt lengthFits) capacityRoom).imp (fun _ _ _ => trivial)
    (fun _ _ => id)

/-! ### The items -/

/-- Null is packed without a trace. -/
theorem Packs.write_null (packs : Packs packer heap document promises settled) :
    packer.write (levels + 1) (packer.context.builtin .unit) place path .null = pure () := by
  obtain ⟨type, _, written⟩ := @Packs.write_scalar _ _ _ _ _ place path .null packs levels _ _
    (by simp [scalarSizes] : (Builtin.unit, 0) ∈ scalarSizes packer.target)
  exact written

theorem Packs.writeItems_nulls (packs : Packs packer heap document promises settled)
    (shallow : path.depth < packer.maxDepth) (count : Nat) {first : Option Violation} :
    packer.writeItems (packer.write (levels + 1)) (packer.context.builtin .unit) 0 storage path
      (List.replicate count .null) index first = pure first := by
  induction count generalizing index with
  | zero => rfl
  | succ count ih =>
      have small := storage.toNat_lt
      have null (place : Offset) : packer.nested (packer.write (levels + 1))
          (packer.context.builtin .unit) place path (.index index) .null = pure () := by
        unfold nested
        rw [if_neg (Nat.not_le_of_lt shallow), packs.write_null]
      rw [List.replicate_succ, writeItems, element_eq (by omega), pure_bind, null]
      exact ih

/-! ### Arrays -/

/-- Take room for an array and, after it, an empty region for elements that take
no room. -/
def packEmptied (packer : Packer) (layout : Schema.ArrayLayout) (size alignment length : Nat) :
    PackM Offset := do
  let place ← onData (Arena.alloc size alignment)
  let storage ← onData (Arena.alloc 0 1)
  packer.writeParts layout place storage length length
  return place

/-- An array of nulls takes room for its record, and an empty region. -/
theorem Packs.pack_nulls (packs : Packs packer heap document promises settled)
    (isSettled : settled id)
    (is : IsKind heap packer.target packer.context id (.array (packer.context.builtin .unit)))
    (shallow : 0 < packer.maxDepth) :
    exists type layout align, packer.schema.type id = .ok type ∧ IsArray packer type layout ∧
      packer.schema.instanceAlign type = .ok align ∧
      forall count, 0 < count -> forall state : PackState,
        packer.pack id (.array (List.replicate count .null)) state =
          packer.packEmptied layout type.size.toNat align.toNat count ⟨state.data, []⟩ := by
  obtain ⟨type, typed, align, shows⟩ := packs.shows isSettled is.declares
  obtain ⟨layout, isArray⟩ := shows.isArray packs rfl rfl
  obtain ⟨name, found⟩ := packs.scalar (by simp [scalarSizes] : (Builtin.unit, 0) ∈
    scalarSizes packer.target)
  refine ⟨type, layout, align, shows.found, isArray, shows.sound.instanceAlign, ?_⟩
  intro count positive state
  have room : Arena.allocArray count (TypeDef.scalar name (UInt32.ofNat 0)).slot.toNat
      (max (TypeDef.scalar name (UInt32.ofNat 0)).align 1).toNat = Arena.alloc 0 1 :=
    if_pos (by change count * 0 < 2 ^ 64; omega)
  have height : (Json.array (List.replicate count .null)).height =
      Json.heightItems (List.replicate count .null) + 1 := by rw [Json.height]
  have items (levels : Nat) (storage : Offset) (first : Option Violation) :
      packer.writeItems (packer.write (levels + 1)) (packer.context.builtin .unit)
        (TypeDef.scalar name (UInt32.ofNat 0)).slot.toNat storage Path.root
        (List.replicate count .null) 0 first = pure first := by
    have shallowRoot : Path.root.depth < packer.maxDepth := shallow
    exact packs.writeItems_nulls shallowRoot count
  have nothing : (settle none : PackM Unit) = pure () := rfl
  have instanceIs (same : Writer) (place : Offset) :
      packer.writeInstance same (packer.write (Json.array (List.replicate count .null)).height) id
        type place Path.root (.array (List.replicate count .null)) = (do
          let storage ← onData (Arena.alloc 0 1)
          packer.writeParts layout place storage count count) := by
    rw [packs.writeInstance_declared is.declares rfl shows rfl, if_neg (by decide),
      if_neg (by decide)]
    change packer.array _ type place Path.root _ = _
    have isArgument : type.argument = some (packer.context.builtin .unit) := shows.argument
    unfold Packer.array
    simp only [argument_eq isArgument, ask_ok found, List.length_replicate, pure_bind, height,
      arrayStorage_eq isArray isArgument found, if_neg (Nat.ne_of_gt positive), room, items,
      nothing, bind_assoc, bind_pure_unit]
  unfold pack allocInstance packEmptied
  simp only [ask_ok shows.found, ask_ok shows.sound.instanceAlign, pure_bind, instanceIs, bind_assoc]
  rfl

section Destinations

variable {data record last : Arena} {alignment : Nat}
  (made : Arena.alloc type.size.toNat alignment data = .ok place record)

include made

/-- A destination that hands out the empty region takes the array. -/
theorem exists_packEmptied (isArray : IsArray packer type layout) (writable : data.Writable)
    (supported : isAlignment (max alignment 1) = true)
    (empty : Arena.alloc 0 1 record = .ok storage last)
    (pointerFits : packer.pointerBase + storage.toNat ≤ packer.target.maxPointer)
    (lengthFits : length ≤ packer.target.maxPointer) :
    exists place after, packer.packEmptied layout type.size.toNat alignment length ⟨data, []⟩ =
      .ok place after := by
  have allocated := (run_alloc _ _ writable supported).of_ok made
  have recordWritable := allocated.grown.writable writable
  have emptied := (run_alloc 0 1 recordWritable (by decide)).of_ok empty
  have room : HasRoom last (instanceOf place type) :=
    HasRoom.grown ⟨recordWritable, allocated.within⟩ emptied.grown
  refine @Run.exists_ok _ _ _ _ (fun _ _ => True) _ ?_
  refine run_bind.mpr (run_onData.mpr ((run_of_ok made).mpr ?_))
  refine run_bind.mpr (run_onData.mpr ((run_of_ok empty).mpr ?_))
  refine Run.andThen (run_writeParts isArray room pointerFits lengthFits) ?_ (fun _ _ never => never)
  exact fun _ _ _ => trivial

/-- A destination that refuses the empty region refuses the array. -/
theorem packEmptied_of_refused {cause : ArenaError}
    (refused : Arena.alloc 0 1 record = .error cause last) :
    packer.packEmptied layout type.size.toNat alignment length ⟨data, []⟩ =
      .error (.ofArena cause) ⟨last, []⟩ := by
  unfold packEmptied onData
  simp only [bind, EStateM.bind, made, refused]

end Destinations

/-- With a record of 12 bytes, an array of nulls fills 16 bytes.  A buffer of
that size takes it.  An arena with one buffer of that size has no place left
where an empty region could start. -/
theorem Packs.pack_nulls_full (packs : Packs packer heap document promises settled)
    (isSettled : settled id)
    (is : IsKind heap packer.target packer.context id (.array (packer.context.builtin .unit)))
    (shallow : 0 < packer.maxDepth) (found : packer.schema.type id = .ok type)
    (size : type.size.toNat = 12) {align : UInt32}
    (isAlign : packer.schema.instanceAlign type = .ok align) (four : align.toNat = 4)
    (fits : packer.pointerBase + 16 ≤ packer.target.maxPointer) {count : Nat} (positive : 0 < count)
    (small : count ≤ packer.target.maxPointer) :
    (exists place after, packer.pack id (.array (List.replicate count .null))
      ⟨borrowed (zeros 16), []⟩ = .ok place after) ∧
    exists after, packer.pack id (.array (List.replicate count .null)) ⟨fixed 16, []⟩ =
      .error (.outOfMemory (.exhausted 0 0)) after := by
  obtain ⟨_, layout, _, again, isArray, alignAgain, steps⟩ := packs.pack_nulls isSettled is shallow
  cases found.symm.trans again
  cases isAlign.symm.trans alignAgain
  rw [steps count positive, steps count positive, four]
  constructor
  · have made : exists record, Arena.alloc type.size.toNat 4 (borrowed (zeros 16)) =
        .ok (Offset.ofNat 4) record ∧ exists last,
          Arena.alloc 0 1 record = .ok (Offset.ofNat 16) last := by
      rw [size]
      exact ⟨_, rfl, _, rfl⟩
    obtain ⟨record, made, last, empty⟩ := made
    exact exists_packEmptied made isArray (borrowed_writable _) (by decide) empty fits small
  · have made : exists record, Arena.alloc type.size.toNat 4 (fixed 16) =
        .ok (Offset.ofNat 4) record ∧ Arena.alloc 0 1 record = .error (.exhausted 0 0) record := by
      rw [size]
      exact ⟨_, rfl, rfl⟩
    obtain ⟨record, made, refused⟩ := made
    exact ⟨_, packEmptied_of_refused made refused⟩

end Nulls

/-! ### The schema of arrays of nulls -/

/-- The schema of arrays of nulls. -/
def nullsSchema : Inferred := .array .null

/-- The root of the schema is an array of nulls. -/
theorem isKind_nulls {heap : Heap} {target : Target} {context : Context} {promises : Promises}
    {settled : TypeId -> Prop} {root : TypeId}
    (serving : Serving heap target context nullsSchema.toJson promises settled)
    (promised : promises root ⟨nullsSchema.toJson, false, false⟩) :
    IsKind heap target context root (.array (context.builtin .unit)) := by
  obtain ⟨role, kind, hasRole, serves, is⟩ := serving.serves root _ promised
  cases hasRole_inj hasRole (.node (.stated rfl rfl) : HasRole nullsSchema.toJson _
    (.array ⟨Inferred.null.toJson, false, false⟩))
  cases serves with
  | @array _ element elementPromised =>
      obtain ⟨role, kind, hasRole, serves, elementIs⟩ := serving.serves element _ elementPromised
      cases hasRole_inj hasRole (.node (.stated rfl rfl) : HasRole nullsSchema.toJson _ .null)
      cases serves
      exact elementIs.details.1 ▸ is

/-- By default there is room for the schema, and its root has a record of three
words. -/
theorem exists_nullsContainer : exists container root heap type,
    compile nullsSchema.toJson {} = .ok container ∧
    (container.context .wasm32).root = some root ∧ Heap.ToldBy heap container.schema ∧
    HasType heap root type ∧ type.size.toNat = 12 ∧ forall schema, Heap.ToldBy heap schema ->
      exists align, schema.instanceAlign type = .ok align ∧ align.toNat = 4 := by
  obtain ⟨builder, isBuilder, spare⟩ : exists builder,
      Builder.ofConfig {} = .ok builder ∧ builder.arena.spare = 65535 := ⟨_, rfl, rfl⟩
  have room : nullsSchema.typeRoom "Root" ≤ 65535 := by decide +kernel
  have result : (draftTarget nullsSchema.toJson "Root" none Draft.empty).toOption.map
      Drafted.result = some (.applied .array (.builtin .unit)) := by decide +kernel
  obtain ⟨⟨ref, draft, cost⟩, container, drafts, accepted, heap, holds, embodied⟩ :=
    @Inferred.exists_bodies nullsSchema (.array .null) (.array .null) {} builder isBuilder
      (spare ▸ room)
  rw [drafts] at result
  cases result
  obtain ⟨_, site, settled, embodies⟩ := embodied .wasm32
  obtain ⟨root, isRoot, finds, isSettled⟩ := embodies.root
  obtain ⟨sizeOf, exact⟩ := embodies.complete.exists_exact .wasm32
  obtain ⟨type, fields, is⟩ := embodies.exists_isEmbodied finds isSettled
  have room (schema : Schema) (told : Heap.ToldBy heap schema) : exists align,
      schema.instanceAlign type = .ok align ∧ type.size.toNat = 12 ∧ align.toNat = 4 := by
    obtain ⟨align, isAlign, same, _⟩ := embodies.exists_room told exact finds isSettled is
    rw [exact.room_array] at same
    exact ⟨align, isAlign, congrArg Layout.Variable.size same, congrArg Layout.Variable.align same⟩
  obtain ⟨_, _, size, _⟩ := room _ holds.told
  exact ⟨container, root, heap, type, accepted, isRoot, holds.told, is.stored, size,
    fun schema told => (room schema told).imp fun _ ⟨isAlign, _, four⟩ => ⟨isAlign, four⟩⟩

end Packer
end PackedJson
