import PackedJson.Proofs.Packing.Instances
import PackedJson.Proofs.TextSchema.Acceptance

namespace PackedJson

/-- The packer for one target of a container. -/
def Container.packer (container : Container) (target : Target) (pointerBase maxDepth : Nat) :
    Packer :=
  ⟨container.schema, container.context target, target, pointerBase, maxDepth⟩

namespace Packer

open Arena TextSchema Heap Builder

/-!
Packing documents that are integers.

An integer within its range is packed wherever there is room for it.
-/

section Integers

variable {packer : Packer} {heap : Heap} {document : Json} {promises : Promises}
  {settled : TypeId -> Prop} {state : PackState}

/-- A document that should be an integer is written into a region of 8 bytes. -/
theorem Packs.pack_integer (packs : Packs packer heap document promises settled) (value : Json)
    (state : PackState) : packer.pack (packer.context.builtin .integer) value state = (do
      let place ← onData (Arena.alloc 8 8)
      integer place Path.root value
      return place : PackM Offset) ⟨state.data, []⟩ := by
  obtain ⟨name, stored, _⟩ := packs.serving.scalars .integer 8 List.mem_cons_self
  have found : packer.schema.type (packer.context.builtin .integer) =
      .ok (TypeDef.scalar name (UInt32.ofNat 8)) := packs.told.type stored
  have align : packer.schema.instanceAlign (TypeDef.scalar name (UInt32.ofNat 8)) = .ok 8 := by
    unfold Schema.instanceAlign
    rw [if_neg (by rw [Builder.TypeDef.isStoredByReference_scalar]; nofun)]
    rfl
  have instanceIs (same inner : Writer) (place : Offset) :
      packer.writeInstance same inner (packer.context.builtin .integer)
        (TypeDef.scalar name (UInt32.ofNat 8)) place Path.root value =
        integer place Path.root value := packs.writeInstance_builtin rfl
  unfold pack allocInstance
  simp only [ask_ok found, ask_ok align, pure_bind, instanceIs]
  rfl

/-- Where there is room, a document that should be an integer ends as it does
when a region is made for it. -/
theorem Packs.run_pack_integer (packs : Packs packer heap document promises settled) {value : Json}
    (writable : state.data.Writable) (room : 16 ≤ state.data.spare)
    {good : PackState -> Prop} {bad : PackError -> PackState -> Prop}
    (ends : forall place (made : PackState), Allocated state.data 8 place made.data ->
      Run (integer place Path.root value) made (fun _ => good) bad) :
    Run (packer.pack (packer.context.builtin .integer) value) state (fun _ => good) bad := by
  have supported : isAlignment (max 8 1) = true := by decide
  have made : Run (onData (Arena.alloc 8 8)) (⟨state.data, []⟩ : PackState)
      (fun place after => Allocated state.data 8 place after.data) (fun _ _ => False) := by
    refine run_onData.mpr (Run.imp ((run_alloc 8 8 writable supported).both
      (alloc_spare 8 8 writable supported)) (fun _ _ ends => ends.1) ?_)
    intro cause after refused
    have short : state.data.spare < 8 + max 8 1 := refused.2
    exact absurd room (Nat.not_le_of_lt short)
  unfold Run
  rw [packs.pack_integer]
  change Run _ _ _ _
  refine Run.andThen made ?_ (fun _ _ never => never.elim)
  intro place after allocated
  exact Run.andThen (ends place after allocated) (fun _ _ good => run_pure.mpr good) (fun _ _ => id)

/-- An integer is packed where there is room for it. -/
theorem Packs.run_packInteger (packs : Packs packer heap document promises settled)
    (writable : state.data.Writable) (room : 16 ≤ state.data.spare) {number : Int}
    (inRange : number < 2 ^ 63) :
    Run (packer.pack (packer.context.builtin .integer) (.number (.integer number))) state
      (fun _ _ => True) (fun _ _ => False) := by
  refine packs.run_pack_integer writable room fun place made allocated => ?_
  have positive := Int.emod_nonneg number (show (2 : Int) ^ 64 ≠ 0 by decide)
  have below := Int.emod_lt_of_pos number (show (0 : Int) < 2 ^ 64 by decide)
  have written : integer place Path.root (.number (.integer number)) =
      writeUnsigned place 8 (number % 2 ^ 64).toNat := if_pos inRange
  rw [written]
  refine Run.imp (run_writeUnsigned (allocated.grown.writable writable) allocated.within
    (Nat.le_refl 8) (by omega)) ?_ (fun _ _ never => never)
  exact fun _ _ _ => trivial

/-- A text is refused with a violation where there is room for an integer. -/
theorem Packs.run_packText (packs : Packs packer heap document promises settled)
    (writable : state.data.Writable) (room : 16 ≤ state.data.spare) (text : String) :
    Run (packer.pack (packer.context.builtin .integer) (.string text)) state (fun _ _ => False)
      (fun failure _ =>
        failure = .violation ⟨.typeMismatch (.value .integer) .string, Path.root⟩) :=
  packs.run_pack_integer writable room fun _ _ _ => rfl

end Integers

/-! ### The schema of integers -/

section IntegerSchema

variable {container : Container} {target : Target}

/-- An integer is packed with the schema of integers. -/
theorem exists_pack_integer (accepted : compile (namedSchema "integer") {} = .ok container)
    {data : Arena} (writable : data.Writable) (room : 16 ≤ data.spare) {number : Int}
    (inRange : number < 2 ^ 63) (pointerBase maxDepth : Nat) :
    exists place after, (container.packer target pointerBase maxDepth).pack
      ((container.context target).builtin .integer) (.number (.integer number)) ⟨data, []⟩ =
        .ok place after := by
  obtain ⟨heap, promises, settled, holds, serving⟩ := isCompiled_of_compile accepted target
  have packs : Packs (container.packer target pointerBase maxDepth) heap (namedSchema "integer")
      promises settled := ⟨holds.told, serving⟩
  exact (@Packs.run_packInteger _ _ _ _ _ ⟨data, []⟩ packs writable room number inRange).exists_ok

end IntegerSchema

/-- An integer within its range suits the schema of integers. -/
theorem judges_integer {maxDepth : Nat} {number : Int} (inRange : number < 2 ^ 63) :
    Judges (namedSchema "integer") maxDepth
      (.asked ⟨namedSchema "integer", false, false⟩ Path.root (.number (.integer number)))
      (.fits (.integer number)) :=
  .own (.node (.stated rfl rfl)) (congrArg some (if_pos inRange))

/-- No other value than a number suits it. -/
theorem judges_null {maxDepth : Nat} :
    Judges (namedSchema "integer") maxDepth
      (.asked ⟨namedSchema "integer", false, false⟩ Path.root .null)
      (.mismatch .integer Path.root .null) :=
  .own (.node (.stated rfl rfl)) rfl

/-- A fresh arena is writable and has room. -/
theorem exists_freshArena :
    exists data, Arena.owned {} = .ok data ∧ data.Writable ∧ 16 ≤ data.spare := by
  have made : Arena.owned {} = .ok ⟨.owned 65536 1 true, Arena.zeros 1, 1⟩ := rfl
  exact ⟨_, made, owned_writable made, by decide⟩

/-- An empty instance of a type, where there is room for it. -/
theorem exists_emptyInstance {data : Arena} {type : TypeDef} (writable : data.Writable)
    (room : type.size.toNat + 8 ≤ data.spare) : exists place after,
      HasRoom after (instanceOf place type) ∧ after.Zero (instanceOf place type) := by
  have supported : isAlignment (max 8 1) = true := by decide
  have run := (run_alloc type.size.toNat 8 writable supported).both
    (alloc_spare type.size.toNat 8 writable supported)
  obtain ⟨place, after, made⟩ := Run.exists_ok (run.imp (fun _ _ => id) fun _ _ ⟨_, short⟩ =>
    absurd room (Nat.not_le_of_lt short))
  have allocated := (run.of_ok made).1
  exact ⟨place, after, ⟨allocated.grown.writable writable, allocated.within⟩,
    fun position has => allocated.zero position has.1 has.2⟩

end Packer
end PackedJson
