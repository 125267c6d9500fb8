import PackedJson.Proofs.TextSchema.Copies

namespace PackedJson

/-!
Containers survive being written and read back.

An owned arena may consist of several buffers, and its bytes are written in one
piece.  What the schema of a container answers is answered after reading back
as well.  The texts that show names of types are the same where each name lies
in one buffer, as every name does that was stored as a text.  A root that is
the null reference is read back as no root.
-/

namespace Container

/-! ### Bytes -/

/-- The mark, the version and the hash. -/
def headBytes (container : Container) : ByteArray :=
  (LittleEndian.encode 2 magic ++ LittleEndian.encode 1 ContainerError.version ++ [0] ++
    LittleEndian.encode 4 container.schemaHash.toNat).toByteArray

variable (container : Container) (rest : ByteArray)

theorem size_headBytes : container.headBytes.size = 8 := by
  simp only [headBytes, List.size_toByteArray, List.length_append, LittleEndian.length_encode,
    List.length_cons, List.length_nil]

theorem size_context (context : Context) : (Record.toBytes context).size = 76 :=
  Record.size_toBytes context

theorem size_preambleBytes : container.preambleBytes.size = ContainerError.preambleSize := by
  change (container.headBytes ++ _ ++ _).size = _
  rw [ByteArray.size_append, ByteArray.size_append, size_headBytes, size_context, size_context]
  rfl

theorem extract_headBytes (start : Nat) {stop : Nat} (inHead : stop ≤ 8) :
    (container.headBytes ++ rest).extract start stop =
      container.headBytes.extract start stop := by
  have none : rest.extract (start - 8) (stop - 8) = ByteArray.empty :=
    ByteArray.extract_eq_empty_iff.mpr (by omega)
  rw [ByteArray.extract_append, size_headBytes, none, ByteArray.append_empty]

theorem preambleBytes_append : container.preambleBytes ++ rest = container.headBytes ++
    (Record.toBytes container.wasm ++ (Record.toBytes container.native ++ rest)) := by
  change container.headBytes ++ _ ++ _ ++ _ = _
  rw [ByteArray.append_assoc, ByteArray.append_assoc]

theorem extract_mark : ((container.preambleBytes ++ rest).extract 0 4).data.toList =
    [0xF1, 0xDE, 1, 0] := by
  rw [preambleBytes_append, extract_headBytes _ _ _ (by omega)]
  simp only [headBytes, ByteArray.data_extract, List.data_toByteArray, Array.toList_extract,
    List.extract_eq_take_drop]
  rfl

theorem wordAt_hash : Record.wordAt (container.preambleBytes ++ rest) 4 =
    container.schemaHash := by
  have bytes : ((container.preambleBytes ++ rest).extract 4 (4 + 4)).data.toList =
      LittleEndian.encode 4 container.schemaHash.toNat := by
    rw [preambleBytes_append, extract_headBytes _ _ _ (by omega)]
    simp only [headBytes, ByteArray.data_extract, List.data_toByteArray, Array.toList_extract,
      List.extract_eq_take_drop]
    rfl
  unfold Record.wordAt
  rw [bytes, LittleEndian.decode_encode_of_lt container.schemaHash.toNat_lt, UInt32.ofNat_toNat]

theorem extract_wasm : (container.preambleBytes ++ rest).extract 8 (8 + contextSize) =
    Record.toBytes container.wasm := by
  have size := size_context container.wasm
  have width : contextSize = 76 := rfl
  rw [preambleBytes_append,
    ByteArray.extract_append_size_add' (i := 0) (size_headBytes container).symm, width,
    ByteArray.extract_append_eq_left size.symm]

theorem extract_native : (container.preambleBytes ++ rest).extract (8 + contextSize)
    (8 + contextSize + contextSize) = Record.toBytes container.native := by
  have size := size_context container.native
  have width : contextSize = 76 := rfl
  have wasmSize := size_context container.wasm
  rw [preambleBytes_append, Nat.add_assoc 8,
    ByteArray.extract_append_size_add' (size_headBytes container).symm, width,
    ByteArray.extract_append_size_add' (i := 0) wasmSize.symm,
    ByteArray.extract_append_eq_left size.symm]

theorem extract_arena : (container.preambleBytes ++ rest).extract ContainerError.preambleSize
    (container.preambleBytes ++ rest).size = rest :=
  ByteArray.extract_append_eq_right (size_preambleBytes container).symm ByteArray.size_append

theorem readContext_eq {bytes : ByteArray} {position : Nat} {context : Context}
    (isStored : bytes.extract position (position + contextSize) = Record.toBytes context) :
    readContext bytes position = .ok context.stored := by
  unfold readContext
  rw [isStored, Context.ofBytes_toBytes]

/-- The bytes of a container are read back. -/
theorem read_append : read (container.preambleBytes ++ rest) =
    .ok ⟨container.schemaHash, container.wasm.stored, container.native.stored,
      Arena.readOnly rest⟩ := by
  have size : (container.preambleBytes ++ rest).size = 160 + rest.size := by
    rw [ByteArray.size_append, size_preambleBytes]
    rfl
  have preamble : readPreamble (container.preambleBytes ++ rest) =
      .ok ⟨container.schemaHash, container.wasm.stored, container.native.stored⟩ := by
    unfold readPreamble
    rw [extract_mark, readContext_eq (extract_wasm container rest),
      readContext_eq (extract_native container rest), wordAt_hash, size,
      if_neg (by omega)]
    have enough : ¬ 160 + rest.size < ContainerError.preambleSize :=
      Nat.not_lt.mpr (Nat.le_add_right _ _)
    simp only
    rw [if_neg (by decide), if_neg (by decide), if_neg enough]
    rfl
  unfold read
  rw [preamble]
  simp only [bind, Except.bind, extract_arena]
  rfl

/-! ### Texts -/

section Texts

variable {container back : Container} {target : Target}

/-- The names of all types that can be reached lie in one buffer each. -/
def HasWholeNames (container : Container) : Prop :=
  forall target root, (container.context target).root = some root ->
    container.schema.HasWholeNames root

/-- A type that can be read is not the null reference. -/
theorem storable_of_root {root : TypeId} {type : TypeDef} {context : Context}
    (isRoot : container.schema.root context = .ok root)
    (isType : container.schema.type root = .ok type) :
    context.root = some root ∧ TypeId.Storable context.root := by
  have known : context.root = some root := by
    unfold Schema.root at isRoot
    split at isRoot
    next id known => rw [known, Except.ok.inj isRoot]
    next => cases isRoot
  refine ⟨known, fun id isId null => ?_⟩
  rw [known] at isId
  cases isId
  unfold Schema.type at isType
  rw [if_pos (Offset.isNull_eq_true_iff.mpr null)] at isType
  cases isType

variable (copies : back.schema.arena.IsCopy container.schema.arena)
  (stored : forall target, back.context target = (container.context target).stored)
  (whole : container.HasWholeNames)

include copies stored whole

theorem follows_contextLines :
    Follows (Listing.contextLines back.schema (back.context target) target)
      (Listing.contextLines container.schema (container.context target) target) := by
  intro lines ends
  obtain ⟨root, isRoot, rest⟩ := exists_of_bind ends
  obtain ⟨type, isType, _⟩ := exists_of_bind rest
  obtain ⟨known, storable⟩ := storable_of_root isRoot isType
  rw [stored, Context.stored_eq storable]
  exact Listing.follows_contextLines copies
    (showsNames_of_hasWholeNames copies (whole target root known)) isRoot target lines ends

theorem follows_layout : Follows (Listing.layout back) (Listing.layout container) := by
  unfold Listing.layout
  exact (Follows.mapM fun target _ => follows_contextLines copies stored whole).bind
    fun _ _ => .refl _

theorem follows_schemaHash :
    Follows (Listing.schemaHash back) (Listing.schemaHash container) := by
  unfold Listing.schemaHash
  exact (follows_layout copies stored whole).bind fun _ _ => .refl _

theorem follows_assertions {root : TypeId} {context : Context} {idents : List (TypeId × String)}
    (reached : Companion.AreReached container.schema root idents)
    (shown : ShowsNames back.schema container.schema root) :
    Follows
      (Companion.assertions ⟨back.schema, context, idents⟩ (back.context target) target)
      (Companion.assertions ⟨container.schema, context, idents⟩ (container.context target)
        target) := by
  intro text ends
  obtain ⟨checks, isChecked, _⟩ := exists_of_bind ends
  obtain ⟨_, _, rest⟩ := exists_of_bind isChecked
  obtain ⟨root, isRoot, rest⟩ := exists_of_bind rest
  obtain ⟨type, isType, _⟩ := exists_of_bind rest
  obtain ⟨known, storable⟩ := storable_of_root isRoot isType
  rw [stored, Context.stored_eq storable]
  exact Companion.follows_assertions copies reached shown isRoot
    (showsNames_of_hasWholeNames copies (whole target root known)) target text ends

theorem follows_source (sameHash : back.schemaHash = container.schemaHash) :
    Follows (Companion.source back) (Companion.source container) := by
  intro text ends
  obtain ⟨root, isRoot, ends⟩ := exists_of_bind ends
  obtain ⟨names, named, ends⟩ := exists_of_bind ends
  obtain ⟨type, isType, _⟩ := exists_of_bind ends
  obtain ⟨known, storable⟩ := storable_of_root isRoot isType
  have sameContext : back.wasm = container.wasm :=
    (stored .wasm32).trans (Context.stored_eq storable)
  have shown := showsNames_of_hasWholeNames copies (whole .wasm32 root known)
  obtain ⟨idents, rfl, reached, copied⟩ := Companion.namesFor_copy copies shown named
  have sameRoot : back.schema.root back.wasm = .ok root := by
    rw [sameContext]
    exact isRoot
  unfold Companion.source
  dsimp only
  rw [sameRoot]
  change (Companion.namesFor back.schema back.wasm root >>= _) = _
  rw [sameContext, copied]
  refine Follows.bind (Schema.follows_type copies root) (fun rootType _ => ?_) text ends
  refine (Companion.follows_instanceExpression copies root rootType).bind fun _ _ => ?_
  refine (Listing.follows_listedTypes copies root).bind fun types _ => ?_
  refine (Companion.follows_declarations copies types).bind fun _ _ => ?_
  refine (Follows.mapM fun target _ => follows_assertions copies stored whole reached shown).bind
    fun _ _ => ?_
  rw [sameHash]
  exact .refl _

end Texts

/-! ### Reading back -/

/-- What a container and the container that was read back have in common.  An
answer of the schema is the answer of the other one.  A root stays unless it is
the null reference, and the texts stay unless a name of a type runs across the
end of a buffer. -/
structure IsReadBack (container back : Container) : Prop where
  schemaHash : back.schemaHash = container.schemaHash
  contents : back.arena.contents = container.arena.contents
  context : forall target, TypeId.Storable (container.context target).root ->
    back.context target = container.context target
  type : forall id, Follows (back.schema.type id) (container.schema.type id)
  fields : forall type, Follows (back.schema.fields type) (container.schema.fields type)
  findField : forall type name,
    Follows (back.schema.findField type name) (container.schema.findField type name)
  reachable : forall root,
    Follows (back.schema.reachable root) (container.schema.reachable root)
  layout : container.HasWholeNames -> Follows (Listing.layout back) (Listing.layout container)
  layoutHash : container.HasWholeNames ->
    Follows (Listing.schemaHash back) (Listing.schemaHash container)
  source : container.HasWholeNames ->
    Follows (Companion.source back) (Companion.source container)

theorem exists_readBack {container : Container} (isOwned : container.arena.isOwned = true)
    (writable : container.arena.Writable) :
    exists bytes back, container.toBytes = .ok bytes ∧ read bytes = .ok back ∧
      container.IsReadBack back := by
  have written : container.toBytes = .ok (container.preambleBytes ++ container.arena.contents) :=
    if_pos isOwned
  refine ⟨_, _, written, read_append container container.arena.contents, ?_⟩
  have copies := Arena.isCopy_contents isOwned writable
  have stored (target : Target) : Container.context ⟨container.schemaHash, container.wasm.stored,
      container.native.stored, Arena.readOnly container.arena.contents⟩ target =
      (container.context target).stored := by
    cases target <;> rfl
  exact {
    schemaHash := rfl
    contents := rfl
    context := fun target storable => (stored target).trans (Context.stored_eq storable)
    type := Schema.follows_type copies
    fields := Schema.follows_fields copies
    findField := Schema.follows_findField copies
    reachable := Schema.follows_reachable copies
    layout := follows_layout copies stored
    layoutHash := follows_schemaHash copies stored
    source := fun whole => follows_source copies stored whole rfl }

/-- The tables of a preamble were read from their bytes. -/
theorem tables_of_readPreamble {bytes : ByteArray} {preamble : Preamble}
    (isRead : readPreamble bytes = .ok preamble) :
    ContainerError.preambleSize ≤ bytes.size ∧ readContext bytes 8 = .ok preamble.wasm ∧
      readContext bytes (8 + contextSize) = .ok preamble.native := by
  unfold readPreamble at isRead
  by_cases short : bytes.size < 4
  · rw [if_pos short] at isRead
    cases isRead
  rw [if_neg short] at isRead
  dsimp only at isRead
  generalize List.map UInt8.toNat _ = head at isRead
  by_cases foreign : head.getD 0 0 + 256 * head.getD 1 0 ≠ magic
  · rw [if_pos foreign] at isRead
    cases isRead
  by_cases unsupported : head.getD 2 0 ≠ ContainerError.version
  · rw [if_neg foreign, if_pos unsupported] at isRead
    cases isRead
  by_cases truncated : bytes.size < ContainerError.preambleSize
  · rw [if_neg foreign, if_neg unsupported, if_pos truncated] at isRead
    cases isRead
  rw [if_neg foreign, if_neg unsupported, if_neg truncated] at isRead
  obtain ⟨wasm, isWasm, isRead⟩ := exists_of_bind isRead
  obtain ⟨native, isNative, same⟩ := exists_of_bind isRead
  cases same
  exact ⟨Nat.le_of_not_lt truncated, isWasm, isNative⟩

/-- A table that was read is stored as the bytes that it was read from. -/
theorem toBytes_of_readContext {bytes : ByteArray} {position : Nat} {context : Context}
    (inside : position + contextSize ≤ bytes.size)
    (isRead : readContext bytes position = .ok context) :
    Record.toBytes context = bytes.extract position (position + contextSize) := by
  unfold readContext at isRead
  split at isRead
  next found known =>
    cases isRead
    refine Context.toBytes_ofBytes ?_ known
    have width : contextSize = Record.size Context := rfl
    rw [ByteArray.size_extract]
    omega
  next => cases isRead

/-- The only type of a schema in two buffers, with its name at a given place. -/
def soleType (name : TextRef) : TypeDef :=
  { TypeDef.ofShape name .struct with prototype := some ⟨Offset.ofNat 2⟩ }

/-- A schema of one declared type.  The type lies in the first buffer, which
ends at position 64, and the text in the second one. -/
def twoBuffers (name : TextRef) : Container :=
  let context : Context := {
    Context.empty.setBuiltin .structPrototype ⟨Offset.ofNat 2⟩ with
    root := some ⟨Offset.ofNat 1⟩ }
  let bytes := Arena.zeros 1 ++ Record.toBytes (soleType name) ++ Arena.zeros 23 ++
    "Gadget".toUTF8 ++ Arena.zeros 18
  ⟨0, context, context, ⟨.owned 64 2 true, bytes, 88⟩⟩

theorem twoBuffers_writable (name : TextRef) : (twoBuffers name).arena.Writable := by
  have size : (Record.toBytes (soleType name)).size = 40 := Record.size_toBytes _
  refine ⟨(by decide : 0 < 88), by decide, by decide, by decide, by decide,
    (by decide : 88 ≤ 2 * 64), ?_⟩
  change (Arena.zeros 1 ++ Record.toBytes (soleType name) ++ Arena.zeros 23 ++
    "Gadget".toUTF8 ++ Arena.zeros 18).size = 88
  simp only [ByteArray.size_append, size]
  decide

/-- The name in the second buffer. -/
def gadget : TextRef := ⟨Offset.ofNat 64, 6⟩

theorem hasWholeNames_gadget : (twoBuffers gadget).HasWholeNames := by
  have isType : (twoBuffers gadget).schema.type ⟨Offset.ofNat 1⟩ = .ok (soleType gadget) := by
    decide +kernel
  have alone : (twoBuffers gadget).schema.successors ⟨Offset.ofNat 1⟩ = .ok [] := by
    decide +kernel
  intro target root isRoot id type reached
  have sameRoot : root = ⟨Offset.ofNat 1⟩ := by
    cases target <;> exact (Option.some.inj isRoot).symm
  subst sameRoot
  have sameId : id = ⟨Offset.ofNat 1⟩ := by
    induction reached with
    | root => rfl
    | next _ known member same =>
        rw [same, alone] at known
        cases known
        cases member
  subst sameId
  intro isRead straddles
  rw [isType] at isRead
  cases isRead
  have readable : (twoBuffers gadget).arena.isReadable (Offset.ofNat 64) 6 = true := by
    decide +kernel
  exact Bool.eq_false_iff.mp straddles.2.2 readable

/-- The same name with the last byte of the first buffer in front. -/
def straddling : TextRef := ⟨Offset.ofNat 63, 7⟩

/-- A container with the null reference as a root. -/
def nowhere : Container :=
  { twoBuffers gadget with wasm := { Context.empty with root := some ⟨Offset.null⟩ } }

end Container
end PackedJson
