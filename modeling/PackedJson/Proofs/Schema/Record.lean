import PackedJson.Proofs.Arena.Memory
import PackedJson.Schema.Context

namespace PackedJson

/-!
Records are read back as they were written.

A record is a sequence of 32-bit words, and its bytes determine the words.
The words of a type, a field or a table determine it as long as the references
in it are not null, since a null reference stands for none.
-/

namespace Record

theorem drop_flatMap_encode (words : List UInt32) (index : Nat) :
    (words.flatMap fun word => LittleEndian.encode 4 word.toNat).drop (4 * index) =
      (words.drop index).flatMap fun word => LittleEndian.encode 4 word.toNat := by
  induction index generalizing words with
  | zero => rfl
  | succ index ih =>
      cases words with
      | nil => rfl
      | cons word rest =>
          have length := LittleEndian.length_encode 4 word.toNat
          rw [List.flatMap_cons, List.drop_succ_cons, ← ih rest, List.drop_append,
            List.drop_eq_nil_of_le (by omega), List.nil_append, length]
          congr 1

theorem wordAt_flatMap_encode {words : List UInt32} {index : Nat} (bound : index < words.length) :
    wordAt (words.flatMap fun word => LittleEndian.encode 4 word.toNat).toByteArray (4 * index) =
      words[index] := by
  have length := LittleEndian.length_encode 4 words[index].toNat
  have part : ((words.flatMap fun word => LittleEndian.encode 4 word.toNat).toByteArray.extract
      (4 * index) (4 * index + 4)).data.toList = LittleEndian.encode 4 words[index].toNat := by
    rw [ByteArray.data_extract, List.data_toByteArray, Array.toList_extract,
      List.extract_eq_take_drop, drop_flatMap_encode, List.drop_eq_getElem_cons bound,
      List.flatMap_cons, Nat.add_sub_cancel_left, List.take_append_of_le_length (by omega),
      List.take_of_length_le (by omega)]
  unfold wordAt
  rw [part, LittleEndian.decode_encode_of_lt words[index].toNat_lt, UInt32.ofNat_toNat]

variable {Value : Type} [Record Value]

/-- The bytes of a record give back its words. -/
theorem ofBytes_toBytes (place : Offset) (value : Value) :
    ofBytes place (toBytes value) = ofWords place (toWords value) := by
  unfold ofBytes
  congr 1
  apply Vector.ext
  intro index bound
  have inList : index < (toWords value).toList.length := by
    simpa only [Vector.length_toList] using bound
  rw [Vector.getElem_ofFn]
  exact (wordAt_flatMap_encode inList).trans (Vector.getElem_toList inList)

theorem length_flatMap_encode (words : List UInt32) :
    (words.flatMap fun word => LittleEndian.encode 4 word.toNat).length = 4 * words.length := by
  induction words with
  | nil => rfl
  | cons word rest ih =>
      rw [List.flatMap_cons, List.length_append, ih, LittleEndian.length_encode,
        List.length_cons]
      omega

@[simp] theorem size_toBytes (value : Value) : (toBytes value).size = size Value := by
  unfold toBytes size
  rw [List.size_toByteArray, length_flatMap_encode, Vector.length_toList]

/-- Words that were read are the bytes that they were read from. -/
theorem flatMap_encode_wordAt (bytes : ByteArray) (count : Nat) (whole : 4 * count ≤ bytes.size) :
    (List.range count).flatMap (fun index =>
      LittleEndian.encode 4 (wordAt bytes (4 * index)).toNat) =
        bytes.data.toList.take (4 * count) := by
  induction count with
  | zero => rfl
  | succ count ih =>
      have size : bytes.data.toList.length = bytes.size := rfl
      have part : (bytes.extract (4 * count) (4 * count + 4)).data.toList =
          (bytes.data.toList.drop (4 * count)).take 4 := by
        rw [ByteArray.data_extract, Array.toList_extract, List.extract_eq_take_drop,
          Nat.add_sub_cancel_left]
      have length : ((bytes.data.toList.drop (4 * count)).take 4).length = 4 := by
        rw [List.length_take, List.length_drop]
        omega
      have bound := LittleEndian.decode_lt ((bytes.data.toList.drop (4 * count)).take 4)
      have word : LittleEndian.encode 4 (wordAt bytes (4 * count)).toNat =
          (bytes.data.toList.drop (4 * count)).take 4 := by
        rw [length] at bound
        unfold wordAt
        rw [part, UInt32.toNat_ofNat_of_lt' bound]
        have back := LittleEndian.encode_decode ((bytes.data.toList.drop (4 * count)).take 4)
        rwa [length] at back
      rw [List.range_succ, List.flatMap_append, ih (by omega), List.flatMap_singleton, word,
        Nat.mul_succ, List.take_add]

/-- A record whose words were read is stored as the bytes that it was read from. -/
theorem toBytes_eq_of_words {value : Value} {bytes : ByteArray}
    (size : bytes.size = Record.size Value)
    (words : toWords value = Vector.ofFn fun index => wordAt bytes (4 * index.val)) :
    toBytes value = bytes := by
  have listed : (toWords value).toList =
      (List.range (wordCount Value)).map fun index => wordAt bytes (4 * index) := by
    rw [words]
    apply List.ext_getElem
    · simp
    · intro index _ _
      simp
  have whole := flatMap_encode_wordAt bytes (wordCount Value) (Nat.le_of_eq size.symm)
  apply ByteArray.ext
  apply Array.toList_inj.mp
  unfold toBytes
  rw [List.data_toByteArray, listed, List.flatMap_map, whole]
  exact List.take_of_length_le (Nat.le_of_eq size)

end Record

/-- A reference that may be missing is not the null reference. -/
def TypeId.Storable (type : Option TypeId) : Prop :=
  forall id, type = some id -> id.offset ≠ Offset.null

theorem TypeId.ofOffset?_toOffset {type : Option TypeId} (storable : Storable type) :
    ofOffset? (toOffset type) = type := by
  cases type with
  | none => rfl
  | some id =>
      have present := storable id rfl
      have nonzero : id.offset.isNull = false := by
        apply Bool.eq_false_iff.mpr
        intro null
        exact present (Offset.isNull_eq_true_iff.mp null)
      simp only [ofOffset?, toOffset, Offset.nonNull?, nonzero, Bool.false_eq_true, if_false,
        Option.map_some]

theorem TypeId.toOffset_ofOffset? (offset : Offset) : toOffset (ofOffset? offset) = offset := by
  unfold ofOffset? toOffset Offset.nonNull?
  cases isNull : offset.isNull with
  | true => exact (Offset.isNull_eq_true_iff.mp isNull).symm
  | false => rfl

theorem Shape.ofNat?_toNat (shape : Shape) : Shape.ofNat? shape.toNat = some shape := by
  cases shape <;> rfl

/-- A type whose references are not null. -/
structure TypeDef.Storable (type : TypeDef) : Prop where
  prototype : TypeId.Storable type.prototype
  argument : TypeId.Storable type.argument

theorem TypeDef.toNat_tailWord (flags : TypeFlags) (shape : Shape) :
    (TypeDef.tailWord flags shape).toNat = flags.toByte.toNat + 256 * shape.toNat := by
  have flagsBound := flags.toByte.toNat_lt
  have shapeBound : shape.toNat < 4 := by cases shape <;> decide
  simp only [tailWord, UInt32.toNat_ofNat']
  omega

/-- A stored type is read back. -/
theorem TypeDef.ofBytes_toBytes (place : Offset) {type : TypeDef} (storable : type.Storable) :
    Record.ofBytes place (Record.toBytes type) = .ok type := by
  rw [Record.ofBytes_toBytes]
  have flagsBound := type.flags.toByte.toNat_lt
  have shapeBound : type.shape.toNat < 4 := by cases type.shape <;> decide
  have tail := TypeDef.toNat_tailWord type.flags type.shape
  have shape : (TypeDef.tailWord type.flags type.shape).toNat / 256 % 256 = type.shape.toNat := by
    omega
  have flags : UInt8.ofNat (TypeDef.tailWord type.flags type.shape).toNat = type.flags.toByte := by
    apply UInt8.toNat_inj.mp
    rw [UInt8.toNat_ofNat', tail]
    omega
  have prototype := TypeId.ofOffset?_toOffset storable.prototype
  have argument := TypeId.ofOffset?_toOffset storable.argument
  have known : Shape.ofNat? ((Record.toWords type)[9].toNat / 256 % 256) = some type.shape :=
    (congrArg Shape.ofNat? shape).trans (Shape.ofNat?_toNat type.shape)
  simp only [Record.ofWords, known]
  congr 1
  change TypeDef.mk _ _ _ (TypeId.ofOffset? (TypeId.toOffset type.prototype))
    (TypeId.ofOffset? (TypeId.toOffset type.argument)) _ _ _
    (FlagSet.ofByte (UInt8.ofNat (TypeDef.tailWord type.flags type.shape).toNat)) _ = _
  rw [prototype, argument, flags, FlagSet.ofByte_toByte (by decide)]
  rfl

/-- A field whose type is not the null reference. -/
def FieldDef.Storable (field : FieldDef) : Prop := TypeId.Storable field.type

theorem FieldDef.toNat_tailWord (flags : FieldFlags) (activation choice : UInt8) :
    (FieldDef.tailWord flags activation choice).toNat =
      flags.toByte.toNat + 256 * activation.toNat + 65536 * choice.toNat := by
  have flagsBound := flags.toByte.toNat_lt
  have activationBound := activation.toNat_lt
  have choiceBound := choice.toNat_lt
  simp only [tailWord, UInt32.toNat_ofNat']
  omega

/-- A stored field is read back. -/
theorem FieldDef.ofBytes_toBytes (place : Offset) {field : FieldDef} (storable : field.Storable) :
    Record.ofBytes place (Record.toBytes field) = .ok field := by
  rw [Record.ofBytes_toBytes]
  have flagsBound := field.flags.toByte.toNat_lt
  have activationBound := field.activation.toNat_lt
  have choiceBound := field.choice.toNat_lt
  have tail := FieldDef.toNat_tailWord field.flags field.activation field.choice
  have flags : UInt8.ofNat (FieldDef.tailWord field.flags field.activation field.choice).toNat =
      field.flags.toByte := by
    apply UInt8.toNat_inj.mp
    rw [UInt8.toNat_ofNat', tail]
    omega
  have activation :
      UInt8.ofNat ((FieldDef.tailWord field.flags field.activation field.choice).toNat / 256) =
        field.activation := by
    apply UInt8.toNat_inj.mp
    rw [UInt8.toNat_ofNat', tail]
    omega
  have choice :
      UInt8.ofNat ((FieldDef.tailWord field.flags field.activation field.choice).toNat / 65536) =
        field.choice := by
    apply UInt8.toNat_inj.mp
    rw [UInt8.toNat_ofNat', tail]
    omega
  have type := TypeId.ofOffset?_toOffset storable
  change Except.ok _ = Except.ok _
  congr 1
  change FieldDef.mk _ _ (TypeId.ofOffset? (TypeId.toOffset field.type)) _ _ _
    (FlagSet.ofByte (UInt8.ofNat (FieldDef.tailWord field.flags field.activation
      field.choice).toNat))
    (UInt8.ofNat ((FieldDef.tailWord field.flags field.activation field.choice).toNat / 256))
    (UInt8.ofNat ((FieldDef.tailWord field.flags field.activation field.choice).toNat / 65536)) = _
  rw [type, flags, activation, choice, FlagSet.ofByte_toByte (by decide)]
  rfl

namespace Context

/-- A table as it is read back: a root that is the null reference is none. -/
def stored (context : Context) : Context :=
  { context with root := TypeId.ofOffset? (TypeId.toOffset context.root) }

theorem stored_eq {context : Context} (storable : TypeId.Storable context.root) :
    context.stored = context := by
  unfold stored
  rw [TypeId.ofOffset?_toOffset storable]

/-- A stored table is read back. -/
theorem ofBytes_toBytes (place : Offset) (context : Context) :
    Record.ofBytes place (Record.toBytes context) = .ok context.stored := by
  rw [Record.ofBytes_toBytes]
  simp only [Record.ofWords, Record.toWords, stored]
  have builtins : (Vector.ofFn fun index : Fin 16 => (⟨(context.builtins.map Offset.raw ++
      #v[(TypeId.toOffset context.root).raw, context.slice.offset.raw,
        context.slice.length])[index.val]⟩ : Offset)) = context.builtins := by
    apply Vector.ext
    intro index bound
    rw [Vector.getElem_ofFn, Vector.getElem_append_left bound, Vector.getElem_map]
  rw [builtins, Vector.getElem_append_right (by omega) (by omega),
    Vector.getElem_append_right (by omega) (by omega),
    Vector.getElem_append_right (by omega) (by omega)]
  rfl

/-- The words of a table that was read are those that it was read from. -/
theorem toWords_of_ofWords {place : Offset} {words : Vector UInt32 (Record.wordCount Context)}
    {context : Context} (isRead : Record.ofWords place words = .ok context) :
    Record.toWords context = words := by
  simp only [Record.ofWords] at isRead
  cases isRead
  simp only [Record.toWords]
  apply Vector.ext
  intro index bound
  by_cases inTable : index < 16
  · rw [Vector.getElem_append_left inTable, Vector.getElem_map, Vector.getElem_ofFn]
  · rw [Vector.getElem_append_right bound (by omega)]
    have last : index = 16 ∨ index = 17 ∨ index = 18 := by omega
    obtain rfl | rfl | rfl := last
    · exact congrArg Offset.raw (TypeId.toOffset_ofOffset? _)
    · rfl
    · rfl

/-- A table that was read is stored as the bytes that it was read from. -/
theorem toBytes_ofBytes {place : Offset} {bytes : ByteArray} {context : Context}
    (size : bytes.size = Record.size Context)
    (isRead : Record.ofBytes place bytes = .ok context) : Record.toBytes context = bytes :=
  Record.toBytes_eq_of_words size (toWords_of_ofWords isRead)

end Context
end PackedJson
