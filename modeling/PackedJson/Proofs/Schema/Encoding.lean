import Mathlib.Data.List.Basic
import PackedJson.Proofs.Arena.Session
import PackedJson.Proofs.Schema.Record

namespace PackedJson

/-!
Records in an arena, and the bytes that they are stored as.

A record is read back where it was written, be it in a region of its own or
over another record, and no byte around it changes.  Bytes that were read as a
record are written again as they were, but for the bits that mean nothing:
flags that there are not, and the padding at the end.  A mask tells these bits
from the others.
-/

namespace FlagSet

variable {names : List String}

/-- The set of every property. -/
def full : FlagSet names := ⟨BitVec.allOnes names.length⟩

/-- Of a byte that is read as a set, only the bits that stand for properties are
stored again. -/
theorem toByte_ofByte (few : names.length ≤ 8) (byte : UInt8) :
    (ofByte byte : FlagSet names).toByte = byte &&& (full : FlagSet names).toByte := by
  have bound : 2 ^ names.length ≤ 2 ^ 8 := Nat.pow_le_pow_right (by decide) few
  have positive := Nat.two_pow_pos names.length
  have remainder := Nat.mod_lt byte.toNat positive
  apply UInt8.toNat_inj.mp
  rw [UInt8.toNat_and]
  simp only [toByte, ofByte, full, UInt8.toNat_ofNat', BitVec.toNat_ofNat, BitVec.toNat_allOnes]
  rw [Nat.mod_eq_of_lt (by omega : byte.toNat % 2 ^ names.length < 2 ^ 8),
    Nat.mod_eq_of_lt (by omega : 2 ^ names.length - 1 < 2 ^ 8), Nat.and_two_pow_sub_one_eq_mod]

end FlagSet

namespace Record

/-! ### Reading after writing -/

section Stored

variable {Value : Type} [Record Value] {arena before after : Arena} {place : Offset} {value : Value}

/-- Only the bytes of a record have changed. -/
def ChangedAt (Value : Type) [Record Value] (before : Arena) (place : Offset) (after : Arena) :
    Prop :=
  forall position, position < place.toNat ∨ place.toNat + size Value ≤ position ->
    after.byteAt position = before.byteAt position

/-- What was written over readable bytes is what they are read as. -/
theorem read_of_written (writable : before.Writable)
    (readable : before.isReadable place (size Value) = true)
    (written : Arena.Written before place.toNat (toBytes value).data.toList after) :
    read Value after place = ofBytes place (toBytes value) := by
  have stillReadable : after.isReadable place (size Value) = true :=
    (written.isReadable (size Value)).trans readable
  obtain ⟨bytes, found, content⟩ :=
    Arena.get?_of_isReadable (written.writable writable) stillReadable
  have length : (toBytes value).data.toList.length = size Value := size_toBytes value
  have loaded := written.load_source
  rw [length] at loaded
  have same : bytes = toBytes value :=
    ByteArray.ext (Array.toList_inj.mp (content.trans loaded))
  unfold read
  rw [found]
  exact congrArg (ofBytes place) same

theorem changedAt_of_written
    (written : Arena.Written before place.toNat (toBytes value).data.toList after) :
    ChangedAt Value before place after := by
  have length : (toBytes value).data.toList.length = size Value := size_toBytes value
  intro position outside
  exact written.byteAt_of_apart (by rw [length]; exact outside)

/-- A record is written over readable bytes. -/
theorem run_write (writable : arena.Writable)
    (readable : arena.isReadable place (size Value) = true) :
    Run (write place value) arena
      (fun _ after => Arena.Written arena place.toNat (toBytes value).data.toList after)
      (fun _ _ => False) := by
  have allowed := Arena.checkWritable_of_isReadable writable readable
  rw [← size_toBytes value] at allowed
  unfold write
  cases ends : Arena.write place (toBytes value) arena with
  | ok _ after => exact (run_of_ok ends).mpr (Arena.written_of_ok writable ends)
  | error cause after =>
      obtain ⟨storage, bytes, used⟩ := arena
      unfold Arena.write at ends
      rw [allowed] at ends
      cases ends

/-- A record is written into a region of its own, unless there is no room. -/
theorem run_alloc (writable : arena.Writable) :
    Run (alloc value) arena
      (fun place after => exists middle, Arena.HandedOut arena (size Value) alignment place middle ∧
        Arena.Written middle place.toNat (toBytes value).data.toList after)
      (fun _ after => after = arena) := by
  refine Run.andThen (Arena.run_allocOnly (size Value) alignment) ?_ (fun _ _ same => same)
  intro place middle done
  have handedOut := Arena.handedOut_of_ok writable done
  have middleWritable := handedOut.allocated.grown.writable writable
  refine Run.andThen (run_write middleWritable handedOut.readable) ?_ (fun _ _ never => never.elim)
  exact fun _ after written => ⟨middle, handedOut, written⟩

end Stored

/-! ### Records as their bytes -/

section Bytes

variable {Value : Type} [Record Value]

/-- What a kind of records and its encoding owe each other.  The storable records survive the arena,
and bytes that are a record survive being read, up to the bits that a mask leaves out. -/
structure IsFaithful (Value : Type) [Record Value] (storable : Value -> Prop)
    (isUnreadable : List UInt8 -> Prop) (mask : List UInt8) : Prop where
  length : mask.length = size Value
  /-- A record is read back from a region of its own. -/
  alloc : forall (arena : Arena) (value : Value), arena.Writable -> storable value ->
    Run (alloc value) arena
      (fun place after => read Value after place = .ok value ∧ ChangedAt Value arena place after)
      (fun _ after => after = arena)
  /-- A record is read back where it was written over another one. -/
  write : forall (arena : Arena) (place : Offset) (value : Value), arena.Writable ->
    arena.isReadable place (size Value) = true ->
    Run (write place value) arena
      (fun _ after => (storable value -> read Value after place = .ok value) ∧
        ChangedAt Value arena place after ∧ after.storage = arena.storage ∧ after.used = arena.used)
      (fun _ _ => False)
  /-- Which bytes are no record. -/
  unreadable : forall (place : Offset) (bytes : ByteArray), bytes.size = size Value ->
    ((exists cause, (ofBytes place bytes : Except SchemaError Value) = .error cause) ↔
      isUnreadable bytes.data.toList)
  /-- Bytes that are a record are stored again, save for what means nothing. -/
  masked : forall (place : Offset) (bytes : ByteArray) (value : Value), bytes.size = size Value ->
    ofBytes place bytes = .ok value ->
    (toBytes value).data.toList = List.zipWith (· &&& ·) bytes.data.toList mask

/-- Records are faithful when they are determined by their bytes, and their bytes by what they are
read as. -/
theorem isFaithful_of_bytes {storable : Value -> Prop} {isUnreadable : List UInt8 -> Prop}
    {mask : List UInt8} (length : mask.length = size Value)
    (back : forall place value, storable value -> ofBytes place (toBytes value) = .ok value)
    (unreadable : forall (place : Offset) (bytes : ByteArray), bytes.size = size Value ->
      ((exists cause, (ofBytes place bytes : Except SchemaError Value) = .error cause) ↔
        isUnreadable bytes.data.toList))
    (masked : forall (place : Offset) (bytes : ByteArray) (value : Value),
      bytes.size = size Value -> ofBytes place bytes = .ok value ->
      (toBytes value).data.toList = List.zipWith (· &&& ·) bytes.data.toList mask) :
    IsFaithful Value storable isUnreadable mask := by
  refine ⟨length, fun arena value writable isStorable => ?_,
    fun arena place value writable readable => ?_, unreadable, masked⟩
  · refine (run_alloc writable).imp ?_ (fun _ _ same => same)
    rintro place after ⟨middle, handedOut, written⟩
    have middleWritable := handedOut.allocated.grown.writable writable
    refine ⟨(read_of_written middleWritable handedOut.readable written).trans
      (back place value isStorable), fun position outside => ?_⟩
    exact (changedAt_of_written written position outside).trans
      (handedOut.allocated.kept position outside)
  · refine (run_write writable readable).imp ?_ (fun _ _ never => never)
    intro _ after written
    exact ⟨fun isStorable => (read_of_written writable readable written).trans
      (back place value isStorable), changedAt_of_written written, written.storage, written.used⟩

end Bytes

theorem and_ones (byte : UInt8) : byte &&& 255 = byte := UInt8.and_neg_one

/-- The bits of bytes that a mask of ones lets through are all of them. -/
theorem zipWith_ones (bytes : List UInt8) {count : Nat} (length : bytes.length = count) :
    List.zipWith (· &&& ·) bytes (List.replicate count 255) = bytes := by
  subst length
  induction bytes with
  | nil => rfl
  | cons byte rest ih =>
      rw [List.length_cons, List.replicate_succ, List.zipWith_cons_cons, ih]
      exact congrArg (· :: rest) (and_ones byte)

section Words

variable {bytes : ByteArray} {position : Nat}

/-- The last word of some bytes, byte by byte. -/
theorem exists_last (size : bytes.size = position + 4) :
    exists first second third fourth : UInt8,
      bytes.data.toList = bytes.data.toList.take position ++ [first, second, third, fourth] ∧
        UInt8.ofNat (wordAt bytes position).toNat = first ∧
        UInt8.ofNat ((wordAt bytes position).toNat / 256) = second ∧
        UInt8.ofNat ((wordAt bytes position).toNat / 65536) = third := by
  have length : bytes.data.toList.length = position + 4 := size
  have four : (bytes.data.toList.drop position).length = 4 := by
    rw [List.length_drop]
    omega
  obtain ⟨first, second, third, fourth, isLast⟩ := List.length_eq_four.mp four
  have part :
      (bytes.extract position (position + 4)).data.toList = [first, second, third, fourth] := by
    rw [ByteArray.data_extract, Array.toList_extract, List.extract_eq_take_drop,
      Nat.add_sub_cancel_left, isLast]
    rfl
  have firstBound := first.toNat_lt
  have secondBound := second.toNat_lt
  have thirdBound := third.toNat_lt
  have fourthBound := fourth.toNat_lt
  have word : (wordAt bytes position).toNat = first.toNat + 256 * (second.toNat +
      256 * (third.toNat + 256 * fourth.toNat)) := by
    unfold wordAt
    rw [part, UInt32.toNat_ofNat']
    simp only [LittleEndian.decode]
    omega
  refine ⟨first, second, third, fourth, ?_, ?_, ?_, ?_⟩
  · rw [← isLast, List.take_append_drop]
  all_goals
    apply UInt8.toNat_inj.mp
    rw [UInt8.toNat_ofNat', word]
    omega

/-- A record whose words were read but for the last one is stored as the bytes that it was read
from, but for the last four. -/
theorem toBytes_of_words {Value : Type} [Record Value] {value : Value} {count : Nat} {last : UInt32}
    (isPosition : 4 * count = position) (size : bytes.size = position + 4)
    (words : (toWords value).toList =
      ((List.range count).map fun index => wordAt bytes (4 * index)) ++ [last]) :
    (toBytes value).data.toList =
      bytes.data.toList.take position ++ LittleEndian.encode 4 last.toNat := by
  subst isPosition
  unfold toBytes
  rw [List.data_toByteArray, words, List.flatMap_append, List.flatMap_map,
    flatMap_encode_wordAt bytes count (by omega), List.flatMap_singleton]

/-- A mask that lets all bits through up to the last word. -/
theorem zipWith_mask {first second third fourth : UInt8}
    (whole : bytes.data.toList = bytes.data.toList.take position ++ [first, second, third, fourth])
    (mask : List UInt8) :
    List.zipWith (· &&& ·) bytes.data.toList (List.replicate position 255 ++ mask) =
      bytes.data.toList.take position ++
        List.zipWith (· &&& ·) [first, second, third, fourth] mask := by
  have length : (bytes.data.toList.take position).length = position := by
    have sizes := congrArg List.length whole
    simp only [List.length_append, List.length_cons, List.length_nil, List.length_take] at sizes ⊢
    omega
  conv_lhs => rw [whole]
  rw [List.zipWith_append (by rw [length, List.length_replicate]), zipWith_ones _ length]

end Words

end Record

/-! ### The three kinds of records -/

/-- The number of a shape is at most three. -/
theorem Shape.ofNat?_eq_none_iff {number : Nat} : ofNat? number = none ↔ 3 < number := by
  match number with
  | 0 | 1 | 2 | 3 => simp [ofNat?]
  | number + 4 => simp [ofNat?]

theorem Shape.toNat_of_ofNat? {number : Nat} {shape : Shape}
    (isShape : ofNat? number = some shape) :
    shape.toNat = number := by
  match number with
  | 0 | 1 | 2 | 3 =>
      cases isShape
      rfl
  | number + 4 => cases isShape

namespace TypeDef

/-- The bits of a type record that mean something: of the last four bytes, the flags that there are
and the shape. -/
def mask : List UInt8 :=
  List.replicate 36 255 ++ [(FlagSet.full : TypeFlags).toByte, 255, 0, 0]

/-- The byte of the shape stands for none. -/
def IsUnreadable (bytes : List UInt8) : Prop :=
  exists shape, bytes[37]? = some shape ∧ 3 < shape.toNat

/-- The last word of some bytes decides whether they are a type. -/
theorem ofBytes_cases (place : Offset) (bytes : ByteArray) :
    3 < (Record.wordAt bytes 36).toNat / 256 % 256 ∧ Record.ofBytes place bytes =
        (.error (.unknownShape place ((Record.wordAt bytes 36).toNat / 256 % 256)) :
          Except SchemaError TypeDef) ∨
      exists type : TypeDef, Record.ofBytes place bytes = .ok type ∧
        (Record.toWords type).toList =
          ((List.range 9).map fun index => Record.wordAt bytes (4 * index)) ++
            [tailWord type.flags type.shape] ∧
        type.flags = .ofByte (UInt8.ofNat (Record.wordAt bytes 36).toNat) ∧
        Shape.ofNat? ((Record.wordAt bytes 36).toNat / 256 % 256) = some type.shape := by
  simp only [Record.ofBytes, Record.ofWords, Vector.getElem_ofFn]
  cases known : Shape.ofNat? ((Record.wordAt bytes 36).toNat / 256 % 256) with
  | none => exact .inl ⟨Shape.ofNat?_eq_none_iff.mp known, rfl⟩
  | some shape =>
      refine .inr ⟨_, rfl, ?_, rfl, rfl⟩
      simp only [Record.toWords, TypeId.toOffset_ofOffset?]
      rfl

/-- The last four bytes of a type that is stored. -/
theorem encode_tailWord (flags : TypeFlags) (shape : Shape) :
    LittleEndian.encode 4 (tailWord flags shape).toNat =
      [flags.toByte, UInt8.ofNat shape.toNat, 0, 0] := by
  have bound : shape.toNat < 4 := by cases shape <;> decide
  have word : (tailWord flags shape).toNat =
      LittleEndian.decode [flags.toByte, UInt8.ofNat shape.toNat, 0, 0] := by
    rw [toNat_tailWord]
    simp only [LittleEndian.decode, UInt8.toNat_ofNat', UInt8.toNat_zero]
    omega
  rw [word]
  exact LittleEndian.encode_decode [flags.toByte, UInt8.ofNat shape.toNat, 0, 0]

theorem isFaithful : Record.IsFaithful TypeDef Storable IsUnreadable mask := by
  refine Record.isFaithful_of_bytes rfl (fun place _ => ofBytes_toBytes place) ?_ ?_
  · intro place bytes size
    obtain ⟨flags, shape, third, fourth, whole, _, isShape, _⟩ := @Record.exists_last bytes 36 size
    have number : (Record.wordAt bytes 36).toNat / 256 % 256 = shape.toNat := by
      rw [← isShape, UInt8.toNat_ofNat']
    have inBytes : bytes.data.toList[37]? = some shape := by
      have length : bytes.data.toList.length = 40 := size
      rw [whole, List.getElem?_append_right (by rw [List.length_take]; omega), List.length_take,
        length]
      rfl
    rcases ofBytes_cases place bytes with ⟨unknown, fails⟩ | ⟨type, isRead, _, _, known⟩
    · rw [number] at unknown
      exact ⟨fun _ => ⟨shape, inBytes, unknown⟩, fun _ => ⟨_, fails⟩⟩
    · constructor
      · rintro ⟨cause, fails⟩
        cases isRead.symm.trans fails
      · rintro ⟨other, isOther, unknown⟩
        cases inBytes.symm.trans isOther
        rw [number, Shape.ofNat?_eq_none_iff.mpr unknown] at known
        cases known
  · intro place bytes type size isRead
    obtain ⟨flags, shape, third, fourth, whole, isFlags, isShape, _⟩ :=
      @Record.exists_last bytes 36 size
    rcases ofBytes_cases place bytes with ⟨_, fails⟩ | ⟨found, isFound, words, areFlags, known⟩
    · cases isRead.symm.trans fails
    cases isRead.symm.trans isFound
    have sameShape : UInt8.ofNat type.shape.toNat = shape := by
      apply UInt8.toNat_inj.mp
      rw [Shape.toNat_of_ofNat? known, ← isShape, UInt8.toNat_ofNat', UInt8.toNat_ofNat',
        Nat.mod_mod]
    rw [Record.toBytes_of_words rfl size words, encode_tailWord, mask, Record.zipWith_mask whole,
      areFlags, isFlags, FlagSet.toByte_ofByte (by decide), sameShape]
    simp only [List.zipWith_cons_cons, List.zipWith_nil_left, Record.and_ones, UInt8.and_zero]

end TypeDef

namespace FieldDef

/-- The bits of a field record that mean something: of the last four bytes, the flags that there are
and the two tags. -/
def mask : List UInt8 :=
  List.replicate 32 255 ++ [(FlagSet.full : FieldFlags).toByte, 255, 255, 0]

/-- Any bytes are a field. -/
theorem ofBytes_eq (place : Offset) (bytes : ByteArray) :
    exists field : FieldDef, Record.ofBytes place bytes = .ok field ∧
      (Record.toWords field).toList =
        ((List.range 8).map fun index => Record.wordAt bytes (4 * index)) ++
          [tailWord field.flags field.activation field.choice] ∧
      field.flags = .ofByte (UInt8.ofNat (Record.wordAt bytes 32).toNat) ∧
      field.activation = UInt8.ofNat ((Record.wordAt bytes 32).toNat / 256) ∧
      field.choice = UInt8.ofNat ((Record.wordAt bytes 32).toNat / 65536) := by
  simp only [Record.ofBytes, Record.ofWords, Vector.getElem_ofFn]
  refine ⟨_, rfl, ?_, rfl, rfl, rfl⟩
  simp only [Record.toWords, TypeId.toOffset_ofOffset?]
  rfl

/-- The last four bytes of a field that is stored. -/
theorem encode_tailWord (flags : FieldFlags) (activation choice : UInt8) :
    LittleEndian.encode 4 (tailWord flags activation choice).toNat =
      [flags.toByte, activation, choice, 0] := by
  have word : (tailWord flags activation choice).toNat =
      LittleEndian.decode [flags.toByte, activation, choice, 0] := by
    rw [toNat_tailWord]
    simp only [LittleEndian.decode, UInt8.toNat_zero]
    omega
  rw [word]
  exact LittleEndian.encode_decode [flags.toByte, activation, choice, 0]

theorem isFaithful : Record.IsFaithful FieldDef Storable (fun _ => False) mask := by
  refine Record.isFaithful_of_bytes rfl (fun place _ => ofBytes_toBytes place) ?_ ?_
  · intro place bytes _
    obtain ⟨field, isRead, _⟩ := ofBytes_eq place bytes
    refine ⟨?_, False.elim⟩
    rintro ⟨cause, fails⟩
    cases isRead.symm.trans fails
  · intro place bytes field size isRead
    obtain ⟨flags, activation, choice, fourth, whole, isFlags, isActivation, isChoice⟩ :=
      @Record.exists_last bytes 32 size
    obtain ⟨found, isFound, words, areFlags, sameActivation, sameChoice⟩ := ofBytes_eq place bytes
    cases isRead.symm.trans isFound
    rw [Record.toBytes_of_words rfl size words, encode_tailWord, mask, Record.zipWith_mask whole,
      areFlags, isFlags, FlagSet.toByte_ofByte (by decide), sameActivation, isActivation,
      sameChoice, isChoice]
    simp only [List.zipWith_cons_cons, List.zipWith_nil_left, Record.and_ones, UInt8.and_zero]

end FieldDef

namespace Context

/-- Every bit of a table means something. -/
def mask : List UInt8 := List.replicate 76 255

theorem isFaithful :
    Record.IsFaithful Context (TypeId.Storable ·.root) (fun _ => False) mask := by
  refine Record.isFaithful_of_bytes rfl (fun place context storable => ?_) ?_ ?_
  · rw [ofBytes_toBytes, stored_eq storable]
  · intro place bytes _
    refine ⟨?_, False.elim⟩
    rintro ⟨cause, fails⟩
    cases fails
  · intro place bytes context size isRead
    have length : bytes.data.toList.length = 76 := size
    rw [toBytes_ofBytes size isRead, mask, Record.zipWith_ones _ length]

end Context

namespace Record

/-- Types, fields and tables whose references are not null are read back as they were written, and
nothing around them changes.  Only bytes that name no shape are no type, all others of the right
number are a record, and are stored again but for what a mask leaves out. -/
theorem faithful_records :
    IsFaithful TypeDef TypeDef.Storable TypeDef.IsUnreadable TypeDef.mask ∧
      IsFaithful FieldDef FieldDef.Storable (fun _ => False) FieldDef.mask ∧
      IsFaithful Context (TypeId.Storable ·.root) (fun _ => False) Context.mask :=
  ⟨TypeDef.isFaithful, FieldDef.isFaithful, Context.isFaithful⟩

end Record
end PackedJson
