import Mathlib.Data.List.Forall2
import PackedJson.Instance.Reader
import PackedJson.Proofs.Arena.Lasting
import PackedJson.Proofs.TextSchema.Meaning

namespace PackedJson

/-!
Instances that are read as the meaning of a document.

`Reads` says of a place that the reader succeeds at every node below it, and
what it finds.  The numbers, pointers and texts that instances are made of are
described by the bytes that they are read from.
-/

open TextSchema in
/-- An instance is read as a value. -/
inductive Reads (reader : Reader) : Place -> Value -> Prop where
  | integer {place : Place} {value : Int} : reader.integer place = .ok value ->
      Reads reader place (.integer value)
  | number {place : Place} {bits : UInt64} : reader.number place = .ok bits ->
      Reads reader place (.number bits)
  | boolean {place : Place} {value : Bool} : reader.boolean place = .ok value ->
      Reads reader place (.boolean value)
  | null {place : Place} : reader.isUnit place = true -> Reads reader place .null
  | text {place : Place} {content : String} : reader.text place = .ok content ->
      Reads reader place (.text content)
  | array {place : Place} {elements : List Place} {values : List Value} :
      reader.elements place = .ok elements -> List.Forall₂ (Reads reader) elements values ->
      Reads reader place (.array values)
  /-- The members of a map are stored in an order of their own. -/
  | map {place : Place} {found ordered : List (String × Place)} {entries : List (String × Value)} :
      reader.mapEntries place = .ok found -> found.Perm ordered ->
      ordered.map Prod.fst = entries.map Prod.fst ->
      List.Forall₂ (Reads reader) (ordered.map Prod.snd) (entries.map Prod.snd) ->
      Reads reader place (.map entries)
  | struct {place : Place} {found : List (String × Place)} {fields : List (String × Value)} :
      reader.fields place = .ok found -> found.map Prod.fst = fields.map Prod.fst ->
      List.Forall₂ (Reads reader) (found.map Prod.snd) (fields.map Prod.snd) ->
      Reads reader place (.struct fields)
  | variant {place inner : Place} {choice : Nat} {name : String} {value : Value} :
      reader.tag place = .ok choice -> reader.variant place = .ok (name, inner) ->
      Reads reader inner value -> Reads reader place (.variant choice value)
  | absent {place : Place} : reader.option place = .ok none -> Reads reader place .absent
  | present {place inner : Place} {value : Value} : reader.option place = .ok (some inner) ->
      Reads reader inner value -> Reads reader place (.present value)
  | success {place inner : Place} {value : Value} : reader.result place = .ok (.inr inner) ->
      Reads reader inner value -> Reads reader place (.success value)
  | failure {place : Place} {message : String} : reader.result place = .ok (.inl message) ->
      Reads reader place (.failure message)

/-- The position some bytes further on. -/
def Offset.advance (offset : Offset) (bytes : Nat) : Offset := ofNat (offset.toNat + bytes)

theorem Offset.toNat_advance {offset : Offset} {bytes : Nat}
    (small : offset.toNat + bytes < spaceSize) :
    (offset.advance bytes).toNat = offset.toNat + bytes :=
  toNat_ofNat small

theorem Offset.add?_eq_advance {offset : Offset} {bytes : Nat}
    (small : offset.toNat + bytes < spaceSize) :
    offset.add? bytes = some (offset.advance bytes) := by
  unfold add? ofNat?
  rw [if_pos small]
  rfl

namespace Arena

theorem Writable.used_lt {arena : Arena} (writable : arena.Writable) :
    arena.used < Offset.spaceSize := by
  obtain ⟨_, shape⟩ := writable
  have limit : positionLimit = 2 ^ 32 - 1 := rfl
  have space : Offset.spaceSize = 2 ^ 32 := rfl
  cases kind : arena.storage with
  | owned capacity buffers growable =>
      simp only [kind] at shape
      omega
  | borrowed =>
      simp only [kind] at shape
      omega
  | absent => simp only [kind] at shape
  | readOnly => simp only [kind] at shape

/-- A number is stored at a position. -/
structure HasNumber (arena : Arena) (place : Offset) (width value : Nat) : Prop where
  within : arena.Within place.toNat width
  load : arena.load place.toNat width = LittleEndian.encode width value
  small : value < 256 ^ width

theorem HasNumber.preserved {arena later : Arena} {place : Offset} {width value : Nat}
    (has : arena.HasNumber place width value) {kept : Nat -> Prop}
    (preserves : Preserves kept arena later)
    (isKept : forall position, Extent.Has ⟨place.toNat, width⟩ position -> kept position) :
    later.HasNumber place width value :=
  ⟨preserves.grown.within _ _ has.within, (preserves.load isKept).trans has.load, has.small⟩

/-- A stored number outlasts changes of other regions. -/
theorem HasNumber.survives {arena after : Arena} {place : Offset} {width value : Nat}
    {owned fresh : List Extent} (has : arena.HasNumber place width value)
    (evolves : Evolves owned arena fresh after) (writable : arena.Writable)
    (apart : forall other, other ∈ owned -> Extent.Apart ⟨place.toNat, width⟩ other) :
    after.HasNumber place width value :=
  has.preserved (evolves.preserves_region writable has.within.2.1 apart) fun _ => id

/-- A stored number is what its bytes stand for. -/
theorem HasNumber.slice {arena : Arena} {place : Offset} {width value : Nat}
    (has : arena.HasNumber place width value) (writable : arena.Writable) (positive : 0 < width) :
    exists bytes, arena.slice place width = .ok bytes ∧
      LittleEndian.decode bytes.data.toList = value := by
  obtain ⟨bytes, found, content⟩ := get?_of_within place width writable has.within
    (Nat.le_refl _) (Nat.le_refl _) (by omega)
  refine ⟨bytes, ?_, ?_⟩
  · unfold Arena.slice
    rw [found]
  · rw [content, has.load, LittleEndian.decode_encode_of_lt has.small]

/-- Zero bytes are the number zero. -/
theorem Zero.hasNumber {arena : Arena} {place : Offset} {width : Nat}
    (zero : arena.Zero ⟨place.toNat, width⟩) (within : arena.Within place.toNat width) :
    arena.HasNumber place width 0 := by
  refine ⟨within, ?_, Nat.pow_pos (by decide)⟩
  have encoded (count : Nat) : LittleEndian.encode count 0 = List.replicate count 0 := by
    induction count with
    | zero => rfl
    | succ count ih => exact congrArg (List.cons 0) ih
  rw [encoded]
  refine List.eq_replicate_iff.mpr ⟨length_load _ _ _, fun byte member => ?_⟩
  obtain ⟨index, bound, rfl⟩ := List.mem_map.mp member
  have small := List.mem_range.mp bound
  exact zero _ ⟨Nat.le_add_right _ _, by simp only; omega⟩

end Arena

namespace Reader

variable {reader : Reader} {place : Offset} {width value : Nat}

theorem readUnsigned_of_hasNumber (has : reader.data.HasNumber place width value)
    (writable : reader.data.Writable) : reader.readUnsigned place width = .ok value := by
  unfold readUnsigned bytesAt
  by_cases none : width = 0
  · subst none
    have zero : value = 0 := by
      have small := has.small
      omega
    subst zero
    rfl
  · obtain ⟨bytes, found, decoded⟩ := has.slice writable (Nat.pos_of_ne_zero none)
    rw [if_neg none, found, ← decoded]
    rfl

/-- The number that stands for a pointer. -/
def rawPointer (base : Nat) (target : Offset) : Nat :=
  if target.isNull then 0 else base + target.toNat

theorem readPointer_of_hasNumber {target : Offset}
    (has : reader.data.HasNumber place reader.target.pointerWidth
      (rawPointer reader.pointerBase target))
    (writable : reader.data.Writable) : reader.readPointer place = .ok target.nonNull? := by
  unfold readPointer
  rw [readUnsigned_of_hasNumber has writable]
  unfold rawPointer Offset.nonNull?
  cases isNull : target.isNull with
  | true => rfl
  | false =>
      have positive := Offset.isNull_eq_false_iff.mp isNull
      have nonzero : ¬ reader.pointerBase + target.toNat = 0 := by omega
      have above : ¬ reader.pointerBase + target.toNat < reader.pointerBase := by omega
      have back : Offset.ofNat? (reader.pointerBase + target.toNat - reader.pointerBase) =
          some target := by
        unfold Offset.ofNat?
        rw [Nat.add_sub_cancel_left, if_pos target.toNat_lt, Offset.ofNat_toNat]
      simp only [Bool.false_eq_true, if_false, bind, Except.bind, nonzero, above, back]
      rfl

end Reader
end PackedJson
