import PackedJson.Power

namespace PackedJson
namespace LittleEndian

/-!
Natural numbers as bytes, least significant byte first.

`encode` keeps the low bytes of a number and `decode` reads them back.  The
two are inverse to each other up to the width: reading what was written
gives the number modulo `256 ^ width`, and writing what was read gives the
same bytes.  Records, containers and packed instances all store their
numbers this way.
-/

/-- The low `width` bytes of `value`. -/
def encode : Nat -> Nat -> List UInt8
  | 0, _ => []
  | width + 1, value => UInt8.ofNat value :: encode width (value / 256)

/-- The number written by a sequence of bytes of any length. -/
def decode : List UInt8 -> Nat
  | [] => 0
  | byte :: rest => byte.toNat + 256 * decode rest

@[simp] theorem length_encode (width value : Nat) : (encode width value).length = width := by
  induction width generalizing value with
  | zero => rfl
  | succ width ih => simp [encode, ih]

theorem decode_encode (width value : Nat) :
    decode (encode width value) = value % 256 ^ width := by
  induction width generalizing value with
  | zero => simp [encode, decode, Nat.mod_one]
  | succ width ih =>
      simp only [encode, decode, ih, UInt8.toNat_ofNat']
      have power : 256 ^ (width + 1) = 256 * 256 ^ width := by rw [Nat.pow_succ, Nat.mul_comm]
      rw [power, Nat.mod_mul]

theorem decode_encode_of_lt {width value : Nat} (small : value < 256 ^ width) :
    decode (encode width value) = value := by
  rw [decode_encode, Nat.mod_eq_of_lt small]

theorem encode_decode (bytes : List UInt8) : encode bytes.length (decode bytes) = bytes := by
  induction bytes with
  | nil => rfl
  | cons byte rest ih =>
      have bound := byte.toNat_lt
      have quotient : (byte.toNat + 256 * decode rest) / 256 = decode rest := by omega
      simp only [List.length_cons, encode, decode, quotient, ih, List.cons.injEq, and_true]
      apply UInt8.toNat_inj.mp
      simp only [UInt8.toNat_ofNat']
      omega

theorem decode_lt (bytes : List UInt8) : decode bytes < 256 ^ bytes.length := by
  induction bytes with
  | nil => simp [decode]
  | cons byte rest ih =>
      have bound := byte.toNat_lt
      simp only [decode, List.length_cons, Nat.pow_succ]
      omega

end LittleEndian
end PackedJson
