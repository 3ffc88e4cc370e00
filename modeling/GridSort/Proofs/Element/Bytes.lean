import GridSort.Element.Bytes
import Mathlib.Algebra.Group.Nat.Defs

namespace GridSort

/-! Encoding and decoding are inverse to each other, so memory keeps every bit of an
element. -/

namespace Bytes

theorem toNat_lt (bytes : List UInt8) : toNat bytes < 2 ^ (8 * bytes.length) := by
  induction bytes with
  | nil => simp [toNat]
  | cons byte rest ih =>
      have low := byte.toNat_lt
      have power : 2 ^ (8 * (byte :: rest).length) = 256 * 2 ^ (8 * rest.length) := by
        rw [List.length_cons, Nat.mul_succ, Nat.pow_add]
        omega
      rw [toNat, power]
      omega

theorem toNat_ofNat (length value : Nat) :
    toNat (ofNat length value) = value % 2 ^ (8 * length) := by
  induction length generalizing value with
  | zero => simp [ofNat, toNat, Nat.mod_one]
  | succ length ih =>
      have low : (UInt8.ofNat (value % 256)).toNat = value % 256 := by
        rw [UInt8.toNat_ofNat']
        omega
      have power : 2 ^ (8 * (length + 1)) = 256 * 2 ^ (8 * length) := by
        rw [Nat.mul_succ, Nat.pow_add]
        omega
      rw [ofNat, toNat, low, ih, power, Nat.mod_mul]

theorem ofNat_toNat (bytes : List UInt8) :
    ofNat bytes.length (toNat bytes) = bytes := by
  induction bytes with
  | nil => rfl
  | cons byte rest ih =>
      have low := byte.toNat_lt
      have first : (byte.toNat + 256 * toNat rest) % 256 = byte.toNat := by omega
      have later : (byte.toNat + 256 * toNat rest) / 256 = toNat rest := by omega
      rw [List.length_cons, toNat, ofNat, first, later, ih, UInt8.ofNat_toNat]

end Bytes

namespace Element

variable {type : ElementType}

@[simp] theorem decode_encode (element : Element type) :
    decode (encode element) = element := by
  apply BitVec.eq_of_toNat_eq
  rw [decode, encode, BitVec.toNat_ofNat, Bytes.toNat_ofNat, Nat.mod_mod]
  exact Nat.mod_eq_of_lt element.isLt

theorem encode_decode {bytes : List UInt8} (h : bytes.length = type.size) :
    encode (decode bytes : Element type) = bytes := by
  have bound := Bytes.toNat_lt bytes
  rw [h] at bound
  rw [encode, decode, BitVec.toNat_ofNat, Nat.mod_eq_of_lt bound, ← h]
  exact Bytes.ofNat_toNat bytes

end Element

end GridSort
