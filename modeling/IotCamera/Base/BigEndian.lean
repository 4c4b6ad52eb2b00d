import Mathlib.Data.Nat.Digits.Defs
import Mathlib.Tactic.Ring

/-!
# Numbers in network order

A number is stored in a fixed count of bytes, its highest byte first. What is read back is
the number itself when the bytes have room for it, and its remainder otherwise.
-/

namespace BigEndian

/-- The lowest `count` bytes of a number, the highest of them first. -/
def bytesOf : Nat → Nat → List (BitVec 8)
  | 0, _ => []
  | count + 1, value => BitVec.ofNat 8 (value / 256 ^ count) :: bytesOf count value

/-- The number that bytes in network order stand for. -/
def numberOf : List (BitVec 8) → Nat
  | [] => 0
  | byte :: rest => byte.toNat * 256 ^ rest.length + numberOf rest

/-- A number is written in as many bytes as are asked for. -/
@[simp] theorem bytes_length (count value : Nat) : (bytesOf count value).length = count := by
  induction count with
  | zero => rfl
  | succ count inductionHypothesis => simp [bytesOf, inductionHypothesis]

/-- A number of some bytes is below the power of 256. -/
theorem number_bound (bytes : List (BitVec 8)) : numberOf bytes < 256 ^ bytes.length := by
  induction bytes with
  | nil => simp [numberOf]
  | cons byte rest inductionHypothesis =>
      have byteBound : byte.toNat < 256 := byte.isLt
      have product : byte.toNat * 256 ^ rest.length ≤ 255 * 256 ^ rest.length :=
        Nat.mul_le_mul_right _ (by omega)
      rw [numberOf, List.length_cons, pow_succ]
      omega

/-- A number is read back as far as there was room for it. -/
theorem number_bytes (count value : Nat) : numberOf (bytesOf count value) = value % 256 ^ count := by
  induction count with
  | zero => simp [bytesOf, numberOf, Nat.mod_one]
  | succ count inductionHypothesis =>
      have split : value % 256 ^ (count + 1) =
          value % 256 ^ count + 256 ^ count * (value / 256 ^ count % 256) := by
        rw [pow_succ, Nat.mod_mul]
      rw [bytesOf, numberOf, bytes_length, inductionHypothesis, split, BitVec.toNat_ofNat]
      ring

/-- A number that has room is read back as it was. -/
theorem number_bytes_of_lt (count value : Nat) (room : value < 256 ^ count) :
    numberOf (bytesOf count value) = value := by
  rw [number_bytes, Nat.mod_eq_of_lt room]

end BigEndian
