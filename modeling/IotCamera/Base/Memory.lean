import Mathlib.Algebra.Ring.Int.Defs
import Mathlib.Algebra.Ring.Nat
import IotCamera.Base.BitStrings
import IotCamera.Base.Buffers

/-!
# C scalars, array objects and checked copies

Unsigned C scalars are bit vectors of the target's widths: `unsigned char` has
eight bits, `unsigned int` and, on a 32-bit target, `unsigned long` have
thirty-two. An operand is promoted before it is combined and cut to eight bits
when it is stored in a byte.

An array object has its size in its type. Its contents are a function on
positions, of which only those below the size belong to the object, and a copy
is performed only when both of its ranges lie inside their objects; any other
copy is a fault, not a silently shortened one.
-/

namespace Memory

/-- An `unsigned char`. -/
abbrev Byte := BitVec 8

/-- An `unsigned int`, and an `unsigned long` of a 32-bit target. -/
abbrev Word := BitVec 32

/-- Operations that C leaves undefined end the program. -/
inductive Fault where
  | divisionByZero
  | outOfBounds
  deriving DecidableEq, Repr

/-- What goes wrong has no result. -/
theorem fault_no_result {ε α : Type} (fault : ε) : ¬ ∃ result, (.error fault : Except ε α) = .ok result := by
  rintro ⟨result, returned⟩
  cases returned

/-- A result comes from results of the parts. -/
theorem bind_ok {ε α β : Type} (first : Except ε α) (next : α → Except ε β) (result : β)
    (returned : first >>= next = .ok result) :
    ∃ between, first = .ok between ∧ next between = .ok result := by
  cases first with
  | error fault => cases returned
  | ok between => exact ⟨between, rfl, returned⟩

/-- The value of a narrow operand in a 32-bit expression. -/
def promote {width : Nat} (value : BitVec width) : Word := value.setWidth 32

/-- The byte an assignment to an `unsigned char` keeps of an expression. -/
def low {width : Nat} (value : BitVec width) : Byte := value.setWidth 8

/-- Promoting a byte keeps its value. -/
theorem promote_value (value : Byte) : (promote value).toNat = value.toNat :=
  BitVec.toNat_setWidth_of_le (by decide)

/-- The value of a masked byte. -/
theorem mask_value (value : Byte) (mask : Word) :
    (promote value &&& mask).toNat = value.toNat &&& mask.toNat := by
  rw [BitVec.toNat_and, promote_value]

/-- The value of the low digits of a byte. -/
theorem low_field_value (value : Byte) (mask : Word) (width : Nat) (ones : mask.toNat = 2 ^ width - 1) :
    (promote value &&& mask).toNat = value.toNat % 2 ^ width := by
  rw [mask_value, ones, Nat.and_two_pow_sub_one_eq_mod]

/-- A signed shift of a number that is not negative is a division. -/
theorem shift_value (value : Word) (places : Nat) (positive : value.toNat < 2 ^ 31) :
    (value.sshiftRight places).toNat = value.toNat / 2 ^ places := by
  have sign : value.msb = false := by
    rw [BitVec.msb_eq_false_iff_two_mul_lt]
    omega
  rw [BitVec.sshiftRight_eq_of_msb_false sign, BitVec.toNat_ushiftRight, Nat.shiftRight_eq_div_pow]

/-- The value of the digits of a byte that a mask and a shift select. -/
theorem field_value (value : Byte) (mask : Word) (width places : Nat)
    (ones : mask.toNat = (2 ^ width - 1) <<< places) :
    ((promote value &&& mask) >>> places).toNat = value.toNat / 2 ^ places % 2 ^ width := by
  rw [BitVec.toNat_ushiftRight, mask_value, ones, Nat.shiftRight_eq_div_pow,
    BitStrings.masked_field]

/-- The same for a signed shift, since a masked byte is not negative. -/
theorem signed_field_value (value : Byte) (mask : Word) (width places : Nat)
    (ones : mask.toNat = (2 ^ width - 1) <<< places) :
    ((promote value &&& mask).sshiftRight places).toNat = value.toNat / 2 ^ places % 2 ^ width := by
  have small : (promote value &&& mask).toNat ≤ value.toNat := by
    rw [mask_value]
    exact Nat.and_le_left
  have byte := value.isLt
  rw [shift_value _ places (by omega), mask_value, ones, BitStrings.masked_field]

/-- Parts of a number that do not overlap are joined by adding them. -/
theorem joined_value (upper lower : Word) (places : Nat) (below : lower.toNat < 2 ^ places)
    (fits : upper.toNat * 2 ^ places < 2 ^ 32) :
    (upper <<< places ||| lower).toNat = upper.toNat * 2 ^ places + lower.toNat := by
  rw [BitVec.toNat_or, BitVec.toNat_shiftLeft, Nat.shiftLeft_eq, Nat.mod_eq_of_lt fits,
    ← Nat.shiftLeft_eq, ← Nat.shiftLeft_add_eq_or_of_lt below, Nat.shiftLeft_eq]

/-- An array of `size` bytes. -/
structure Block (size : Nat) where
  cell : Nat → Byte

namespace Block

variable {size source : Nat}

/-- An object whose bytes all have one value, as `memset` and `calloc` leave it. -/
def uniform (size : Nat) (value : Byte) : Block size := ⟨fun _ => value⟩

/-- The object a caller passes by pointer: exactly the supplied bytes. -/
def ofBytes (bytes : List Byte) : Block bytes.length := ⟨fun index => bytes.getD index 0⟩

/-- The first `count` bytes of an object. -/
def bytes (block : Block size) (count : Nat) : List Byte := Buffers.slice block.cell 0 count

/-- Store consecutive bytes from a position on, as a run of index assignments. -/
def store (block : Block size) (position : Nat) (values : List Byte) : Block size :=
  ⟨fun index => if position ≤ index ∧ index < position + values.length
    then values.getD (index - position) 0 else block.cell index⟩

/-- `memcpy` into `target` at `offset` from `origin` at `start`. A range that leaves
either object is a fault. -/
def memcpy (target : Block size) (offset : Nat) (origin : Block source) (start count : Nat) :
    Except Fault (Block size) :=
  if offset + count ≤ size ∧ start + count ≤ source then
    .ok ⟨fun index => if offset ≤ index ∧ index < offset + count
      then origin.cell (start + (index - offset)) else target.cell index⟩
  else .error .outOfBounds

/-- The bytes of a caller's object are the caller's bytes. -/
theorem of_bytes_bytes (values : List Byte) (count : Nat) (inside : count ≤ values.length) :
    (ofBytes values).bytes count = values.take count := by
  simpa [bytes, ofBytes] using Buffers.slice_getD values 0 0 count (by omega)

/-- A copy inside both objects succeeds, places the source bytes and leaves the
rest of the target alone. -/
theorem memcpy_inside (target : Block size) (offset : Nat) (origin : Block source) (start count : Nat)
    (fits : offset + count ≤ size) (available : start + count ≤ source) :
    ∃ copied : Block size, target.memcpy offset origin start count = .ok copied ∧
      (∀ index < count, copied.cell (offset + index) = origin.cell (start + index)) ∧
      ∀ index, index < offset ∨ offset + count ≤ index → copied.cell index = target.cell index := by
  refine ⟨_, if_pos ⟨fits, available⟩, ?_, ?_⟩
  · intro index inside
    have within : offset ≤ offset + index ∧ offset + index < offset + count := by omega
    simp [within]
  · intro index outside
    have beyond : ¬ (offset ≤ index ∧ index < offset + count) := by omega
    simp [beyond]

/-- A copy that leaves one of its objects faults. -/
theorem memcpy_outside (target : Block size) (offset : Nat) (origin : Block source) (start count : Nat)
    (leaves : ¬ (offset + count ≤ size ∧ start + count ≤ source)) :
    target.memcpy offset origin start count = .error .outOfBounds := if_neg leaves

end Block

end Memory
