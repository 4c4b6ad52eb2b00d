import IotCamera.Base.BitStrings

/-!
# A shift register with feedback

The register holds the remainder of a polynomial division over bits. A bit that enters
moves it by one place; when the bit that leaves it and the bit that enters differ, the
polynomial is subtracted. Subtraction is exclusive or, so entering bits is linear in the
register and the bits together.

A register into which its own bits are entered, the highest first, only moves: what leaves
and what enters are always the same. Both facts together let several bits enter at once
through a table, and leave a register empty whose bits are entered after the message. The
table is made by entering one more bit into each of its entries, again and again.
-/

namespace ShiftRegister

open BitStrings

variable {width : Nat} (poly : BitVec width)

/-- One bit enters. -/
def enter (register : BitVec width) (bit : Bool) : BitVec width :=
  register <<< 1 ^^^ if register.msb ^^ bit then poly else 0#(width)

/-- Bits enter in order. -/
def feed (register : BitVec width) (stream : List Bool) : BitVec width :=
  stream.foldl (enter poly) register

/-- Feeding bits in two parts is feeding them one after the other. -/
theorem feed_append (register : BitVec width) (first second : List Bool) :
    feed poly register (first ++ second) = feed poly (feed poly register first) second :=
  List.foldl_append

/-- Entering a bit is linear. -/
theorem enter_xor (left right : BitVec width) (bit other : Bool) :
    enter poly (left ^^^ right) (bit ^^ other) = enter poly left bit ^^^ enter poly right other := by
  have sums : ∀ first second : Bool,
      (if first ^^ second then poly else 0#(width)) =
        (if first then poly else 0#(width)) ^^^ (if second then poly else 0#(width)) := by
    intro first second
    cases first <;> cases second <;> simp
  have leaving : ((left ^^^ right).msb ^^ (bit ^^ other)) = ((left.msb ^^ bit) ^^ (right.msb ^^ other)) := by
    rw [BitVec.msb_xor]
    cases left.msb <;> cases right.msb <;> cases bit <;> cases other <;> rfl
  rw [enter, enter, enter, leaving, sums, BitVec.shiftLeft_xor_distrib]
  ac_rfl

/-- Registers and streams of the same length are added up before or after. -/
theorem feed_xor (left right : BitVec width) (count value other : Nat) :
    feed poly (left ^^^ right) (digits count (value ^^^ other)) =
      feed poly left (digits count value) ^^^ feed poly right (digits count other) := by
  induction count generalizing left right with
  | zero => rfl
  | succ count inductionHypothesis =>
    simp only [digits, feed, List.foldl_cons, Nat.testBit_xor]
    rw [enter_xor]
    exact inductionHypothesis _ _

/-- A bit that is the same as the one that leaves the register only moves it. -/
theorem enter_own (register : BitVec width) : enter poly register register.msb = register <<< 1 := by
  rw [enter, Bool.xor_self, if_neg Bool.false_ne_true, BitVec.xor_zero]

/-- The highest bits of a register, entered into it, move it by their number. -/
theorem feed_own (register : BitVec width) (count : Nat) (inside : count ≤ width) :
    feed poly register (digits count (register.toNat >>> (width - count))) = register <<< count := by
  induction count generalizing register with
  | zero => simp [digits, feed]
  | succ count inductionHypothesis =>
    have leaving : (register.toNat >>> (width - (count + 1))).testBit count = register.msb := by
      rw [Nat.testBit_shiftRight, BitVec.msb_eq_getLsbD_last, BitVec.testBit_toNat]
      congr 1
      omega
    have others : digits count (register.toNat >>> (width - (count + 1))) =
        digits count ((register <<< 1).toNat >>> (width - count)) := by
      apply digits_agree
      intro index below
      have moved : width - count + index - 1 = width - (count + 1) + index := by omega
      have place : width - count + index < width := by omega
      rw [Nat.testBit_shiftRight, Nat.testBit_shiftRight, BitVec.testBit_toNat, BitVec.testBit_toNat,
        BitVec.getLsbD_shiftLeft, moved]
      have above : ¬ width - count + index < 1 := by omega
      simp only [place, above, decide_true, decide_false, Bool.not_false, Bool.true_and]
    rw [digits, leaving, feed, List.foldl_cons, enter_own, others]
    change feed poly (register <<< 1) _ = _
    rw [inductionHypothesis (register <<< 1) (by omega), ← BitVec.shiftLeft_add, Nat.add_comm]

/-- A register is empty when all its bits were entered into it. -/
theorem feed_whole (register : BitVec width) : feed poly register (digits width register.toNat) = 0#(width) := by
  have whole := feed_own poly register width (Nat.le_refl width)
  rw [Nat.sub_self, Nat.shiftRight_zero] at whole
  rw [whole, BitVec.shiftLeft_eq_zero (Nat.le_refl width)]

/-- Several bits at once: the register moves, and what its highest bits and the new ones
would make of an empty register is added. -/
theorem feed_at_once (register : BitVec width) (count value : Nat) (inside : count ≤ width) :
    feed poly register (digits count value) =
      register <<< count ^^^
        feed poly 0#(width) (digits count (register.toNat >>> (width - count) ^^^ value)) := by
  have parts := feed_xor poly register 0#(width) count (register.toNat >>> (width - count))
    (register.toNat >>> (width - count) ^^^ value)
  rw [← Nat.xor_assoc, Nat.xor_self, Nat.zero_xor, BitVec.xor_zero, feed_own poly register count inside]
    at parts
  exact parts

/-- What the strings of `count` bits make of an empty register, in the order of their
numbers. -/
def table : Nat → List (BitVec width)
  | 0 => [0#(width)]
  | count + 1 => (table count).flatMap fun entry => [enter poly entry false, enter poly entry true]

/-- A table has an entry for each index. -/
theorem table_length (count : Nat) : (table poly count).length = 2 ^ count := by
  induction count with
  | zero => rfl
  | succ count inductionHypothesis =>
    rw [table, List.length_flatMap, Nat.pow_succ, ← inductionHypothesis]
    simp only [List.length_cons, List.length_nil, List.map_const', List.sum_replicate_nat]

/-- Each entry of a list is followed by its successors for both bits. -/
theorem successors_get (entries : List (BitVec width)) (index : Nat) (inside : index / 2 < entries.length) :
    (entries.flatMap fun entry => [enter poly entry false, enter poly entry true]).getD index 0#(width) =
      enter poly (entries.getD (index / 2) 0#(width)) (index.testBit 0) := by
  induction entries generalizing index with
  | nil => exact absurd inside (Nat.not_lt_zero _)
  | cons entry rest inductionHypothesis =>
    match index with
    | 0 => rfl
    | 1 => rfl
    | index + 2 =>
      have half : (index + 2) / 2 = index / 2 + 1 := by omega
      have bit : (index + 2).testBit 0 = index.testBit 0 := by
        rw [Nat.testBit_zero, Nat.testBit_zero, Nat.add_mod_right]
      rw [half, List.length_cons] at inside
      rw [half, bit, List.getD_cons_succ, ← inductionHypothesis index (by omega)]
      rfl

/-- An entry is the register after its index was fed. -/
theorem table_entry (count index : Nat) (inside : index < 2 ^ count) :
    (table poly count).getD index 0#(width) = feed poly 0#(width) (digits count index) := by
  induction count generalizing index with
  | zero =>
    obtain rfl : index = 0 := by omega
    rfl
  | succ count inductionHypothesis =>
    have half : index / 2 < 2 ^ count := by omega
    have bits : digits (count + 1) index = digits count (index / 2) ++ [index.testBit 0] :=
      digits_append count 1 index
    rw [table, successors_get poly _ index (by rw [table_length]; exact half),
      inductionHypothesis (index / 2) half, bits, feed_append]
    rfl

end ShiftRegister
