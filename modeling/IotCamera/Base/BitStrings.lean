import Mathlib.Data.Nat.Bitwise

/-!
# Bits in order

Numbers and bytes as lists of bits, most significant first, and the unsigned
Exp-Golomb code: as many zeros as the successor has digits behind its leading
one, then the successor itself.
-/

namespace BitStrings

/-- The low `width` bits of a number. -/
def digits : Nat → Nat → List Bool
  | 0, _ => []
  | width + 1, value => value.testBit width :: digits width value

/-- The bits of consecutive bytes. -/
def bits (bytes : List (BitVec 8)) : List Bool := bytes.flatMap fun byte => digits 8 byte.toNat

/-- The number that bits stand for. -/
def number : List Bool → Nat
  | [] => 0
  | bit :: rest => bit.toNat * 2 ^ rest.length + number rest

/-- The digits behind the leading one of a number's successor. -/
def exponent (value : Nat) : Nat := (value + 1).log2

/-- The code of a number. -/
def expGolomb (value : Nat) : List Bool :=
  List.replicate (exponent value) false ++ digits (exponent value + 1) (value + 1)

/-- A number has as many digits as the width asks for. -/
@[simp] theorem digits_length (width value : Nat) : (digits width value).length = width := by
  induction width with
  | zero => rfl
  | succ width inductionHypothesis => rw [digits, List.length_cons, inductionHypothesis]

/-- The upper digits are those of the shifted number. -/
theorem digits_append (high low value : Nat) :
    digits (high + low) value = digits high (value >>> low) ++ digits low value := by
  induction high with
  | zero => simp [digits]
  | succ high inductionHypothesis =>
    rw [Nat.add_right_comm, digits, inductionHypothesis, digits, Nat.testBit_shiftRight,
      Nat.add_comm low high, List.cons_append]

/-- Digits determine the number below their width. -/
theorem digits_injective (width first second : Nat) (same : digits width first = digits width second) :
    first % 2 ^ width = second % 2 ^ width := by
  have agree : ∀ index < width, first.testBit index = second.testBit index := by
    induction width with
    | zero => intro index none; omega
    | succ width inductionHypothesis =>
      obtain ⟨top, rest⟩ := List.cons.inj same
      intro index inside
      by_cases last : index = width
      · rw [last, top]
      · exact inductionHypothesis rest index (by omega)
  apply Nat.eq_of_testBit_eq
  intro index
  rw [Nat.testBit_mod_two_pow, Nat.testBit_mod_two_pow]
  by_cases inside : index < width
  · rw [agree index inside]
  · simp [inside]

/-- Numbers whose bits agree below the width have the same digits. -/
theorem digits_agree (width first second : Nat)
    (agree : ∀ index < width, first.testBit index = second.testBit index) :
    digits width first = digits width second := by
  induction width with
  | zero => rfl
  | succ width inductionHypothesis =>
    rw [digits, digits, agree width (by omega),
      inductionHypothesis fun index inside => agree index (by omega)]

/-- The digits of a width depend only on the number modulo its power. -/
theorem digits_congr (width first second : Nat) (same : first % 2 ^ width = second % 2 ^ width) :
    digits width first = digits width second := by
  apply digits_agree
  intro index inside
  have bit := congrArg (Nat.testBit · index) same
  simpa [Nat.testBit_mod_two_pow, inside] using bit

/-- The lower digits are those of the same number. -/
theorem digits_drop (high low value : Nat) : (digits (high + low) value).drop high = digits low value := by
  rw [digits_append, List.drop_left' (digits_length _ _)]

/-- The highest digits are those of the number shifted down. -/
theorem digits_take (high low value : Nat) :
    (digits (high + low) value).take high = digits high (value >>> low) := by
  rw [digits_append, List.take_left' (digits_length _ _)]

/-- A number is below the power of its digits. -/
theorem number_lt (stream : List Bool) : number stream < 2 ^ stream.length := by
  induction stream with
  | nil => decide
  | cons bit rest inductionHypothesis =>
    cases bit <;> simp only [number, List.length_cons, Nat.pow_succ, Bool.toNat_true, Bool.toNat_false] <;>
      omega

/-- The upper digits count for as many places as there are lower ones. -/
theorem number_append (upper lower : List Bool) :
    number (upper ++ lower) = number upper * 2 ^ lower.length + number lower := by
  induction upper with
  | nil => simp [number]
  | cons bit rest inductionHypothesis =>
    rw [List.cons_append, number, number, inductionHypothesis, List.length_append, Nat.pow_add,
      Nat.add_mul, Nat.mul_assoc, Nat.add_assoc]

/-- Zeros are the number zero. -/
theorem number_zeros (count : Nat) : number (List.replicate count false) = 0 := by
  induction count with
  | zero => rfl
  | succ count inductionHypothesis => simp [List.replicate_succ, number, inductionHypothesis]

/-- The digits of a number stand for it, up to their width. -/
theorem number_digits (width value : Nat) : number (digits width value) = value % 2 ^ width := by
  induction width with
  | zero => simp [digits, number, Nat.mod_one]
  | succ width inductionHypothesis =>
    rw [digits, number, digits_length, inductionHypothesis, Nat.toNat_testBit, Nat.mod_pow_succ,
      Nat.add_comm, Nat.mul_comm]

/-- Bits are the digits of their number. -/
theorem digits_number (stream : List Bool) : digits stream.length (number stream) = stream := by
  induction stream with
  | nil => rfl
  | cons bit rest inductionHypothesis =>
    have small := number_lt rest
    have top : (bit.toNat * 2 ^ rest.length + number rest).testBit rest.length = bit := by
      rw [Nat.testBit_eq_decide_div_mod_eq, Nat.add_comm, Nat.add_mul_div_right _ _ (Nat.two_pow_pos _),
        Nat.div_eq_of_lt small]
      cases bit <;> rfl
    have lower : digits rest.length (bit.toNat * 2 ^ rest.length + number rest) =
        digits rest.length (number rest) := by
      apply digits_congr
      rw [Nat.add_comm, Nat.add_mul_mod_self_right]
    rw [List.length_cons, digits, number, top, lower, inductionHypothesis]

/-- Adjacent digits are those of one number. -/
theorem digits_join (high low upper lower : Nat) (fits : lower < 2 ^ low) :
    digits high upper ++ digits low lower = digits (high + low) (upper * 2 ^ low + lower) := by
  have above : (upper * 2 ^ low + lower) >>> low = upper := by
    rw [Nat.shiftRight_eq_div_pow, Nat.mul_comm, Nat.mul_add_div (Nat.two_pow_pos low),
      Nat.div_eq_of_lt fits, Nat.add_zero]
  have below : digits low (upper * 2 ^ low + lower) = digits low lower := by
    apply digits_congr
    rw [Nat.mul_comm, Nat.mul_add_mod]
  rw [digits_append, above, below]

/-- A mask of `width` ones above `places` zeros and a shift by these select digits. -/
theorem masked_field (value width places : Nat) :
    (value &&& ((2 ^ width - 1) <<< places)) / 2 ^ places = value / 2 ^ places % 2 ^ width := by
  rw [← Nat.shiftRight_eq_div_pow, Nat.shiftRight_and_distrib, Nat.shiftLeft_shiftRight,
    Nat.and_two_pow_sub_one_eq_mod, Nat.shiftRight_eq_div_pow]

/-- The bits of bytes begin with those of the first. -/
@[simp] theorem bits_cons (byte : BitVec 8) (rest : List (BitVec 8)) :
    bits (byte :: rest) = digits 8 byte.toNat ++ bits rest := rfl

/-- The bits of bytes in two parts are those of both. -/
theorem bits_append (first second : List (BitVec 8)) : bits (first ++ second) = bits first ++ bits second :=
  List.flatMap_append

/-- Each byte has eight bits. -/
@[simp] theorem bits_length (bytes : List (BitVec 8)) : (bits bytes).length = 8 * bytes.length := by
  induction bytes with
  | nil => rfl
  | cons byte rest inductionHypothesis =>
    rw [bits_cons, List.length_append, digits_length, inductionHypothesis, List.length_cons]
    omega

/-- The successor starts with a one. -/
theorem exp_golomb_shape (value : Nat) :
    expGolomb value =
      List.replicate (exponent value) false ++ true :: digits (exponent value) (value + 1) := by
  have leading : (value + 1).testBit (exponent value) = true := by
    exact Nat.testBit_log2 (by omega)
  rw [expGolomb, digits, leading]

/-- The code of a number, taken apart into its length and the digits behind the one. -/
theorem exp_golomb_parts (count rest : Nat) (small : rest < 2 ^ count) :
    expGolomb (2 ^ count - 1 + rest) = List.replicate count false ++ true :: digits count rest := by
  have positive : 0 < 2 ^ count := Nat.two_pow_pos count
  have successor : 2 ^ count - 1 + rest + 1 = 2 ^ count + rest := by omega
  have length : exponent (2 ^ count - 1 + rest) = count := by
    rw [exponent, successor, Nat.log2_eq_iff (by omega), Nat.pow_succ]
    omega
  have lower : digits count (2 ^ count + rest) = digits count rest := by
    apply digits_congr
    rw [Nat.add_mod_left]
  rw [exp_golomb_shape, length, successor, lower]

/-- The code has as many digits behind the one as zeros before it. -/
theorem exp_golomb_length (value : Nat) : (expGolomb value).length = 2 * exponent value + 1 := by
  rw [expGolomb, List.length_append, List.length_replicate, digits_length]
  omega

/-- The number is rebuilt from the zeros and the digits behind the one. -/
theorem exp_golomb_value (value : Nat) :
    2 ^ exponent value - 1 + (value + 1) % 2 ^ exponent value = value := by
  have lower : 2 ^ exponent value ≤ value + 1 := Nat.log2_self_le (by omega)
  have upper : value + 1 < 2 * 2 ^ exponent value := by
    rw [← Nat.pow_succ']
    exact Nat.lt_log2_self
  have rest : (value + 1) % 2 ^ exponent value = value + 1 - 2 ^ exponent value := by
    rw [Nat.mod_eq_sub_mod lower, Nat.mod_eq_of_lt (by omega)]
  have positive : 0 < 2 ^ exponent value := Nat.two_pow_pos _
  omega

/-- The exponent of a small value is small. -/
theorem exponent_le (value bound : Nat) (small : value + 1 < 2 ^ (bound + 1)) :
    exponent value ≤ bound := by
  have below : exponent value < bound + 1 := (Nat.log2_lt (by omega)).mpr small
  omega

end BitStrings
