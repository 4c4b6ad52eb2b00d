import IotCamera.Ts.BitPosition

/-!
# Exp-Golomb codes

`bs_read_ue` counts zero bits, up to 32 of them, and then reads as many bits as it has
counted. It stops counting at a one, and also at the last bit of the buffer. A complete
code of a number below 2^31 - 1 is decoded wherever it stands.
-/

namespace IotCamera.ExpGolomb

open Memory Buffers Mybs BitStrings BitPosition

/-- The zeros that are counted: those before a one, but not the last bit of all and not
more than allowed. -/
def zeros : Nat → List Bool → Nat
  | budget + 1, false :: bit :: rest => zeros budget (bit :: rest) + 1
  | _, _ => 0

/-- No more zeros are counted than are allowed. -/
theorem zeros_le (budget : Nat) (stream : List Bool) : zeros budget stream ≤ budget := by
  fun_induction zeros budget stream with
  | case1 budget bit rest inductionHypothesis => omega
  | case2 => exact Nat.zero_le _

section Counting
variable (s : Bs) (ready : Ready s)

include ready

/-- A reader is before the end exactly when something is in front of it. -/
theorem before_end_iff : (s.p : Int) < s.pEnd ↔ front s ≠ [] := by
  constructor
  · intro before
    rw [front_byte s ready before]
    have some := ready.some
    obtain ⟨fewer, several⟩ : ∃ fewer, s.iLeft.toNat = fewer + 1 := ⟨s.iLeft.toNat - 1, by omega⟩
    rw [several, digits]
    exact List.cons_ne_nil _ _
  · intro bits
    by_contra ended
    exact bits (front_empty s (by omega))

/-- Reading a bit gives the first bit in front and advances by it. -/
theorem bs_read1_front (bit : Bool) (stream : List Bool) (ahead : front s = bit :: stream) :
    bsRead1 s = (BitVec.ofNat 32 bit.toNat, advance s 1) := by
  have read := bs_read_next s ready 1
  have one : next s 1 = [bit] := by rw [next_front s 1 (by rw [ahead]; simp), ahead]; rfl
  have inside : 1 ≤ (front s).length := by rw [ahead]; simp
  rw [one, Nat.min_eq_left inside] at read
  rw [bs_read1_read s ready]
  exact read.trans (by simp [number])

/-- Behind the first bit the rest is in front. -/
theorem advance_one (bit : Bool) (stream : List Bool) (ahead : front s = bit :: stream) :
    front (advance s 1) = stream ∧ (((advance s 1).p : Int) < (advance s 1).pEnd ↔ stream ≠ []) := by
  have behind : front (advance s 1) = stream := by
    rw [front_advance s ready 1 (by rw [ahead]; simp), ahead]
    rfl
  exact ⟨behind, by rw [before_end_iff _ (advance_ready s 1), behind]⟩

/-- A zero with a bit behind it is counted. -/
theorem bs_read_ue_loop_counts (budget i : Nat) (bit : Bool) (rest : List Bool)
    (ahead : front s = false :: bit :: rest) :
    bsReadUeLoop (budget + 1) s i = bsReadUeLoop budget (advance s 1) (i + 1) := by
  have before := (advance_one s ready false (bit :: rest) ahead).2.mpr (List.cons_ne_nil _ _)
  rw [bsReadUeLoop, bs_read1_front s ready false (bit :: rest) ahead]
  simp only [before, Bool.toNat_false, and_true]
  exact if_pos rfl

/-- Anything else ends the loop: a one, the last bit, no bit at all, or the bound. -/
theorem bs_read_ue_loop_stops (budget i : Nat)
    (stops : ∀ bit rest, front s = false :: bit :: rest → budget = 0) :
    bsReadUeLoop budget s i = (i, advance s (min 1 (front s).length)) := by
  cases ahead : front s with
  | nil =>
    have ended : ¬ (s.p : Int) < s.pEnd := fun before => (before_end_iff s ready).mp before ahead
    rw [bsReadUeLoop, bsRead1, if_neg ended]
    simp only [ended, and_false, ↓reduceIte, List.length_nil, Nat.min_zero, advance_zero s ready]
  | cons bit stream =>
    rw [bsReadUeLoop, bs_read1_front s ready bit stream ahead]
    simp only [(advance_one s ready bit stream ahead).2, List.length_cons]
    rw [Nat.min_eq_left (Nat.le_add_left 1 stream.length)]
    cases bit with
    | true => rfl
    | false =>
      cases stream with
      | nil => rfl
      | cons other rest =>
        obtain rfl := stops other rest ahead
        rfl

end Counting

/-- The loop takes the zeros that it counts and the bit behind them. -/
theorem bs_read_ue_loop_zeros (s : Bs) (ready : Ready s) (budget i : Nat) :
    bsReadUeLoop budget s i =
      (i + zeros budget (front s), advance s (min (zeros budget (front s) + 1) (front s).length)) := by
  induction budget generalizing s i with
  | zero =>
    have none : zeros 0 (front s) = 0 := by simp [zeros]
    rw [bs_read_ue_loop_stops s ready 0 i (fun _ _ _ => rfl), none]
    rfl
  | succ budget inductionHypothesis =>
    by_cases counted : ∃ bit rest, front s = false :: bit :: rest
    · obtain ⟨bit, rest, ahead⟩ := counted
      obtain ⟨behind, -⟩ := advance_one s ready false (bit :: rest) ahead
      rw [bs_read_ue_loop_counts s ready budget i bit rest ahead,
        inductionHypothesis (advance s 1) (advance_ready s 1) (i + 1), behind, advance_add, ahead, zeros]
      have taken : 1 + min (zeros budget (bit :: rest) + 1) (bit :: rest).length =
          min (zeros budget (bit :: rest) + 1 + 1) (false :: bit :: rest).length := by
        simp only [List.length_cons]
        omega
      rw [taken, Nat.add_right_comm, Nat.add_assoc]
    · have none : zeros (budget + 1) (front s) = 0 := by
        rw [zeros]
        intro left bit rest _ ahead
        exact counted ⟨bit, rest, ahead⟩
      rw [bs_read_ue_loop_stops s ready _ i fun bit rest ahead => absurd ⟨bit, rest, ahead⟩ counted, none]
      rfl

/-- The zeros before a one are all counted. -/
theorem zeros_code (budget count : Nat) (enough : count ≤ budget) (stream : List Bool) :
    zeros budget (List.replicate count false ++ true :: stream) = count := by
  induction count generalizing budget with
  | zero => simp [zeros]
  | succ count inductionHypothesis =>
    obtain ⟨fewer, rfl⟩ : ∃ fewer, budget = fewer + 1 := ⟨budget - 1, by omega⟩
    have rest := inductionHypothesis fewer (by omega)
    cases count with
    | zero => exact congrArg (· + 1) rest
    | succ count => exact congrArg (· + 1) rest

/-- The value of a code, for a shifted one below the sign of an `int`. -/
theorem code_value (value : Nat) (small : value + 1 < 2 ^ 31) :
    (1#32 <<< exponent value) - 1 + BitVec.ofNat 32 ((value + 1) % 2 ^ exponent value) =
      BitVec.ofNat 32 value := by
  have few : exponent value ≤ 30 := exponent_le value 30 small
  have bound : 2 ^ exponent value ≤ 2 ^ 30 := Nat.pow_le_pow_right (by decide) few
  have power : (1#32 <<< exponent value).toNat = 2 ^ exponent value := by
    rw [BitVec.toNat_shiftLeft, BitVec.toNat_ofNat, Nat.shiftLeft_eq]
    omega
  have sum := exp_golomb_value value
  have positive : 0 < 2 ^ exponent value := Nat.two_pow_pos _
  apply BitVec.eq_of_toNat_eq
  rw [BitVec.toNat_add, BitVec.toNat_sub, BitVec.toNat_ofNat, BitVec.toNat_ofNat, power,
    show (1 : Word).toNat = 1 from rfl]
  omega

/-- A complete code is decoded where it stands. -/
theorem bs_read_ue_code (s : Bs) (ready : Ready s) (value : Nat) (small : value + 1 < 2 ^ 31)
    (stream : List Bool) (ahead : front s = expGolomb value ++ stream) :
    bsReadUe s = (BitVec.ofNat 32 value, advance s (2 * exponent value + 1)) := by
  have few : exponent value ≤ 30 := exponent_le value 30 small
  rw [exp_golomb_shape, List.append_assoc, List.cons_append] at ahead
  have length : (front s).length = 2 * exponent value + 1 + stream.length := by
    rw [ahead]
    simp
    omega
  have counted : zeros 32 (front s) = exponent value := by
    rw [ahead]
    exact zeros_code 32 _ (by omega) _
  have loop := bs_read_ue_loop_zeros s ready 32 0
  rw [counted, Nat.zero_add, Nat.min_eq_left (by omega)] at loop
  have behind : front (advance s (exponent value + 1)) = digits (exponent value) (value + 1) ++ stream := by
    rw [front_advance s ready _ (by omega), ahead, ← List.singleton_append, ← List.append_assoc]
    exact List.drop_left' (by simp)
  have rest := bs_read_next (advance s (exponent value + 1)) (advance_ready s _) (exponent value)
  rw [next_front _ _ (by rw [behind]; simp), behind, List.take_left' (digits_length _ _), number_digits,
    List.length_append, digits_length, Nat.min_eq_left (Nat.le_add_right _ _), advance_add] at rest
  simp only [bsReadUe, loop, rest, code_value value small]
  rw [show exponent value + 1 + exponent value = 2 * exponent value + 1 by omega]

/-- The reader at a bit of a buffer. -/
def readerAt (data : List Byte) (position : Nat) : Bs :=
  ⟨fun index => data.getD index 0, position / 8, data.length, 8 - (position % 8 : Nat)⟩

/-- A code of a number below 2^31 - 1, stored anywhere in a buffer with any bits before and
behind it, is decoded to the number, and the reader stands behind it. -/
theorem code_decoded_anywhere (data : List Byte) (before after : List Bool) (value : Nat)
    (stored : bits data = before ++ expGolomb value ++ after) (small : value < 2 ^ 31 - 1) :
    bsReadUe (readerAt data before.length) =
      (BitVec.ofNat 32 value, readerAt data (before.length + (2 * Nat.log2 (value + 1) + 1))) := by
  have start : ∀ position, readerAt data position =
      advance (bsInit (fun index => data.getD index 0) data.length) position := by
    intro position
    simp only [readerAt, advance, bsInit, offset]
    rw [show ((8 : Int) - 8).toNat = 0 from rfl, Nat.zero_add, Nat.zero_add]
  have ready := ready_whole (fun index => data.getD index 0) 0 data.length
  have whole : front (bsInit (fun index => data.getD index 0) data.length) = bits data := by
    have bytes := slice_getD data 0 0 data.length (by omega)
    rw [List.drop_zero, List.take_length] at bytes
    simp only [front, bsInit, offset, remaining]
    exact congrArg bits bytes
  rw [start, start, ← advance_add]
  apply bs_read_ue_code _ (advance_ready _ _) value (by omega) after
  rw [front_advance (bsInit _ _) ready _ (by rw [whole, stored]; simp), whole, stored, List.append_assoc,
    List.drop_left]

/-- The code of 4 in the last five bits of a buffer. -/
theorem code_decoded_at_the_end :
    bits [0xE5] = [true, true, true] ++ expGolomb 4 ++ [] ∧
      bsReadUe (readerAt [0xE5] 3) = (4, readerAt [0xE5] 8) :=
  ⟨by decide, code_decoded_anywhere [0xE5] [true, true, true] [] 4 (by decide) (by decide)⟩

end IotCamera.ExpGolomb
