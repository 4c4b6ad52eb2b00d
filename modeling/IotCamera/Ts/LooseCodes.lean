import IotCamera.Ts.ExpGolomb

/-!
# Codes that need not be there

`bs_read_ue` reads a number from any bits. Zeros are read behind the end of the buffer, so
a code that the end cuts off is completed by them, and a last run of zeros is taken for
the zeros of a code. Here it is said which bits are read as a number of at most nine, which
is what the slice types are.

Thirty-two zeros make the shift one of 32 places, which C leaves undefined; what is read
then is that of the arm target, where the shifted one is gone.
-/

namespace IotCamera.LooseCodes

open Memory Mybs BitStrings BitPosition ExpGolomb

/-- The bits behind the one of a code, with zeros behind the end. -/
def suffix (count : Nat) (stream : List Bool) : List Bool :=
  (stream.drop (count + 1) ++ List.replicate count false).take count

/-- The bits that are read as a number of at most nine: the code of one, which zeros behind
the end may complete; the last bits of the buffer, if these are up to four zeros; and 32
zeros, a bit, and the 32 digits of a number from one to ten, where the code is undefined. -/
def ReadsSmall (stream : List Bool) : Prop :=
  (∃ value ≤ 9, expGolomb value <+: stream ++ List.replicate 3 false) ∨
    (∃ count ≤ 4, stream = List.replicate count false) ∨
    (∃ rest, stream = List.replicate 32 false ++ rest ∧ rest ≠ [] ∧
      1 ≤ number (suffix 32 stream) ∧ number (suffix 32 stream) ≤ 10)

/-- Behind the zeros that are counted stands a one, or the last bit, or nothing, or they
are as many as may be counted. -/
theorem zeros_shape (budget : Nat) (stream : List Bool) :
    (∃ rest, stream = List.replicate (zeros budget stream) false ++ true :: rest) ∨
      (∃ count ≤ zeros budget stream + 1, stream = List.replicate count false ∧
        zeros budget stream = count - 1) ∨
      zeros budget stream = budget ∧ ∃ rest, stream = List.replicate budget false ++ false :: rest := by
  fun_induction zeros budget stream with
  | case1 budget bit rest inductionHypothesis =>
    obtain ⟨more, shape⟩ | ⟨count, few, all, counted⟩ | ⟨most, more, shape⟩ := inductionHypothesis
    · exact Or.inl ⟨more, by rw [List.replicate_succ, List.cons_append, ← shape]⟩
    · refine Or.inr (Or.inl ⟨count + 1, by omega, by rw [List.replicate_succ, ← all], ?_⟩)
      have some : count ≠ 0 := by
        rintro rfl
        cases all
      omega
    · exact Or.inr (Or.inr ⟨by omega, more, by rw [List.replicate_succ, List.cons_append, ← shape]⟩)
  | case2 budget stream stops =>
    rcases stream with _ | ⟨_ | _, rest⟩
    · exact Or.inr (Or.inl ⟨0, by omega, rfl, rfl⟩)
    · rcases rest with _ | ⟨bit, rest⟩
      · exact Or.inr (Or.inl ⟨1, by omega, rfl, rfl⟩)
      cases budget with
      | zero => exact Or.inr (Or.inr ⟨rfl, bit :: rest, rfl⟩)
      | succ budget => exact absurd rfl (stops budget bit rest rfl)
    · exact Or.inl ⟨rest, rfl⟩

/-- Whatever stands in front of it, the reader counts zeros, reads as many bits behind the
next one, and moves on. -/
theorem bs_read_ue_any (s : Bs) (ready : Ready s) :
    bsReadUe s =
      ((1#32 <<< zeros 32 (front s)) - 1 +
          BitVec.ofNat 32 (number (suffix (zeros 32 (front s)) (front s))),
        advance s (min (2 * zeros 32 (front s) + 1) (front s).length)) := by
  have counted := bs_read_ue_loop_zeros s ready 32 0
  rw [Nat.zero_add] at counted
  generalize zeros 32 (front s) = count at counted ⊢
  have behind : front (advance s (min (count + 1) (front s).length)) = (front s).drop (count + 1) := by
    rw [front_advance s ready _ (Nat.min_le_right _ _)]
    rcases Nat.le_total (count + 1) (front s).length with inside | outside
    · rw [Nat.min_eq_left inside]
    · rw [Nat.min_eq_right outside, List.drop_length, List.drop_of_length_le outside]
  have rest := bs_read_next (advance s (min (count + 1) (front s).length)) (advance_ready s _) count
  have taken : min (count + 1) (front s).length + min count ((front s).drop (count + 1)).length =
      min (2 * count + 1) (front s).length := by
    rw [List.length_drop]
    omega
  rw [next, behind, advance_add, taken] at rest
  simp only [bsReadUe, counted, rest, suffix]

/-- A suffix has as many bits as it counts. -/
theorem suffix_length (count : Nat) (stream : List Bool) : (suffix count stream).length = count := by
  rw [suffix, List.length_take, List.length_append, List.length_replicate]
  omega

/-- Zeros before a one are as many on both sides. -/
theorem same_zeros (first second : Nat) (left right : List Bool) (few : first ≤ 32) (less : second ≤ 32)
    (same : List.replicate first false ++ true :: left = List.replicate second false ++ true :: right) :
    first = second ∧ left = right := by
  have counts : first = second := by
    rw [← zeros_code 32 first few left, same, zeros_code 32 second less right]
  subst counts
  exact ⟨rfl, (List.cons.inj (List.append_cancel_left same)).2⟩

section Small
variable (count : Nat) (rest : List Bool)

/-- The suffix of a code is read with zeros behind the end. -/
theorem suffix_code : suffix count (List.replicate count false ++ true :: rest) =
    (rest ++ List.replicate count false).take count := by
  have behind : (List.replicate count false ++ true :: rest).drop (count + 1) = rest := by
    rw [List.drop_append, List.length_replicate, List.drop_of_length_le (by simp)]
    simp
  rw [suffix, behind]

/-- Up to three zeros may be missing of a code. -/
theorem suffix_completed (few : count ≤ 3) : (rest ++ List.replicate count false).take count =
    (rest ++ List.replicate 3 false).take count := by
  obtain ⟨more, three⟩ := Nat.exists_eq_add_of_le few
  rw [three, List.replicate_add, ← List.append_assoc]
  exact (List.take_append_of_le_length (by simp)).symm

/-- A run of zeros and a one are read as a small number exactly if they begin the code of
one, completed by zeros. -/
theorem code_small_iff (count32 : count ≤ 32) :
    2 ^ count - 1 + number (suffix count (List.replicate count false ++ true :: rest)) ≤ 9 ↔
      ∃ value ≤ 9, expGolomb value <+:
        List.replicate count false ++ true :: rest ++ List.replicate 3 false := by
  have bound := number_lt (suffix count (List.replicate count false ++ true :: rest))
  rw [suffix_length] at bound
  constructor
  · intro small
    have few : count ≤ 3 := by
      by_contra many
      have power : 2 ^ 4 ≤ 2 ^ count := Nat.pow_le_pow_right (by decide) (by omega)
      omega
    refine ⟨_, small, ?_⟩
    have read := digits_number (suffix count (List.replicate count false ++ true :: rest))
    rw [suffix_length] at read
    rw [exp_golomb_parts count _ bound, read, suffix_code, suffix_completed count rest few,
      List.append_assoc, List.prefix_append_right_inj, List.cons_append, List.cons_prefix_cons]
    exact ⟨rfl, List.take_prefix _ _⟩
  · rintro ⟨value, small, more, code⟩
    have few : exponent value ≤ 3 := exponent_le value 3 (by omega)
    rw [exp_golomb_shape, List.append_assoc, List.append_assoc, List.cons_append, List.cons_append] at code
    obtain ⟨same, behind⟩ := same_zeros _ _ _ _ (by omega) count32 code
    have lower : suffix count (List.replicate count false ++ true :: rest) = digits count (value + 1) := by
      rw [suffix_code, suffix_completed count rest (same ▸ few), ← behind, same]
      exact List.take_left' (digits_length _ _)
    have sum := exp_golomb_value value
    rw [same] at sum
    rw [lower, number_digits, sum]
    exact small

end Small

/-- The value that is read, for up to 31 zeros. -/
theorem value_few (count rest : Nat) (few : count ≤ 31) (small : rest < 2 ^ count) :
    ((1#32 <<< count) - 1 + BitVec.ofNat 32 rest).toNat = 2 ^ count - 1 + rest := by
  have power : 2 ^ count ≤ 2 ^ 31 := Nat.pow_le_pow_right (by decide) few
  have positive : 0 < 2 ^ count := Nat.two_pow_pos count
  have one : (1#32 <<< count).toNat = 2 ^ count := by
    rw [BitVec.toNat_shiftLeft, BitVec.toNat_ofNat, Nat.shiftLeft_eq]
    omega
  rw [BitVec.toNat_add, BitVec.toNat_sub, one, BitVec.toNat_ofNat, show (1 : Word).toNat = 1 from rfl]
  omega

/-- The value that is read for 32 zeros: the shifted one is gone. -/
theorem value_most (rest : Nat) (small : rest < 2 ^ 32) :
    ((1#32 <<< 32) - 1 + BitVec.ofNat 32 rest).toNat ≤ 9 ↔ 1 ≤ rest ∧ rest ≤ 10 := by
  rw [BitVec.toNat_add, BitVec.toNat_ofNat, show ((1#32 <<< 32) - 1).toNat = 2 ^ 32 - 1 from rfl]
  omega

/-- A code of a small number has its one among the first four bits. -/
theorem code_has_one (stream : List Bool)
    (code : ∃ value ≤ 9, expGolomb value <+: stream ++ List.replicate 3 false) :
    ∃ index ≤ 3, stream[index]? = some true := by
  obtain ⟨value, small, more, begins⟩ := code
  have few : exponent value ≤ 3 := exponent_le value 3 (by omega)
  have one : (stream ++ List.replicate 3 false)[exponent value]? = some true := by
    rw [← begins, exp_golomb_shape, List.append_assoc, List.getElem?_append_right (by simp)]
    simp
  refine ⟨exponent value, few, ?_⟩
  by_cases inside : exponent value < stream.length
  · rwa [List.getElem?_append_left inside] at one
  · rw [List.getElem?_append_right (by omega), List.getElem?_replicate] at one
    split at one <;> cases one

/-- The first bits of a run of zeros are zeros. -/
theorem zeros_front (count index : Nat) (rest : List Bool) (inside : index < count) :
    (List.replicate count false ++ rest)[index]? = some false := by
  rw [List.getElem?_append_left (by simpa using inside), List.getElem?_replicate, if_pos inside]

/-- Only zeros are left behind zeros. -/
theorem suffix_zeros (places count : Nat) : number (suffix places (List.replicate count false)) = 0 := by
  have all : suffix places (List.replicate count false) = List.replicate places false := by
    rw [List.eq_replicate_iff]
    refine ⟨suffix_length places _, fun bit member => ?_⟩
    rcases List.mem_append.mp (List.mem_of_mem_take member) with before | behind
    · exact List.eq_of_mem_replicate (List.mem_of_mem_drop before)
    · exact List.eq_of_mem_replicate behind
  rw [all, number_zeros]

/-- Only of short runs the zeros before the last one are those of a small number. -/
theorem run_small_iff (count : Nat) : 2 ^ (count - 1) - 1 + 0 ≤ 9 ↔ count ≤ 4 := by
  constructor
  · intro small
    by_contra many
    have power : 2 ^ 4 ≤ 2 ^ (count - 1) := Nat.pow_le_pow_right (by decide) (by omega)
    omega
  · intro short
    have power : 2 ^ (count - 1) ≤ 2 ^ 3 := Nat.pow_le_pow_right (by decide) (by omega)
    omega

/-- What is read of some bits is at most nine exactly for the bits named above. -/
theorem reads_small_iff (stream : List Bool) :
    ((1#32 <<< zeros 32 stream) - 1 +
        BitVec.ofNat 32 (number (suffix (zeros 32 stream) stream))).toNat ≤ 9 ↔
      ReadsSmall stream := by
  have most := zeros_le 32 stream
  have bound := number_lt (suffix (zeros 32 stream) stream)
  rw [suffix_length] at bound
  unfold ReadsSmall
  rcases zeros_shape 32 stream with ⟨rest, shape⟩ | ⟨count, -, shape, counted⟩ | ⟨counted, rest, shape⟩
  · generalize zeros 32 stream = count at most bound shape ⊢
    have one : stream[count]? = some true := by
      rw [shape, List.getElem?_append_right (by simp)]
      simp
    have mixed : ¬ ∃ count ≤ 4, stream = List.replicate count false := by
      rintro ⟨other, -, all⟩
      rw [all, List.getElem?_replicate] at one
      split at one <;> cases one
    have code := code_small_iff count rest most
    rw [← shape] at code
    rw [← code, or_iff_right mixed]
    by_cases few : count ≤ 31
    · rw [value_few count _ few bound, or_iff_left]
      rintro ⟨other, zeros, -⟩
      rw [zeros, zeros_front 32 count other (by omega)] at one
      cases one
    · obtain rfl : count = 32 := by omega
      rw [value_most _ bound, or_iff_right (by omega)]
      exact ⟨fun small => ⟨true :: rest, shape, List.cons_ne_nil _ _, small⟩,
        fun ⟨_, _, _, small⟩ => small⟩
  · have none : ∀ places, number (suffix places stream) = 0 := by
      rw [shape]
      exact fun places => suffix_zeros places count
    have uncoded : ¬ ∃ value ≤ 9, expGolomb value <+: stream ++ List.replicate 3 false := by
      intro code
      obtain ⟨index, -, one⟩ := code_has_one stream code
      rw [shape, List.getElem?_replicate] at one
      split at one <;> cases one
    have run : (∃ count ≤ 4, stream = List.replicate count false) ↔ count ≤ 4 := by
      constructor
      · rintro ⟨other, few, same⟩
        have lengths := congrArg List.length (shape.symm.trans same)
        simp only [List.length_replicate] at lengths
        omega
      · exact fun few => ⟨count, few, shape⟩
    rw [none, or_iff_right uncoded, run, counted]
    have far : ¬ ∃ rest, stream = List.replicate 32 false ++ rest ∧ rest ≠ [] ∧
        1 ≤ number (suffix 32 stream) ∧ number (suffix 32 stream) ≤ 10 := by
      rintro ⟨_, _, _, some, _⟩
      rw [none] at some
      omega
    rw [or_iff_left far]
    by_cases few : count - 1 ≤ 31
    · rw [value_few (count - 1) 0 few (Nat.two_pow_pos _)]
      exact run_small_iff count
    · have all : count - 1 = 32 := Nat.le_antisymm (counted ▸ most) (Nat.lt_of_not_le few)
      have many : ¬ count ≤ 4 := by
        clear run
        omega
      rw [all, value_most 0 (by decide)]
      exact iff_of_false (fun parts => absurd parts.1 (by decide)) many
  · have uncoded : ¬ ∃ value ≤ 9, expGolomb value <+: stream ++ List.replicate 3 false := by
      intro code
      obtain ⟨index, few, one⟩ := code_has_one stream code
      rw [shape, zeros_front 32 index _ (by omega)] at one
      cases one
    have long : ¬ ∃ count ≤ 4, stream = List.replicate count false := by
      rintro ⟨other, few, same⟩
      have lengths := congrArg List.length (shape.symm.trans same)
      simp only [List.length_append, List.length_replicate, List.length_cons] at lengths
      omega
    rw [counted] at bound ⊢
    rw [value_most _ bound, or_iff_right uncoded, or_iff_right long]
    exact ⟨fun small => ⟨false :: rest, shape, List.cons_ne_nil _ _, small⟩,
      fun ⟨_, _, _, small⟩ => small⟩

end IotCamera.LooseCodes
