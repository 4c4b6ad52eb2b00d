import IotCamera.Base.BitStrings
import IotCamera.Base.Buffers
import IotCamera.Ts.Mybs

/-!
# Where a bit reader stands

The bits in front of a reader are those of the bytes from its position to the end, without
the ones of the first byte that it has already read. Moving on by a number of bits is a
matter of the position alone. Reading up to 32 bits gives the number that the next bits
stand for, with zeros behind the end of the buffer, and moves on by as many of them as
there are.
-/

namespace IotCamera.BitPosition

open Memory Buffers Mybs BitStrings

/-- At least one bit of the current byte is unread, and at most all are. -/
structure Ready (s : Bs) : Prop where
  some : 1 ≤ s.iLeft
  most : s.iLeft ≤ 8

/-- A reader at the beginning of a byte is ready. -/
theorem ready_whole (pStart : Nat → Byte) (p : Nat) (pEnd : Int) : Ready ⟨pStart, p, pEnd, 8⟩ :=
  ⟨show (1 : Int) ≤ 8 by decide, Int.le_refl 8⟩

/-- The bits of the current byte that were read. -/
def offset (s : Bs) : Nat := (8 - s.iLeft).toNat

/-- The bytes from the current one to the end. -/
def remaining (s : Bs) : Nat := (s.pEnd - s.p).toNat

/-- The bits that are still to be read. -/
def front (s : Bs) : List Bool := (bits (slice s.pStart s.p (remaining s))).drop (offset s)

/-- The reader a number of bits further on. -/
def advance (s : Bs) (count : Nat) : Bs :=
  { s with
    p := s.p + (offset s + count) / 8
    iLeft := 8 - ((offset s + count) % 8 : Nat) }

section Position
variable (s : Bs) (ready : Ready s)

/-- What is in front of a reader are the whole bytes before the end without those bits that
were read. -/
theorem front_length : (front s).length = 8 * remaining s - offset s := by
  rw [front, List.length_drop, bits_length, slice_length]

/-- At the end nothing is in front. -/
theorem front_empty (ended : s.pEnd ≤ s.p) : front s = [] := by
  have none : remaining s = 0 := by
    rw [remaining]
    omega
  rw [front, none]
  exact List.drop_nil

/-- Advancing moves the place inside a byte. -/
theorem advance_offset (count : Nat) : offset (advance s count) = (offset s + count) % 8 := by
  simp only [offset, advance]
  omega

/-- An advanced reader is ready. -/
theorem advance_ready (count : Nat) : Ready (advance s count) := by
  constructor <;> simp only [advance] <;> omega

/-- Moving on twice is moving on by the sum. -/
theorem advance_add (first second : Nat) : advance (advance s first) second = advance s (first + second) := by
  have within := advance_offset s first
  simp only [advance, Bs.mk.injEq, true_and] at within ⊢
  omega

include ready

/-- Advancing by no bits changes nothing. -/
theorem advance_zero : advance s 0 = s := by
  obtain ⟨some, most⟩ := ready
  obtain ⟨pStart, p, pEnd, iLeft⟩ := s
  simp only [advance, offset, Bs.mk.injEq, true_and] at some most ⊢
  omega

/-- What is in front of a reader that has moved on. -/
theorem front_advance (count : Nat) (inside : count ≤ (front s).length) :
    front (advance s count) = (front s).drop count := by
  obtain ⟨some, most⟩ := ready
  have length := front_length s
  have skipped : (offset s + count) / 8 ≤ remaining s := by
    rw [offset] at length ⊢
    omega
  obtain ⟨rest, whole⟩ := Nat.exists_eq_add_of_le skipped
  have fewer : remaining (advance s count) = rest := by
    simp only [remaining, advance] at whole ⊢
    omega
  have bytes : (bits (slice s.pStart s.p (remaining s))).drop (8 * ((offset s + count) / 8)) =
      bits (slice s.pStart (s.p + (offset s + count) / 8) rest) := by
    rw [whole, ← slice_append, bits_append]
    exact List.drop_left' (by rw [bits_length, slice_length])
  rw [front, front, fewer, advance_offset, List.drop_drop]
  change (bits (slice s.pStart (s.p + (offset s + count) / 8) rest)).drop _ = _
  rw [← bytes, List.drop_drop, Nat.div_add_mod]

/-- What is left of the current byte comes first, and then the bytes behind it. -/
theorem front_bytes (before : (s.p : Int) < s.pEnd) :
    front s = digits s.iLeft.toNat (s.pStart s.p).toNat ++
      bits (slice s.pStart (s.p + 1) (remaining s - 1)) := by
  obtain ⟨some, most⟩ := ready
  have several : remaining s = 1 + (remaining s - 1) := by
    rw [remaining]
    omega
  have bytes : slice s.pStart s.p (remaining s) =
      s.pStart s.p :: slice s.pStart (s.p + 1) (remaining s - 1) := by
    conv_lhs => rw [several, ← slice_append]
    rfl
  have width : 8 = offset s + s.iLeft.toNat := by
    rw [offset]
    omega
  rw [front, bytes, bits_cons, List.drop_append_of_le_length (by rw [digits_length]; omega)]
  congr 1
  generalize (s.pStart s.p).toNat = value
  conv_lhs => rw [width]
  exact digits_drop _ _ _

/-- What is in front begins with the bits left of this byte. -/
theorem front_byte (before : (s.p : Int) < s.pEnd) :
    front s = digits s.iLeft.toNat (s.pStart s.p).toNat ++ front (advance s s.iLeft.toNat) := by
  have whole := front_bytes s ready before
  have behind := front_advance s ready s.iLeft.toNat (by rw [whole]; simp)
  rw [behind, whole, List.drop_left' (digits_length _ _)]

end Position

/-- Bits in front of a reader, with zeros behind the end. -/
def next (s : Bs) (count : Nat) : List Bool := (front s ++ List.replicate count false).take count

/-- As many next bits are given as are asked for. -/
theorem next_length (s : Bs) (count : Nat) : (next s count).length = count := by
  rw [next, List.length_take, List.length_append, List.length_replicate]
  omega

/-- The bits of a byte that is used up come before those behind it. -/
theorem next_byte (s : Bs) (ready : Ready s) (before : (s.p : Int) < s.pEnd) (rest : Nat) :
    next s (s.iLeft.toNat + rest) =
      digits s.iLeft.toNat (s.pStart s.p).toNat ++ next (advance s s.iLeft.toNat) rest := by
  have fewer : (front (advance s s.iLeft.toNat) ++ List.replicate (s.iLeft.toNat + rest) false).take rest =
      next (advance s s.iLeft.toNat) rest := by
    rw [next, Nat.add_comm, List.replicate_add, ← List.append_assoc]
    exact List.take_append_of_le_length (by simp)
  rw [next, front_byte s ready before, List.append_assoc, ← fewer]
  rw [List.take_append, digits_length, Nat.add_sub_cancel_left, List.take_of_length_le (by simp)]

/-- A byte that holds all that is asked for. -/
theorem next_inside (s : Bs) (ready : Ready s) (before : (s.p : Int) < s.pEnd) (count : Nat)
    (answered : count ≤ s.iLeft.toNat) :
    next s count = digits count ((s.pStart s.p).toNat >>> (s.iLeft.toNat - count)) := by
  rw [next, front_byte s ready before, List.append_assoc,
    List.take_append_of_le_length (by rw [digits_length]; exact answered)]
  obtain ⟨extra, whole⟩ := Nat.exists_eq_add_of_le answered
  rw [whole, digits_take, Nat.add_sub_cancel_left]

/-- Bits picked out of a byte by a shift and a mask. -/
theorem byte_masked (byte : Byte) (shift count : Nat) (few : count ≤ 8) :
    promote byte >>> shift &&& iMask count = BitVec.ofNat 32 (byte.toNat >>> shift % 2 ^ count) := by
  have power : 2 ^ count ≤ 2 ^ 8 := Nat.pow_le_pow_right (by decide) few
  have positive : 0 < 2 ^ count := Nat.two_pow_pos count
  have mask : (iMask count).toNat = 2 ^ count - 1 := by
    rw [iMask, Int.toNat_natCast, BitVec.toNat_ofNat, Nat.mod_eq_of_lt (by omega)]
  have below : byte.toNat >>> shift % 2 ^ count < 2 ^ 32 := by
    have bound := Nat.mod_lt (byte.toNat >>> shift) positive
    omega
  apply BitVec.eq_of_toNat_eq
  rw [BitVec.toNat_and, BitVec.toNat_ushiftRight, promote_value, mask, Nat.and_two_pow_sub_one_eq_mod,
    BitVec.toNat_ofNat, Nat.mod_eq_of_lt below]

/-- A number in a word comes together from two parts, the upper one shifted. -/
theorem parts_joined (upper lower low : Nat) (fits : lower < 2 ^ low) :
    BitVec.ofNat 32 upper <<< low ||| BitVec.ofNat 32 lower = BitVec.ofNat 32 (upper * 2 ^ low + lower) := by
  apply BitVec.eq_of_getLsbD_eq
  intro index inside
  rw [← Nat.shiftLeft_eq, Nat.shiftLeft_add_eq_or_of_lt fits]
  simp only [BitVec.getLsbD_or, BitVec.getLsbD_shiftLeft, BitVec.getLsbD_ofNat, Nat.testBit_or,
    Nat.testBit_shiftLeft, inside, decide_true, Bool.true_and]
  by_cases lower : index < low
  · simp [lower]
  · simp [lower, show index - low < 32 by omega, Nat.le_of_not_lt lower]

/-- Taking bits of the current byte moves on by them. -/
theorem settle_advance (s : Bs) (ready : Ready s) (count : Nat) (answered : count ≤ s.iLeft.toNat) :
    Bs.settle { s with iLeft := s.iLeft - count } = advance s count := by
  obtain ⟨some, most⟩ := ready
  by_cases used : s.iLeft - count = 0
  · simp only [Bs.settle, used, advance, offset, ↓reduceIte, Bs.mk.injEq, true_and]
    omega
  · simp only [Bs.settle, used, advance, offset, ↓reduceIte, Bs.mk.injEq, true_and]
    omega

/-- The reading loop collects the number of the next bits. The recursion takes one byte at
a time; what it has read stands above what is left. -/
theorem bs_read_loop_next (bytes count : Nat) (s : Bs) (ready : Ready s) (iResult : Word)
    (fuel : remaining s = bytes) :
    bsReadLoop bytes s count iResult =
      (iResult ||| BitVec.ofNat 32 (number (next s count)), advance s (min count (front s).length)) := by
  induction bytes generalizing count s iResult with
  | zero =>
    have ended : front s = [] := front_empty s (by rw [remaining] at fuel; omega)
    rw [bsReadLoop, next, ended, List.nil_append, List.take_replicate, Nat.min_self, number_zeros,
      List.length_nil, Nat.min_zero, advance_zero s ready, BitVec.or_zero]
  | succ bytes inductionHypothesis =>
    have before : (s.p : Int) < s.pEnd := by
      rw [remaining] at fuel
      omega
    have whole : (front s).length = s.iLeft.toNat + (front (advance s s.iLeft.toNat)).length := by
      rw [front_byte s ready before, List.length_append, digits_length]
    cases count with
    | zero =>
      rw [Nat.zero_min, advance_zero s ready]
      simp [bsReadLoop, next, number]
    | succ fewer =>
      generalize shape : fewer + 1 = count
      have positive : (0 : Int) < count := by omega
      have left : (s.iLeft.toNat : Int) = s.iLeft := Int.toNat_of_nonneg (by have := ready.some; omega)
      by_cases answered : count ≤ s.iLeft.toNat
      · -- the byte holds everything that is asked for
        have enough : 0 ≤ s.iLeft - count := by omega
        have shift : (s.iLeft - count).toNat = s.iLeft.toNat - count := by omega
        simp only [bsReadLoop, positive, enough, ↓reduceIte, shift, Bs.current]
        rw [byte_masked _ _ count (by have := ready.most; omega), next_inside s ready before count answered,
          number_digits, settle_advance s ready count answered, Nat.min_eq_left (by omega)]
      · -- the byte is used up and the loop goes on behind it
        obtain ⟨rest, rfl⟩ := Nat.exists_eq_add_of_le (Nat.le_of_not_le answered)
        have short : ¬ 0 ≤ s.iLeft - (s.iLeft.toNat + rest : Nat) := by omega
        have shift : (-(s.iLeft - (s.iLeft.toNat + rest : Nat))).toNat = rest := by omega
        have less : ((s.iLeft.toNat + rest : Nat) : Int) - s.iLeft = rest := by omega
        have behind : { s with p := s.p + 1, iLeft := 8 } = advance s s.iLeft.toNat := by
          rw [← settle_advance s ready s.iLeft.toNat (Nat.le_refl _), left, Int.sub_self]
          rfl
        have upper := byte_masked (s.pStart s.p) 0 s.iLeft.toNat (by have := ready.most; omega)
        rw [BitVec.ushiftRight_zero, Nat.shiftRight_zero, left, ← number_digits] at upper
        have bytesLeft : remaining (advance s s.iLeft.toNat) = bytes := by
          rw [← behind]
          simp only [remaining] at fuel ⊢
          omega
        simp only [bsReadLoop, positive, short, ↓reduceIte, shift, less, behind, Bs.current, upper]
        rw [inductionHypothesis rest _ (advance_ready s _) _ bytesLeft, BitVec.or_assoc, next_byte s ready before,
          number_append, next_length, parts_joined _ _ rest, advance_add, whole, Nat.add_min_add_left]
        have bound := number_lt (next (advance s s.iLeft.toNat) rest)
        rwa [next_length] at bound

/-- Reading a number of bits. -/
theorem bs_read_next (s : Bs) (ready : Ready s) (count : Nat) :
    bsRead s count =
      (BitVec.ofNat 32 (number (next s count)), advance s (min count (front s).length)) := by
  rw [bsRead, bs_read_loop_next (s.pEnd - s.p).toNat count s ready 0 rfl]
  rw [show (0 : Word) ||| _ = _ from BitVec.zero_or]

/-- Reading one bit is reading a number of one bit. -/
theorem bs_read1_read (s : Bs) (ready : Ready s) : bsRead1 s = bsRead s 1 := by
  by_cases before : (s.p : Int) < s.pEnd
  · obtain ⟨bytes, several⟩ : ∃ bytes, (s.pEnd - s.p).toNat = bytes + 1 :=
      ⟨(s.pEnd - s.p).toNat - 1, by omega⟩
    have enough : 0 ≤ s.iLeft - 1 := by
      have := ready.some
      omega
    simp only [bsRead1, before, bsRead, several, bsReadLoop, enough, Int.zero_lt_one, ↓reduceIte, Bs.current]
    rw [show (0 : Word) ||| _ = _ from BitVec.zero_or]
    rfl
  · have none : (s.pEnd - s.p).toNat = 0 := by omega
    rw [bsRead1, if_neg before, bsRead, none, bsReadLoop]

/-- The number of bits before the ones that are still to be read. -/
def position (s : Bs) : Nat := 8 * s.p + offset s

/-- Advancing counts the bits that were passed. -/
theorem advance_position (s : Bs) (count : Nat) : position (advance s count) = position s + count := by
  rw [position, position, advance_offset]
  simp only [advance]
  omega

/-- Within the buffer the next bits are those in front. -/
theorem next_front (s : Bs) (count : Nat) (inside : count ≤ (front s).length) :
    next s count = (front s).take count := by
  rw [next, List.take_append_of_le_length inside]

/-- Two reads after each other make up one. -/
theorem bs_read_split (s : Bs) (ready : Ready s) (first second : Nat)
    (inside : first + second ≤ (front s).length) :
    bsRead s (first + second : Nat) =
      ((bsRead s first).1 <<< second ||| (bsRead (bsRead s first).2 second).1,
        (bsRead (bsRead s first).2 second).2) := by
  have upper := next_front s first (by omega)
  have both := next_front s (first + second) inside
  have behind := front_advance s ready first (by omega)
  have rest : ((front s).drop first).length = (front s).length - first := List.length_drop
  have lower := next_front (advance s first) second (by rw [behind, rest]; omega)
  have bound := number_lt (next (advance s first) second)
  rw [next_length] at bound
  rw [bs_read_next s ready, bs_read_next s ready, Nat.min_eq_left (show first ≤ (front s).length by omega),
    bs_read_next _ (advance_ready s first), behind, rest, Nat.min_eq_left inside,
    Nat.min_eq_left (show second ≤ (front s).length - first by omega), advance_add,
    parts_joined _ _ second bound]
  have joined : next s (first + second) = next s first ++ next (advance s first) second := by
    rw [both, upper, lower, behind, List.take_add]
  rw [joined, number_append, next_length]

/-- From wherever a reader stands, reading up to 32 bits returns the number that the next
bits stand for, with zeros behind the end, and moves on by them as far as there are any;
within the buffer two reads make up one; and reading a single bit is the case of one. -/
theorem reads_next_bits (s : Bs) (ready : Ready s) :
    (∀ count ≤ 32, (bsRead s (count : Nat)).1.toNat = number (next s count) ∧
      (bsRead s (count : Nat)).2 = advance s (min count (front s).length) ∧
      position (bsRead s (count : Nat)).2 = position s + min count (front s).length ∧
      Ready (bsRead s (count : Nat)).2) ∧
    (∀ first second, first + second ≤ 32 → first + second ≤ (front s).length →
      bsRead s (first + second : Nat) =
        ((bsRead s first).1 <<< second ||| (bsRead (bsRead s first).2 second).1,
          (bsRead (bsRead s first).2 second).2)) ∧
    bsRead1 s = bsRead s 1 := by
  refine ⟨fun count few => ?_, fun first second _ inside => bs_read_split s ready first second inside,
    bs_read1_read s ready⟩
  have bound := number_lt (next s count)
  rw [next_length] at bound
  have word : 2 ^ count ≤ 2 ^ 32 := Nat.pow_le_pow_right (by decide) few
  rw [bs_read_next s ready]
  refine ⟨?_, rfl, advance_position s _, advance_ready s _⟩
  rw [BitVec.toNat_ofNat, Nat.mod_eq_of_lt (by omega)]

/-- A reader with three bits of its first byte left. -/
def midway : Bs := ⟨fun index => [0xA5, 0x3C].getD index 0, 0, 2, 3⟩

/-- Sixteen bits are read from the middle of a byte past the end, where they are zeros. -/
theorem reads_next_bits_midway :
    Ready midway ∧ (bsRead midway 16).1.toNat = number (next midway 16) ∧
      next midway 16 = [true, false, true, false, false, true, true, true, true, false, false, false,
        false, false, false, false] ∧
      position (bsRead midway 16).2 = position midway + min 16 (front midway).length :=
  have ready : Ready midway := ⟨by decide, by decide⟩
  ⟨ready, ((reads_next_bits midway ready).1 16 (by decide)).1, by decide,
    ((reads_next_bits midway ready).1 16 (by decide)).2.2.1⟩

end IotCamera.BitPosition
