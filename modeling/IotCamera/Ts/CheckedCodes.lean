import IotCamera.Ts.ExpGolomb

/-!
# Codes in any bytes

The bit reader once more, with everything checked that C leaves undefined: a byte is read
only before `p_end`, the table of masks has 33 entries, a shift is by less than 32, and the
sum of two `int`s fits an `int`. A loop that has not ended after the passes it is allowed is
told apart from one that has.

Reading bits is always defined. A code is not: the loop of `bs_read_ue` goes on while its
counter is below 32, and `1 << i` is an `int`.
-/

namespace IotCamera.CheckedCodes

open Memory Mybs BitStrings BitPosition ExpGolomb

/-- What is undefined, or has not come to an end. -/
inductive Undefined where
  | pastEnd
  | maskIndex
  | count
  | shift
  | overflow
  | unfinished
  deriving DecidableEq, Repr

/-- Read the byte the reader stands on. -/
def load (s : Bs) : Except Undefined Word :=
  if (s.p : Int) < s.pEnd then .ok s.current else .error .pastEnd

/-- An entry of `i_mask[33]`. -/
def maskEntry (index : Int) : Except Undefined Word :=
  if 0 ≤ index ∧ index < 33 then .ok (iMask index) else .error .maskIndex

/-- The places a word is shifted by. -/
def shiftPlaces (places : Int) : Except Undefined Nat :=
  if 0 ≤ places ∧ places < 32 then .ok places.toNat else .error .shift

/-- The sum of two `int`s. -/
def sumOfInts (first second : Word) : Except Undefined Word :=
  if -2 ^ 31 ≤ first.toInt + second.toInt ∧ first.toInt + second.toInt < 2 ^ 31 then .ok (first + second)
  else .error .overflow

/-- The loop of `bs_read`. -/
def readLoop : Nat → Bs → Int → Word → Except Undefined (Word × Bs)
  | passes, s, iCount, iResult =>
    if 0 < iCount ∧ (s.p : Int) < s.pEnd then
      match passes with
      | 0 => .error .unfinished
      | passes + 1 => do
        let byte ← load s
        let iShr := s.iLeft - iCount
        if 0 ≤ iShr then
          let places ← shiftPlaces iShr
          let mask ← maskEntry iCount
          .ok (iResult ||| (byte >>> places &&& mask), { s with iLeft := s.iLeft - iCount }.settle)
        else
          let mask ← maskEntry s.iLeft
          let places ← shiftPlaces (-iShr)
          readLoop passes { s with p := s.p + 1, iLeft := 8 } (iCount - s.iLeft)
            (iResult ||| (byte &&& mask) <<< places)
    else .ok (iResult, s)

/-- `bs_read`, for at most 32 bits. -/
def read (s : Bs) (iCount : Int) : Except Undefined (Word × Bs) :=
  if iCount ≤ 32 then readLoop (s.pEnd - s.p).toNat s iCount 0 else .error .count

/-- `bs_read1`. -/
def read1 (s : Bs) : Except Undefined (Word × Bs) :=
  if (s.p : Int) < s.pEnd then do
    let s := { s with iLeft := s.iLeft - 1 }
    let byte ← load s
    let places ← shiftPlaces s.iLeft
    .ok (byte >>> places &&& 0x01, s.settle)
  else .ok (0, s)

/-- The loop of `bs_read_ue`. The first argument is the number of passes allowed. -/
def readUeLoop : Nat → Bs → Nat → Except Undefined (Nat × Bs)
  | passes, s, i => do
    let (bit, s) ← read1 s
    if bit = 0 ∧ (s.p : Int) < s.pEnd ∧ i < 32 then
      match passes with
      | 0 => .error .unfinished
      | passes + 1 => readUeLoop passes s (i + 1)
    else .ok (i, s)

/-- `bs_read_ue`. -/
def readUe (s : Bs) : Except Undefined (Word × Bs) := do
  let (i, s) ← readUeLoop 32 s 0
  let places ← shiftPlaces i
  let less ← sumOfInts (1#32 <<< places) (-1)
  let (rest, s) ← read s i
  let sum ← sumOfInts less rest
  .ok (sum, s)

/-- Before the end the byte is read. -/
theorem load_before (s : Bs) (before : (s.p : Int) < s.pEnd) : load s = .ok s.current := if_pos before

/-- A shift by fewer than 32 places is defined. -/
theorem shift_places_few (places : Int) (some : 0 ≤ places) (few : places < 32) :
    shiftPlaces places = .ok places.toNat := if_pos ⟨some, few⟩

/-- An entry of the table of masks is read. -/
theorem mask_entry_inside (index : Int) (some : 0 ≤ index) (few : index < 33) :
    maskEntry index = .ok (iMask index) := if_pos ⟨some, few⟩

/-- Reading a bit is defined and gives what the unchecked reader gives. -/
theorem read1_defined (s : Bs) (ready : Ready s) : read1 s = .ok (bsRead1 s) := by
  obtain ⟨some, most⟩ := ready
  by_cases before : (s.p : Int) < s.pEnd
  · simp only [read1, bsRead1, if_pos before, load_before { s with iLeft := s.iLeft - 1 } before,
      shift_places_few (s.iLeft - 1) (by omega) (by omega), bind, Except.bind]
  · rw [read1, bsRead1, if_neg before, if_neg before]

/-- Reading at most 32 bits is defined. Each pass stays below the mask table's end and the
width of a word, since a byte has at most eight bits left. -/
theorem read_loop_defined (passes : Nat) (s : Bs) (ready : Ready s) (iCount : Int) (few : iCount ≤ 32)
    (iResult : Word) (enough : remaining s = passes) :
    readLoop passes s iCount iResult = .ok (bsReadLoop passes s iCount iResult) := by
  induction passes generalizing s iCount iResult with
  | zero =>
    have ended : ¬ (0 < iCount ∧ (s.p : Int) < s.pEnd) := by
      rw [remaining] at enough
      omega
    rw [readLoop, if_neg ended, bsReadLoop]
  | succ passes inductionHypothesis =>
    obtain ⟨some, most⟩ := ready
    have before : (s.p : Int) < s.pEnd := by
      rw [remaining] at enough
      omega
    rw [readLoop, bsReadLoop]
    by_cases asked : 0 < iCount
    case neg => simp only [asked, false_and, ↓reduceIte]
    simp only [asked, before, and_self, ↓reduceIte, load_before s before, bind, Except.bind]
    by_cases answered : 0 ≤ s.iLeft - iCount
    · simp only [if_pos answered, shift_places_few (s.iLeft - iCount) answered (by omega),
        mask_entry_inside iCount (by omega) (by omega)]
    · simp only [if_neg answered, mask_entry_inside s.iLeft (by omega) (by omega),
        shift_places_few (-(s.iLeft - iCount)) (by omega) (by omega)]
      apply inductionHypothesis
      · exact ready_whole _ _ _
      · omega
      · simp only [remaining] at enough ⊢
        omega

/-- So is reading up to 32 bits. -/
theorem read_defined (s : Bs) (ready : Ready s) (iCount : Int) (few : iCount ≤ 32) :
    read s iCount = .ok (bsRead s iCount) := by
  rw [read, if_pos few, bsRead]
  exact read_loop_defined _ s ready iCount few 0 rfl

/-- Counting zeros is defined, and comes to an end after at most 32 passes. -/
theorem read_ue_loop_defined (passes : Nat) (s : Bs) (ready : Ready s) (i : Nat) (enough : i + passes = 32) :
    readUeLoop passes s i = .ok (bsReadUeLoop passes s i) := by
  induction passes generalizing s i with
  | zero =>
    have all : ¬ i < 32 := by omega
    rw [readUeLoop, bsReadUeLoop, read1_defined s ready]
    simp only [bind, Except.bind, all, and_false, ↓reduceIte]
    split <;> rfl
  | succ passes inductionHypothesis =>
    have next : Ready (bsRead1 s).2 := by
      have read := bs_read_next s ready 1
      rw [bs_read1_read s ready]
      exact read ▸ advance_ready s _
    rw [readUeLoop, bsReadUeLoop, read1_defined s ready]
    simp only [bind, Except.bind, show i < 32 by omega, and_true]
    split
    · exact inductionHypothesis _ next (i + 1) (by omega)
    · rfl

section Codes
variable (s : Bs) (ready : Ready s)

include ready

/-- What is left to do when the zeros of a code are counted. -/
theorem read_ue_counted :
    ∃ rest : Word, ∃ next : Bs, rest.toNat < 2 ^ zeros 32 (front s) ∧
      bsReadUe s = ((1#32 <<< zeros 32 (front s)) - 1 + rest, next) ∧
      readUe s = (do
        let places ← shiftPlaces (zeros 32 (front s))
        let less ← sumOfInts (1#32 <<< places) (-1)
        let sum ← sumOfInts less rest
        .ok (sum, next)) := by
  have counted := bs_read_ue_loop_zeros s ready 32 0
  have defined := read_ue_loop_defined 32 s ready 0 rfl
  have bound := zeros_le 32 (front s)
  rw [Nat.zero_add] at counted
  rw [counted] at defined
  generalize zeros 32 (front s) = i at counted defined bound ⊢
  generalize between : advance s (min (i + 1) (front s).length) = reader at counted defined
  have behind : Ready reader := between ▸ advance_ready s _
  have rest := bs_read_next reader behind i
  have small := number_lt (next reader i)
  rw [next_length] at small
  refine ⟨(bsRead reader i).1, (bsRead reader i).2, ?_, ?_, ?_⟩
  · rw [rest, BitVec.toNat_ofNat]
    exact Nat.lt_of_le_of_lt (Nat.mod_le _ _) small
  · simp only [bsReadUe, counted]
  · simp only [readUe, defined, read_defined reader behind i (by omega), bind, Except.bind]

/-- Up to 30 zeros the code is defined. -/
theorem read_ue_few (few : zeros 32 (front s) ≤ 30) : readUe s = .ok (bsReadUe s) := by
  obtain ⟨rest, next, bound, decoded, checked⟩ := read_ue_counted s ready
  generalize zeros 32 (front s) = i at few bound decoded checked
  have power : 2 ^ i ≤ 2 ^ 30 := Nat.pow_le_pow_right (by decide) few
  have positive : 0 < 2 ^ i := Nat.two_pow_pos i
  have one : (1#32 <<< i).toNat = 2 ^ i := by
    rw [BitVec.toNat_shiftLeft, BitVec.toNat_ofNat, Nat.shiftLeft_eq]
    omega
  have difference : ((1#32 <<< i) - 1).toNat = 2 ^ i - 1 := by
    rw [BitVec.toNat_sub, one, show (1 : Word).toNat = 1 from rfl]
    omega
  have less : sumOfInts (1#32 <<< i) (-1) = .ok ((1#32 <<< i) - 1) := by
    have value : (1#32 <<< i).toInt = (2 ^ i : Nat) := by
      rw [BitVec.toInt_eq_toNat_of_lt (by omega), one]
    rw [BitVec.sub_eq_add_neg]
    apply if_pos
    rw [value, show (-1 : Word).toInt = -1 from rfl]
    omega
  have sum : sumOfInts ((1#32 <<< i) - 1) rest = .ok ((1#32 <<< i) - 1 + rest) := by
    apply if_pos
    rw [BitVec.toInt_eq_toNat_of_lt (by omega), BitVec.toInt_eq_toNat_of_lt (by omega), difference]
    omega
  rw [checked, decoded, shift_places_few i (by omega) (by omega), Int.toNat_natCast]
  simp only [less, sum, bind, Except.bind]

/-- A code behind 31 zeros overflows. -/
theorem read_ue_overflow (many : zeros 32 (front s) = 31) : readUe s = .error .overflow := by
  obtain ⟨rest, next, -, -, checked⟩ := read_ue_counted s ready
  rw [checked, many]
  have places : shiftPlaces (31 : Nat) = .ok 31 := rfl
  have less : sumOfInts (1#32 <<< 31) (-1) = .error .overflow := by decide
  simp only [places, less, bind, Except.bind]

/-- A code behind 32 zeros shifts too far. -/
theorem read_ue_shift (many : zeros 32 (front s) = 32) : readUe s = .error .shift := by
  obtain ⟨rest, next, -, -, checked⟩ := read_ue_counted s ready
  rw [checked, many]
  have places : shiftPlaces (32 : Nat) = .error .shift := rfl
  simp only [places, bind, Except.bind]

/-- Up to 30 zeros a code is decoded; with more, the shift or the difference is undefined. -/
theorem read_ue_cases :
    zeros 32 (front s) ≤ 30 ∧ readUe s = .ok (bsReadUe s) ∨
      31 ≤ zeros 32 (front s) ∧ ∃ fault, (fault = .shift ∨ fault = .overflow) ∧ readUe s = .error fault := by
  have bound := zeros_le 32 (front s)
  obtain few | many | most : zeros 32 (front s) ≤ 30 ∨ zeros 32 (front s) = 31 ∨ zeros 32 (front s) = 32 := by
    omega
  · exact .inl ⟨few, read_ue_few s ready few⟩
  · exact .inr ⟨Nat.le_of_eq many.symm, .overflow, .inr rfl, read_ue_overflow s ready many⟩
  · exact .inr ⟨by omega, .shift, .inl rfl, read_ue_shift s ready most⟩

end Codes

/-- A number of zeros is counted when there are as many, and another bit behind them. -/
theorem zeros_ge_iff (budget count : Nat) (enough : count ≤ budget) (stream : List Bool) :
    count ≤ zeros budget stream ↔
      count = 0 ∨ count + 1 ≤ stream.length ∧ ∀ bit ∈ stream.take count, bit = false := by
  induction count generalizing budget stream with
  | zero => simp
  | succ count inductionHypothesis =>
    obtain ⟨fewer, rfl⟩ : ∃ fewer, budget = fewer + 1 := ⟨budget - 1, by omega⟩
    match stream with
    | [] => simp [zeros]
    | [bit] => simp [zeros]
    | true :: bit :: rest => simp [zeros]
    | false :: bit :: rest =>
      rw [zeros, Nat.add_le_add_iff_right, inductionHypothesis fewer (by omega) (bit :: rest)]
      cases count with
      | zero => simp
      | succ count => simp

/-- From wherever a reader stands, decoding is defined exactly when fewer than 32 bits are
left or one of the next 31 is a one. -/
theorem code_defined_iff (s : Bs) (ready : Ready s) :
    (∃ result, readUe s = .ok result) ↔
      ¬ (32 ≤ (front s).length ∧ ∀ bit ∈ (front s).take 31, bit = false) := by
  have counted := zeros_ge_iff 32 31 (by decide) (front s)
  rw [or_iff_right (by decide)] at counted
  rw [← counted]
  obtain ⟨few, decoded⟩ | ⟨many, fault, -, undefined⟩ := read_ue_cases s ready
  · exact iff_of_true ⟨_, decoded⟩ (by omega)
  · rw [undefined]
    exact iff_of_false (fault_no_result _) (not_not_intro many)

/-- Where decoding is undefined, it is so for its shift or its difference: the loops end,
no byte behind the end is read, and no more than 32 bits are asked for. -/
theorem undefined_arithmetic (s : Bs) (ready : Ready s) (fault : Undefined)
    (undefined : readUe s = .error fault) : fault = .shift ∨ fault = .overflow := by
  obtain ⟨-, decoded⟩ | ⟨-, other, which, found⟩ := read_ue_cases s ready
  · rw [decoded] at undefined
    cases undefined
  · rw [found] at undefined
    exact Except.error.inj undefined ▸ which

/-- A reader at the start of a number of zero bytes. -/
def zeroBytes (count : Nat) : Bs := bsInit (fun _ => 0) count

/-- A code that ends with the buffer is defined. -/
theorem code_defined_short : Ready (zeroBytes 3) ∧ ∃ result, readUe (zeroBytes 3) = .ok result :=
  ⟨ready_whole _ _ _, (code_defined_iff (zeroBytes 3) (ready_whole _ _ _)).mpr (by decide)⟩

/-- Five zero bytes make `1 << 32` of the code, and four make the difference overflow. -/
theorem zero_bytes_undefined :
    readUe (zeroBytes 5) = .error .shift ∧ readUe (zeroBytes 4) = .error .overflow :=
  ⟨read_ue_shift (zeroBytes 5) (ready_whole _ _ _) (by decide),
    read_ue_overflow (zeroBytes 4) (ready_whole _ _ _) (by decide)⟩

end IotCamera.CheckedCodes
