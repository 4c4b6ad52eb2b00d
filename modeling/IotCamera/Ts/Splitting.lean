import Mathlib.Data.List.Infix
import IotCamera.Ts.Frames

/-!
# Splitting a file into units

The file overload reads a start code and then appends bytes until the bytes read
end in the next start code, which it leaves unread, or until the file ends. A
file that is a concatenation of units behind start codes is split back into
exactly those units. No start code ends inside a unit or reaches back into the
start code before it, and a unit that does not end in zero cannot lengthen the
start code behind it.
-/

namespace IotCamera.Splitting

open Memory Buffers Pes Frames

/-- One unit of a file, behind its start code. It contains no start code, does
not end in zero, and leaves room in the buffer for the next start code. -/
structure Entry (maxSize : Nat) where
  code : List Byte
  unit : List Byte
  start : code = startCode3 ∨ code = startCode4
  some : unit ≠ []
  clean : ¬ startCode3 <:+: unit
  ended : unit.getLast some ≠ 0
  fits : code.length + unit.length + 4 ≤ maxSize

variable {maxSize : Nat}

/-- The bytes of a unit in the file. -/
def Entry.bytes (entry : Entry maxSize) : List Byte := entry.code ++ entry.unit

/-- The bytes of consecutive units. -/
def content (entries : List (Entry maxSize)) : List Byte := entries.flatMap Entry.bytes

/-- Looking back from the end for a start code is asking whether the bytes end in
it. -/
theorem find_start_code2_iff (buf : List Byte) :
    findStartCode2 (buf.drop (buf.length - 3)) = true ↔ startCode3 <:+ buf := by
  rw [findStartCode2, decide_eq_true_iff, List.take_of_length_le (by simp; omega),
    List.suffix_iff_eq_drop, eq_comm]
  rfl

/-- So is asking for a start code of four bytes. -/
theorem find_start_code3_iff (buf : List Byte) :
    findStartCode3 (buf.drop (buf.length - 4)) = true ↔ startCode4 <:+ buf := by
  rw [findStartCode3, decide_eq_true_iff, List.take_of_length_le (by simp; omega),
    List.suffix_iff_eq_drop, eq_comm]
  rfl

/-- The start code of four bytes ends in that of three. -/
theorem start_code_suffix : startCode3 <:+ startCode4 := ⟨[0x00], rfl⟩

/-- The loop passes over bytes behind none of which a start code ends. -/
theorem annexb_loop_skips (maxSize : Nat) (consumed passed unread buf : List Byte)
    (fits : buf.length + passed.length ≤ maxSize)
    (none : ∀ earlier, earlier <+: passed → earlier ≠ [] → ¬ startCode3 <:+ buf ++ earlier) :
    annexbLoop maxSize consumed (passed ++ unread) buf =
      annexbLoop maxSize (consumed ++ passed) unread (buf ++ passed) := by
  induction passed generalizing consumed buf with
  | nil => simp
  | cons byte rest inductionHypothesis =>
    rw [List.length_cons] at fits
    have first := none [byte] (List.cons_prefix_cons.mpr ⟨rfl, List.nil_prefix⟩)
      (List.cons_ne_nil _ _)
    have three : ¬ findStartCode2 ((buf ++ [byte]).drop ((buf ++ [byte]).length - 3)) = true := by
      rw [find_start_code2_iff]
      exact first
    have four : ¬ findStartCode3 ((buf ++ [byte]).drop ((buf ++ [byte]).length - 4)) = true := by
      rw [find_start_code3_iff]
      exact fun long => first (start_code_suffix.trans long)
    have later := inductionHypothesis (consumed ++ [byte]) (buf ++ [byte]) (by simp; omega)
      (fun earlier within some => by
        rw [List.append_assoc, List.singleton_append]
        exact none (byte :: earlier) (List.cons_prefix_cons.mpr ⟨rfl, within⟩)
          (List.cons_ne_nil _ _))
    rw [List.cons_append, annexbLoop, if_pos (by omega)]
    simp only [three, four, Bool.false_eq_true, ↓reduceIte, later, List.append_assoc,
      List.singleton_append]

/-- Behind a start code, no start code ends before three more bytes have been
read, since only the last byte of one is not zero. -/
theorem start_code_apart (code passed : List Byte) (start : code = startCode3 ∨ code = startCode4)
    (some : passed ≠ []) (ends : startCode3 <:+ code ++ passed) : startCode3 <:+ passed := by
  have long : 3 ≤ passed.length := by
    rcases passed with _ | ⟨first, _ | ⟨second, _ | ⟨third, rest⟩⟩⟩
    · exact absurd rfl some
    · rw [List.suffix_iff_eq_drop] at ends
      rcases start with rfl | rfl <;> simp [startCode3, startCode4] at ends
    · rw [List.suffix_iff_eq_drop] at ends
      rcases start with rfl | rfl <;> simp [startCode3, startCode4] at ends
    · simp
  exact List.suffix_of_suffix_length_le ends (List.suffix_append _ _) long

/-- Bytes that end in a start code end in one. -/
theorem start_code_last (buf : List Byte) (ends : startCode3 <:+ buf) :
    buf.getLast? = some 0x01 := by
  obtain ⟨front, rfl⟩ := ends
  simp [startCode3]

/-- No start code ends in the bytes of a unit and the zeros behind it. -/
theorem entry_passed (entry : Entry maxSize) (zeros : Nat) (earlier : List Byte)
    (within : earlier <+: entry.unit ++ List.replicate zeros 0x00) (some : earlier ≠ []) :
    ¬ startCode3 <:+ entry.code ++ earlier := by
  intro ends
  have inside := start_code_apart entry.code earlier entry.start some ends
  rcases List.prefix_or_prefix_of_prefix within (List.prefix_append _ _) with within | ⟨more, rfl⟩
  · exact entry.clean (inside.isInfix.trans within.isInfix)
  · have padding : more <+: List.replicate zeros 0x00 := (List.prefix_append_right_inj _).mp within
    obtain ⟨_, padding⟩ := List.prefix_replicate_iff.mp padding
    cases more with
    | nil => exact entry.clean (by simpa using inside.isInfix)
    | cons byte rest =>
      have last := start_code_last _ inside
      rw [padding, List.getLast?_append, List.getLast?_replicate, if_neg (by simp)] at last
      simp at last

/-- The units behind a position start with a start code, or there are none. -/
theorem content_cons (entry : Entry maxSize) (rest : List (Entry maxSize)) :
    content (entry :: rest) = entry.code ++ (entry.unit ++ content rest) := by
  simp [content, Entry.bytes]

/-- Reading on behind the last unit finds the end of the file. -/
theorem annexb_loop_last (entry : Entry maxSize) (consumed : List Byte) :
    annexbLoop maxSize consumed entry.unit entry.code =
      .ok (.endOfFile ⟨consumed ++ entry.unit, []⟩ (entry.code ++ entry.unit ++ [0xFF])) := by
  have fits := entry.fits
  have skipped := annexb_loop_skips maxSize consumed entry.unit [] entry.code (by omega)
    (fun earlier within some => entry_passed entry 0 earlier (by simpa using within) some)
  have room : (entry.code ++ entry.unit).length < maxSize := by
    rw [List.length_append]
    omega
  rw [List.append_nil] at skipped
  rw [skipped, annexbLoop, if_pos room]

/-- Reading on behind a unit finds the start code of the next one, of the length it
has there. The last byte of the start code is the first at which one ends. -/
theorem annexb_loop_next (entry next : Entry maxSize) (consumed behind : List Byte) :
    annexbLoop maxSize consumed (entry.unit ++ (next.code ++ behind)) entry.code =
      .ok (.found ⟨consumed ++ (entry.unit ++ next.code), behind⟩
        (entry.code ++ entry.unit ++ next.code) next.code.length) := by
  have fits := entry.fits
  obtain ⟨zeros, few, code⟩ : ∃ zeros, zeros ≤ 3 ∧ next.code = List.replicate zeros 0x00 ++ [0x01] := by
    rcases next.start with three | four
    · exact ⟨2, by decide, three⟩
    · exact ⟨3, by decide, four⟩
  have skipped := annexb_loop_skips maxSize consumed (entry.unit ++ List.replicate zeros 0x00)
    (0x01 :: behind) entry.code (by simp; omega) (entry_passed entry zeros)
  have bytes : entry.unit ++ (next.code ++ behind) =
      entry.unit ++ List.replicate zeros 0x00 ++ 0x01 :: behind := by
    simp [code]
  have ending : entry.code ++ (entry.unit ++ List.replicate zeros 0x00) ++ [0x01] =
      entry.code ++ entry.unit ++ next.code := by
    simp [code]
  have room : (entry.code ++ (entry.unit ++ List.replicate zeros 0x00)).length < maxSize := by
    simp
    omega
  rw [bytes, skipped, annexbLoop, if_pos room]
  simp only [ending, find_start_code3_iff, find_start_code2_iff]
  have position : consumed ++ (entry.unit ++ List.replicate zeros 0x00) ++ [0x01] =
      consumed ++ (entry.unit ++ next.code) := by
    simp [code]
  rw [position]
  rcases next.start with three | four
  · have exact3 : ¬ startCode4 <:+ entry.code ++ entry.unit ++ next.code := by
      rw [three, show startCode4 = [0x00] ++ startCode3 from rfl, List.suffix_append_self_iff]
      rintro ⟨front, zero⟩
      have last := congrArg List.getLast? zero
      rw [List.getLast?_append, List.getLast?_append, List.getLast?_eq_some_getLast entry.some] at last
      exact entry.ended (by simpa using last.symm)
    rw [if_neg exact3, if_pos (three ▸ List.suffix_append _ _), three]
    rfl
  · rw [if_pos (four ▸ List.suffix_append _ _), four]
    rfl

/-- A unit as it stands in the structure that a call fills. -/
structure Holds (nalu : Nalu maxSize) (entry : Entry maxSize) : Prop where
  prefixLen : nalu.startcodeprefixLen = entry.code.length
  len : nalu.len = entry.unit.length
  bytes : nalu.buf.bytes nalu.len = entry.unit

/-- Cutting the unit out of the bytes read. -/
theorem take_holds (nalu : Nalu maxSize) (entry : Entry maxSize) (behind : List Byte) :
    ∃ unit, nalu.take (entry.code ++ entry.unit ++ behind) entry.code.length entry.unit.length =
      .ok unit ∧ Holds unit entry := by
  have fits := entry.fits
  obtain ⟨cut, copied, cells, _⟩ := Block.memcpy_inside nalu.buf 0
    (Block.ofBytes (entry.code ++ entry.unit ++ behind)) entry.code.length entry.unit.length
    (by omega) (by simp)
  let unit : Nalu maxSize := { nalu with
    startcodeprefixLen := entry.code.length
    len := entry.unit.length
    buf := cut }
  refine ⟨unit.readHeader, ?_, rfl, rfl, ?_⟩
  · simp only [Nalu.take, copied, bind, Except.bind, pure, Except.pure]
    rfl
  · have read := slice_getD (entry.code ++ entry.unit ++ behind) 0 entry.code.length
      entry.unit.length (by simp)
    rw [List.append_assoc, List.drop_left, List.take_left] at read
    refine Eq.trans (slice_congr _ _ _ _ _ ?_) read
    intro index inside
    have cell := cells index inside
    rw [List.append_assoc] at cell
    exact cell

/-- Behind a start code, the unit is read up to the next start code, which stays
unread, or up to the end of the file. -/
theorem read_unit_holds (nalu : Nalu maxSize) (entry : Entry maxSize)
    (rest : List (Entry maxSize)) (consumed : List Byte) :
    ∃ unit answer, nalu.readUnit ⟨consumed, entry.unit ++ content rest⟩ entry.code =
        .ok (unit, ⟨consumed ++ entry.unit, content rest⟩, answer) ∧
      0 < answer ∧ Holds unit entry := by
  cases rest with
  | nil =>
    obtain ⟨unit, taken, holds⟩ := take_holds nalu entry [0xFF]
    refine ⟨unit, 3, ?_, by decide, holds⟩
    have length : (entry.code ++ entry.unit ++ [0xFF]).length - 1 - entry.code.length =
        entry.unit.length := by
      simp
    have none : content ([] : List (Entry maxSize)) = [] := rfl
    simp only [Nalu.readUnit, none, List.append_nil, annexb_loop_last, length, taken, bind,
      Except.bind, pure, Except.pure]
  | cons next rest =>
    obtain ⟨unit, taken, holds⟩ := take_holds nalu entry next.code
    have positive : 0 < next.code.length := by
      rcases next.start with three | four
      · rw [three]
        decide
      · rw [four]
        decide
    refine ⟨unit, next.code.length, ?_, by omega, holds⟩
    have length : (entry.code ++ entry.unit ++ next.code).length - next.code.length -
        entry.code.length = entry.unit.length := by
      simp
      omega
    have back : File.back ⟨consumed ++ (entry.unit ++ next.code), next.unit ++ content rest⟩
        next.code.length = ⟨consumed ++ entry.unit, content (next :: rest)⟩ := by
      have kept : (consumed ++ (entry.unit ++ next.code)).length - next.code.length =
          (consumed ++ entry.unit).length := by
        simp
        omega
      rw [File.back, kept, ← List.append_assoc, List.take_left, List.drop_left, content_cons]
    simp only [Nalu.readUnit, content_cons next rest, annexb_loop_next, length, taken, back, bind,
      Except.bind, pure, Except.pure]

/-- One call reads one unit and leaves the file at the next. -/
theorem get_annexb_nalu_file_holds (nalu : Nalu maxSize) (entry : Entry maxSize)
    (rest : List (Entry maxSize)) (consumed : List Byte) :
    ∃ unit answer, getAnnexbNaluFile nalu ⟨consumed, content (entry :: rest)⟩ =
        .ok (unit, ⟨consumed ++ entry.bytes, content rest⟩, answer) ∧
      0 < answer ∧ Holds unit entry := by
  obtain ⟨unit, answer, read, positive, holds⟩ := read_unit_holds
    { nalu with startcodeprefixLen := 3 } entry rest (consumed ++ entry.code)
  refine ⟨unit, answer, ?_, positive, holds⟩
  rw [content_cons, Entry.bytes, ← List.append_assoc consumed, ← read]
  rcases entry.start with three | four
  · rw [three]
    rfl
  · rw [four]
    simp [getAnnexbNaluFile, File.read, startCode4, findStartCode2, findStartCode3]

/-- The answers of consecutive calls on one structure and one file. -/
def calls : Nat → Nalu maxSize → File → Except Fault (List (Nalu maxSize × File × Int))
  | 0, _, _ => .ok []
  | count + 1, nalu, file => do
    let (nalu, file, answer) ← getAnnexbNaluFile nalu file
    let rest ← calls count nalu file
    return (nalu, file, answer) :: rest

/-- What the calls on a file report: each unit in its place, then the end. -/
structure Splits (entries : List (Entry maxSize)) (consumed : List Byte)
    (answers : List (Nalu maxSize × File × Int)) : Prop where
  count : answers.length = entries.length
  each : ∀ (index : Nat) (entry : Entry maxSize) (answer : Nalu maxSize × File × Int),
    entries[index]? = some entry → answers[index]? = some answer →
      0 < answer.2.2 ∧ Holds answer.1 entry ∧ answer.2.1 =
        ⟨consumed ++ content (entries.take (index + 1)), content (entries.drop (index + 1))⟩
  joined : answers.flatMap (fun answer =>
    startCode answer.1.startcodeprefixLen ++ answer.1.buf.bytes answer.1.len) = content entries

/-- The start code of a unit is rebuilt from its length. -/
theorem start_code_length (code : List Byte) (start : code = startCode3 ∨ code = startCode4) :
    startCode code.length = code := by
  rcases start with rfl | rfl <;> rfl

/-- One call in front of the others. -/
theorem splits_cons (entry : Entry maxSize) (rest : List (Entry maxSize)) (consumed : List Byte)
    (unit : Nalu maxSize) (answer : Int) (answers : List (Nalu maxSize × File × Int))
    (positive : 0 < answer) (holds : Holds unit entry)
    (splits : Splits rest (consumed ++ entry.bytes) answers) :
    Splits (entry :: rest) consumed
      ((unit, ⟨consumed ++ entry.bytes, content rest⟩, answer) :: answers) := by
  obtain ⟨count, each, joined⟩ := splits
  refine ⟨by simp [count], ?_, ?_⟩
  · intro index first reported here there
    cases index with
    | zero =>
      obtain rfl : entry = first := by simpa using here
      obtain rfl : (unit, (⟨consumed ++ entry.bytes, content rest⟩ : File), answer) = reported := by
        simpa using there
      exact ⟨positive, holds, by simp [content]⟩
    | succ index =>
      obtain ⟨more, held, position⟩ := each index first reported (by simpa using here)
        (by simpa using there)
      refine ⟨more, held, ?_⟩
      rw [position]
      simp [content]
  · rw [List.flatMap_cons, joined, holds.prefixLen, holds.bytes, start_code_length _ entry.start]
    simp [content, Entry.bytes]

/-- The calls on a file split it into its units, in order, each call leaving the
file at the next start code or at its end, and the call behind the last unit
reports the end. -/
theorem calls_split (nalu : Nalu maxSize) (entries : List (Entry maxSize)) (consumed : List Byte) :
    ∃ answers last, calls (entries.length + 1) nalu ⟨consumed, content entries⟩ =
        .ok (answers ++ [last]) ∧
      last.2.2 = 0 ∧ Splits entries consumed answers := by
  induction entries generalizing nalu consumed with
  | nil =>
    refine ⟨[], ({ nalu with startcodeprefixLen := 3 }, ⟨consumed, []⟩, 0), ?_, rfl, rfl, ?_, rfl⟩
    · simp [calls, getAnnexbNaluFile, File.read, content, bind, Except.bind, pure, Except.pure]
    · intro index entry answer here
      simp at here
  | cons entry rest inductionHypothesis =>
    obtain ⟨unit, answer, read, positive, holds⟩ := get_annexb_nalu_file_holds nalu entry rest consumed
    obtain ⟨answers, last, called, ended, splits⟩ := inductionHypothesis unit
      (consumed ++ entry.bytes)
    refine ⟨(unit, ⟨consumed ++ entry.bytes, content rest⟩, answer) :: answers, last, ?_, ended,
      splits_cons entry rest consumed unit answer answers positive holds splits⟩
    rw [List.length_cons, calls]
    simp only [read, called, bind, Except.bind, pure, Except.pure, List.cons_append]

/-- From the start of a file, with any structure to fill. -/
theorem file_split (nalu : Nalu maxSize) (entries : List (Entry maxSize)) :
    ∃ answers last, calls (entries.length + 1) nalu ⟨[], content entries⟩ = .ok (answers ++ [last]) ∧
      last.2.2 = 0 ∧ Splits entries [] answers :=
  calls_split nalu entries []

/-- A file of a parameter set behind a start code of three bytes and a slice behind one of
four. -/
theorem file_split_two :
    let entries : List (Entry 64) :=
      [⟨startCode3, [0x67, 0x42], .inl rfl, by decide, by decide, by decide, by decide⟩,
        ⟨startCode4, [0x65, 0x88, 0x80], .inr rfl, by decide, by decide, by decide, by decide⟩]
    ∃ answers last, calls 3 (allocNalu 64)
        ⟨[], [0, 0, 1, 0x67, 0x42, 0, 0, 0, 1, 0x65, 0x88, 0x80]⟩ = .ok (answers ++ [last]) ∧
      last.2.2 = 0 ∧ Splits entries [] answers := by
  intro entries
  exact file_split (allocNalu 64) entries

end IotCamera.Splitting
