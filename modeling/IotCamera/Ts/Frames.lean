import IotCamera.Ts.Mux

/-!
# Frames on their way into the muxer

A video buffer is copied, cut behind four bytes and rebuilt behind a start code
of four bytes; an audio buffer is copied once. For lengths that fit the arrays
every copy succeeds, and what arrives is the buffer with its first four bytes
replaced. That is the buffer itself exactly when those four bytes were the
four-byte start code.
-/

namespace IotCamera.Frames

open Memory Buffers Packet Pes Mux

/-- The four-byte start code. -/
def startCode4 : List Byte := [0x00, 0x00, 0x00, 0x01]

/-- The three-byte start code. -/
def startCode3 : List Byte := [0x00, 0x00, 0x01]

/-- A length below 2^32 is itself as an unsigned one. -/
theorem unsigned_nat (value : Nat) (small : value < 2 ^ 32) : unsigned value = value := by
  unfold unsigned
  omega

/-- The buffer overload succeeds on every length from four to the array's size.
The unit is what lies behind the first four bytes; the rest of its array is left
as it was. -/
theorem get_annexb_nalu_cells {maxSize : Nat} (nalu : Nalu maxSize) (pData : List Byte)
    (size : Nat) (start : 4 ≤ size) (fits : size ≤ maxSize) (available : size ≤ pData.length)
    (small : maxSize < 2 ^ 32) :
    ∃ cut : Block maxSize, getAnnexbNalu nalu pData size =
        .ok ({ nalu with startcodeprefixLen := 4, len := size - 4, buf := cut }.readHeader, 4) ∧
      (∀ index < size - 4, cut.cell index = pData.getD (4 + index) 0) ∧
      ∀ index, size - 4 ≤ index → cut.cell index = nalu.buf.cell index := by
  obtain ⟨whole, copied, wholeCells, _⟩ := Block.memcpy_inside (Block.uniform maxSize 0) 0
    (Block.ofBytes pData) 0 size (by omega) (by omega)
  obtain ⟨cut, moved, cutCells, kept⟩ := Block.memcpy_inside nalu.buf 0 whole 4 (size - 4)
    (by omega) (by omega)
  refine ⟨cut, ?_, ?_, fun index beyond => kept index (Or.inr (by omega))⟩
  · have length : unsigned ((size : Int) - 4) = size - 4 := by
      unfold unsigned
      omega
    have total : unsigned size = size := unsigned_nat size (by omega)
    simp only [getAnnexbNalu, total, length, copied, moved, bind, Except.bind, pure, Except.pure]
  · intro index inside
    have second := cutCells index inside
    have first := wholeCells (4 + index) (by omega)
    simp only [Nat.zero_add] at second first
    exact second.trans first

/-- A unit that fits its buffer is copied without its start code of four bytes. -/
theorem get_annexb_nalu_inside {maxSize : Nat} (nalu : Nalu maxSize) (pData : List Byte)
    (size : Nat) (start : 4 ≤ size) (fits : size ≤ maxSize) (available : size ≤ pData.length)
    (small : maxSize < 2 ^ 32) :
    ∃ unit : Nalu maxSize, getAnnexbNalu nalu pData size = .ok (unit, 4) ∧
      unit.startcodeprefixLen = 4 ∧ unit.len = size - 4 ∧
      (∀ index < size - 4, unit.buf.cell index = pData.getD (4 + index) 0) ∧
      unit.nalUnitType = unit.buf.cell 0 &&& 0x1f ∧ unit.frametype = nalu.frametype := by
  obtain ⟨cut, found, cells, _⟩ := get_annexb_nalu_cells nalu pData size start fits available small
  exact ⟨_, found, rfl, rfl, cells, rfl, rfl⟩

/-- Rebuilding behind a start code of four bytes succeeds when the frame fits. -/
theorem rebuild_inside {maxSize size : Nat} (nal : Nalu maxSize) (buf : Block size)
    (four : nal.startcodeprefixLen = 4) (fits : 4 + nal.len ≤ size) (inside : nal.len ≤ maxSize) :
    ∃ frame : Block size, nal.rebuild buf = .ok frame ∧
      frame.bytes (4 + nal.len) = startCode4 ++ nal.buf.bytes nal.len := by
  obtain ⟨frame, copied, cells, kept⟩ := Block.memcpy_inside (buf.store 0 startCode4) 4 nal.buf 0
    nal.len fits (by omega)
  refine ⟨frame, ?_, ?_⟩
  · simpa [Nalu.rebuild, four, startCode, startCode4] using copied
  · rw [Block.bytes, ← slice_append]
    congr 1
    · have prefixCells : ∀ index < 4, frame.cell index = startCode4.getD index 0 := by
        intro index bound
        rw [kept index (Or.inl bound)]
        simp [Block.store, startCode4, bound]
      exact (slice_congr _ _ 0 0 4 (by simpa using prefixCells)).trans
        (slice_getD startCode4 0 0 4 (by decide))
    · exact slice_congr _ _ _ _ _ (by simpa using cells)

/-- Classification only sets the frame type. -/
theorem get_frame_type_inside {maxSize : Nat} (nal : Nalu maxSize)
    (four : nal.startcodeprefixLen = 4) (inside : nal.len ≤ maxSize) (small : nal.len + 4 < 2 ^ 32) :
    ∃ frametype, getFrameType nal = .ok { nal with frametype := frametype } := by
  have room : unsigned ((nal.len : Int) + 4) = nal.len + 4 := by
    unfold unsigned
    omega
  obtain ⟨frame, rebuilt, _⟩ := rebuild_inside nal (Block.uniform (unsigned (nal.len + 4)) 0) four
    (by omega) inside
  simp only [getFrameType, rebuilt, bind, Except.bind, pure, Except.pure]
  split
  · exact ⟨_, rfl⟩
  split
  · exact ⟨_, rfl⟩
  split
  · exact ⟨_, rfl⟩
  split
  · exact ⟨_, rfl⟩
  · exact ⟨nal.frametype, rfl⟩

/-- A frame of four bytes to the array's size is read whole: behind a start code
of four bytes come the buffer's bytes from the fifth on. -/
theorem read_one_h264_frame_inside (pData : List Byte) (size : Nat) (start : 4 ≤ size)
    (fits : size ≤ maxOneFrameSize) (available : size ≤ pData.length) (videoframetype : Byte) :
    ∃ es frametype,
      readOneH264Frame (Block.uniform maxOneFrameSize 0) videoframetype pData size =
        .ok (es, frametype, size) ∧
      es.bytes size = startCode4 ++ (pData.take size).drop 4 := by
  have small : maxVideoTagBufSize < 2 ^ 32 := by decide
  have bound : size ≤ maxVideoTagBufSize := fits
  obtain ⟨unit, found, four, length, cells, _, _⟩ := get_annexb_nalu_inside
    (allocNalu maxVideoTagBufSize) pData size start bound available small
  obtain ⟨frametype, classified⟩ := get_frame_type_inside unit four (by omega) (by omega)
  obtain ⟨frame, rebuilt, bytes⟩ := rebuild_inside { unit with frametype := frametype }
    (Block.uniform maxOneFrameSize 0) four (by simp only [length]; omega) (by simp only [length]; omega)
  refine ⟨frame, frametype, ?_, ?_⟩
  · have total : unsigned ((unit.startcodeprefixLen : Int) + unit.len) = size := by
      rw [four, length]
      unfold unsigned
      omega
    simp only [readOneH264Frame, found, classified, rebuilt, total, bind, Except.bind, pure,
      Except.pure]
    rfl
  · have whole : 4 + (size - 4) = size := by omega
    simp only [length, whole] at bytes
    rw [bytes]
    congr 1
    rw [List.drop_take, ← slice_getD pData 0 4 (size - 4) (by omega)]
    exact slice_congr _ _ _ _ _ (by simpa using cells)

/-- The video packet of such a frame. -/
theorem h2642_pes_inside (pData : List Byte) (size : Nat) (start : 4 ≤ size)
    (fits : size ≤ maxOneFrameSize) (available : size ≤ pData.length) (videopts : Word)
    (videoframetype : Byte) :
    ∃ es frametype,
      readOneH264Frame (Block.uniform maxOneFrameSize 0) videoframetype pData size =
        .ok (es, frametype, size) ∧
      h2642Pes videopts videoframetype pData size =
        .ok (fillPes es tsH264StreamId size videopts, frametype, pesPos size) ∧
      es.bytes size = startCode4 ++ (pData.take size).drop 4 := by
  obtain ⟨es, frametype, read, bytes⟩ :=
    read_one_h264_frame_inside pData size start fits available videoframetype
  refine ⟨es, frametype, read, ?_, bytes⟩
  simp only [h2642Pes, read, bind, Except.bind, pure, Except.pure]

/-- The audio packet of a frame that fits its array is the buffer itself. -/
theorem aac2_pes_inside (tsaacpes : TsPes) (pData : List Byte) (size : Nat)
    (fits : size ≤ maxOneFrameSize) (available : size ≤ pData.length) (adudiopts : Word) :
    ∃ es, aac2Pes tsaacpes adudiopts pData size =
        .ok (fillPes es tsAacStreamId size adudiopts, pesPos size) ∧
      es.bytes size = pData.take size := by
  obtain ⟨es, copied, cells, _⟩ := Block.memcpy_inside tsaacpes.es 0 (Block.ofBytes pData) 0 size
    (by omega) (by omega)
  have total : unsigned size = size :=
    unsigned_nat size (Nat.lt_of_le_of_lt fits (by decide))
  refine ⟨es, ?_, ?_⟩
  · simp only [aac2Pes, total, copied, bind, Except.bind, pure, Except.pure]
  · rw [← Block.of_bytes_bytes pData size available]
    exact slice_congr _ _ _ _ _ cells

/-- Where the search for the next start code stops: at the end of the file, with
one stored byte too many, or behind a start code that ends the bytes read. -/
theorem annexb_loop_shape (maxSize : Nat) (consumed unread buf : List Byte) (search : Search)
    (searched : annexbLoop maxSize consumed unread buf = .ok search) :
    (∃ file, search = .endOfFile file (buf ++ unread ++ [0xFF])) ∨
      ∃ file new code, search = .found file (buf ++ new) code.length ∧ new <+: unread ∧ new ≠ [] ∧
        (code = startCode3 ∨ code = startCode4) ∧
        ((buf ++ new).drop ((buf ++ new).length - code.length)).take code.length = code := by
  induction unread generalizing consumed buf with
  | nil =>
    by_cases room : buf.length < maxSize
    · exact Or.inl ⟨_, by simpa [annexbLoop, room] using searched.symm⟩
    · simp [annexbLoop, room] at searched
  | cons byte unread inductionHypothesis =>
    have first : [byte] <+: byte :: unread := ⟨unread, rfl⟩
    by_cases room : buf.length < maxSize
    · by_cases four : findStartCode3 ((buf ++ [byte]).drop ((buf ++ [byte]).length - 4))
      · simp only [annexbLoop, room, four, ↓reduceIte] at searched
        refine Or.inr ⟨_, [byte], startCode4, (Except.ok.inj searched).symm, first, by simp,
          Or.inr rfl, ?_⟩
        simpa [findStartCode3, startCode4] using four
      by_cases three : findStartCode2 ((buf ++ [byte]).drop ((buf ++ [byte]).length - 3))
      · simp only [annexbLoop, room, four, three, ↓reduceIte] at searched
        refine Or.inr ⟨_, [byte], startCode3, (Except.ok.inj searched).symm, first, by simp,
          Or.inl rfl, ?_⟩
        simpa [findStartCode2, startCode3] using three
      · simp only [annexbLoop, room, four, three, ↓reduceIte] at searched
        rcases inductionHypothesis _ _ searched with ⟨file, ended⟩ |
            ⟨file, new, code, found, within, _, which, last⟩
        · exact Or.inl ⟨file, by simpa using ended⟩
        · refine Or.inr ⟨file, byte :: new, code, ?_, ?_, by simp, which, ?_⟩
          · simpa using found
          · exact List.cons_prefix_cons.mpr ⟨rfl, within⟩
          · simpa using last
    · simp [annexbLoop, room] at searched

/-- Cutting a unit out of the bytes read takes its type from the first byte
behind the prefix, or from the zeroed buffer when the unit is empty. -/
theorem take_nal_unit_type {maxSize : Nat} (nalu unit : Nalu maxSize) (buf : List Byte)
    (prefixLen len : Nat) (zeroed : nalu.buf.cell 0 = 0)
    (cut : nalu.take buf prefixLen len = .ok unit) :
    unit.nalUnitType = (if len = 0 then 0 else buf.getD prefixLen 0) &&& 0x1f := by
  by_cases inside : 0 + len ≤ maxSize ∧ prefixLen + len ≤ buf.length
  · obtain ⟨copied, moved, cells, kept⟩ := Block.memcpy_inside nalu.buf 0 (Block.ofBytes buf)
      prefixLen len inside.1 inside.2
    simp only [Nalu.take, moved, bind, Except.bind, pure, Except.pure, Except.ok.injEq] at cut
    subst cut
    change copied.cell 0 &&& 0x1f = _
    by_cases vacant : len = 0
    · rw [if_pos vacant, kept 0 (by omega), zeroed]
    · rw [if_neg vacant, ← Nat.zero_add 0, cells 0 (by omega)]
      rfl
  · simp only [Nalu.take, Block.memcpy_outside _ _ _ _ _ inside, bind, Except.bind] at cut
    cases cut

/-- A start code that ends the bytes read cannot reach back into the one before
them: only its last byte is one. When nothing lies between the two, the bytes
behind the first are the second, and begin with zero. -/
theorem adjacent_start_code (start new code : List Byte)
    (first : start = startCode3 ∨ start = startCode4) (some : new ≠ [])
    (which : code = startCode3 ∨ code = startCode4)
    (last : ((start ++ new).drop ((start ++ new).length - code.length)).take code.length = code)
    (short : new.length ≤ code.length) : new.getD 0 0 = 0 := by
  have bound : new.length ≤ 4 := by
    rcases which with rfl | rfl <;> simp [startCode3, startCode4] at short <;> omega
  rcases new with _ | ⟨a, _ | ⟨b, _ | ⟨c, _ | ⟨d, _ | ⟨e, rest⟩⟩⟩⟩⟩
  · exact absurd rfl some
  case cons.cons.cons.cons.cons =>
    simp only [List.length_cons] at bound
    omega
  all_goals
    rcases first with rfl | rfl <;> rcases which with rfl | rfl <;>
      simp_all [startCode3, startCode4]

/-- The file overload takes the type from the byte behind the start code it has
read, whether the unit runs to the end of the file or to the next start code. An
empty unit is followed by a start code, whose first byte is the zero that the
empty buffer holds as well. -/
theorem read_unit_nal_unit_type {maxSize : Nat} (nalu unit : Nalu maxSize) (file after : File)
    (start : List Byte) (answer : Int) (zeroed : nalu.buf.cell 0 = 0)
    (code : start = startCode3 ∨ start = startCode4) (more : file.unread ≠ [])
    (read : nalu.readUnit file start = .ok (unit, after, answer)) :
    unit.nalUnitType = file.unread.getD 0 0 &&& 0x1f := by
  obtain ⟨byte, unread, rest⟩ := List.exists_cons_of_ne_nil more
  rw [Nalu.readUnit] at read
  obtain ⟨search, searched, read⟩ := bind_ok _ _ _ read
  rcases annexb_loop_shape _ _ _ _ _ searched with ⟨ended, rfl⟩ |
      ⟨ended, new, next, rfl, ⟨behind, within⟩, some, which, last⟩
  · obtain ⟨cut, taken, read⟩ := bind_ok _ _ _ read
    obtain ⟨rfl, -⟩ := Prod.mk.inj (Except.ok.inj read)
    rw [take_nal_unit_type nalu _ _ _ _ zeroed taken, rest, if_neg (by simp)]
    simp
  · obtain ⟨cut, taken, read⟩ := bind_ok _ _ _ read
    obtain ⟨rfl, -⟩ := Prod.mk.inj (Except.ok.inj read)
    have head : new.getD 0 0 = file.unread.getD 0 0 := by
      rw [← within]
      cases new with
      | nil => exact absurd rfl some
      | cons byte new => rfl
    rw [take_nal_unit_type nalu _ _ _ _ zeroed taken, ← head]
    split
    case isTrue vacant =>
      rw [adjacent_start_code start new next code some which last (by
        simp only [List.length_append] at vacant
        omega)]
    case isFalse =>
      simp [List.getElem?_append_right (Nat.le_refl start.length)]

/-- The buffer overload's neighbour: on a file that starts with a start code and
goes on behind it, the unit type is that of the byte behind the start code. -/
theorem file_nal_unit_type {maxSize : Nat} (pData : List Byte) (prefixLen : Nat)
    (start : pData.take 3 = startCode3 ∧ prefixLen = 3 ∨ pData.take 4 = startCode4 ∧ prefixLen = 4)
    (more : prefixLen < pData.length) (unit : Nalu maxSize) (after : File) (answer : Int)
    (read : getAnnexbNaluFile (allocNalu maxSize) ⟨[], pData⟩ = .ok (unit, after, answer)) :
    unit.nalUnitType = pData.getD prefixLen 0 &&& 0x1f := by
  have behind : ∀ count, count < pData.length →
      (pData.drop count).getD 0 0 = pData.getD count 0 ∧ pData.drop count ≠ [] := by
    intro count inside
    simp [List.getD_eq_getElem?_getD, inside]
  rcases start with ⟨three, rfl⟩ | ⟨four, rfl⟩
  · obtain ⟨same, notEmpty⟩ := behind 3 more
    simp only [getAnnexbNaluFile, File.read, three, List.nil_append] at read
    rw [if_neg (by decide), if_pos (by decide)] at read
    rw [← same]
    exact read_unit_nal_unit_type _ unit ⟨startCode3, pData.drop 3⟩ after startCode3 answer rfl
      (Or.inl rfl) notEmpty read
  · obtain ⟨same, notEmpty⟩ := behind 4 more
    have three : pData.take 3 = [0x00, 0x00, 0x00] := by
      have short := congrArg (List.take 3) four
      simpa [List.take_take, startCode4] using short
    have one : (pData.drop 3).take 1 = [0x01] := by
      have last := congrArg (List.drop 3) four
      simpa [List.drop_take, startCode4] using last
    simp only [getAnnexbNaluFile, File.read, three, one, List.nil_append, List.drop_drop] at read
    rw [if_neg (by decide), if_neg (by decide), if_neg (by decide), if_pos (by decide)] at read
    rw [← same]
    exact read_unit_nal_unit_type _ unit ⟨startCode4, pData.drop 4⟩ after startCode4 answer rfl
      (Or.inr rfl) notEmpty read

/-- A frame enters the muxer unchanged: the packet has the buffer's length and
bytes, and the unit type is that of the byte behind the start code, where the
file overload takes it from. -/
def Unchanged (pData : List Byte) (prefixLen : Nat) (videopts : Word) : Prop :=
  (∃ tspes frametype pesPos,
    h2642Pes videopts 0 pData pData.length = .ok (tspes, frametype, pesPos) ∧
    tspes.pesPacketLengthBeyond = pData.length ∧ tspes.es.bytes pData.length = pData) ∧
  (∃ unit answer,
    getAnnexbNalu (allocNalu maxVideoTagBufSize) pData pData.length = .ok (unit, answer) ∧
    unit.nalUnitType = pData.getD prefixLen 0 &&& 0x1f ∧
    ∀ other after next, getAnnexbNaluFile (allocNalu maxVideoTagBufSize) ⟨[], pData⟩ =
      .ok (other, after, next) → unit.nalUnitType = other.nalUnitType)

/-- What the video path does to a buffer of any start code: the first four bytes
become the four-byte start code, and the type is read from the fifth byte. -/
theorem video_path_exact (pData : List Byte) (videopts : Word) (long : 5 ≤ pData.length)
    (fits : pData.length ≤ maxOneFrameSize) :
    ∃ es frametype unit,
      h2642Pes videopts 0 pData pData.length =
        .ok (fillPes es tsH264StreamId pData.length videopts, frametype, pesPos pData.length) ∧
      es.bytes pData.length = startCode4 ++ pData.drop 4 ∧
      getAnnexbNalu (allocNalu maxVideoTagBufSize) pData pData.length = .ok (unit, 4) ∧
      unit.nalUnitType = pData.getD 4 0 &&& 0x1f := by
  obtain ⟨es, frametype, _, packed, bytes⟩ := h2642_pes_inside pData pData.length (by omega) fits
    (Nat.le_refl _) videopts 0
  obtain ⟨unit, found, _, _, cells, type, _⟩ := get_annexb_nalu_inside (allocNalu maxVideoTagBufSize)
    pData pData.length (by omega) fits (Nat.le_refl _) (by decide)
  refine ⟨es, frametype, unit, packed, by simpa using bytes, found, ?_⟩
  rw [type, cells 0 (by omega)]

/-- Replacing the first four bytes by the four-byte start code changes nothing
exactly when they were that start code. -/
theorem four_bytes_kept_iff (pData : List Byte) :
    startCode4 ++ pData.drop 4 = pData ↔ pData.take 4 = startCode4 := by
  constructor
  · intro same
    rw [← same]
    rfl
  · intro four
    rw [← four, List.take_append_drop]

/-- Frames enter the muxer unchanged exactly when their start code has four
bytes. A buffer behind a three-byte start code has its third byte replaced and
loses its NAL header byte; its unit type is read one byte late. -/
theorem frames_unchanged_iff (pData : List Byte) (prefixLen : Nat) (videopts : Word)
    (long : 5 ≤ pData.length) (fits : pData.length ≤ maxOneFrameSize)
    (start : pData.take 3 = startCode3 ∧ prefixLen = 3 ∨
      pData.take 4 = startCode4 ∧ prefixLen = 4) :
    Unchanged pData prefixLen videopts ↔ pData.take 4 = startCode4 := by
  obtain ⟨es, frametype, unit, packed, bytes, found, type⟩ :=
    video_path_exact pData videopts long fits
  constructor
  · rintro ⟨⟨tspes, other, pos, same, _, kept⟩, _⟩
    have identical : tspes = fillPes es tsH264StreamId pData.length videopts := by
      rw [packed] at same
      exact (Prod.mk.inj (Except.ok.inj same)).1.symm
    rw [identical] at kept
    exact (four_bytes_kept_iff pData).mp (bytes.symm.trans kept)
  · intro four
    have second : prefixLen = 4 := by
      rcases start with ⟨three, _⟩ | ⟨_, same⟩
      · have first := congrArg (List.take 3) four
        rw [List.take_take] at first
        exact absurd (three.symm.trans first) (by decide)
      · exact same
    refine ⟨⟨_, frametype, _, packed, rfl, bytes.trans ((four_bytes_kept_iff pData).mpr four)⟩,
      unit, 4, found, second ▸ type, ?_⟩
    intro other after next read
    rw [type, file_nal_unit_type pData 4 (Or.inr ⟨four, rfl⟩) (by omega) other after next read]

/-- An IDR unit of three payload bytes behind a four-byte start code. -/
theorem frames_unchanged_idr :
    Unchanged [0x00, 0x00, 0x00, 0x01, 0x65, 0x88, 0x80] 4 3600 :=
  (frames_unchanged_iff [0x00, 0x00, 0x00, 0x01, 0x65, 0x88, 0x80] 4 3600 (by decide) (by decide)
    (Or.inr ⟨rfl, rfl⟩)).mpr rfl

/-- The same unit behind a three-byte start code arrives with other bytes. -/
theorem three_byte_start_code_changes : ¬ Unchanged [0x00, 0x00, 0x01, 0x65, 0x88, 0x80] 3 3600 := by
  rintro ⟨⟨tspes, other, pos, same, _, kept⟩, _⟩
  obtain ⟨es, frametype, _, packed, bytes, _⟩ := video_path_exact
    [0x00, 0x00, 0x01, 0x65, 0x88, 0x80] 3600 (by decide) (by decide)
  rw [packed] at same
  rw [← (Prod.mk.inj (Except.ok.inj same)).1] at kept
  exact absurd (bytes.symm.trans kept) (by decide)

end IotCamera.Frames
