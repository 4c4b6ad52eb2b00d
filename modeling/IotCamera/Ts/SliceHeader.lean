import IotCamera.Ts.Cadence
import IotCamera.Ts.Lengths
import IotCamera.Ts.LooseCodes
import IotCamera.Ts.VideoClock

/-!
# The slice header

A slice is classified by the second of the two Exp-Golomb codes behind its header
byte. The classification is a function of the unit alone, whichever start code
stood in front of it.

The entry point does not look at the start code: it classifies what lies behind
the first four bytes. It keeps the clock of a slice when those four bytes were
the start code and the slice is long enough for a packet with a clock. A unit that
is no slice, or the rest of one, is taken for a slice when its bits happen to read
as one, where zeros are read behind the end.
-/

namespace IotCamera.SliceHeader

open Memory Buffers Packet Mybs Pes Mux Frames Steps Cadence VideoClock ClockReference
  BitStrings BitPosition ExpGolomb LooseCodes

/-- The reader that stands behind the header byte of a unit. -/
def headerReader (unit : List Byte) : Bs :=
  bsInit (fun index => unit.getD (1 + index) 0) ((unit.length : Int) - 1)

/-- The second code behind the header byte of a unit. -/
def sliceTypeRead (unit : List Byte) : Word := (bsReadUe (bsReadUe (headerReader unit)).2).1

/-- The type that a unit is given. -/
def classified (nalUnitType frametype : Byte) (unit : List Byte) : Byte :=
  if nalUnitType = nalSlice ∨ nalUnitType = nalSliceIdr then
    sliceFrametype frametype (sliceTypeRead unit)
  else if nalUnitType = nalSei then nalSei
  else if nalUnitType = nalSps then nalSps
  else if nalUnitType = nalPps then nalPps
  else frametype

/-- The reader that the classification sets up behind a start code of three or
four bytes reads the unit, and zeros behind it. -/
theorem rebuild_reader {maxSize : Nat} (nal : Nalu maxSize)
    (start : nal.startcodeprefixLen = 3 ∨ nal.startcodeprefixLen = 4) (inside : nal.len ≤ maxSize)
    (small : nal.len + 4 < 2 ^ 31) :
    ∃ frame : Block (unsigned (nal.len + 4)),
      nal.rebuild (Block.uniform (unsigned (nal.len + 4)) 0) = .ok frame ∧
      bsInit (fun index => frame.cell (nal.startcodeprefixLen + 1 + index))
        (signed (unsigned (nal.len - 1))) = headerReader (nal.buf.bytes nal.len) := by
  have room : unsigned ((nal.len : Int) + 4) = nal.len + 4 := by
    unfold unsigned
    omega
  have code : (startCode nal.startcodeprefixLen).length = nal.startcodeprefixLen := by
    rcases start with three | four
    · rw [three]
      rfl
    · rw [four]
      rfl
  obtain ⟨frame, copied, cells, kept⟩ := Block.memcpy_inside
    ((Block.uniform (unsigned (nal.len + 4)) 0).store 0 (startCode nal.startcodeprefixLen))
    nal.startcodeprefixLen nal.buf 0 nal.len (by omega) (by omega)
  have length : signed (unsigned ((nal.len : Int) - 1)) = (nal.len : Int) - 1 := by
    unfold signed unsigned
    rw [BitVec.toInt_ofNat', Int.bmod_def]
    omega
  refine ⟨frame, by rw [Nalu.rebuild, if_pos start, copied], ?_⟩
  rw [headerReader, length, Block.bytes, slice_length]
  congr 1
  funext index
  rw [Nat.add_assoc]
  by_cases within : 1 + index < nal.len
  · rw [cells (1 + index) within]
    simp [slice, within]
  · have behind : ¬ (0 ≤ nal.startcodeprefixLen + (1 + index) ∧ nal.startcodeprefixLen + (1 + index) <
        0 + (startCode nal.startcodeprefixLen).length) := by omega
    rw [kept _ (Or.inr (by omega)), Block.store]
    simp only [behind, ↓reduceIte]
    simp [slice, within, Block.uniform]

/-- Classification depends on the type, the old frame type and the unit, whichever
start code the unit had. -/
theorem get_frame_type_classified {maxSize : Nat} (nal : Nalu maxSize)
    (start : nal.startcodeprefixLen = 3 ∨ nal.startcodeprefixLen = 4) (inside : nal.len ≤ maxSize)
    (small : nal.len + 4 < 2 ^ 31) :
    getFrameType nal = .ok { nal with
      frametype := classified nal.nalUnitType nal.frametype (nal.buf.bytes nal.len) } := by
  obtain ⟨frame, rebuilt, reader⟩ := rebuild_reader nal start inside small
  simp only [getFrameType, rebuilt, reader, bind, Except.bind, pure, Except.pure, classified,
    sliceTypeRead]
  split
  · rfl
  split
  · rfl
  split
  · rfl
  split
  · rfl
  · rfl

/-- The frame type that belongs to a slice type: switching slices count as the
kind they switch to. -/
def frametypeFor (sliceType : Nat) : Byte :=
  if sliceType % 5 = 0 ∨ sliceType % 5 = 3 then frameP
  else if sliceType % 5 = 1 then frameB
  else frameI

/-- A payload that starts with the codes of a macroblock number and a slice type. -/
structure SlicePayload (payload : List Byte) (firstMb sliceType : Nat) : Prop where
  number : firstMb < 2 ^ 30
  type : sliceType ≤ 9
  codes : expGolomb firstMb ++ expGolomb sliceType <+: bits payload

/-- Behind the header byte the reader has the bits of the payload in front of it. -/
theorem header_reader_front (header : Byte) (payload : List Byte) :
    Ready (headerReader (header :: payload)) ∧
      front (headerReader (header :: payload)) = bits payload := by
  have length : ((header :: payload).length : Int) - 1 = payload.length := by
    rw [List.length_cons]
    omega
  have bytes : slice (fun index => (header :: payload).getD (1 + index) 0) 0 payload.length =
      payload := by
    have read := slice_getD (header :: payload) 0 1 payload.length (by simp; omega)
    rw [List.drop_one, List.tail_cons, List.take_length] at read
    refine Eq.trans (slice_congr _ _ _ _ _ ?_) read
    intro index _
    rw [Nat.zero_add]
  rw [headerReader, bsInit, length]
  refine ⟨ready_whole _ _ _, ?_⟩
  simp only [front, offset, remaining]
  exact congrArg bits bytes

/-- The slice type is read from behind the macroblock number, wherever in a byte
that number ends. -/
theorem slice_type_read (header : Byte) (payload : List Byte) (firstMb sliceType : Nat)
    (shape : SlicePayload payload firstMb sliceType) :
    sliceTypeRead (header :: payload) = BitVec.ofNat 32 sliceType := by
  obtain ⟨number, type, rest, codes⟩ := shape
  obtain ⟨ready, whole⟩ := header_reader_front header payload
  rw [← codes, List.append_assoc] at whole
  have first := bs_read_ue_code _ ready firstMb (by omega) _ whole
  have behind : front (advance (headerReader (header :: payload)) (2 * exponent firstMb + 1)) =
      expGolomb sliceType ++ rest := by
    rw [← exp_golomb_length, front_advance _ ready _ (by rw [whole]; simp), whole, List.drop_left]
  have second := bs_read_ue_code _ (advance_ready _ _) sliceType (by omega) rest behind
  rw [sliceTypeRead, first, second]

/-- Each slice type is given its frame type. -/
theorem slice_frametype_for (frametype : Byte) (sliceType : Nat) (type : sliceType ≤ 9) :
    sliceFrametype frametype (BitVec.ofNat 32 sliceType) = frametypeFor sliceType := by
  interval_cases sliceType <;> rfl

/-- A unit of one of the two slice types behind a start code of three or four
bytes is given the frame type of its slice type. -/
theorem get_frame_type_slice (nal : Nalu maxVideoTagBufSize)
    (start : nal.startcodeprefixLen = 3 ∨ nal.startcodeprefixLen = 4)
    (kind : nal.nalUnitType = nalSlice ∨ nal.nalUnitType = nalSliceIdr)
    (inside : nal.len ≤ maxVideoTagBufSize) (header : Byte) (payload : List Byte)
    (unit : nal.buf.bytes nal.len = header :: payload) (firstMb sliceType : Nat)
    (shape : SlicePayload payload firstMb sliceType) :
    getFrameType nal = .ok { nal with frametype := frametypeFor sliceType } := by
  have small : nal.len + 4 < 2 ^ 31 := by
    have size : maxVideoTagBufSize = 1024 * 1024 := rfl
    omega
  rw [get_frame_type_classified nal start inside small, classified, if_pos kind, unit,
    slice_type_read header payload firstMb sliceType shape,
    slice_frametype_for nal.frametype sliceType shape.type]

/-- The type bits of a unit's header byte. -/
def unitType (unit : List Byte) : Byte := unit.getD 0 0 &&& 0x1f

/-- What the classification takes for a slice: the type of one, and a second code
of at most nine. -/
def SeenAsSlice (unit : List Byte) : Prop :=
  (unitType unit = nalSlice ∨ unitType unit = nalSliceIdr) ∧ (sliceTypeRead unit).toNat ≤ 9

instance (unit : List Byte) : Decidable (SeenAsSlice unit) := inferInstanceAs (Decidable (_ ∧ _))

/-- A slice: a unit of that type whose payload starts with the two codes. -/
def SliceUnit (unit : List Byte) : Prop :=
  (unitType unit = nalSlice ∨ unitType unit = nalSliceIdr) ∧
    ∃ firstMb sliceType, SlicePayload unit.tail firstMb sliceType

/-- The bits from the second code on, wherever the first one ends. -/
def bitsBehindFirst (unit : List Byte) : List Bool :=
  (bits unit.tail).drop (2 * zeros 32 (bits unit.tail) + 1)

/-- A unit of the type of a slice, whose bits behind the first code are read as a small
number. -/
def LooksLikeSlice (unit : List Byte) : Prop :=
  (unitType unit = nalSlice ∨ unitType unit = nalSliceIdr) ∧ ReadsSmall (bitsBehindFirst unit)

/-- A second code of at most nine sets one of the three frame types. -/
theorem slice_frametype_set_iff (sliceType : Word) :
    (sliceFrametype 0 sliceType = frameI ∨ sliceFrametype 0 sliceType = frameP ∨
      sliceFrametype 0 sliceType = frameB) ↔ sliceType.toNat ≤ 9 := by
  constructor
  · intro set
    by_contra above
    have other : ∀ first second : Word, first.toNat ≤ 9 → second.toNat ≤ 9 →
        ¬ (sliceType = first ∨ sliceType = second) := by
      rintro first second low high (rfl | rfl)
      · exact above low
      · exact above high
    have unset : sliceFrametype 0 sliceType = 0 := by
      rw [sliceFrametype, if_neg (other 0 5 (by decide) (by decide)),
        if_neg (other 1 6 (by decide) (by decide)), if_neg (other 3 8 (by decide) (by decide)),
        if_neg (other 2 7 (by decide) (by decide)), if_neg (other 4 9 (by decide) (by decide))]
    rw [unset] at set
    exact absurd set (by decide)
  · intro small
    have value : sliceType = BitVec.ofNat 32 sliceType.toNat := by simp
    rw [value, slice_frametype_for 0 sliceType.toNat small]
    interval_cases sliceType.toNat <;> decide

/-- One of the three frame types is given to what is taken for a slice. -/
theorem classified_slice_iff (unit : List Byte) :
    (classified (unitType unit) 0 unit = frameI ∨ classified (unitType unit) 0 unit = frameP ∨
      classified (unitType unit) 0 unit = frameB) ↔ SeenAsSlice unit := by
  unfold SeenAsSlice
  by_cases kind : unitType unit = nalSlice ∨ unitType unit = nalSliceIdr
  · rw [classified, if_pos kind, slice_frametype_set_iff]
    exact ⟨fun small => ⟨kind, small⟩, fun seen => seen.2⟩
  · refine iff_of_false ?_ (fun seen => kind seen.1)
    rw [classified, if_neg kind]
    split
    · decide
    split
    · decide
    split
    · decide
    · decide

/-- A slice is taken for one. -/
theorem slice_seen (unit : List Byte) (some : unit ≠ []) (slice : SliceUnit unit) : SeenAsSlice unit := by
  obtain ⟨kind, firstMb, sliceType, shape⟩ := slice
  refine ⟨kind, ?_⟩
  obtain ⟨header, payload, rfl⟩ := List.exists_cons_of_ne_nil some
  rw [slice_type_read header payload firstMb sliceType shape, BitVec.toNat_ofNat]
  have type := shape.type
  omega

/-- What is taken for a slice, in terms of its bits. -/
theorem seen_iff_looks (unit : List Byte) : SeenAsSlice unit ↔ LooksLikeSlice unit := by
  refine and_congr_right fun kind => ?_
  cases unit with
  | nil => exact absurd kind (by decide)
  | cons header payload =>
    obtain ⟨ready, whole⟩ := header_reader_front header payload
    have first := congrArg Prod.snd (bs_read_ue_any _ ready)
    simp only [whole] at first
    generalize count : zeros 32 (bits payload) = zeroBits at first
    have behind : front (advance (headerReader (header :: payload))
        (min (2 * zeroBits + 1) (bits payload).length)) = bitsBehindFirst (header :: payload) := by
      rw [front_advance _ ready _ (by rw [whole]; exact Nat.min_le_right _ _), whole, bitsBehindFirst,
        List.tail_cons, count]
      rcases Nat.le_total (2 * zeroBits + 1) (bits payload).length with inside | outside
      · rw [Nat.min_eq_left inside]
      · rw [Nat.min_eq_right outside, List.drop_length, List.drop_of_length_le outside]
    have second := congrArg Prod.fst (bs_read_ue_any _ (advance_ready (headerReader (header :: payload))
      (min (2 * zeroBits + 1) (bits payload).length)))
    rw [behind] at second
    rw [sliceTypeRead, first, second]
    exact reads_small_iff _

/-- The unit that the buffer overload cuts out lies behind the first four bytes. -/
theorem get_annexb_nalu_unit (pData : List Byte) (start : 4 ≤ pData.length)
    (fits : pData.length ≤ maxVideoTagBufSize) :
    ∃ unit, getAnnexbNalu (allocNalu maxVideoTagBufSize) pData pData.length = .ok (unit, 4) ∧
      unit.startcodeprefixLen = 4 ∧ unit.len = pData.length - 4 ∧ unit.frametype = 0 ∧
      unit.buf.bytes unit.len = pData.drop 4 ∧ unit.nalUnitType = unitType (pData.drop 4) := by
  obtain ⟨cut, found, cells, kept⟩ := get_annexb_nalu_cells (allocNalu maxVideoTagBufSize) pData
    pData.length start fits (Nat.le_refl _) (by decide)
  refine ⟨_, found, rfl, rfl, rfl, ?_, ?_⟩
  · have read := slice_getD pData 0 4 (pData.length - 4) (by omega)
    rw [List.take_of_length_le (by simp)] at read
    rw [← read]
    refine slice_congr _ _ _ _ _ ?_
    intro index inside
    rw [Nat.zero_add]
    exact cells index inside
  · have first : cut.cell 0 = (pData.drop 4).getD 0 0 := by
      by_cases some : 0 < pData.length - 4
      · rw [cells 0 some]
        simp
      · rw [kept 0 (by omega), List.drop_eq_nil_of_le (by omega)]
        rfl
    rw [unitType, ← first]
    rfl

/-- The entry point classifies that unit. -/
theorem is_slice_iff_seen (call : Call) (video : call.iStreamType = 1) (bounds : InBounds call) :
    IsSlice call ↔ SeenAsSlice (call.pData.drop 4) := by
  obtain ⟨size, fits, start⟩ := bounds
  have mebibyte : maxOneFrameSize = 1024 * 1024 ∧ maxVideoTagBufSize = 1024 * 1024 := ⟨rfl, rfl⟩
  obtain ⟨unit, found, four, length, zero, bytes, kind⟩ := get_annexb_nalu_unit call.pData
    (start video) fits
  have classify := get_frame_type_classified unit (Or.inr four) (by omega) (by omega)
  rw [bytes, zero] at classify
  obtain ⟨frame, rebuilt, _⟩ := rebuild_inside { unit with
    frametype := classified unit.nalUnitType 0 (call.pData.drop 4) } (Block.uniform maxOneFrameSize 0)
    four (by simp only; omega) (by simp only; omega)
  have type : frametypeOf call = classified unit.nalUnitType 0 (call.pData.drop 4) := by
    simp only [frametypeOf, readOneH264Frame, size, found, classify, rebuilt, bind, Except.bind, pure,
      Except.pure]
    rfl
  rw [IsSlice, type, kind, classified_slice_iff]
  exact ⟨fun slice => slice.2, fun seen => ⟨video, seen⟩⟩

/-- Whether the first video packet among some packets announces a clock. -/
def headPcr (packets : List (List Byte)) : Option Bool :=
  (packets.filter (Demux.pid · = tsH264Pid)).head?.map Demux.pcrFlag

/-- The frame of a video call announces a clock exactly when it is taken for a
slice and needs several packets. -/
theorem head_pcr_iff (session : TspkgSession) (call : Call) (video : call.iStreamType = 1)
    (bounds : InBounds call) (callback : session.writets = true) :
    headPcr ((Runs.last (writeBuf2TsFile session call)).received.drop session.received.length) =
        some true ↔ IsSlice call ∧ 162 ≤ call.pData.length := by
  have some : call.pData ≠ [] := by
    intro empty
    have start := bounds.2.2 video
    simp [empty] at start
  obtain ⟨frame, belongs, received⟩ := carrying_received session call bounds ⟨Or.inr video, some⟩
    callback
  have pid : frame.pid = tsH264Pid := by simp [belongs.pid, video]
  obtain ⟨send, counter, others, found, which⟩ := first_elementary_packet frame
    session.continuityCounter session.writePacketNum
  rw [pid] at found
  rw [received, List.drop_left, headPcr, found, List.head?_cons, Option.map_some, packet_pcr_flag,
    Option.some.injEq]
  have length := belongs.length
  have room : firstPacketLoadLength frame.head = roomOf call := by rw [belongs.head, room_of_head]
  have flag : frame.head.pcrFlag ≠ 0 ↔ IsSlice call := by
    rw [belongs.head, headOf]
    split <;> simp_all [writeAdaptiveFlagsHead, writeAdaptiveFlagsTail]
  rcases which with ⟨short, rfl, single⟩ | ⟨rfl, several⟩
  · rw [single_pcr_flag]
    refine iff_of_false (by decide) ?_
    rintro ⟨slice, long⟩
    rw [length, room, roomOf, if_pos slice] at single
    omega
  · rw [first_pcr_flag_head, decide_eq_true_iff, flag]
    refine ⟨fun slice => ⟨slice, ?_⟩, fun seen => seen.1⟩
    rwa [length, room, roomOf, if_pos slice] at several

/-- What a slice adds to the clock is not zero. -/
theorem ticks_ne_zero (framerate earlier later : Word) (apart : Apart earlier later) :
    ticks framerate (later - earlier) ≠ 0 := by
  obtain ⟨least, most⟩ := apart
  intro zero
  have sum := congrArg BitVec.toNat zero
  rw [ticks, BitVec.toNat_add, BitVec.toNat_udiv, BitVec.toNat_udiv, BitVec.toNat_udiv,
    show (1000 * 90 : Word).toNat = 90000 from rfl, show (1000 : Word).toNat = 1000 from rfl,
    show (0 : Word).toNat = 0 from rfl] at sum
  have first : 90000 / framerate.toNat ≤ 90000 := Nat.div_le_self _ _
  have rate : 1 ≤ 1000 / (later - earlier).toNat := (Nat.one_le_div_iff (by omega)).mpr most
  have fast : 1000 / (later - earlier).toNat ≤ 1000 := Nat.div_le_self _ _
  have second : 1 ≤ 90000 / (1000 / (later - earlier).toNat) :=
    (Nat.one_le_div_iff (by omega)).mpr (by omega)
  have third : 90000 / (1000 / (later - earlier).toNat) ≤ 90000 := Nat.div_le_self _ _
  generalize 90000 / framerate.toNat = step at first sum
  generalize 90000 / (1000 / (later - earlier).toNat) = more at second third sum
  omega

/-- A video call that is no slice returns and leaves the clock alone. A slice
returns exactly at a positive rate and with its time apart from the last slice's,
and then it has advanced the clock. -/
theorem video_call_clock (session : TspkgSession) (call : Call) (video : call.iStreamType = 1)
    (bounds : InBounds call) :
    if IsSlice call then
      (∀ next, writeBuf2TsFile session call = .ok next →
        next.timestampVideo ≠ session.timestampVideo) ∧
      ((∃ next, writeBuf2TsFile session call = .ok next) ↔
        call.framerate ≠ 0 ∧ Apart session.pts call.pts)
    else ∃ next, writeBuf2TsFile session call = .ok next ∧
      next.timestampVideo = session.timestampVideo := by
  have sound : call.iStreamType ≠ 0 := by simp [video]
  have some : call.pData ≠ [] := by
    intro empty
    have start := bounds.2.2 video
    simp [empty] at start
  obtain ⟨frame, sent, audio, _, made⟩ := carrying_call session call bounds ⟨Or.inr video, some⟩
  rw [made, advanceClock, if_neg sound]
  split
  · refine ⟨?_, ?_, ?_⟩
    · intro next returned
      obtain ⟨rate, apart⟩ := advance_video_clock_returns _ _ _ _ returned
      rw [advance_video_clock_apart _ _ _ rate apart] at returned
      rw [← Except.ok.inj returned]
      intro same
      replace same : session.timestampVideo + ticks call.framerate (call.pts - session.pts) =
        session.timestampVideo := same
      have none : ticks call.framerate (call.pts - session.pts) = 0 := by simpa using same
      exact ticks_ne_zero call.framerate session.pts call.pts apart none
    · rintro ⟨next, returned⟩
      have apart := advance_video_clock_returns _ _ _ _ returned
      exact apart
    · rintro ⟨rate, apart⟩
      exact ⟨_, advance_video_clock_apart _ _ _ rate apart⟩
  · exact ⟨_, rfl, rfl⟩

/-- The call that hands a unit behind a start code to the entry point. -/
def unitCall (framerate pts : Word) (code unit : List Byte) : Call :=
  ⟨framerate, pts, 1, code ++ unit, (code ++ unit).length⟩

/-- The unit is classified by its slice type if it is a slice. -/
def Typed (code unit : List Byte) : Prop :=
  ∀ nal : Nalu maxVideoTagBufSize, nal.startcodeprefixLen = code.length →
    nal.nalUnitType = unitType unit → nal.len ≤ maxVideoTagBufSize →
    nal.buf.bytes nal.len = unit → SliceUnit unit →
    ∀ firstMb sliceType, SlicePayload unit.tail firstMb sliceType →
      getFrameType nal = .ok { nal with frametype := frametypeFor sliceType }

/-- The entry point advances the clock and sends a clock in front exactly if the
unit is a slice. -/
def Timed (session : TspkgSession) (framerate pts : Word) (code unit : List Byte) : Prop :=
  ∃ next, writeBuf2TsFile session (unitCall framerate pts code unit) = .ok next ∧
    (next.timestampVideo ≠ session.timestampVideo ↔ SliceUnit unit) ∧
    (headPcr (next.received.drop session.received.length) = some true ↔ SliceUnit unit)

/-- Every slice is classified by its slice type. -/
theorem slice_typed (code unit : List Byte) (start : code = startCode3 ∨ code = startCode4)
    (some : unit ≠ []) : Typed code unit := by
  intro nal length kind inside bytes slice firstMb sliceType shape
  obtain ⟨header, payload, rfl⟩ := List.exists_cons_of_ne_nil some
  have three : nal.startcodeprefixLen = 3 ∨ nal.startcodeprefixLen = 4 := by
    rcases start with rfl | rfl
    · exact Or.inl length
    · exact Or.inr length
  exact get_frame_type_slice nal three (kind ▸ slice.1) inside header payload bytes firstMb sliceType
    shape

/-- The bytes behind the first four do not mislead. Behind a start code of four these are
the unit, and one that is no slice does not look like one. Behind a start code of three the
header byte is missing, and the rest of the unit looks like a slice exactly if the unit is
one. -/
structure NotMistaken (code unit : List Byte) : Prop where
  four : code = startCode4 → LooksLikeSlice unit → SliceUnit unit
  three : code = startCode3 → (LooksLikeSlice unit.tail ↔ SliceUnit unit)

/-- What the entry point sees is a slice exactly if the unit is, when the bytes do not
mislead. -/
theorem not_mistaken_iff (code unit : List Byte) (start : code = startCode3 ∨ code = startCode4)
    (some : unit ≠ []) :
    (SeenAsSlice ((code ++ unit).drop 4) ↔ SliceUnit unit) ↔ NotMistaken code unit := by
  have apart : startCode3 ≠ startCode4 := by decide
  rcases start with rfl | rfl
  · have behind : (startCode3 ++ unit).drop 4 = unit.tail := List.drop_one
    rw [behind, seen_iff_looks]
    exact ⟨fun agree => ⟨fun same => absurd same apart, fun _ => agree⟩, fun sound => sound.three rfl⟩
  · have behind : (startCode4 ++ unit).drop 4 = unit := rfl
    rw [behind]
    constructor
    · intro agree
      exact ⟨fun _ looks => agree.mp ((seen_iff_looks unit).mpr looks), fun same => absurd same.symm apart⟩
    · intro sound
      exact ⟨fun seen => sound.four rfl ((seen_iff_looks unit).mp seen), slice_seen unit some⟩

/-- Timing in terms of what the entry point sees behind the first four bytes. -/
theorem timed_iff_seen (session : TspkgSession) (framerate pts : Word) (code unit : List Byte)
    (long : 4 ≤ (code ++ unit).length) (small : (code ++ unit).length < 2 ^ 31)
    (callback : session.writets = true) :
    Timed session framerate pts code unit ↔
      (code ++ unit).length ≤ 1024 * 1024 ∧
      (SeenAsSlice ((code ++ unit).drop 4) ↔ SliceUnit unit) ∧
      (SliceUnit unit → framerate ≠ 0 ∧ Apart session.pts pts ∧ 162 ≤ (code ++ unit).length) := by
  set call := unitCall framerate pts code unit with callDef
  by_cases fits : (code ++ unit).length ≤ 1024 * 1024
  · have bounds : InBounds call := ⟨rfl, fits, fun _ => long⟩
    have clock := video_call_clock session call rfl bounds
    have pcr := head_pcr_iff session call rfl bounds callback
    have seen := is_slice_iff_seen call rfl bounds
    have data : call.pData = code ++ unit := rfl
    rw [data] at pcr seen
    by_cases slice : IsSlice call
    · rw [if_pos slice] at clock
      obtain ⟨advanced, returns⟩ := clock
      constructor
      · rintro ⟨next, returned, moved, announced⟩
        have unit : SliceUnit unit := moved.mp (advanced next returned)
        rw [returned, Runs.last_ok] at pcr
        obtain ⟨rate, apart⟩ := returns.mp ⟨next, returned⟩
        exact ⟨fits, iff_of_true (seen.mp slice) unit,
          fun _ => ⟨rate, apart, (pcr.mp (announced.mpr unit)).2⟩⟩
      · rintro ⟨_, agree, timing⟩
        have unit : SliceUnit unit := agree.mp (seen.mp slice)
        obtain ⟨rate, apart, several⟩ := timing unit
        obtain ⟨next, returned⟩ := returns.mpr ⟨rate, apart⟩
        rw [returned, Runs.last_ok] at pcr
        exact ⟨next, returned, iff_of_true (advanced next returned) unit,
          iff_of_true (pcr.mpr ⟨slice, several⟩) unit⟩
    · rw [if_neg slice] at clock
      obtain ⟨next, returned, still⟩ := clock
      rw [returned, Runs.last_ok] at pcr
      have unseen : ¬ SeenAsSlice ((code ++ unit).drop 4) := fun found => slice (seen.mpr found)
      constructor
      · rintro ⟨other, same, moved, _⟩
        obtain rfl : next = other := Except.ok.inj (returned.symm.trans same)
        have unit : ¬ SliceUnit unit := fun found => moved.mpr found still
        exact ⟨fits, iff_of_false unseen unit, fun found => absurd found unit⟩
      · rintro ⟨_, agree, _⟩
        have unit : ¬ SliceUnit unit := fun found => unseen (agree.mpr found)
        exact ⟨next, returned, iff_of_false (fun moved => moved still) unit,
          iff_of_false (fun found => slice (pcr.mp found).1) unit⟩
  · refine iff_of_false ?_ (fun condition => fits condition.1)
    rintro ⟨next, returned, _⟩
    have refused : ¬ Lengths.Copyable call := by
      intro copyable
      have most : ((code ++ unit).length : Int) ≤ 1024 * 1024 := (copyable.2 rfl).2
      omega
    have stopped := Lengths.not_copyable_stops session call
      ⟨(Int.toNat_natCast (code ++ unit).length).symm, by simp only [callDef, unitCall]; omega,
        by simp only [callDef, unitCall]; omega⟩ refused
    rw [← callDef, stopped] at returned
    cases returned

/-- Every slice is classified by its slice type. The entry point keeps the timing
of a unit exactly when the buffer fits, a slice has a rate, a time apart from the
last slice's and more than one packet, and the bytes behind the first four do not
mislead. -/
theorem typed_and_timed_iff (session : TspkgSession) (framerate pts : Word) (code unit : List Byte)
    (start : code = startCode3 ∨ code = startCode4) (some : unit ≠ [])
    (small : (code ++ unit).length < 2 ^ 31) (callback : session.writets = true) :
    Typed code unit ∧ Timed session framerate pts code unit ↔
      (code ++ unit).length ≤ 1024 * 1024 ∧ NotMistaken code unit ∧
      (SliceUnit unit → framerate ≠ 0 ∧ Apart session.pts pts ∧ 162 ≤ (code ++ unit).length) := by
  have long : 4 ≤ (code ++ unit).length := by
    have nonempty := List.length_pos_iff.mpr some
    rcases start with rfl | rfl
    · simp [startCode3]
      omega
    · simp [startCode4]
  rw [← not_mistaken_iff code unit start some,
    ← timed_iff_seen session framerate pts code unit long small callback]
  exact ⟨fun both => both.2, fun timed => ⟨slice_typed code unit start some, timed⟩⟩

/-- An IDR slice: macroblock zero, slice type seven, any bytes behind. -/
def idrUnit (more : List Byte) : List Byte := [0x65, 0x88] ++ more

/-- It is a slice. -/
theorem idr_unit_slice (more : List Byte) : SliceUnit (idrUnit more) := by
  have kind : unitType (idrUnit more) = nalSliceIdr := by
    show (0x65 : Byte) &&& 0x1f = nalSliceIdr
    decide
  exact ⟨Or.inr kind, 0, 7, by decide, by decide, bits more, rfl⟩

/-- A slice of 200 bytes behind a start code of four. -/
theorem typed_and_timed_idr :
    Typed startCode4 (idrUnit (List.replicate 194 0x55)) ∧
      Timed (clockedSession 0) 25 40 startCode4 (idrUnit (List.replicate 194 0x55)) := by
  have length : (startCode4 ++ idrUnit (List.replicate 194 0x55)).length = 200 := by
    rw [List.length_append, idrUnit, List.length_append, List.length_replicate]
    rfl
  exact (typed_and_timed_iff (clockedSession 0) 25 40 startCode4 (idrUnit (List.replicate 194 0x55))
    (Or.inr rfl) (List.cons_ne_nil _ _) (by omega) rfl).mpr
    ⟨by omega, ⟨fun _ _ => idr_unit_slice _, fun three => absurd three (by decide)⟩,
      fun _ => ⟨by decide, by decide, by omega⟩⟩

/-- Behind a start code of three bytes a slice advances no clock, and behind one
of four bytes a small slice is sent without a clock. -/
theorem three_bytes_not_timed :
    SliceUnit (idrUnit [0x80]) ∧ ¬ Timed (clockedSession 0) 25 40 startCode3 (idrUnit [0x80]) ∧
      ¬ Timed (clockedSession 0) 25 40 startCode4 (idrUnit [0x80]) := by
  refine ⟨idr_unit_slice _, ?_, ?_⟩
  · rw [timed_iff_seen _ _ _ _ _ (by decide) (by decide) rfl]
    rintro ⟨_, seen, _⟩
    exact absurd (seen.mpr (idr_unit_slice _)) (by decide)
  · rw [timed_iff_seen _ _ _ _ _ (by decide) (by decide) rfl]
    rintro ⟨_, _, timing⟩
    exact absurd (timing (idr_unit_slice _)).2.2 (by decide)

end IotCamera.SliceHeader
