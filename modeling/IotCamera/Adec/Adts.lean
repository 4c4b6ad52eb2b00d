import Mathlib.Data.List.Basic
import IotCamera.Base.Memory

/-!
# ADTS headers

`sample_adec.c`: `AddADTS` writes the seven header bytes of a frame of a given
length, and `parseADTSHeader` reads such a header. The frame length, header
included, has thirteen bits, split over the bytes 3, 4 and 5.

An ADTS stream is a sequence of frames that each begin with a header. The next
frame begins where the length field of the header says that this one ends.
`payloads` takes a stream apart that way; it knows nothing of how the stream was
written.

An `int` is a word with signed comparisons and shifts.
-/

namespace IotCamera.Adec

open Memory

def ADTS_HEADER_SIZE : Nat := 7

def ADTS_MAX_FRAME_BYTES : Word := (1 <<< 13) - 1

/-- The frequency index of a sample rate; any other rate leaves the default. -/
def freqIdx (nFreqIdx : Word) : Nat → Word
  | 96000 => 0
  | 88200 => 1
  | 64000 => 2
  | 48000 => 3
  | 44100 => 4
  | 32000 => 5
  | 24000 => 6
  | 22050 => 7
  | 16000 => 8
  | 12000 => 9
  | 11025 => 10
  | 8000 => 11
  | 7350 => 12
  | _ => nFreqIdx

/-- Write the header of a frame of `i_nPktLen` bytes. A frame that is too long gets
none, and the bytes stay as they were. -/
def AddADTS (i_nPktLen : Word) (m_pOutData : Block ADTS_HEADER_SIZE) : Block ADTS_HEADER_SIZE :=
  let nProfile : Word := 1
  let nFreqIdx := freqIdx 5 44100
  let nChanCfg : Word := 2
  if ADTS_MAX_FRAME_BYTES.slt i_nPktLen then m_pOutData
  else m_pOutData.store 0
    [0xFF,
     0xF1,
     low ((nProfile <<< 6) + (nFreqIdx <<< 2) + nChanCfg.sshiftRight 2),
     low (((nChanCfg &&& 3) <<< 6) + i_nPktLen.sshiftRight 11),
     low ((i_nPktLen &&& 0x7FF).sshiftRight 3),
     low (((i_nPktLen &&& 7) <<< 5) + 0x1F),
     0xFC]

/-- The sample rate of a frequency index. -/
def map_FreqIdx_to_SampleRate (idx : Word) : Word :=
  match idx.toNat with
  | 0 => 96000
  | 1 => 88200
  | 2 => 64000
  | 3 => 48000
  | 4 => 44100
  | 5 => 32000
  | 6 => 24000
  | 7 => 22050
  | 8 => 16000
  | 9 => 12000
  | 10 => 11025
  | 11 => 8000
  | 12 => 7370
  | _ => 8000

inductive PayloadType where
  | aac
  | g711u
  | g711a
  deriving DecidableEq, Repr

/-- The decoder's configuration; the file paths are left out. -/
structure SampleADecConfig where
  mType : PayloadType
  mSampleRate : Word
  mChannelCnt : Word
  mBitWidth : Word
  mHeaderLen : Word
  mFrameSize : Word
  mFirstPktLen : Word
  deriving DecidableEq, Repr

/-- The configuration that the decoder starts with. -/
def loadSampleADecConfig : SampleADecConfig := ⟨.aac, 44100, 2, 32, 0, 0, 0⟩

/-- Take the configuration from the header at `ptr`. -/
def parseADTSHeader (pConf : SampleADecConfig) (ptr : Nat → Byte) : SampleADecConfig :=
  { pConf with
    mType := .aac
    mHeaderLen := if promote (ptr 1) &&& 0x01 = 1 then 7 else 9
    mBitWidth := 16
    mChannelCnt := (promote (ptr 2) &&& 0x1) <<< 3 ||| (promote (ptr 3) &&& 0xc0).sshiftRight 6
    mSampleRate := map_FreqIdx_to_SampleRate ((promote (ptr 2) &&& 0x3c).sshiftRight 2)
    mFirstPktLen := ((promote (ptr 3) &&& 0x03) <<< 11) ||| (promote (ptr 4) <<< 3) |||
      (promote (ptr 5) &&& 0xe0).sshiftRight 5 }

/-- The length that the header at `ptr` gives its frame. -/
def frameLength (ptr : Nat → Byte) : Nat :=
  (ptr 3).toNat % 4 * 2048 + (ptr 4).toNat * 8 + (ptr 5).toNat / 32

/-- The stream begins with a header of seven bytes, whose frame it holds whole. -/
def beginsFrame (stream : List Byte) : Bool :=
  let ptr := fun position => stream.getD position 0
  ptr 0 = 0xFF ∧ (ptr 1).toNat / 16 = 0xF ∧ (ptr 1).toNat % 2 = 1 ∧
    ADTS_HEADER_SIZE ≤ frameLength ptr ∧ frameLength ptr ≤ stream.length

/-- The payloads of at most `count` frames, if these are the whole stream. -/
def splitFrames : Nat → List Byte → Option (List (List Byte))
  | _, [] => some []
  | 0, _ :: _ => none
  | count + 1, stream =>
    if beginsFrame stream then
      let length := frameLength fun position => stream.getD position 0
      (splitFrames count (stream.drop length)).map
        (((stream.take length).drop ADTS_HEADER_SIZE) :: ·)
    else none

/-- The payloads of the frames of an ADTS stream. -/
def payloads (stream : List Byte) : Option (List (List Byte)) := splitFrames stream.length stream

/-- The first packet's length is the length field of the header. -/
theorem parse_frame_length (pConf : SampleADecConfig) (ptr : Nat → Byte) :
    (parseADTSHeader pConf ptr).mFirstPktLen.toNat = frameLength ptr := by
  have first : (promote (ptr 3) &&& 0x03).toNat = (ptr 3).toNat % 4 :=
    low_field_value (ptr 3) 0x03 2 rfl
  have second : (promote (ptr 4)).toNat = (ptr 4).toNat := promote_value (ptr 4)
  have third : ((promote (ptr 5) &&& 0xe0).sshiftRight 5).toNat = (ptr 5).toNat / 32 := by
    rw [signed_field_value (ptr 5) 0xe0 3 5 rfl]
    have small := (ptr 5).isLt
    omega
  have middle := (ptr 4).isLt
  have low := (ptr 5).isLt
  have lower : (promote (ptr 4) <<< 3 ||| (promote (ptr 5) &&& 0xe0).sshiftRight 5).toNat =
      (ptr 4).toNat * 2 ^ 3 + (ptr 5).toNat / 32 := by
    rw [joined_value _ _ 3 (by omega) (by omega), second, third]
  simp only [parseADTSHeader, frameLength]
  rw [BitVec.or_assoc, joined_value _ _ 11 (by omega) (by omega), first, lower]
  omega

section Header
variable (i_nPktLen : Word) (m_pOutData : Block ADTS_HEADER_SIZE)

/-- The seven bytes of the header of a frame of a length that fits. -/
def headerBytes : List Byte :=
  [0xFF, 0xF1, 0x50, low (0x80 + i_nPktLen.sshiftRight 11), low ((i_nPktLen &&& 0x7FF).sshiftRight 3),
   low (((i_nPktLen &&& 7) <<< 5) + 0x1F), 0xFC]

/-- A frame that is not too long gets its header. -/
theorem add_adts_fits (fits : i_nPktLen.toNat ≤ 8191) :
    AddADTS i_nPktLen m_pOutData = m_pOutData.store 0 (headerBytes i_nPktLen) := by
  have within : ¬ ADTS_MAX_FRAME_BYTES.slt i_nPktLen = true := by
    rw [BitVec.slt_iff_toInt_lt, BitVec.toInt_eq_toNat_of_lt (x := i_nPktLen) (by omega)]
    have most : ADTS_MAX_FRAME_BYTES.toInt = 8191 := by decide
    omega
  rw [AddADTS, if_neg within]
  rfl

/-- The length field of the header is the length. -/
theorem header_frame_length (fits : i_nPktLen.toNat ≤ 8191) (rest : List Byte) :
    (frameLength fun position => (headerBytes i_nPktLen ++ rest).getD position 0) =
      i_nPktLen.toNat := by
  have third : (low (0x80 + i_nPktLen.sshiftRight 11)).toNat = 128 + i_nPktLen.toNat / 2048 := by
    rw [low, BitVec.toNat_setWidth, BitVec.toNat_add, shift_value _ 11 (by omega)]
    have top : (0x80 : Word).toNat = 128 := by decide
    omega
  have fourth : (low ((i_nPktLen &&& 0x7FF).sshiftRight 3)).toNat = i_nPktLen.toNat % 2048 / 8 := by
    have masked : (i_nPktLen &&& 0x7FF).toNat = i_nPktLen.toNat % 2048 :=
      (BitVec.toNat_and i_nPktLen 0x7FF).trans (Nat.and_two_pow_sub_one_eq_mod i_nPktLen.toNat 11)
    rw [low, BitVec.toNat_setWidth, shift_value _ 3 (by omega), masked]
    omega
  have fifth : (low (((i_nPktLen &&& 7) <<< 5) + 0x1F)).toNat = i_nPktLen.toNat % 8 * 32 + 31 := by
    have masked : (i_nPktLen &&& 7).toNat = i_nPktLen.toNat % 8 :=
      (BitVec.toNat_and i_nPktLen 7).trans (Nat.and_two_pow_sub_one_eq_mod i_nPktLen.toNat 3)
    rw [low, BitVec.toNat_setWidth, BitVec.toNat_add, BitVec.toNat_shiftLeft, masked,
      Nat.shiftLeft_eq]
    have ones : (0x1F : Word).toNat = 31 := by decide
    omega
  change (low (0x80 + i_nPktLen.sshiftRight 11)).toNat % 4 * 2048 +
    (low ((i_nPktLen &&& 0x7FF).sshiftRight 3)).toNat * 8 +
    (low (((i_nPktLen &&& 7) <<< 5) + 0x1F)).toNat / 32 = i_nPktLen.toNat
  rw [third, fourth, fifth]
  omega

end Header

/-- A frame as the encoder writes it: a header with its length, and the payload. -/
def frame (payload : List Byte) : List Byte :=
  headerBytes (BitVec.ofNat 32 (ADTS_HEADER_SIZE + payload.length)) ++ payload

/-- A frame has its header and its payload. -/
theorem frame_length (payload : List Byte) :
    (frame payload).length = ADTS_HEADER_SIZE + payload.length := by
  rw [frame, List.length_append]
  rfl

/-- The field of a frame's header is its length, whatever follows it. -/
theorem frame_length_field (payload rest : List Byte)
    (fits : ADTS_HEADER_SIZE + payload.length ≤ 8191) :
    (frameLength fun position => (frame payload ++ rest).getD position 0) =
      ADTS_HEADER_SIZE + payload.length := by
  have value : (BitVec.ofNat 32 (ADTS_HEADER_SIZE + payload.length)).toNat =
      ADTS_HEADER_SIZE + payload.length := by
    rw [BitVec.toNat_ofNat]
    exact Nat.mod_eq_of_lt (by omega)
  rw [frame, List.append_assoc, header_frame_length _ (by omega), value]

/-- A frame is recognised at its beginning. -/
theorem frame_begins (payload rest : List Byte)
    (fits : ADTS_HEADER_SIZE + payload.length ≤ 8191) :
    beginsFrame (frame payload ++ rest) = true := by
  have field := frame_length_field payload rest fits
  have length := frame_length payload
  have sync : (frame payload ++ rest).getD 0 0 = 0xFF := rfl
  have second : (frame payload ++ rest).getD 1 0 = 0xF1 := rfl
  simp only [beginsFrame, decide_eq_true_eq]
  refine ⟨sync, ?_, ?_, ?_, ?_⟩
  · rw [second]
    decide
  · rw [second]
    decide
  · omega
  · rw [List.length_append]
    omega

/-- A frame that is recognised is split off by its length. -/
theorem split_begins (count : Nat) (stream : List Byte) (length : Nat)
    (begins : beginsFrame stream = true)
    (field : (frameLength fun position => stream.getD position 0) = length) :
    splitFrames (count + 1) stream = (splitFrames count (stream.drop length)).map
      (((stream.take length).drop ADTS_HEADER_SIZE) :: ·) := by
  subst field
  cases stream with
  | nil => exact absurd begins (by decide)
  | cons byte rest =>
    rw [splitFrames, if_pos begins]
    exact List.cons_ne_nil byte rest

/-- The splitter undoes the concatenation of frames. -/
theorem split_frames (parts : List (List Byte))
    (fits : ∀ payload ∈ parts, ADTS_HEADER_SIZE + payload.length ≤ 8191) (count : Nat)
    (enough : parts.length ≤ count) : splitFrames count (parts.flatMap frame) = some parts := by
  induction parts generalizing count with
  | nil => cases count <;> rfl
  | cons payload rest inductionHypothesis =>
    obtain ⟨fewer, rfl⟩ : ∃ fewer, count = fewer + 1 :=
      ⟨count - 1, by simp only [List.length_cons] at enough; omega⟩
    have first := fits payload List.mem_cons_self
    have following := inductionHypothesis
      (fun other member => fits other (List.mem_cons_of_mem payload member)) fewer
      (by simpa using enough)
    have taken : ((frame payload ++ rest.flatMap frame).take (ADTS_HEADER_SIZE + payload.length)).drop
        ADTS_HEADER_SIZE = payload := by
      rw [List.take_left' (frame_length payload)]
      rfl
    have dropped : (frame payload ++ rest.flatMap frame).drop (ADTS_HEADER_SIZE + payload.length) =
        rest.flatMap frame := List.drop_left' (frame_length payload)
    rw [List.flatMap_cons, split_begins fewer _ _ (frame_begins payload _ first)
      (frame_length_field payload _ first), taken, dropped, following]
    rfl

/-- The payloads of a concatenation of frames. -/
theorem payloads_frames (parts : List (List Byte))
    (fits : ∀ payload ∈ parts, ADTS_HEADER_SIZE + payload.length ≤ 8191) :
    payloads (parts.flatMap frame) = some parts := by
  apply split_frames parts fits
  induction parts with
  | nil => exact Nat.le_refl 0
  | cons payload rest inductionHypothesis =>
    have following := inductionHypothesis fun other member =>
      fits other (List.mem_cons_of_mem payload member)
    have length := frame_length payload
    rw [List.flatMap_cons, List.length_append, List.length_cons, length, ADTS_HEADER_SIZE]
    omega

end IotCamera.Adec
