import IotCamera.Base.AdtsLayout
import IotCamera.Base.Memory

/-!
# The header of an audio file's frame

`Audio.cpp`: `Detach_Head_Aac` reads seven bytes of the audio file and stores each
field of the ADTS header they hold in a member of `ADTS_HEADER`. What `ReadFile` does to
the buffer and returns is an argument. `readsize` is unsigned, so its test against
negative numbers never succeeds.

One expression lacks a pair of parentheses. `&` binds less than `>>`, so the mask of
`copyright_identification_start` is shifted, not the masked byte.
-/

namespace IotCamera.AudioHeader

open Memory AdtsLayout

def ADTS_HEADER_LENGTH : Word := 7

/-- `ADTS_HEADER`. -/
structure AdtsHeader where
  syncword : Word
  id : Word
  layer : Word
  protection_absent : Word
  profile : Word
  sf_index : Word
  private_bit : Word
  channel_configuration : Word
  original : Word
  home : Word
  copyright_identification_bit : Word
  copyright_identification_start : Word
  aac_frame_length : Word
  adts_buffer_fullness : Word
  no_raw_data_blocks_in_frame : Word
  deriving DecidableEq, Repr

/-- What `ReadFile` leaves in the buffer, and the size it returns. -/
structure FileRead where
  Adts_Headr_Buf : Nat → Byte
  readsize : Word

/-- The members as they are computed from the bytes of the header. -/
def detachedFields (Adts_Headr_Buf : Nat → Byte) : AdtsHeader :=
  let byte := fun position => promote (Adts_Headr_Buf position)
  { syncword := (byte 0 <<< 4) ||| (byte 1).sshiftRight 4
    id := (byte 1 &&& 0x08) >>> 3
    layer := (byte 1 &&& 0x06) >>> 1
    protection_absent := byte 1 &&& 0x01
    profile := (byte 2 &&& 0xc0) >>> 6
    sf_index := (byte 2 &&& 0x3c) >>> 2
    private_bit := (byte 2 &&& 0x02) >>> 1
    channel_configuration := ((byte 2 &&& 0x01) <<< 2) ||| ((byte 3 &&& 0xc0) >>> 6)
    original := (byte 3 &&& 0x20) >>> 5
    home := (byte 3 &&& 0x10) >>> 4
    copyright_identification_bit := (byte 3 &&& 0x08) >>> 3
    copyright_identification_start := byte 3 &&& (0x04 : Word).sshiftRight 2
    aac_frame_length :=
      ((byte 3 &&& 0x03) <<< 11) ||| ((byte 4 &&& 0xFF) <<< 3) ||| ((byte 5 &&& 0xE0) >>> 5)
    adts_buffer_fullness := ((byte 5 &&& 0x1f) <<< 6) ||| ((byte 6 &&& 0xfc) >>> 2)
    no_raw_data_blocks_in_frame := byte 6 &&& 0x03 }

/-- Read a header from the audio file. Without a syncword nothing is stored. -/
def Detach_Head_Aac (read : FileRead) (adtsheader : AdtsHeader) : AdtsHeader × Word :=
  if read.readsize = 0 then (adtsheader, read.readsize)
  else if read.Adts_Headr_Buf 0 = 0xFF ∧ promote (read.Adts_Headr_Buf 1) &&& 0xF0 = 0xF0 then
    (detachedFields read.Adts_Headr_Buf, read.readsize)
  else (adtsheader, read.readsize)

/-- Each member with the value that was packed. -/
def packedFields (header : Header) : AdtsHeader where
  syncword := header.syncword.setWidth 32
  id := header.id.setWidth 32
  layer := header.layer.setWidth 32
  protection_absent := header.protection_absent.setWidth 32
  profile := header.profile.setWidth 32
  sf_index := header.sampling_frequency_index.setWidth 32
  private_bit := header.private_bit.setWidth 32
  channel_configuration := header.channel_configuration.setWidth 32
  original := header.original.setWidth 32
  home := header.home.setWidth 32
  copyright_identification_bit := header.copyright_identification_bit.setWidth 32
  copyright_identification_start := header.copyright_identification_start.setWidth 32
  aac_frame_length := header.aac_frame_length.setWidth 32
  adts_buffer_fullness := header.adts_buffer_fullness.setWidth 32
  no_raw_data_blocks_in_frame := header.number_of_raw_data_blocks_in_frame.setWidth 32

/-- A member that has the value of a field is the field. -/
theorem stored {width : Nat} (member : Word) (value : BitVec width) (narrow : width ≤ 32)
    (same : member.toNat = value.toNat) : member = value.setWidth 32 := by
  apply BitVec.eq_of_toNat_eq
  rw [same, BitVec.toNat_setWidth_of_le narrow]

section Fields
variable (Adts_Headr_Buf : Nat → Byte) (header : Header) (packs : Packs Adts_Headr_Buf header)

include packs

/-- The fields of the second byte, and the syncword that ends in it. -/
theorem first_fields :
    (detachedFields Adts_Headr_Buf).syncword = header.syncword.setWidth 32 ∧
      (detachedFields Adts_Headr_Buf).id = header.id.setWidth 32 ∧
      (detachedFields Adts_Headr_Buf).layer = header.layer.setWidth 32 ∧
      (detachedFields Adts_Headr_Buf).protection_absent = header.protection_absent.setWidth 32 := by
  obtain ⟨zeroth, first, -, -, -, -, -⟩ := packs_bytes Adts_Headr_Buf header packs
  have syncword := header.syncword.isLt
  have id := header.id.isLt
  have layer := header.layer.isLt
  have absent := header.protection_absent.isLt
  have lower : ((promote (Adts_Headr_Buf 1)).sshiftRight 4).toNat = header.syncword.toNat % 16 := by
    rw [shift_value _ 4 (by rw [promote_value]; omega), promote_value, first]
    omega
  refine ⟨stored _ _ (by decide) ?_, stored _ _ (by decide) ?_, stored _ _ (by decide) ?_,
    stored _ _ (by decide) ?_⟩
  · have upper := promote_value (Adts_Headr_Buf 0)
    simp only [detachedFields]
    rw [joined_value _ _ 4 (by omega) (by omega), upper, lower, zeroth]
    omega
  · simp only [detachedFields]
    rw [field_value _ 0x08 1 3 rfl, first]
    omega
  · simp only [detachedFields]
    rw [field_value _ 0x06 2 1 rfl, first]
    omega
  · simp only [detachedFields]
    rw [low_field_value _ 0x01 1 rfl, first]
    omega

/-- The fields of the third byte, and the channels that begin in it. -/
theorem second_fields :
    (detachedFields Adts_Headr_Buf).profile = header.profile.setWidth 32 ∧
      (detachedFields Adts_Headr_Buf).sf_index = header.sampling_frequency_index.setWidth 32 ∧
      (detachedFields Adts_Headr_Buf).private_bit = header.private_bit.setWidth 32 ∧
      (detachedFields Adts_Headr_Buf).channel_configuration =
        header.channel_configuration.setWidth 32 := by
  obtain ⟨-, -, second, third, -, -, -⟩ := packs_bytes Adts_Headr_Buf header packs
  have profile := header.profile.isLt
  have index := header.sampling_frequency_index.isLt
  have bit := header.private_bit.isLt
  have channels := header.channel_configuration.isLt
  have byte := (Adts_Headr_Buf 3).isLt
  have upper : (promote (Adts_Headr_Buf 2) &&& 0x01).toNat = header.channel_configuration.toNat / 4 := by
    rw [low_field_value _ 0x01 1 rfl, second]
    omega
  have lower : ((promote (Adts_Headr_Buf 3) &&& 0xc0) >>> 6).toNat =
      header.channel_configuration.toNat % 4 := by
    have original := header.original.isLt
    have home := header.home.isLt
    have identification := header.copyright_identification_bit.isLt
    have start := header.copyright_identification_start.isLt
    have length := header.aac_frame_length.isLt
    rw [field_value _ 0xc0 2 6 rfl, third]
    omega
  refine ⟨stored _ _ (by decide) ?_, stored _ _ (by decide) ?_, stored _ _ (by decide) ?_,
    stored _ _ (by decide) ?_⟩
  · simp only [detachedFields]
    rw [field_value _ 0xc0 2 6 rfl, second]
    omega
  · simp only [detachedFields]
    rw [field_value _ 0x3c 4 2 rfl, second]
    omega
  · simp only [detachedFields]
    rw [field_value _ 0x02 1 1 rfl, second]
    omega
  · simp only [detachedFields]
    rw [joined_value _ _ 2 (by omega) (by omega), upper, lower]
    omega

/-- The single bits of the fourth byte. The last of them is not read where it stands: the
bit taken for it is the twelfth of the frame length. -/
theorem third_fields :
    (detachedFields Adts_Headr_Buf).original = header.original.setWidth 32 ∧
      (detachedFields Adts_Headr_Buf).home = header.home.setWidth 32 ∧
      (detachedFields Adts_Headr_Buf).copyright_identification_bit =
        header.copyright_identification_bit.setWidth 32 ∧
      (detachedFields Adts_Headr_Buf).copyright_identification_start.toNat =
        header.aac_frame_length.toNat / 2048 % 2 := by
  obtain ⟨-, -, -, third, -, -, -⟩ := packs_bytes Adts_Headr_Buf header packs
  have original := header.original.isLt
  have home := header.home.isLt
  have identification := header.copyright_identification_bit.isLt
  have start := header.copyright_identification_start.isLt
  have length := header.aac_frame_length.isLt
  refine ⟨stored _ _ (by decide) ?_, stored _ _ (by decide) ?_, stored _ _ (by decide) ?_, ?_⟩
  · simp only [detachedFields]
    rw [field_value _ 0x20 1 5 rfl, third]
    omega
  · simp only [detachedFields]
    rw [field_value _ 0x10 1 4 rfl, third]
    omega
  · simp only [detachedFields]
    rw [field_value _ 0x08 1 3 rfl, third]
    omega
  · simp only [detachedFields]
    rw [low_field_value _ _ 1 rfl, third]
    omega

/-- The fields from the frame length on. -/
theorem last_fields :
    (detachedFields Adts_Headr_Buf).aac_frame_length = header.aac_frame_length.setWidth 32 ∧
      (detachedFields Adts_Headr_Buf).adts_buffer_fullness =
        header.adts_buffer_fullness.setWidth 32 ∧
      (detachedFields Adts_Headr_Buf).no_raw_data_blocks_in_frame =
        header.number_of_raw_data_blocks_in_frame.setWidth 32 := by
  obtain ⟨-, -, -, third, fourth, fifth, sixth⟩ := packs_bytes Adts_Headr_Buf header packs
  have start := header.copyright_identification_start.isLt
  have length := header.aac_frame_length.isLt
  have fullness := header.adts_buffer_fullness.isLt
  have blocks := header.number_of_raw_data_blocks_in_frame.isLt
  have high : (promote (Adts_Headr_Buf 3) &&& 0x03).toNat = header.aac_frame_length.toNat / 2048 := by
    rw [low_field_value _ 0x03 2 rfl, third]
    omega
  have middle : (promote (Adts_Headr_Buf 4) &&& 0xFF).toNat =
      header.aac_frame_length.toNat / 8 % 256 := by
    rw [low_field_value _ 0xFF 8 rfl, fourth]
    omega
  have low : ((promote (Adts_Headr_Buf 5) &&& 0xE0) >>> 5).toNat = header.aac_frame_length.toNat % 8 := by
    rw [field_value _ 0xE0 3 5 rfl, fifth]
    omega
  have lower : ((promote (Adts_Headr_Buf 4) &&& 0xFF) <<< 3 |||
      (promote (Adts_Headr_Buf 5) &&& 0xE0) >>> 5).toNat = header.aac_frame_length.toNat % 2048 := by
    rw [joined_value _ _ 3 (by omega) (by omega), middle, low]
    omega
  have upper : (promote (Adts_Headr_Buf 5) &&& 0x1f).toNat = header.adts_buffer_fullness.toNat / 64 := by
    rw [low_field_value _ 0x1f 5 rfl, fifth]
    omega
  have rest : ((promote (Adts_Headr_Buf 6) &&& 0xfc) >>> 2).toNat =
      header.adts_buffer_fullness.toNat % 64 := by
    rw [field_value _ 0xfc 6 2 rfl, sixth]
    omega
  refine ⟨stored _ _ (by decide) ?_, stored _ _ (by decide) ?_, stored _ _ (by decide) ?_⟩
  · simp only [detachedFields]
    rw [BitVec.or_assoc, joined_value _ _ 11 (by omega) (by omega), high, lower]
    omega
  · simp only [detachedFields]
    rw [joined_value _ _ 6 (by omega) (by omega), upper, rest]
    omega
  · simp only [detachedFields]
    rw [low_field_value _ 0x03 2 rfl, sixth]
    omega

/-- A header with the syncword is recognised. -/
theorem syncword_recognised (sync : header.syncword = 0xFFF) :
    Adts_Headr_Buf 0 = 0xFF ∧ promote (Adts_Headr_Buf 1) &&& 0xF0 = 0xF0 := by
  obtain ⟨zeroth, first, -, -, -, -, -⟩ := packs_bytes Adts_Headr_Buf header packs
  have id := header.id.isLt
  have layer := header.layer.isLt
  have absent := header.protection_absent.isLt
  have ones : header.syncword.toNat = 0xFFF := congrArg BitVec.toNat sync
  have masked : ∀ value : Byte, 0xF0 ≤ value.toNat → promote value &&& 0xF0 = 0xF0 := by decide
  constructor
  · apply BitVec.eq_of_toNat_eq
    rw [zeroth, ones]
    rfl
  · exact masked (Adts_Headr_Buf 1) (by omega)

end Fields

/-- Seven bytes with the syncword are taken apart into the fields that were packed into
them exactly when `copyright_identification_start` is the twelfth bit of the frame
length. -/
theorem header_recovered_iff (Adts_Headr_Buf : Nat → Byte) (header : Header)
    (packs : Packs Adts_Headr_Buf header) (sync : header.syncword = 0xFFF) (adtsheader : AdtsHeader) :
    Detach_Head_Aac ⟨Adts_Headr_Buf, ADTS_HEADER_LENGTH⟩ adtsheader =
        (packedFields header, ADTS_HEADER_LENGTH) ↔
      header.copyright_identification_start.toNat = header.aac_frame_length.toNat / 2048 % 2 := by
  have returned : Detach_Head_Aac ⟨Adts_Headr_Buf, ADTS_HEADER_LENGTH⟩ adtsheader =
      (detachedFields Adts_Headr_Buf, ADTS_HEADER_LENGTH) := by
    rw [Detach_Head_Aac, if_neg (show ADTS_HEADER_LENGTH ≠ 0 by decide),
      if_pos (syncword_recognised _ header packs sync)]
  obtain ⟨syncword, id, layer, absent⟩ := first_fields Adts_Headr_Buf header packs
  obtain ⟨profile, index, bit, channels⟩ := second_fields Adts_Headr_Buf header packs
  obtain ⟨original, home, identification, start⟩ := third_fields Adts_Headr_Buf header packs
  obtain ⟨length, fullness, blocks⟩ := last_fields Adts_Headr_Buf header packs
  rw [returned, Prod.mk.injEq, and_iff_left rfl]
  constructor
  · intro same
    have copied : (detachedFields Adts_Headr_Buf).copyright_identification_start =
        header.copyright_identification_start.setWidth 32 :=
      congrArg AdtsHeader.copyright_identification_start same
    rw [← start, copied, BitVec.toNat_setWidth_of_le (by decide)]
  · intro same
    have copied : (detachedFields Adts_Headr_Buf).copyright_identification_start =
        header.copyright_identification_start.setWidth 32 :=
      stored _ _ (by decide) (start.trans same.symm)
    rw [packedFields, ← syncword, ← id, ← layer, ← absent, ← profile, ← index, ← bit, ← channels,
      ← original, ← home, ← identification, ← copied, ← length, ← fullness, ← blocks]

/-- A header of a frame of `length` bytes that starts a copyright identification. -/
def startingHeader (length : BitVec 13) : Header :=
  ⟨0xFFF, 0, 0, 1, 1, 4, 0, 2, 0, 0, 0, 1, length, 0x7FF, 0⟩

/-- The bytes of such headers, for 100 and for 2148 bytes. -/
def shortBytes (position : Nat) : Byte := [0xFF, 0xF1, 0x50, 0x84, 0x0C, 0x9F, 0xFC].getD position 0

def longBytes (position : Nat) : Byte := [0xFF, 0xF1, 0x50, 0x85, 0x0C, 0x9F, 0xFC].getD position 0

/-- The header of a frame of 2148 bytes is recovered with the start of its copyright
identification. -/
theorem header_recovered_long :
    Packs longBytes (startingHeader 2148) ∧
      Detach_Head_Aac ⟨longBytes, ADTS_HEADER_LENGTH⟩ (packedFields (startingHeader 0)) =
        (packedFields (startingHeader 2148), ADTS_HEADER_LENGTH) :=
  ⟨by decide, (header_recovered_iff longBytes (startingHeader 2148) (by decide) rfl
    (packedFields (startingHeader 0))).mpr (by decide)⟩

/-- In the header of a short frame the start of a copyright identification is missed. -/
theorem start_bit_missed :
    Packs shortBytes (startingHeader 100) ∧ (startingHeader 100).syncword = 0xFFF ∧
      (Detach_Head_Aac ⟨shortBytes, ADTS_HEADER_LENGTH⟩
        (packedFields (startingHeader 0))).1.copyright_identification_start = 0 ∧
      (packedFields (startingHeader 100)).copyright_identification_start = 1 := by
  decide

end IotCamera.AudioHeader
