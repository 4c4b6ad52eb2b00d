import IotCamera.Base.AdtsLayout
import IotCamera.Adec.Adts

/-!
# Reading a packed ADTS header

`parseADTSHeader` reads the second to the sixth byte of a header. Each field it takes
is compared with the value that was packed there, for any values of all the fields. The
upper bit of the channel configuration is shifted by three places instead of two, and the
rate of the index 12 is not the one that `AddADTS` writes that index for.
-/

namespace IotCamera.Adec

open Memory AdtsLayout

/-- The standard rates, by their index. -/
def standardRates : List Nat :=
  [96000, 88200, 64000, 48000, 44100, 32000, 24000, 22050, 16000, 12000, 11025, 8000, 7350]

section Fields
variable (pConf : SampleADecConfig) (ptr : Nat → Byte) (header : Header) (packs : Packs ptr header)

include packs

/-- The length of the header is recovered. -/
theorem parse_header_length :
    (parseADTSHeader pConf ptr).mHeaderLen = if header.protection_absent = 1 then 7 else 9 := by
  have bytes := packs_bytes ptr header packs
  have absent := header.protection_absent.isLt
  have selected : (promote (ptr 1) &&& 0x01).toNat = header.protection_absent.toNat := by
    rw [low_field_value (ptr 1) 0x01 1 rfl, bytes.first]
    omega
  have same : promote (ptr 1) &&& 0x01 = 1 ↔ header.protection_absent = 1 := by
    rw [← BitVec.toNat_inj, ← BitVec.toNat_inj, selected]
    rfl
  simp only [parseADTSHeader, same]

/-- The upper bit of the channel configuration counts twice as much as it should. -/
theorem parse_channels :
    (parseADTSHeader pConf ptr).mChannelCnt.toNat =
      header.channel_configuration.toNat / 4 * 8 + header.channel_configuration.toNat % 4 := by
  have bytes := packs_bytes ptr header packs
  have channels := header.channel_configuration.isLt
  have start := header.copyright_identification_start.isLt
  have bit := header.copyright_identification_bit.isLt
  have home := header.home.isLt
  have original := header.original.isLt
  have length := header.aac_frame_length.isLt
  have upper : (promote (ptr 2) &&& 0x1).toNat = header.channel_configuration.toNat / 4 := by
    rw [low_field_value (ptr 2) 0x1 1 rfl, bytes.second]
    omega
  have lower : ((promote (ptr 3) &&& 0xc0).sshiftRight 6).toNat =
      header.channel_configuration.toNat % 4 := by
    rw [signed_field_value (ptr 3) 0xc0 2 6 rfl, bytes.third]
    omega
  simp only [parseADTSHeader]
  rw [joined_value _ _ 3 (by omega) (by omega), upper, lower]
  omega

/-- The length of the frame is recovered. -/
theorem parse_length :
    (parseADTSHeader pConf ptr).mFirstPktLen.toNat = header.aac_frame_length.toNat := by
  have bytes := packs_bytes ptr header packs
  have start := header.copyright_identification_start.isLt
  have length := header.aac_frame_length.isLt
  have fullness := header.adts_buffer_fullness.isLt
  rw [parse_frame_length, frameLength, bytes.third, bytes.fourth, bytes.fifth]
  omega

/-- The rate of the index is recovered. -/
theorem parse_rate :
    (parseADTSHeader pConf ptr).mSampleRate =
      map_FreqIdx_to_SampleRate (header.sampling_frequency_index.setWidth 32) := by
  have bytes := packs_bytes ptr header packs
  have bit := header.private_bit.isLt
  have channels := header.channel_configuration.isLt
  have index : (promote (ptr 2) &&& 0x3c).sshiftRight 2 =
      header.sampling_frequency_index.setWidth 32 := by
    have frequency := header.sampling_frequency_index.isLt
    rw [← BitVec.toNat_inj, signed_field_value (ptr 2) 0x3c 4 2 rfl, bytes.second,
      BitVec.toNat_setWidth]
    omega
  simp only [parseADTSHeader, index]

end Fields

/-- What is read of a header is what was packed into it: the length of the header by
`protection_absent`, the channels, the frame length, and the standard rate of the index,
for which `AddADTS` writes that index. -/
structure Recovers (config : SampleADecConfig) (header : Header) : Prop where
  headerLength : config.mHeaderLen = if header.protection_absent = 1 then 7 else 9
  channels : config.mChannelCnt.toNat = header.channel_configuration.toNat
  length : config.mFirstPktLen.toNat = header.aac_frame_length.toNat
  rate : standardRates[header.sampling_frequency_index.toNat]? = some config.mSampleRate.toNat
  index : freqIdx 5 config.mSampleRate.toNat = header.sampling_frequency_index.setWidth 32

/-- Every index below 12 has its standard rate, and `AddADTS` writes that index for it. -/
theorem rate_recovered_iff (index : BitVec 4) (known : index.toNat ≤ 12) :
    (standardRates[index.toNat]? = some (map_FreqIdx_to_SampleRate (index.setWidth 32)).toNat ∧
      freqIdx 5 (map_FreqIdx_to_SampleRate (index.setWidth 32)).toNat = index.setWidth 32) ↔
      index ≠ 12 := by
  revert index
  decide

/-- Parsing undoes packing exactly for at most three channels and an index other than
12. -/
theorem parse_undoes_packing_iff (pConf : SampleADecConfig) (ptr : Nat → Byte) (header : Header)
    (packs : Packs ptr header) (known : header.sampling_frequency_index.toNat ≤ 12) :
    Recovers (parseADTSHeader pConf ptr) header ↔
      header.channel_configuration.toNat ≤ 3 ∧ header.sampling_frequency_index ≠ 12 := by
  have channels := parse_channels pConf ptr header packs
  have rate := parse_rate pConf ptr header packs
  have bound := header.channel_configuration.isLt
  rw [← rate_recovered_iff header.sampling_frequency_index known, ← rate]
  constructor
  · intro recovers
    have same := recovers.channels
    exact ⟨by omega, recovers.rate, recovers.index⟩
  · rintro ⟨few, standard, index⟩
    exact ⟨parse_header_length pConf ptr header packs, by omega,
      parse_length pConf ptr header packs, standard, index⟩

/-- A header of a frame of 100 bytes, with the given index and channels. -/
def plainHeader (index : BitVec 4) (channels : BitVec 3) : Header :=
  ⟨0xFFF, 0, 0, 1, 1, index, 0, channels, 0, 0, 0, 0, 100, 0x7FF, 0⟩

/-- The bytes of a stereo header. -/
def stereoBytes (position : Nat) : Byte := [0xFF, 0xF1, 0x50, 0x80, 0x0C, 0x9F, 0xFC].getD position 0

/-- A stereo header is recovered. -/
theorem parse_undoes_packing_stereo :
    Packs stereoBytes (plainHeader 4 2) ∧
      Recovers (parseADTSHeader loadSampleADecConfig stereoBytes) (plainHeader 4 2) :=
  ⟨by decide, (parse_undoes_packing_iff loadSampleADecConfig stereoBytes (plainHeader 4 2)
    (by decide) (by decide)).mpr (by decide)⟩

/-- The bytes of a header with six channels, and of one with the index 12. -/
def sixBytes (position : Nat) : Byte := [0xFF, 0xF1, 0x51, 0x80, 0x0C, 0x9F, 0xFC].getD position 0

def slowBytes (position : Nat) : Byte := [0xFF, 0xF1, 0x70, 0x80, 0x0C, 0x9F, 0xFC].getD position 0

/-- Six channels are read as ten, and the rate of the index 12 as 7370. -/
theorem channels_and_rate_misread :
    (Packs sixBytes (plainHeader 4 6) ∧
        (parseADTSHeader loadSampleADecConfig sixBytes).mChannelCnt = 10 ∧
        ¬ Recovers (parseADTSHeader loadSampleADecConfig sixBytes) (plainHeader 4 6)) ∧
      Packs slowBytes (plainHeader 12 2) ∧
        (parseADTSHeader loadSampleADecConfig slowBytes).mSampleRate = 7370 ∧
        ¬ Recovers (parseADTSHeader loadSampleADecConfig slowBytes) (plainHeader 12 2) := by
  refine ⟨⟨by decide, by decide, fun recovers => ?_⟩, by decide, by decide, fun recovers => ?_⟩
  · have same := recovers.channels
    revert same
    decide
  · have same := recovers.index
    revert same
    decide

end IotCamera.Adec
