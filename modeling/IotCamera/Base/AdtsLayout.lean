import IotCamera.Base.BitStrings
import IotCamera.Base.Buffers

/-!
# The bit layout of an ADTS header

An ADTS frame begins with fifteen fields of fixed widths that together have seven
bytes, most significant bit first. Most of them share a byte with others, and some
straddle two or three bytes. `Packs` says which bytes hold which values, bit by bit;
`packs_bytes` says it byte by byte.
-/

namespace AdtsLayout

open BitStrings

/-- Any values of the fields, in their order. -/
structure Header where
  syncword : BitVec 12
  id : BitVec 1
  layer : BitVec 2
  protection_absent : BitVec 1
  profile : BitVec 2
  sampling_frequency_index : BitVec 4
  private_bit : BitVec 1
  channel_configuration : BitVec 3
  original : BitVec 1
  home : BitVec 1
  copyright_identification_bit : BitVec 1
  copyright_identification_start : BitVec 1
  aac_frame_length : BitVec 13
  adts_buffer_fullness : BitVec 11
  number_of_raw_data_blocks_in_frame : BitVec 2
  deriving DecidableEq, Repr

/-- The bits of a field. -/
def field {width : Nat} (value : BitVec width) : List Bool := digits width value.toNat

/-- The bits of a header. -/
def Header.layout (header : Header) : List Bool :=
  field header.syncword ++ field header.id ++ field header.layer ++
    field header.protection_absent ++ field header.profile ++
    field header.sampling_frequency_index ++ field header.private_bit ++
    field header.channel_configuration ++ field header.original ++ field header.home ++
    field header.copyright_identification_bit ++ field header.copyright_identification_start ++
    field header.aac_frame_length ++ field header.adts_buffer_fullness ++
    field header.number_of_raw_data_blocks_in_frame

/-- The seven bytes at `ptr` pack the fields. -/
def Packs (ptr : Nat → BitVec 8) (header : Header) : Prop :=
  bits (Buffers.slice ptr 0 7) = header.layout

instance (ptr : Nat → BitVec 8) (header : Header) : Decidable (Packs ptr header) :=
  inferInstanceAs (Decidable (_ = _))

/-- A header as one number. -/
def Header.number (header : Header) : Nat :=
  (((((((((((((header.syncword.toNat * 2 ^ 1 + header.id.toNat) * 2 ^ 2 + header.layer.toNat) * 2 ^ 1 +
    header.protection_absent.toNat) * 2 ^ 2 + header.profile.toNat) * 2 ^ 4 +
    header.sampling_frequency_index.toNat) * 2 ^ 1 + header.private_bit.toNat) * 2 ^ 3 +
    header.channel_configuration.toNat) * 2 ^ 1 + header.original.toNat) * 2 ^ 1 +
    header.home.toNat) * 2 ^ 1 + header.copyright_identification_bit.toNat) * 2 ^ 1 +
    header.copyright_identification_start.toNat) * 2 ^ 13 + header.aac_frame_length.toNat) * 2 ^ 11 +
    header.adts_buffer_fullness.toNat) * 2 ^ 2 + header.number_of_raw_data_blocks_in_frame.toNat

/-- The fields of a header in order are the digits of its number. -/
theorem layout_number (header : Header) : header.layout = digits 56 header.number := by
  simp only [Header.layout, field]
  rw [digits_join _ _ _ _ header.id.isLt, digits_join _ _ _ _ header.layer.isLt,
    digits_join _ _ _ _ header.protection_absent.isLt, digits_join _ _ _ _ header.profile.isLt,
    digits_join _ _ _ _ header.sampling_frequency_index.isLt,
    digits_join _ _ _ _ header.private_bit.isLt,
    digits_join _ _ _ _ header.channel_configuration.isLt,
    digits_join _ _ _ _ header.original.isLt, digits_join _ _ _ _ header.home.isLt,
    digits_join _ _ _ _ header.copyright_identification_bit.isLt,
    digits_join _ _ _ _ header.copyright_identification_start.isLt,
    digits_join _ _ _ _ header.aac_frame_length.isLt,
    digits_join _ _ _ _ header.adts_buffer_fullness.isLt,
    digits_join _ _ _ _ header.number_of_raw_data_blocks_in_frame.isLt]
  rfl

/-- The bytes of a header, by its fields. -/
structure Bytes (ptr : Nat → BitVec 8) (header : Header) : Prop where
  zeroth : (ptr 0).toNat = header.syncword.toNat / 16
  first : (ptr 1).toNat = header.syncword.toNat % 16 * 16 + header.id.toNat * 8 +
    header.layer.toNat * 2 + header.protection_absent.toNat
  second : (ptr 2).toNat = header.profile.toNat * 64 + header.sampling_frequency_index.toNat * 4 +
    header.private_bit.toNat * 2 + header.channel_configuration.toNat / 4
  third : (ptr 3).toNat = header.channel_configuration.toNat % 4 * 64 + header.original.toNat * 32 +
    header.home.toNat * 16 + header.copyright_identification_bit.toNat * 8 +
    header.copyright_identification_start.toNat * 4 + header.aac_frame_length.toNat / 2048
  fourth : (ptr 4).toNat = header.aac_frame_length.toNat / 8 % 256
  fifth : (ptr 5).toNat = header.aac_frame_length.toNat % 8 * 32 +
    header.adts_buffer_fullness.toNat / 64
  sixth : (ptr 6).toNat = header.adts_buffer_fullness.toNat % 64 * 4 +
    header.number_of_raw_data_blocks_in_frame.toNat

/-- The fields of a header, grouped into bytes. -/
theorem number_bytes (header : Header) :
    header.number =
      (((((header.syncword.toNat / 16 * 2 ^ 8 +
        (header.syncword.toNat % 16 * 16 + header.id.toNat * 8 + header.layer.toNat * 2 +
          header.protection_absent.toNat)) * 2 ^ 8 +
        (header.profile.toNat * 64 + header.sampling_frequency_index.toNat * 4 +
          header.private_bit.toNat * 2 + header.channel_configuration.toNat / 4)) * 2 ^ 8 +
        (header.channel_configuration.toNat % 4 * 64 + header.original.toNat * 32 +
          header.home.toNat * 16 + header.copyright_identification_bit.toNat * 8 +
          header.copyright_identification_start.toNat * 4 + header.aac_frame_length.toNat / 2048)) * 2 ^ 8 +
        header.aac_frame_length.toNat / 8 % 256) * 2 ^ 8 +
        (header.aac_frame_length.toNat % 8 * 32 + header.adts_buffer_fullness.toNat / 64)) * 2 ^ 8 +
        (header.adts_buffer_fullness.toNat % 64 * 4 +
          header.number_of_raw_data_blocks_in_frame.toNat) := by
  rw [Header.number]
  omega

/-- The first byte of two equal bit strings. -/
theorem first_byte (byte : BitVec 8) (value : Nat) (small : value < 2 ^ 8) (rest rest' : List Bool)
    (same : digits 8 byte.toNat ++ rest = digits 8 value ++ rest') :
    byte.toNat = value ∧ rest = rest' := by
  obtain ⟨front, back⟩ := List.append_inj same (by simp)
  refine ⟨?_, back⟩
  have value_same := digits_injective 8 _ _ front
  rwa [Nat.mod_eq_of_lt byte.isLt, Nat.mod_eq_of_lt small] at value_same

/-- Bytes that pack a header are made of its fields. -/
theorem packs_bytes (ptr : Nat → BitVec 8) (header : Header) (packs : Packs ptr header) :
    Bytes ptr header := by
  have syncword := header.syncword.isLt
  have id := header.id.isLt
  have layer := header.layer.isLt
  have absent := header.protection_absent.isLt
  have profile := header.profile.isLt
  have index := header.sampling_frequency_index.isLt
  have bit := header.private_bit.isLt
  have channels := header.channel_configuration.isLt
  have original := header.original.isLt
  have home := header.home.isLt
  have identification := header.copyright_identification_bit.isLt
  have start := header.copyright_identification_start.isLt
  have length := header.aac_frame_length.isLt
  have fullness := header.adts_buffer_fullness.isLt
  have blocks := header.number_of_raw_data_blocks_in_frame.isLt
  have same : bits [ptr 0, ptr 1, ptr 2, ptr 3, ptr 4, ptr 5, ptr 6] =
      digits (8 + 8 + 8 + 8 + 8 + 8 + 8) header.number := packs.trans (layout_number header)
  rw [number_bytes, ← digits_join _ _ _ _ (by omega), ← digits_join _ _ _ _ (by omega),
    ← digits_join _ _ _ _ (by omega), ← digits_join _ _ _ _ (by omega),
    ← digits_join _ _ _ _ (by omega), ← digits_join _ _ _ _ (by omega)] at same
  simp only [bits_cons, List.append_assoc] at same
  obtain ⟨zeroth, same⟩ := first_byte _ _ (by omega) _ _ same
  obtain ⟨first, same⟩ := first_byte _ _ (by omega) _ _ same
  obtain ⟨second, same⟩ := first_byte _ _ (by omega) _ _ same
  obtain ⟨third, same⟩ := first_byte _ _ (by omega) _ _ same
  obtain ⟨fourth, same⟩ := first_byte _ _ (by omega) _ _ same
  obtain ⟨fifth, same⟩ := first_byte _ _ (by omega) _ _ same
  obtain ⟨sixth, -⟩ := first_byte _ _ (by omega) _ [] (same.trans (List.append_nil _).symm)
  exact ⟨zeroth, first, second, third, fourth, fifth, sixth⟩

end AdtsLayout
