import IotCamera.Base.ShiftRegister
import IotCamera.Ts.Sends

/-!
# The checksum of a section, bit by bit

CRC-32/MPEG-2 divides the bits of a message, the highest of each byte first, in a
register of 32 bits that starts with ones. `calc_crc32` takes a byte at a time from its
table, and both tables of the muxer store the bytes of the result behind the section they
were computed from. A receiver that divides the section together with these bytes is left
with an empty register.
-/

namespace IotCamera.SectionCheck

open Memory BitStrings ShiftRegister Crc Packet Sends

/-- The polynomial of CRC-32, without its leading term. -/
def polynomial : Word := 0x04C11DB7

/-- The checksum of a message by its definition, one bit after the other. -/
def crc32Mpeg2 (message : List Byte) : Word := feed polynomial 0xFFFFFFFF (bits message)

/-- The 256 entries in the source are what the strings of eight bits make of an empty
register. -/
theorem crc_tab_table : crcTab = table polynomial 8 := by
  decide +kernel

/-- A pass of the loop enters the eight bits of its byte. -/
theorem table_pass (crc : Word) (byte : Byte) :
    (crc <<< 8) ^^^ crcTab.getD (((crc >>> 24) ^^^ promote byte) &&& 0xff).toNat 0 =
      feed polynomial crc (digits 8 byte.toNat) := by
  have upper : crc.toNat >>> 24 < 2 ^ 8 := by
    rw [Nat.shiftRight_eq_div_pow]
    have bound := crc.isLt
    omega
  have small : crc.toNat >>> 24 ^^^ byte.toNat < 2 ^ 8 := Nat.xor_lt_two_pow upper byte.isLt
  have index : (((crc >>> 24) ^^^ promote byte) &&& 0xff).toNat = crc.toNat >>> 24 ^^^ byte.toNat := by
    rw [BitVec.toNat_and, BitVec.toNat_xor, BitVec.toNat_ushiftRight, promote_value]
    change _ &&& (2 ^ 8 - 1) = _
    rw [Nat.and_two_pow_sub_one_eq_mod, Nat.mod_eq_of_lt small]
  rw [feed_at_once polynomial crc 8 byte.toNat (by decide), index, crc_tab_table]
  exact congrArg (crc <<< 8 ^^^ ·) (table_entry polynomial 8 _ small)

/-- The loop over the bytes enters all their bits. -/
theorem calc_crc32_feed (data : List Byte) : calcCrc32 data = crc32Mpeg2 data := by
  have loop : ∀ crc : Word, data.foldl (fun (crc : Word) (byte : Byte) =>
      (crc <<< 8) ^^^ crcTab.getD (((crc >>> 24) ^^^ promote byte) &&& 0xff).toNat 0) crc =
        feed polynomial crc (bits data) := by
    induction data with
    | nil => exact fun crc => rfl
    | cons byte rest inductionHypothesis =>
      intro crc
      rw [List.foldl_cons, table_pass, inductionHypothesis, bits_cons, feed_append]
  exact loop 0xFFFFFFFF

/-- Swapped and then copied as it lies in memory, a word has its highest byte first. -/
theorem stored_bytes (word : Word) :
    memoryImage (zwgNtohl word) = [low (word >>> 24), low (word >>> 16), low (word >>> 8), low word] := by
  simp only [memoryImage, zwgNtohl, bswap32C, bswap16C, List.cons.injEq, and_true]
  refine ⟨?_, ?_, ?_, ?_⟩
  all_goals
    apply BitVec.eq_of_getLsbD_eq
    intro index bound
    simp only [low, BitVec.getLsbD_or, BitVec.getLsbD_and, BitVec.getLsbD_shiftLeft,
      BitVec.getLsbD_ushiftRight, BitVec.getLsbD_setWidth]
    interval_cases index <;> simp

/-- The stored bytes are the bits of the word in order. -/
theorem stored_bits (word : Word) : bits (memoryImage (zwgNtohl word)) = digits 32 word.toNat := by
  have byte : ∀ value : Word, digits 8 (low value).toNat = digits 8 value.toNat := by
    intro value
    apply digits_congr
    rw [low, BitVec.toNat_setWidth, Nat.mod_mod]
  rw [stored_bytes]
  simp only [bits_cons, byte, BitVec.toNat_ushiftRight]
  generalize word.toNat = value
  have parts : digits (8 + (8 + (8 + 8))) value = digits 8 (value >>> 24) ++
      (digits 8 (value >>> 16) ++ (digits 8 (value >>> 8) ++ digits 8 value)) := by
    rw [digits_append, digits_append, digits_append]
  rw [show bits [] = [] from rfl, List.append_nil, ← parts]

/-- A checksum behind its section leaves nothing. -/
theorem checksum_clears (data : List Byte) :
    calcCrc32 (data ++ memoryImage (zwgNtohl (calcCrc32 data))) = 0 := by
  rw [calc_crc32_feed, crc32Mpeg2, bits, List.flatMap_append, feed_append]
  change feed polynomial (crc32Mpeg2 data) (bits _) = 0
  rw [stored_bits, calc_crc32_feed]
  exact feed_whole polynomial (crc32Mpeg2 data)

/-- Whatever bytes a section has, its checksum is the one of CRC-32/MPEG-2, and the four
bytes that are stored behind it make the checksum of the whole zero. So do those behind the
sections of the association table and of the map table in every packet that holds one. -/
theorem section_check_passes :
    (∀ data : List Byte, calcCrc32 data = crc32Mpeg2 data ∧
      calcCrc32 (data ++ memoryImage (zwgNtohl (calcCrc32 data))) = 0) ∧
    ∀ session : TspkgSession,
      calcCrc32 (((writeStructPat session).2.drop 5).take (12 + 4)) = 0 ∧
        calcCrc32 (((writeStructPmt session).2.drop 5).take (22 + 4)) = 0 := by
  refine ⟨fun data => ⟨calc_crc32_feed data, checksum_clears data⟩, fun session => ?_⟩
  constructor
  · rw [pat_packet]
    exact checksum_clears tspat.bytes
  · rw [pmt_packet]
    exact checksum_clears tspmt.bytes

end IotCamera.SectionCheck
