import Mathlib.Tactic.IntervalCases
import IotCamera.Ts.Mux

/-!
# What a receiver reads in a transport packet

These definitions follow the transport stream layout and not the muxer: the
fields of the four-byte header, the payload behind an optional adaptation
field, the 33-bit presentation time stamp of a PES header and the clock
reference of an adaptation field. A field that is absent or whose marker bits
are missing is `none`.

The laws state that each field the muxer packs is the field the receiver reads.
-/

namespace IotCamera.Demux

open Memory Packet Mux

/-- The byte at a position; packets are read only inside their 188 bytes. -/
def byteAt (packet : List Byte) (position : Nat) : Byte := packet.getD position 0

def pid (packet : List Byte) : Word :=
  (promote (byteAt packet 1) &&& 0x1f) <<< 8 ||| promote (byteAt packet 2)

def payloadUnitStart (packet : List Byte) : Bool := (byteAt packet 1).getLsbD 6

def adaptationControl (packet : List Byte) : BitVec 2 := (byteAt packet 3 >>> 4).setWidth 2

def continuityCounter (packet : List Byte) : BitVec 4 := (byteAt packet 3).setWidth 4

/-- The payload: behind the header, and behind the adaptation field with its
length byte when the control field announces both. -/
def payload (packet : List Byte) : List Byte :=
  if adaptationControl packet = 3 then packet.drop (4 + (1 + (byteAt packet 4).toNat))
  else packet.drop 4

/-- The 33 bits of a time stamp, if all three marker bits are set. -/
def decodePts : List Byte → Option (BitVec 33)
  | [b0, b1, b2, b3, b4] =>
    if b0.getLsbD 0 ∧ b2.getLsbD 0 ∧ b4.getLsbD 0 then
      some ((b0 >>> 1 &&& 0x07).setWidth 33 <<< 30 ||| b1.setWidth 33 <<< 22 |||
        (b2 >>> 1).setWidth 33 <<< 15 ||| b3.setWidth 33 <<< 7 ||| (b4 >>> 1).setWidth 33)
    else none
  | _ => none

/-- The time stamp of a packet that starts a PES packet: five bytes behind the
nine fixed ones. -/
def pts (packet : List Byte) : Option (BitVec 33) :=
  decodePts (((payload packet).drop 9).take 5)

/-- Whether the adaptation field announces a clock reference. -/
def pcrFlag (packet : List Byte) : Bool :=
  adaptationControl packet = 3 ∧ byteAt packet 4 ≠ 0 ∧ (byteAt packet 5).getLsbD 4

/-- The base and the extension of a clock reference. -/
def decodePcr : List Byte → Option (BitVec 33 × BitVec 9)
  | [b0, b1, b2, b3, b4, b5] =>
    some (b0.setWidth 33 <<< 25 ||| b1.setWidth 33 <<< 17 ||| b2.setWidth 33 <<< 9 |||
        b3.setWidth 33 <<< 1 ||| (b4 >>> 7).setWidth 33,
      (b4 &&& 0x01).setWidth 9 <<< 8 ||| b5.setWidth 9)
  | _ => none

/-- The six clock bytes of a packet that announces them. -/
def pcrField (packet : List Byte) : Option (List Byte) :=
  if pcrFlag packet then some ((packet.drop 6).take 6) else none

/-- The clock reference of a packet. -/
def pcr (packet : List Byte) : Option (BitVec 33 × BitVec 9) :=
  (pcrField packet).bind decodePcr

section Header
variable (header : TsPacketHeader) (body : List Byte)

/-- A packet header has four bytes. -/
@[simp] theorem header_length : header.bytes.length = 4 := rfl

/-- The header's bytes lie in front of the body. -/
theorem header_byte_at (position : Nat) (inside : position < 4) :
    byteAt (header.bytes ++ body) position = byteAt header.bytes position := by
  simp only [byteAt, List.getD_eq_getElem?_getD]
  rw [List.getElem?_append_left inside]

/-- Behind the header, positions count from the start of the body. -/
theorem body_byte_at (position : Nat) :
    byteAt (header.bytes ++ body) (4 + position) = byteAt body position := by
  simp only [byteAt, List.getD_eq_getElem?_getD]
  rw [List.getElem?_append_right (by simp)]
  simp

/-- Dropping the header and more is dropping from the body. -/
theorem drop_header (count : Nat) : (header.bytes ++ body).drop (4 + count) = body.drop count := by
  rw [← header_length header, List.drop_length_add_append]

/-- Its first byte is the sync byte. -/
theorem header_sync : byteAt (header.bytes ++ body) 0 = header.syncByte := rfl

/-- The identifier is read back. -/
theorem header_pid : pid (header.bytes ++ body) = promote header.pid := by
  rw [pid, header_byte_at header body 1 (by decide), header_byte_at header body 2 (by decide)]
  apply BitVec.eq_of_getLsbD_eq
  intro index bound
  simp only [byteAt, TsPacketHeader.bytes, promote, low, List.getD_cons_succ, List.getD_cons_zero,
    BitVec.getLsbD_or, BitVec.getLsbD_and, BitVec.getLsbD_shiftLeft, BitVec.getLsbD_ushiftRight,
    BitVec.getLsbD_setWidth]
  interval_cases index <;> simp

/-- Whether a unit starts is read back. -/
theorem header_payload_unit_start :
    payloadUnitStart (header.bytes ++ body) = header.playInit.getLsbD 0 := by
  rw [payloadUnitStart, header_byte_at header body 1 (by decide)]
  simp [byteAt, TsPacketHeader.bytes, promote, low]

/-- The control of the adaptation field is read back. -/
theorem header_adaptation_control :
    adaptationControl (header.bytes ++ body) = header.adaFieldC := by
  rw [adaptationControl, header_byte_at header body 3 (by decide)]
  apply BitVec.eq_of_getLsbD_eq
  intro index bound
  interval_cases index <;> simp [byteAt, TsPacketHeader.bytes, promote, low]

/-- The counter is read back. -/
theorem header_continuity_counter :
    continuityCounter (header.bytes ++ body) = header.contiCter := by
  rw [continuityCounter, header_byte_at header body 3 (by decide)]
  apply BitVec.eq_of_getLsbD_eq
  intro index bound
  interval_cases index <;> simp [byteAt, TsPacketHeader.bytes, promote, low]

/-- The payload is the body, without its adaptation field when there is one. -/
theorem header_payload : payload (header.bytes ++ body) =
    if header.adaFieldC = 3 then body.drop (1 + (byteAt body 0).toNat) else body := by
  have lengthByte : byteAt (header.bytes ++ body) 4 = byteAt body 0 := body_byte_at header body 0
  rw [payload, header_adaptation_control, lengthByte]
  split
  · exact drop_header header body (1 + (byteAt body 0).toNat)
  · exact List.drop_left' rfl

end Header

/-- The packed time stamp decodes to the value it was packed from, with all
marker bits set. -/
theorem decode_pts_bytes (value : Word) :
    decodePts (ptsBytes value) = some (value.setWidth 33) := by
  simp only [decodePts, ptsBytes]
  rw [if_pos (by simp [low])]
  congr 1
  apply BitVec.eq_of_getLsbD_eq
  intro index bound
  -- the bit is read through the packing once, before the positions are told apart
  simp only [low, BitVec.getLsbD_or, BitVec.getLsbD_and, BitVec.getLsbD_shiftLeft,
    BitVec.getLsbD_ushiftRight, BitVec.getLsbD_setWidth]
  interval_cases index <;> simp

/-- The packed clock reference decodes to the quotient and the remainder by 300.
The remainder has no bit above the eighth, so it does not reach the base. -/
theorem decode_pcr_bytes (value : BitVec 64) :
    decodePcr (pcrBytes value) = some ((value / 300).setWidth 33, (value % 300).setWidth 9) := by
  have small : (value % 300).toNat < 2 ^ 15 := by
    rw [BitVec.toNat_umod]
    exact Nat.lt_trans (Nat.mod_lt value.toNat (by decide)) (by decide)
  have fifteen : (value % 300).getLsbD 15 = false := Nat.testBit_lt_two_pow small
  simp only [decodePcr, pcrBytes, Option.some.injEq, Prod.mk.injEq]
  generalize value / 300 = base
  generalize value % 300 = extension at fifteen
  rw [BitVec.getLsbD_eq_getElem (by decide)] at fifteen
  constructor
  · apply BitVec.eq_of_getLsbD_eq
    intro index bound
    simp only [low, BitVec.getLsbD_or, BitVec.getLsbD_and, BitVec.getLsbD_shiftLeft,
      BitVec.getLsbD_ushiftRight, BitVec.getLsbD_setWidth]
    interval_cases index <;> simp [fifteen]
  · apply BitVec.eq_of_getLsbD_eq
    intro index bound
    interval_cases index <;> simp [low]

end IotCamera.Demux
