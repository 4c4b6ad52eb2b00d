import IotCamera.Kcp.Ikcp

/-!
# What a KCP session puts on the wire

The packets that `ikcp_flush` writes are read back by `ikcp_input`, also when a datagram
arrives cut off at its end: then the packets that are still whole are read, and nothing
else of it.
-/

namespace IotCamera.Kcp.Wire

open Memory Ikcp
open Receive (IKCP_CMD_PUSH IKCP_CMD_ACK IKCP_CMD_WASK IKCP_CMD_WINS IKCP_OVERHEAD ikcpDecode32u)

/-- The header of a packet. -/
def header (packet : Packet) : List Byte :=
  ikcpEncode32u packet.conv ++ [packet.cmd, packet.frg] ++ ikcpEncode16u packet.wnd ++
    ikcpEncode32u packet.ts ++ ikcpEncode32u packet.sn ++ ikcpEncode32u packet.una ++
    ikcpEncode32u (BitVec.ofNat 32 packet.data.length)

def encode (packet : Packet) : List Byte := header packet ++ packet.data

/-- A segment as it is sent. -/
def packetOf (seg : Segment) : Packet :=
  ⟨seg.conv, low seg.cmd, low seg.frg, seg.wnd.setWidth 16, seg.ts, seg.sn, seg.una, seg.data⟩

/-- A segment with its data is written as its packet. -/
theorem encode_packet (seg : Segment) : ikcpEncodeSeg seg ++ seg.data = encode (packetOf seg) := rfl

/-- A header has 24 bytes. -/
theorem header_length (packet : Packet) : (header packet).length = IKCP_OVERHEAD := rfl

/-- A number of four bytes is read back. -/
theorem decode32_encode (value : Word) (rest : List Byte) :
    ikcpDecode32u (ikcpEncode32u value ++ rest) = value := by
  change promote (low value) ||| promote (low (value >>> 8)) <<< 8 |||
    promote (low (value >>> 16)) <<< 16 ||| promote (low (value >>> 24)) <<< 24 = value
  apply BitVec.eq_of_getLsbD_eq
  intro index inside
  simp only [promote, low, BitVec.getLsbD_or, BitVec.getLsbD_shiftLeft, BitVec.getLsbD_setWidth,
    BitVec.getLsbD_ushiftRight]
  by_cases first : index < 8
  · simp [first, inside, show index < 16 by omega, show index < 24 by omega]
  by_cases second : index < 16
  · simp [first, second, inside, show index < 24 by omega, show index - 8 < 8 by omega,
      show 8 + (index - 8) = index by omega, show index - 8 < 32 by omega]
  by_cases third : index < 24
  · simp [first, second, third, inside, show ¬ index - 8 < 8 by omega, show index - 16 < 8 by omega,
      show 16 + (index - 16) = index by omega, show index - 16 < 32 by omega]
  · simp [first, second, third, inside, show ¬ index - 8 < 8 by omega, show ¬ index - 16 < 8 by omega,
      show index - 24 < 8 by omega, show 24 + (index - 24) = index by omega,
      show index - 24 < 32 by omega]

/-- A number of two bytes is read back. -/
theorem decode16_encode (value : BitVec 16) (rest : List Byte) :
    ikcpDecode16u (ikcpEncode16u value ++ rest) = value := by
  change (value.setWidth 8).setWidth 16 ||| ((value >>> 8).setWidth 8).setWidth 16 <<< 8 = value
  apply BitVec.eq_of_getLsbD_eq
  intro index inside
  simp only [BitVec.getLsbD_or, BitVec.getLsbD_shiftLeft, BitVec.getLsbD_setWidth,
    BitVec.getLsbD_ushiftRight]
  by_cases first : index < 8
  · simp [first, inside]
  · simp [first, inside, show index - 8 < 8 by omega, show 8 + (index - 8) = index by omega,
      show index - 8 < 16 by omega]

/-- The length in a header is that of the data behind it. -/
theorem decode_length (packet : Packet) (rest : List Byte) :
    ikcpDecode32u ((header packet ++ rest).drop 20) = BitVec.ofNat 32 packet.data.length :=
  decode32_encode (BitVec.ofNat 32 packet.data.length) rest

/-- A header is read back, with the bytes behind it that it speaks of. -/
theorem decode_header (packet : Packet) (rest : List Byte) :
    decodePacket (header packet ++ rest) =
      { packet with data := rest.take (BitVec.ofNat 32 packet.data.length).toNat } := by
  have conv := decode32_encode packet.conv
  have wnd := decode16_encode packet.wnd
  have ts := decode32_encode packet.ts
  have sn := decode32_encode packet.sn
  have una := decode32_encode packet.una
  simp only [decodePacket, Packet.mk.injEq]
  refine ⟨conv _, rfl, rfl, wnd _, ts _, sn _, una _, ?_⟩
  exact congrArg (fun count : Word => rest.take count.toNat) (decode_length packet rest)

end IotCamera.Kcp.Wire
