import IotCamera.Rtmp.FastBuffer

/-!
# Sending messages in chunks

The sending half of `SrsProtocol`. A packet is encoded into a payload, and a payload is
sent in chunks of at most the chunk size: the first one has a header with all there is to
say about the message, each further one a short header. The socket takes all that is
written to it.

Lengths and sizes are counted without the bound of `int`; the chunk size is the `int` that
a packet last told the other side.
-/

namespace IotCamera.Rtmp.Stack

open Codecs BigEndian

def RTMP_MSG_SetChunkSize : Byte := 0x01
def RTMP_MSG_Acknowledgement : Byte := 0x03
def RTMP_MSG_UserControlMessage : Byte := 0x04
def RTMP_MSG_WindowAcknowledgementSize : Byte := 0x05
def RTMP_MSG_SetPeerBandwidth : Byte := 0x06

def RTMP_CID_ProtocolControl : Nat := 0x02

def SRS_CONSTS_RTMP_PROTOCOL_CHUNK_SIZE : Nat := 128
def SRS_CONSTS_RTMP_MIN_CHUNK_SIZE : Nat := 128
def SRS_CONSTS_RTMP_MAX_FMT0_HEADER_SIZE : Nat := 16
def SRS_CONSTS_RTMP_MAX_FMT3_HEADER_SIZE : Nat := 5
def RTMP_EXTENDED_TIMESTAMP : Nat := 0xFFFFFF

def SrcPCUCSetBufferLength : BitVec 16 := 0x03
def SrcPCUCPingRequest : BitVec 16 := 0x06
def SrcPCUCPingResponse : BitVec 16 := 0x07
def SrsPCUCFmsEvent0 : BitVec 16 := 0x1a

/-- A `SrsMessageHeader`. -/
structure MessageHeader where
  timestampDelta : Nat
  payloadLength : Nat
  messageType : Byte
  streamId : BitVec 32
  timestamp : BitVec 64
  perferCid : Nat
  deriving DecidableEq

/-! ### Headers of chunks -/

/-- The extended timestamp, which is there when the timestamp does not fit its three bytes. -/
def extendedTimestamp (timestamp : BitVec 32) : List Byte :=
  if RTMP_EXTENDED_TIMESTAMP ≤ timestamp.toNat then bytesOf 4 timestamp.toNat else []

/-- `srs_chunk_header_c0`: the bytes that are put into a cache of `nbCache` bytes. -/
def srsChunkHeaderC0 (perferCid : Nat) (timestamp : BitVec 32) (payloadLength : Nat) (messageType : Byte)
    (streamId : BitVec 32) (nbCache : Nat) : List Byte :=
  if nbCache < SRS_CONSTS_RTMP_MAX_FMT0_HEADER_SIZE then
    []
  else
    [BitVec.ofNat 8 (perferCid % 64)] ++
      (if timestamp.toNat < RTMP_EXTENDED_TIMESTAMP then bytesOf 3 timestamp.toNat else [0xFF, 0xFF, 0xFF]) ++
      bytesOf 3 payloadLength ++ [messageType] ++ (bytesOf 4 streamId.toNat).reverse ++
      extendedTimestamp timestamp

/-- `srs_chunk_header_c3`. -/
def srsChunkHeaderC3 (perferCid : Nat) (timestamp : BitVec 32) (nbCache : Nat) : List Byte :=
  if nbCache < SRS_CONSTS_RTMP_MAX_FMT3_HEADER_SIZE then
    []
  else
    [BitVec.ofNat 8 (0xC0 + perferCid % 64)] ++ extendedTimestamp timestamp

/-- The header of a chunk: the first chunk of a message has all of it. -/
def chunkHeader (mh : MessageHeader) (nbCache : Nat) (first : Bool) : List Byte :=
  if first then
    srsChunkHeaderC0 mh.perferCid (mh.timestamp.setWidth 32) mh.payloadLength mh.messageType mh.streamId nbCache
  else
    srsChunkHeaderC3 mh.perferCid (mh.timestamp.setWidth 32) nbCache

/-! ### Packets -/

/-- The packets of the protocol itself, with their members, and the commands, which are
AMF0 values one after the other. -/
inductive Packet where
  | setWindowAckSize (ackowledgementWindowSize : BitVec 32)
  | acknowledgement (sequenceNumber : BitVec 32)
  | setChunkSize (chunkSize : BitVec 32)
  | setPeerBandwidth (bandwidth : BitVec 32) (type : Byte)
  | userControl (eventType : BitVec 16) (eventData extraData : BitVec 32)
  | command (preferCid : Nat) (messageType : Byte) (values : Amf0.Elements)

namespace Packet

def getPreferCid : Packet → Nat
  | command preferCid _ _ => preferCid
  | _ => RTMP_CID_ProtocolControl

def getMessageType : Packet → Byte
  | setWindowAckSize _ => RTMP_MSG_WindowAcknowledgementSize
  | acknowledgement _ => RTMP_MSG_Acknowledgement
  | setChunkSize _ => RTMP_MSG_SetChunkSize
  | setPeerBandwidth _ _ => RTMP_MSG_SetPeerBandwidth
  | userControl _ _ _ => RTMP_MSG_UserControlMessage
  | command _ messageType _ => messageType

def getSize : Packet → Nat
  | setWindowAckSize _ | acknowledgement _ | setChunkSize _ => 4
  | setPeerBandwidth _ _ => 5
  | userControl eventType _ _ =>
      2 + (if eventType = SrsPCUCFmsEvent0 then 1 else 4) + (if eventType = SrcPCUCSetBufferLength then 4 else 0)
  | command _ _ values => values.totalSize

/-- A number is written after a `require` for its room. -/
def writeNumber {width : Nat} (count : Nat) (value : BitVec width) : ByteWriter Failure Unit :=
  put .ERROR_RTMP_MESSAGE_ENCODE (bytesOf count value.toNat)

/-- A writer of AMF0 values among those of packets. -/
def writeAmf0 (writer : Amf0.Writing) : ByteWriter Failure Unit := fun buffer =>
  match writer buffer with
  | .ok result => .ok result
  | .error failure => .error (.amf0 failure)

def encodePacket : Packet → ByteWriter Failure Unit
  | setWindowAckSize ackowledgementWindowSize => writeNumber 4 ackowledgementWindowSize
  | acknowledgement sequenceNumber => writeNumber 4 sequenceNumber
  | setChunkSize chunkSize => writeNumber 4 chunkSize
  | setPeerBandwidth bandwidth type => do
      writeNumber 4 bandwidth
      writeNumber 1 type
  | userControl eventType eventData extraData => do
      writeNumber 2 eventType
      if eventType = SrsPCUCFmsEvent0 then
        writeNumber 1 (eventData.setWidth 8)
      else
        writeNumber 4 eventData
      if eventType = SrcPCUCSetBufferLength then
        writeNumber 4 extraData
      else
        return ()
  | command _ _ values => writeAmf0 values.write

/-- `SrsPacket::encode`: what `encode_packet` writes into `get_size` bytes. -/
def encode (packet : Packet) : Except Failure (List Byte) :=
  match packet.encodePacket ⟨[], packet.getSize⟩ with
  | .ok result => .ok result.2.written
  | .error failure => .error failure

end Packet

/-! ### Sending -/

/-- The members that sending uses, and what was written to the socket. -/
structure Outgoing where
  outChunkSize : Int
  outAckWindow : BitVec 32
  sent : List Byte
  deriving DecidableEq

/-- `writev` puts bytes behind those already written. -/
def Outgoing.writev (out : Outgoing) (bytes : List Byte) : Outgoing := { out with sent := out.sent ++ bytes }

/-- Writing twice is writing both one after the other. -/
theorem writev_writev (out : Outgoing) (front back : List Byte) :
    (out.writev front).writev back = out.writev (front ++ back) := by
  simp only [Outgoing.writev, List.append_assoc]

/-- The loop of `do_simple_send` over what is left of the payload, one chunk in a round. -/
def sendChunks (mh : MessageHeader) (size : Nat) : Nat → List Byte → Outgoing → Except Failure Outgoing
  | 0, left, out => if left.length = 0 then .ok out else .error .exhausted
  | rounds + 1, left, out =>
      if left.length = 0 then
        .ok out
      else
        let c0c3 := chunkHeader mh SRS_CONSTS_RTMP_MAX_FMT0_HEADER_SIZE (left.length = size)
        let payloadSize := min (left.length : Int) out.outChunkSize
        if c0c3.length = 0 then
          .error .assertion
        else if payloadSize < 0 then
          .error .outOfBounds
        else
          sendChunks mh size rounds (left.drop payloadSize.toNat)
            (out.writev (c0c3 ++ left.take payloadSize.toNat))

/-- `do_simple_send`. -/
def doSimpleSend (mh : MessageHeader) (payload : List Byte) (out : Outgoing) : Except Failure Outgoing :=
  sendChunks mh payload.length payload.length payload out

/-- `on_send_packet`: what was told the other side holds for what is sent next. -/
def onSendPacket (packet : Packet) (out : Outgoing) : Outgoing :=
  match packet with
  | .setChunkSize chunkSize => { out with outChunkSize := chunkSize.toInt }
  | .setWindowAckSize ackowledgementWindowSize => { out with outAckWindow := ackowledgementWindowSize }
  | _ => out

/-- The header that `do_send_and_free_packet` gives a packet. -/
def Packet.header (packet : Packet) (size : Nat) (streamId : BitVec 32) : MessageHeader :=
  ⟨0, size, packet.getMessageType, streamId, 0, packet.getPreferCid⟩

/-- `do_send_and_free_packet`: an empty packet is not sent. -/
def doSendAndFreePacket (packet : Packet) (streamId : BitVec 32) (out : Outgoing) : Except Failure Outgoing :=
  match packet.encode with
  | .error failure => .error failure
  | .ok payload =>
      if payload.length = 0 then
        .ok out
      else
        match doSimpleSend (packet.header payload.length streamId) payload out with
        | .error failure => .error failure
        | .ok after => .ok (onSendPacket packet after)

end IotCamera.Rtmp.Stack
