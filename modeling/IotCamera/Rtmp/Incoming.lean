import IotCamera.Rtmp.Outgoing

/-!
# Receiving messages in chunks

The receiving half of `SrsProtocol`. Chunks of several streams come in any order; each
stream keeps the header of its last chunk and the message it is in the middle of. A
message is handed on when its last byte has come, after the protocol itself has looked at it:
the other side may change the chunk size or ask for an answer.

The streams that are kept from the beginning and those that are made at their first chunk
are the same here: a stream of which nothing has come is as it is made. The number of
chunks of a stream and the bytes got from the socket are counted without a bound.
-/

namespace IotCamera.Rtmp.Stack

open Codecs BigEndian

def RTMP_FMT_TYPE0 : Nat := 0
def RTMP_FMT_TYPE1 : Nat := 1
def RTMP_FMT_TYPE2 : Nat := 2

/-- A `SrsCommonMessage`: how many bytes its payload was created with, if it was, and those
that were copied there. -/
structure CommonMessage where
  header : MessageHeader
  payload : Option Nat
  data : List Byte
  deriving DecidableEq

/-- `SrsMessageHeader()`, on a stream of its own. -/
def MessageHeader.fresh (cid : Nat) : MessageHeader := ⟨0, 0, 0, 0, 0, cid⟩

/-- A `SrsChunkStream`. -/
structure ChunkStream where
  cid : Nat
  header : MessageHeader
  extendedTimestamp : Bool
  msg : Option CommonMessage
  msgCount : Nat
  deriving DecidableEq

/-- The stream with another time in its header. -/
def ChunkStream.timed (chunk : ChunkStream) (timestamp : BitVec 64) : ChunkStream :=
  { chunk with header := { chunk.header with timestamp } }

def ChunkStream.fresh (cid : Nat) : ChunkStream := ⟨cid, .fresh cid, false, none, 0⟩

/-- An `AckWindowSize`. -/
structure AckWindowSize where
  window : BitVec 32
  nbRecvBytes : Nat
  sequenceNumber : BitVec 32
  deriving DecidableEq

/-- A `SrsProtocol`. -/
structure Protocol where
  input : Input
  streams : Nat → ChunkStream
  inChunkSize : Nat
  inAckSize : AckWindowSize
  inBufferLength : BitVec 32
  autoResponseWhenRecv : Bool
  manualResponseQueue : List Packet
  out : Outgoing

/-- `SrsProtocol()` on a socket. -/
def Protocol.fresh (socket : Socket) : Protocol where
  input := ⟨.fresh, socket⟩
  streams := ChunkStream.fresh
  inChunkSize := SRS_CONSTS_RTMP_PROTOCOL_CHUNK_SIZE
  inAckSize := ⟨0, 0, 0⟩
  inBufferLength := 0
  autoResponseWhenRecv := true
  manualResponseQueue := []
  out := ⟨SRS_CONSTS_RTMP_PROTOCOL_CHUNK_SIZE, 0, []⟩

/-- `set_auto_response`. -/
def Protocol.setAutoResponse (protocol : Protocol) (value : Bool) : Protocol :=
  { protocol with autoResponseWhenRecv := value }

abbrev Receiving := StateT Protocol (Except Failure)

def grow (required : Nat) : Receiving Unit := fun protocol =>
  match protocol.input.grow required with
  | .error failure => .error failure
  | .ok input => .ok ((), { protocol with input })

def readSlice (size : Nat) : Receiving (List Byte) := fun protocol =>
  match protocol.input.readSlice size with
  | .error failure => .error failure
  | .ok result => .ok (result.1, { protocol with input := result.2 })

def skipBack (count : Nat) : Receiving Unit := fun protocol =>
  match protocol.input.skipBack count with
  | .error failure => .error failure
  | .ok input => .ok ((), { protocol with input })

/-- Bytes are read from the buffer once there are as many. -/
def fetch (size : Nat) : Receiving (List Byte) := do
  grow size
  readSlice size

/-- The bytes of a number of the other order. -/
def littleEndian (bytes : List Byte) : Nat := numberOf bytes.reverse

/-- `read_basic_header`: `fmt` and `cid`. -/
def readBasicHeader : Receiving (Nat × Nat) := do
  let first := numberOf (← fetch 1)
  let fmt := first / 64
  let cid := first % 64
  if 1 < cid then
    return (fmt, cid)
  else if cid = 0 then
    return (fmt, 64 + littleEndian (← fetch 1))
  else
    return (fmt, 64 + littleEndian (← fetch 2))

def mhSizes (fmt : Nat) : Nat :=
  if fmt = RTMP_FMT_TYPE0 then 11
  else if fmt = RTMP_FMT_TYPE1 then 7
  else if fmt = RTMP_FMT_TYPE2 then 3
  else 0

/-- The fields of a message header that are sent with the type of the chunk. A timestamp
that is extended comes behind them. -/
def parseMessageHeader (chunk : ChunkStream) (isFirstChunkOfMsg : Bool) (fmt : Nat) (p : List Byte) :
    Except Failure ChunkStream :=
  let timestampDelta := numberOf (p.take 3)
  let extended := decide (RTMP_EXTENDED_TIMESTAMP ≤ timestampDelta)
  let timestamp :=
    if extended then chunk.header.timestamp
    else if fmt = RTMP_FMT_TYPE0 then BitVec.ofNat 64 timestampDelta
    else chunk.header.timestamp + BitVec.ofNat 64 timestampDelta
  let timed := { chunk.header with timestampDelta, timestamp }
  if RTMP_FMT_TYPE1 < fmt then
    .ok { chunk with extendedTimestamp := extended, header := timed }
  else
    let payloadLength := numberOf ((p.drop 3).take 3)
    if isFirstChunkOfMsg = false ∧ chunk.header.payloadLength ≠ payloadLength then
      .error .ERROR_RTMP_PACKET_SIZE
    else
      let messageType := (p.drop 6).headD 0
      let streamId :=
        if fmt = RTMP_FMT_TYPE0 then BitVec.ofNat 32 (littleEndian ((p.drop 7).take 4))
        else chunk.header.streamId
      .ok { chunk with
        extendedTimestamp := extended
        header := { timed with payloadLength, messageType, streamId } }

/-- A chunk without a message header begins a message with the time of the last one moved on. -/
def repeatMessageHeader (chunk : ChunkStream) (isFirstChunkOfMsg : Bool) : ChunkStream :=
  if isFirstChunkOfMsg ∧ chunk.extendedTimestamp = false then
    chunk.timed (chunk.header.timestamp + BitVec.ofNat 64 chunk.header.timestampDelta)
  else
    chunk

/-- Thirty-one bits of a timestamp are used. -/
def timestampMask {width : Nat} : BitVec width := BitVec.ofNat width 0x7fffffff

/-- The extended timestamp, which some senders leave out of the later chunks of a message:
there it has to be the timestamp of the message, or it is taken back as no timestamp. -/
def readExtendedTimestamp (chunk : ChunkStream) (isFirstChunkOfMsg : Bool) : Receiving ChunkStream := do
  let timestamp : BitVec 32 := BitVec.ofNat 32 (numberOf (← fetch 4)) &&& timestampMask
  let chunkTimestamp : BitVec 32 := chunk.header.timestamp.setWidth 32
  if isFirstChunkOfMsg = false ∧ 0 < chunkTimestamp ∧ chunkTimestamp ≠ timestamp then
    skipBack 4
    return chunk
  else
    return chunk.timed (timestamp.setWidth 64)

def settleTimestamp (chunk : ChunkStream) (isFirstChunkOfMsg : Bool) : Receiving ChunkStream :=
  if chunk.extendedTimestamp then readExtendedTimestamp chunk isFirstChunkOfMsg else pure chunk

/-- The message header as far as it comes with the type of the chunk. -/
def readFields (chunk : ChunkStream) (isFirstChunkOfMsg : Bool) (fmt : Nat) : Receiving ChunkStream := do
  let slice ← fetch (mhSizes fmt)
  if fmt ≤ RTMP_FMT_TYPE2 then
    (parseMessageHeader chunk isFirstChunkOfMsg fmt slice : Except Failure _)
  else
    return repeatMessageHeader chunk isFirstChunkOfMsg

/-- The message has the header of its last chunk, and one chunk more has come. -/
def ChunkStream.headed (chunk : ChunkStream) (msg : CommonMessage) : ChunkStream :=
  { chunk with msg := some { msg with header := chunk.header }, msgCount := chunk.msgCount + 1 }

/-- The checks of `read_message_header` before anything of the header is read: a fresh
stream begins with a whole header, and a message is not begun in the middle of another. -/
def refusesChunk (chunk : ChunkStream) (fmt : Nat) : Prop :=
  (chunk.msgCount = 0 ∧ fmt ≠ RTMP_FMT_TYPE0 ∧
    ¬ (chunk.cid = RTMP_CID_ProtocolControl ∧ fmt = RTMP_FMT_TYPE1)) ∨
  (chunk.msg ≠ none ∧ fmt = RTMP_FMT_TYPE0)

instance (chunk : ChunkStream) (fmt : Nat) : Decidable (refusesChunk chunk fmt) :=
  inferInstanceAs (Decidable (_ ∨ _))

/-- `read_message_header`. -/
def readMessageHeader (chunk : ChunkStream) (fmt : Nat) : Receiving ChunkStream := do
  if refusesChunk chunk fmt then
    throw .ERROR_RTMP_CHUNK_START
  else
    let parsed ← readFields chunk chunk.msg.isNone fmt
    let timed ← settleTimestamp parsed chunk.msg.isNone
    return (timed.timed (timed.header.timestamp &&& timestampMask)).headed
      (chunk.msg.getD ⟨.fresh 3, none, []⟩)

/-- Bytes are copied behind those that are already in the payload. -/
def CommonMessage.copy (msg : CommonMessage) (bytes : List Byte) : Except Failure CommonMessage :=
  if msg.data.length + bytes.length ≤ msg.payload.getD 0 then
    .ok { msg with data := msg.data ++ bytes }
  else
    .error .outOfBounds

/-- The payload of a chunk is copied into the message, whose payload is created for its first chunk. -/
def copyPayload (chunk : ChunkStream) (msg : CommonMessage) : Receiving CommonMessage := do
  let payloadSize := min (chunk.header.payloadLength - msg.data.length) (← get).inChunkSize
  let slice ← fetch payloadSize
  ({ msg with payload := some (msg.payload.getD chunk.header.payloadLength) }.copy slice : Except Failure _)

/-- A message leaves its stream when it is whole. -/
def finishPayload (chunk : ChunkStream) (msg : CommonMessage) : ChunkStream × Option CommonMessage :=
  if chunk.header.payloadLength = msg.data.length then
    ({ chunk with msg := none }, some msg)
  else
    ({ chunk with msg := some msg }, none)

/-- `read_message_payload`: the stream behind the chunk, and the message when it is whole. The
slice of a negative size is refused by an assertion of the buffer. -/
def readMessagePayload (chunk : ChunkStream) : Receiving (ChunkStream × Option CommonMessage) := do
  match chunk.msg with
  | none => throw .assertion
  | some msg =>
      if chunk.header.payloadLength = 0 then
        return ({ chunk with msg := none }, some msg)
      else if chunk.header.payloadLength < msg.data.length then
        throw .assertion
      else
        return finishPayload chunk (← copyPayload chunk msg)

/-- The stream of a chunk is kept for the next one. -/
def Protocol.store (protocol : Protocol) (cid : Nat) (chunk : ChunkStream) : Protocol :=
  { protocol with streams := fun other => if other = cid then chunk else protocol.streams other }

/-- `recv_interlaced_message`: one chunk, and the message it ends, if it does. -/
def recvInterlacedMessage : Receiving (Option CommonMessage) := do
  let basic ← readBasicHeader
  let chunk := (← get).streams basic.2
  let headed ← readMessageHeader chunk basic.1
  let result ← readMessagePayload headed
  modify fun protocol => protocol.store basic.2 result.1
  return result.2

/-! ### What the protocol does with a message -/

/-- A packet is sent at once or kept for the next flush. -/
def respond (packet : Packet) : Receiving Unit := do
  let protocol ← get
  if protocol.autoResponseWhenRecv then
    let out ← (doSendAndFreePacket packet 0 protocol.out : Except Failure _)
    set { protocol with out }
  else
    set { protocol with manualResponseQueue := protocol.manualResponseQueue ++ [packet] }

/-- `response_acknowledgement_message`: after half a window of bytes the other side is told
how many have come. -/
def responseAcknowledgementMessage : Receiving Unit := do
  let protocol ← get
  let ack := protocol.inAckSize
  let delta := BitVec.ofNat 32 protocol.input.socket.recvBytes - BitVec.ofNat 32 ack.nbRecvBytes
  if ack.window.toNat = 0 ∨ delta.toNat < ack.window.toNat / 2 then
    return ()
  else
    let sum := ack.sequenceNumber + delta
    let sequenceNumber := if 0xf0000000 < sum.toNat then delta else sum
    set { protocol with inAckSize := ⟨ack.window, protocol.input.socket.recvBytes, sequenceNumber⟩ }
    respond (.acknowledgement sequenceNumber)

/-- A number of a packet after a `require` for its bytes. -/
def decodeNumber (width count : Nat) (failure : Failure) : ByteReader Failure (BitVec width) := do
  return BitVec.ofNat width (numberOf (← take failure count))

/-- `SrsUserControlPacket::decode`. -/
def decodeUserControl : ByteReader Failure (BitVec 16 × BitVec 32 × BitVec 32) := do
  let eventType ← decodeNumber 16 2 .ERROR_RTMP_MESSAGE_DECODE
  let eventData ←
    if eventType = SrsPCUCFmsEvent0 then do
      let byte ← decodeNumber 8 1 .ERROR_RTMP_MESSAGE_DECODE
      pure (byte.signExtend 32)
    else
      decodeNumber 32 4 .ERROR_RTMP_MESSAGE_DECODE
  if eventType = SrcPCUCSetBufferLength then
    return (eventType, eventData, ← decodeNumber 32 4 .ERROR_RTMP_MESSAGE_ENCODE)
  else
    return (eventType, eventData, 0)

/-- `response_ping_message`. -/
def responsePingMessage (timestamp : BitVec 32) : Receiving Unit :=
  respond (.userControl SrcPCUCPingResponse timestamp 0)

/-- What a decoder makes of the payload of a message. -/
def decodeMessage {α : Type} (decoder : ByteReader Failure α) (msg : CommonMessage) : Except Failure α :=
  match decoder msg.data with
  | .error failure => .error failure
  | .ok result => .ok result.1

/-- `on_recv_message`. -/
def onRecvMessage (msg : CommonMessage) : Receiving Unit := do
  responseAcknowledgementMessage
  if msg.header.messageType = RTMP_MSG_WindowAcknowledgementSize then
    let size ← (decodeMessage (decodeNumber 32 4 .ERROR_RTMP_MESSAGE_DECODE) msg : Except Failure _)
    if 0 < size.toInt then
      modify fun protocol => { protocol with inAckSize := { protocol.inAckSize with window := size } }
    else
      return ()
  else if msg.header.messageType = RTMP_MSG_SetChunkSize then
    let size ← (decodeMessage (decodeNumber 32 4 .ERROR_RTMP_MESSAGE_DECODE) msg : Except Failure _)
    if size.toInt < SRS_CONSTS_RTMP_MIN_CHUNK_SIZE then
      throw .ERROR_RTMP_CHUNK_SIZE
    else
      modify fun protocol => { protocol with inChunkSize := size.toNat }
  else if msg.header.messageType = RTMP_MSG_UserControlMessage then
    let packet ← (decodeMessage decodeUserControl msg : Except Failure _)
    if packet.1 = SrcPCUCSetBufferLength then
      modify fun protocol => { protocol with inBufferLength := packet.2.2 }
    else if packet.1 = SrcPCUCPingRequest then
      responsePingMessage packet.2.1
    else
      return ()
  else
    return ()

/-- The loop of `recv_message`, one chunk in a round. Empty messages are passed over. -/
def recvLoop : Nat → Receiving CommonMessage
  | 0 => throw .exhausted
  | rounds + 1 => do
      match ← recvInterlacedMessage with
      | none => recvLoop rounds
      | some msg =>
          if msg.data.length = 0 ∨ msg.header.payloadLength = 0 then
            recvLoop rounds
          else
            onRecvMessage msg
            return msg

/-- `recv_message`: every chunk takes a byte of the stream. -/
def recvMessage : Receiving CommonMessage := fun protocol =>
  recvLoop (protocol.input.unread.length + 1) protocol

end IotCamera.Rtmp.Stack
