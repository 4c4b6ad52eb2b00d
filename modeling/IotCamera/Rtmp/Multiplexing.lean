import IotCamera.Rtmp.Incoming

/-!
# Messages on chunk streams

What the chunks of a connection are for: messages are sent on streams of their own, each
cut into chunks of the size of the moment, and chunks of different streams come in any
order. A message that changes the chunk size does so for every stream from its last chunk on.
-/

namespace IotCamera.Rtmp.Stack

open Codecs BigEndian

/-- A message to be sent. -/
structure Message where
  header : MessageHeader
  payload : List Byte
  deriving DecidableEq

namespace Message

def chunkSize (message : Message) : BitVec 32 := BitVec.ofNat 32 (numberOf (message.payload.take 4))

/-- What the other side asks of a message before it hands it on: a message of the protocol has
the bytes it needs, and a chunk size is in the range that the receiver and its buffer take. -/
def Understood (limit : Nat) (message : Message) : Prop :=
  (message.header.messageType = RTMP_MSG_WindowAcknowledgementSize → 4 ≤ message.payload.length) ∧
  (message.header.messageType = RTMP_MSG_SetChunkSize → 4 ≤ message.payload.length ∧
    (SRS_CONSTS_RTMP_MIN_CHUNK_SIZE : Int) ≤ message.chunkSize.toInt ∧ message.chunkSize.toInt ≤ limit) ∧
  (message.header.messageType = RTMP_MSG_UserControlMessage →
    ∃ packet rest, decodeUserControl message.payload = .ok (packet, rest))

/-- A message that is not for the protocol itself is understood. -/
theorem plain_understood {limit : Nat} {message : Message}
    (notWindow : message.header.messageType ≠ RTMP_MSG_WindowAcknowledgementSize)
    (notSize : message.header.messageType ≠ RTMP_MSG_SetChunkSize)
    (notControl : message.header.messageType ≠ RTMP_MSG_UserControlMessage) : message.Understood limit :=
  ⟨fun window => absurd window notWindow, fun size => absurd size notSize, fun control => absurd control notControl⟩

/-- A message whose header says what it is: on a stream of the short basic header, and of a
length that three bytes hold. -/
structure Sendable (limit : Nat) (message : Message) : Prop where
  low : 2 ≤ message.header.perferCid
  high : message.header.perferCid < 64
  some : 0 < message.payload.length
  length : message.header.payloadLength = message.payload.length
  short : message.payload.length < 2 ^ 24
  understood : message.Understood limit

/-- A chunk of a message with its header. -/
def chunk (message : Message) (first : Bool) (part : List Byte) : List Byte :=
  chunkHeader message.header SRS_CONSTS_RTMP_MAX_FMT0_HEADER_SIZE first ++ part

end Message

/-- The chunk size of the moment, and for each stream the message it is in the middle of with
what is left of it. -/
structure Mux where
  chunkSize : Nat
  current : Nat → Option (Message × List Byte)

namespace Mux

/-- The message when a chunk ends it. -/
def ended (mux : Mux) (message : Message) (left : List Byte) : Option Message :=
  if left.length ≤ mux.chunkSize then some message else none

/-- The streams behind a chunk. -/
def advance (mux : Mux) (message : Message) (left : List Byte) : Mux where
  chunkSize := mux.chunkSize
  current := fun cid =>
    if cid = message.header.perferCid then
      if left.length ≤ mux.chunkSize then none else some (message, left.drop mux.chunkSize)
    else
      mux.current cid

/-- A message that is through may change the chunk size. -/
def heard (mux : Mux) (message : Message) : Mux :=
  if message.header.messageType = RTMP_MSG_SetChunkSize then
    { mux with chunkSize := message.chunkSize.toNat }
  else
    mux

/-- A chunk begins a message on a stream that is free, or goes on with one. -/
inductive Chunk (limit : Nat) : Mux → List Byte → Option Message → Mux → Prop where
  | first (mux : Mux) (message : Message) (sendable : message.Sendable limit)
      (free : mux.current message.header.perferCid = none) :
      Chunk limit mux (message.chunk true (message.payload.take mux.chunkSize))
        (mux.ended message message.payload) (mux.advance message message.payload)
  | next (mux : Mux) (message : Message) (left : List Byte)
      (current : mux.current message.header.perferCid = some (message, left)) :
      Chunk limit mux (message.chunk false (left.take mux.chunkSize))
        (mux.ended message left) (mux.advance message left)

/-- Chunks one after the other, and the messages in the order in which they are ended. -/
inductive Run (limit : Nat) : Mux → List Byte → List Message → Mux → Prop where
  | done (mux : Mux) : Run limit mux [] [] mux
  | part {before between after : Mux} {bytes more : List Byte} {messages : List Message}
      (chunk : Chunk limit before bytes none between) (run : Run limit between more messages after) :
      Run limit before (bytes ++ more) messages after
  | whole {before between after : Mux} {bytes more : List Byte} {message : Message} {messages : List Message}
      (chunk : Chunk limit before bytes (some message) between)
      (run : Run limit (between.heard message) more messages after) :
      Run limit before (bytes ++ more) (message :: messages) after

/-- Before anything is sent. -/
def initial : Mux := ⟨SRS_CONSTS_RTMP_PROTOCOL_CHUNK_SIZE, fun _ => none⟩

/-- Runs one after the other. -/
theorem Run.append {limit : Nat} {before between after : Mux} {bytes more : List Byte}
    {messages others : List Message} (run : Run limit before bytes messages between)
    (further : Run limit between more others after) :
    Run limit before (bytes ++ more) (messages ++ others) after := by
  induction run with
  | done mux => exact further
  | part chunk run inductionHypothesis =>
      rw [List.append_assoc]
      exact .part chunk (inductionHypothesis further)
  | whole chunk run inductionHypothesis =>
      rw [List.append_assoc]
      exact .whole chunk (inductionHypothesis further)

end Mux

/-! ### What is received of a message -/

/-- The header as the other side has it: of a timestamp thirty-one bits. -/
def MessageHeader.received (mh : MessageHeader) : MessageHeader :=
  { mh with
    timestampDelta := min (mh.timestamp.setWidth 32).toNat RTMP_EXTENDED_TIMESTAMP
    timestamp := (mh.timestamp.setWidth 32 &&& timestampMask : BitVec 32).setWidth 64 }

/-- A message that has come whole. -/
def Message.received (message : Message) : CommonMessage :=
  ⟨message.header.received, some message.payload.length, message.payload⟩

end IotCamera.Rtmp.Stack
