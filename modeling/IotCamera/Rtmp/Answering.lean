import IotCamera.Rtmp.Amf0Encoding
import IotCamera.Rtmp.Receiving
import IotCamera.Rtmp.Sending

/-!
# Packets, and the answers of the protocol

A packet is sent as the message that it is encoded to. The protocol looks at each message
before it hands it on: a message may change the chunk size, and an acknowledgement or the
answer to a ping may have to be sent or kept for the next flush. None of this gets in
between the messages of the other side.
-/

namespace IotCamera.Rtmp.Stack

open Codecs BigEndian

/-! ### Packets -/

/-- What a packet is encoded as. -/
def Packet.payload : Packet → List Byte
  | setWindowAckSize number | acknowledgement number | setChunkSize number => bytesOf 4 number.toNat
  | setPeerBandwidth bandwidth type => bytesOf 4 bandwidth.toNat ++ bytesOf 1 type.toNat
  | userControl eventType eventData extraData =>
      bytesOf 2 eventType.toNat ++
        ((if eventType = SrsPCUCFmsEvent0 then bytesOf 1 (eventData.setWidth 8).toNat
          else bytesOf 4 eventData.toNat) ++
          (if eventType = SrcPCUCSetBufferLength then bytesOf 4 extraData.toNat else []))
  | command _ _ values => values.bytes

/-- A number of a packet is written as its bytes. -/
theorem packet_number_writes {width : Nat} (count : Nat) (value : BitVec width) :
    Writes .ERROR_RTMP_MESSAGE_ENCODE (bytesOf count value.toNat) (Packet.writeNumber count value) :=
  put_writes _ _

/-- A user control packet is written as its type and its data. -/
theorem user_control_writes (eventType : BitVec 16) (eventData extraData : BitVec 32) :
    Writes .ERROR_RTMP_MESSAGE_ENCODE (Packet.userControl eventType eventData extraData).payload
      (Packet.userControl eventType eventData extraData).encodePacket := by
  apply Writes.append (packet_number_writes 2 eventType)
  have last : Writes Failure.ERROR_RTMP_MESSAGE_ENCODE
      (if eventType = SrcPCUCSetBufferLength then bytesOf 4 extraData.toNat else [])
      (if eventType = SrcPCUCSetBufferLength then Packet.writeNumber 4 extraData else pure ()) := by
    split
    case isTrue => exact packet_number_writes 4 extraData
    case isFalse => exact pure_writes _
  split
  case isTrue => exact (packet_number_writes 1 (eventData.setWidth 8)).append last
  case isFalse => exact (packet_number_writes 4 eventData).append last

/-- `get_size` is the number of bytes of the payload. -/
theorem payload_length (packet : Packet) : packet.payload.length = packet.getSize := by
  cases packet with
  | setWindowAckSize number => rfl
  | acknowledgement number => rfl
  | setChunkSize number => rfl
  | setPeerBandwidth bandwidth type => rfl
  | userControl eventType eventData extraData =>
      simp only [Packet.payload, Packet.getSize, List.length_append, bytes_length]
      rw [apply_ite List.length, apply_ite List.length, bytes_length, bytes_length, bytes_length, List.length_nil]
      omega
  | command preferCid messageType values => exact Amf0.elements_bytes_length values

/-- `get_size` is the room that `encode_packet` needs, and encoding a packet does not fail. -/
theorem encode_payload (packet : Packet) : packet.encode = .ok packet.payload := by
  have size := payload_length packet
  have room : put Failure.ERROR_RTMP_MESSAGE_ENCODE packet.payload ⟨[], packet.getSize⟩ =
      .ok ((), ⟨packet.payload, 0⟩) := by
    rw [put, if_pos (le_of_eq size), size, Nat.sub_self]
    rfl
  have written : packet.encodePacket ⟨[], packet.getSize⟩ = .ok ((), ⟨packet.payload, 0⟩) := by
    cases packet with
    | setWindowAckSize number => exact room
    | acknowledgement number => exact room
    | setChunkSize number => exact room
    | setPeerBandwidth bandwidth type =>
        exact (((packet_number_writes 4 bandwidth).append (packet_number_writes 1 type)) _).trans room
    | userControl eventType eventData extraData =>
        exact (user_control_writes eventType eventData extraData _).trans room
    | command preferCid messageType values =>
        have inner := Amf0.elements_write values ⟨[], values.totalSize⟩
        rw [put, if_pos (le_of_eq (Amf0.elements_bytes_length values)), Amf0.elements_bytes_length,
          Nat.sub_self] at inner
        change Packet.writeAmf0 values.write ⟨[], values.totalSize⟩ = _
        rw [Packet.writeAmf0, inner]
        rfl
  rw [Packet.encode, written]

/-- The message that a packet is sent as. -/
def Packet.message (packet : Packet) (streamId : BitVec 32) : Message :=
  ⟨packet.header packet.payload.length streamId, packet.payload⟩

/-- A packet that is not empty is sent as its message, and holds from then on. -/
theorem packet_sent (packet : Packet) (streamId : BitVec 32) (out : Outgoing) (chunkSize : 0 < out.outChunkSize)
    (some : packet.payload.length ≠ 0) : doSendAndFreePacket packet streamId out =
      .ok (onSendPacket packet (out.writev ((packet.message streamId).wire out.outChunkSize.toNat))) := by
  unfold doSendAndFreePacket
  rw [encode_payload]
  dsimp only
  rw [if_neg some]
  have sent : doSimpleSend (packet.header packet.payload.length streamId) packet.payload out =
      .ok (out.writev ((packet.message streamId).wire out.outChunkSize.toNat)) :=
    simple_send_wire (packet.message streamId) out chunkSize
  rw [sent]

/-! ### What is sent -/

/-- No stream is in the middle of a message. -/
def Mux.idle (chunkSize : Nat) : Mux := ⟨chunkSize, fun _ => none⟩

/-- Between two states of a sender these messages have been sent, each of them whole. -/
structure Sends (limit : Nat) (before after : Outgoing) (messages : List Message) : Prop where
  positive : 0 < after.outChunkSize
  wire : ∃ bytes, after.sent = before.sent ++ bytes ∧
    Mux.Run limit (.idle before.outChunkSize.toNat) bytes messages (.idle after.outChunkSize.toNat)

/-- Sending nothing sends no message. -/
theorem sends_nothing (limit : Nat) (out : Outgoing) (positive : 0 < out.outChunkSize) : Sends limit out out [] :=
  ⟨positive, [], (List.append_nil _).symm, .done _⟩

/-- Sending twice sends the messages of both, in order. -/
theorem Sends.trans {limit : Nat} {before between after : Outgoing} {messages others : List Message}
    (first : Sends limit before between messages) (second : Sends limit between after others) :
    Sends limit before after (messages ++ others) := by
  obtain ⟨_, front, sent, run⟩ := first
  obtain ⟨positive, back, further, more⟩ := second
  refine ⟨positive, front ++ back, ?_, run.append more⟩
  rw [further, sent, List.append_assoc]

/-- The messages of a packet: an empty one is not sent. -/
def Packet.messages (packet : Packet) (streamId : BitVec 32) : List Message :=
  if packet.payload.length = 0 then [] else [packet.message streamId]

/-- A packet that the other side takes, and that changes the chunk size only if it is meant to. -/
structure Packet.Fits (limit : Nat) (packet : Packet) (streamId : BitVec 32) : Prop where
  sendable : packet.payload.length ≠ 0 → (packet.message streamId).Sendable limit
  sizes : packet.getMessageType = RTMP_MSG_SetChunkSize → ∃ size, packet = .setChunkSize size

/-- What was told the other side about the chunk size is what holds from then on. -/
theorem sizes_agree {limit : Nat} (packet : Packet) (streamId : BitVec 32) (out : Outgoing)
    (positive : 0 < out.outChunkSize) (fits : packet.Fits limit streamId) (some : packet.payload.length ≠ 0) :
    0 < (onSendPacket packet out).outChunkSize ∧
      (Mux.idle out.outChunkSize.toNat).heard (packet.message streamId) =
        .idle (onSendPacket packet out).outChunkSize.toNat := by
  by_cases size : packet.getMessageType = RTMP_MSG_SetChunkSize
  · obtain ⟨chunkSize, rfl⟩ := fits.sizes size
    obtain ⟨_, least, _⟩ := (fits.sendable some).understood.2.1 rfl
    have told : ((Packet.setChunkSize chunkSize).message streamId).chunkSize = chunkSize := by
      change BitVec.ofNat 32 (numberOf ((bytesOf 4 chunkSize.toNat).take 4)) = chunkSize
      rw [List.take_of_length_le (le_of_eq (bytes_length 4 _)), number_bytes_of_lt 4 _ chunkSize.isLt,
        BitVec.ofNat_toNat, BitVec.setWidth_eq]
    have minimum : (SRS_CONSTS_RTMP_MIN_CHUNK_SIZE : Int) = 128 := rfl
    rw [told] at least
    have value : chunkSize.toInt.toNat = chunkSize.toNat := by
      have either := BitVec.toInt_eq_toNat_cond chunkSize
      have bound := chunkSize.isLt
      split at either
      · omega
      · omega
    constructor
    · change 0 < chunkSize.toInt
      omega
    · have heard : (Mux.idle out.outChunkSize.toNat).heard ((Packet.setChunkSize chunkSize).message streamId) =
          .idle chunkSize.toNat := by
        refine (if_pos size).trans ?_
        rw [told]
        rfl
      rw [heard, ← value]
      rfl
  · have other : (onSendPacket packet out).outChunkSize = out.outChunkSize := by
      cases packet with
      | setChunkSize chunkSize => exact absurd rfl size
      | setWindowAckSize | acknowledgement | setPeerBandwidth | userControl | command => rfl
    have same : (Mux.idle out.outChunkSize.toNat).heard (packet.message streamId) = .idle out.outChunkSize.toNat :=
      if_neg size
    rw [same, other]
    exact ⟨positive, rfl⟩

/-- Sending a packet that fits succeeds and sends its messages. -/
theorem packet_sends {limit : Nat} (packet : Packet) (streamId : BitVec 32) (out : Outgoing)
    (positive : 0 < out.outChunkSize) (fits : packet.Fits limit streamId) :
    ∃ after, doSendAndFreePacket packet streamId out = .ok after ∧
      Sends limit out after (packet.messages streamId) := by
  by_cases none : packet.payload.length = 0
  · refine ⟨out, ?_, ?_⟩
    · unfold doSendAndFreePacket
      rw [encode_payload]
      exact if_pos none
    · rw [Packet.messages, if_pos none]
      exact sends_nothing limit out positive
  · let wire := (packet.message streamId).wire out.outChunkSize.toNat
    obtain ⟨larger, same⟩ := sizes_agree packet streamId (out.writev wire) positive fits none
    refine ⟨_, packet_sent packet streamId out positive none, larger, wire, ?_, ?_⟩
    · have sent : ∀ before, (onSendPacket packet before).sent = before.sent := by
        intro before
        cases packet with
        | setChunkSize | setWindowAckSize | acknowledgement | setPeerBandwidth | userControl | command => rfl
      rw [sent]
      rfl
    · rw [Packet.messages, if_neg none]
      refine same ▸ ?_
      exact wire_run _ (.idle out.outChunkSize.toNat) (by change 0 < out.outChunkSize.toNat; omega)
        (fits.sendable none) rfl


/-! ### Answers -/

/-- What the protocol sends of itself. -/
inductive Packet.Answer : Packet → Prop where
  | acknowledgement (sequenceNumber : BitVec 32) : Answer (.acknowledgement sequenceNumber)
  | ping (timestamp : BitVec 32) : Answer (.userControl SrcPCUCPingResponse timestamp 0)

/-- A number is decoded from its bytes. -/
theorem decode_number_bytes {width : Nat} (count : Nat) (failure : Failure) (room : 2 ^ width ≤ 256 ^ count)
    (value : BitVec width) (rest : List Byte) :
    decodeNumber width count failure (bytesOf count value.toNat ++ rest) = .ok (value, rest) := by
  have taken := take_append failure (bytesOf count value.toNat) rest
  rw [bytes_length] at taken
  refine (bind_read taken).trans ?_
  rw [number_bytes_of_lt count _ (lt_of_lt_of_le value.isLt room), BitVec.ofNat_toNat, BitVec.setWidth_eq]
  rfl

/-- A control message of the usual form is understood. -/
theorem control_decoded (eventType : BitVec 16) (eventData : BitVec 32) (plain : ¬ eventType = SrsPCUCFmsEvent0)
    (short : ¬ eventType = SrcPCUCSetBufferLength) :
    decodeUserControl (bytesOf 2 eventType.toNat ++ (bytesOf 4 eventData.toNat ++ [])) =
      .ok ((eventType, eventData, 0), []) := by
  unfold decodeUserControl
  rw [bind_read (decode_number_bytes 2 _ (by decide) eventType _), if_neg plain,
    bind_read (decode_number_bytes 4 _ (by decide) eventData [])]
  dsimp only
  rw [if_neg short]
  rfl

/-- A packet of the protocol itself that is no chunk size fits when it is understood. -/
theorem control_fits {limit : Nat} (packet : Packet) (streamId : BitVec 32)
    (own : packet.getPreferCid = RTMP_CID_ProtocolControl) (short : packet.getSize < 2 ^ 24)
    (other : packet.getMessageType ≠ RTMP_MSG_SetChunkSize) (understood : (packet.message streamId).Understood limit) :
    packet.Fits limit streamId := by
  have low : 2 ≤ packet.getPreferCid := by rw [own]; decide
  have high : packet.getPreferCid < 64 := by rw [own]; decide
  refine ⟨fun some => ?_, fun size => absurd size other⟩
  exact ⟨low, high, Nat.pos_of_ne_zero some, rfl, lt_of_eq_of_lt (payload_length packet) short, understood⟩

/-- An answer can always be sent. -/
theorem answer_fits (limit : Nat) {packet : Packet} (answer : packet.Answer) : packet.Fits limit 0 := by
  cases answer with
  | acknowledgement sequenceNumber =>
      have notSize : ¬ RTMP_MSG_Acknowledgement = RTMP_MSG_SetChunkSize := by decide
      refine control_fits _ 0 rfl (show 4 < 2 ^ 24 by decide) notSize ?_
      exact Message.plain_understood (show RTMP_MSG_Acknowledgement ≠ _ by decide) notSize
        (show RTMP_MSG_Acknowledgement ≠ _ by decide)
  | ping timestamp =>
      have notWindow : ¬ RTMP_MSG_UserControlMessage = RTMP_MSG_WindowAcknowledgementSize := by decide
      have notSize : ¬ RTMP_MSG_UserControlMessage = RTMP_MSG_SetChunkSize := by decide
      refine control_fits _ 0 rfl (show 6 < 2 ^ 24 by decide) notSize ?_
      exact ⟨fun window => absurd window notWindow, fun size => absurd size notSize,
        fun _ => ⟨_, _, control_decoded SrcPCUCPingResponse timestamp (by decide) (by decide)⟩⟩

/-- Whether a message is one that the protocol sends of itself. -/
def isAnswer (messageType : Byte) (payload : List Byte) : Bool :=
  messageType = RTMP_MSG_Acknowledgement ∨
    messageType = RTMP_MSG_UserControlMessage ∧ payload.take 2 = bytesOf 2 SrcPCUCPingResponse.toNat

def Message.isAnswer (message : Message) : Bool := Stack.isAnswer message.header.messageType message.payload

/-- The message of an answer is recognised as one. -/
theorem answer_message {packet : Packet} (answer : packet.Answer) (streamId : BitVec 32) :
    (packet.message streamId).isAnswer = true := by
  rw [Message.isAnswer, Stack.isAnswer, decide_eq_true_iff]
  cases answer with
  | acknowledgement sequenceNumber => exact .inl rfl
  | ping timestamp => exact .inr ⟨rfl, rfl⟩

/-- An answer is sent as such. -/
theorem answer_messages {packet : Packet} (answer : packet.Answer) (streamId : BitVec 32) :
    ∀ message ∈ packet.messages streamId, message.isAnswer = true := by
  intro message present
  unfold Packet.messages at present
  split at present
  case isTrue => cases present
  case isFalse =>
    rw [List.mem_singleton.mp present]
    exact answer_message answer streamId

/-- Some answers have been sent, and others are kept. -/
structure Replies (limit : Nat) (before after : Protocol) : Prop where
  sent : ∃ messages, Sends limit before.out after.out messages ∧ ∀ message ∈ messages, message.isAnswer = true
  kept : ∃ packets, after.manualResponseQueue = before.manualResponseQueue ++ packets ∧
    ∀ packet ∈ packets, packet.Answer

/-- When nothing is sent and nothing is kept, there is no reply. -/
theorem replies_nothing (limit : Nat) {before after : Protocol} (positive : 0 < before.out.outChunkSize)
    (out : after.out = before.out) (queue : after.manualResponseQueue = before.manualResponseQueue) :
    Replies limit before after := by
  refine ⟨⟨[], ?_, ?_⟩, [], ?_, ?_⟩
  · rw [out]
    exact sends_nothing limit _ positive
  · intro message none
    cases none
  · rw [queue, List.append_nil]
  · intro packet none
    cases none

/-- Replies that follow each other are replies together. -/
theorem Replies.trans {limit : Nat} {before between after : Protocol} (first : Replies limit before between)
    (second : Replies limit between after) : Replies limit before after := by
  obtain ⟨⟨messages, sends, answers⟩, packets, kept, known⟩ := first
  obtain ⟨⟨others, further, more⟩, rest, queued, same⟩ := second
  refine ⟨⟨_, sends.trans further, ?_⟩, packets ++ rest, ?_, ?_⟩
  · intro message present
    exact (List.mem_append.mp present).elim (answers message) (more message)
  · rw [queued, kept, List.append_assoc]
  · intro packet present
    exact (List.mem_append.mp present).elim (known packet) (same packet)

/-- The protocol has answered, and nothing of its input, its streams or its chunk size is changed. -/
structure Answers (limit : Nat) (before after : Protocol) : Prop extends Replies limit before after where
  input : after.input = before.input
  streams : after.streams = before.streams
  size : after.inChunkSize = before.inChunkSize

/-- An answer is sent or kept. -/
theorem respond_answers (limit : Nat) {packet : Packet} (answer : packet.Answer) (protocol : Protocol)
    (positive : 0 < protocol.out.outChunkSize) :
    ∃ after, respond packet protocol = .ok ((), after) ∧ Answers limit protocol after := by
  unfold respond
  by_cases auto : protocol.autoResponseWhenRecv = true
  · obtain ⟨out, sent, sends⟩ := packet_sends packet 0 protocol.out positive (answer_fits limit answer)
    refine ⟨{ protocol with out }, ?_, ⟨⟨_, sends, answer_messages answer 0⟩, [], (List.append_nil _).symm, ?_⟩,
      rfl, rfl, rfl⟩
    · rw [get_read, if_pos auto, sent]
      rfl
    · intro packet none
      cases none
  · refine ⟨{ protocol with manualResponseQueue := protocol.manualResponseQueue ++ [packet] },
      ?_, ⟨⟨[], sends_nothing limit _ positive, ?_⟩, [packet], rfl, ?_⟩, rfl, rfl, rfl⟩
    · rw [get_read, if_neg auto]
      rfl
    · intro message none
      cases none
    · intro kept present
      rw [List.mem_singleton.mp present]
      exact answer

/-- Acknowledging a number of bytes answers with nothing but that. -/
theorem sequence_answers (limit : Nat) (protocol : Protocol) (ack : AckWindowSize) (sequenceNumber : BitVec 32)
    (positive : 0 < protocol.out.outChunkSize) :
    ∃ after, (do
        set { protocol with inAckSize := ack }
        respond (.acknowledgement sequenceNumber) : Receiving Unit) protocol = .ok ((), after) ∧
      Answers limit protocol after := by
  obtain ⟨after, sent, answers⟩ := respond_answers limit (.acknowledgement sequenceNumber)
    { protocol with inAckSize := ack } positive
  exact ⟨after, sent, ⟨answers.sent, answers.kept⟩, answers.input, answers.streams, answers.size⟩

/-- So does the acknowledgement that is due, or nothing when none is. -/
theorem acknowledgement_answers (limit : Nat) (protocol : Protocol) (positive : 0 < protocol.out.outChunkSize) :
    ∃ after, responseAcknowledgementMessage protocol = .ok ((), after) ∧ Answers limit protocol after := by
  unfold responseAcknowledgementMessage
  rw [get_read]
  dsimp only
  split
  case isTrue => exact ⟨protocol, rfl, replies_nothing limit positive rfl rfl, rfl, rfl, rfl⟩
  case isFalse => exact sequence_answers limit protocol _ _ positive

/-! ### Messages that are heard -/

/-- Four bytes are there to be read. -/
theorem number_decoded (message : Message) (some : 4 ≤ message.payload.length) :
    decodeMessage (decodeNumber 32 4 .ERROR_RTMP_MESSAGE_DECODE) message.received = .ok message.chunkSize := by
  have taken : take Failure.ERROR_RTMP_MESSAGE_DECODE 4 message.payload =
      .ok (message.payload.take 4, message.payload.drop 4) := if_pos some
  have decoded : decodeNumber 32 4 .ERROR_RTMP_MESSAGE_DECODE message.payload =
      .ok (message.chunkSize, message.payload.drop 4) := bind_read taken
  have data : message.received.data = message.payload := rfl
  rw [decodeMessage, data, decoded]

/-- Answers leave the receiver where it follows the sender. -/
theorem follows_answers {limit : Nat} {mux : Mux} {before after : Protocol} (follows : Follows limit mux before)
    (answers : Answers limit before after) : Follows limit mux after where
  size := answers.size.trans follows.size
  positive := follows.positive
  within := follows.within
  room := by
    rw [answers.input]
    exact follows.room
  headers := by
    rw [answers.input]
    exact follows.headers
  streams := by
    intro cid
    rw [answers.streams]
    exact follows.streams cid
  answers := by
    obtain ⟨messages, sends, _⟩ := answers.sent
    exact sends.positive

/-- A result from elsewhere is read without taking a byte. -/
theorem lifted_read {α : Type} {result : Except Failure α} {value : α} (ok : result = .ok value)
    (protocol : Protocol) : (liftM result : Receiving α) protocol = .ok (value, protocol) := by
  rw [ok]
  rfl

/-- The window of the other side and the length of its buffer are noted. -/
theorem follows_noted {limit : Nat} {mux : Mux} {protocol : Protocol} (follows : Follows limit mux protocol)
    (ack : AckWindowSize) (length : BitVec 32) :
    Follows limit mux { protocol with inAckSize := ack, inBufferLength := length } :=
  ⟨follows.size, follows.positive, follows.within, follows.room, follows.headers, follows.streams, follows.answers⟩

/-- A chunk size in the range of the receiver holds for the chunks behind it. -/
theorem follows_resized {limit : Nat} {mux : Mux} {protocol : Protocol} (follows : Follows limit mux protocol)
    (size : BitVec 32) (least : (SRS_CONSTS_RTMP_MIN_CHUNK_SIZE : Int) ≤ size.toInt) (most : size.toInt ≤ limit) :
    Follows limit { mux with chunkSize := size.toNat } { protocol with inChunkSize := size.toNat } := by
  have minimum : (SRS_CONSTS_RTMP_MIN_CHUNK_SIZE : Int) = 128 := rfl
  have value : size.toInt = size.toNat := BitVec.toInt_eq_toNat_of_lt (by
    have cases := BitVec.toInt_eq_toNat_cond size
    split at cases
    · assumption
    · have bound := size.isLt
      omega)
  refine ⟨rfl, ?_, ?_, follows.room, follows.headers, follows.streams, follows.answers⟩
  · change 0 < size.toNat
    omega
  · change size.toNat ≤ limit
    omega

/-- What a message leaves behind: a receiver that follows the streams with the new chunk size. -/
structure Heard (limit : Nat) (mux : Mux) (before after : Protocol) : Prop extends Replies limit before after where
  input : after.input = before.input
  follows : Follows limit mux after

/-- Nothing that is sent or kept changes behind the answers. -/
theorem answers_heard {limit : Nat} {mux : Mux} {before between after : Protocol}
    (answers : Answers limit before between) (input : after.input = between.input) (out : after.out = between.out)
    (queue : after.manualResponseQueue = between.manualResponseQueue) (follows : Follows limit mux after) :
    Heard limit mux before after := by
  refine ⟨⟨?_, ?_⟩, input.trans answers.input, follows⟩
  · rw [out]
    exact answers.sent
  · rw [queue]
    exact answers.kept

/-- A message that is understood is handed on, and a new chunk size holds on both sides. -/
theorem message_heard {limit : Nat} {mux : Mux} {protocol : Protocol} (message : Message)
    (sendable : message.Sendable limit) (follows : Follows limit mux protocol) :
    ∃ after, onRecvMessage message.received protocol = .ok ((), after) ∧
      Heard limit (mux.heard message) protocol after := by
  obtain ⟨window, size, control⟩ := sendable.understood
  obtain ⟨acknowledged, answered, answers⟩ := acknowledgement_answers limit protocol follows.answers
  have held := follows_answers follows answers
  have type : message.received.header.messageType = message.header.messageType := rfl
  unfold onRecvMessage
  rw [type, bind_read answered]
  by_cases isWindow : message.header.messageType = RTMP_MSG_WindowAcknowledgementSize
  · have same : mux.heard message = mux := if_neg (by rw [isWindow]; decide)
    rw [if_pos isWindow, bind_read (lifted_read (number_decoded message (window isWindow)) acknowledged), same]
    by_cases positive : 0 < message.chunkSize.toInt
    · rw [if_pos positive]
      exact ⟨_, rfl, answers_heard answers rfl rfl rfl (follows_noted held _ acknowledged.inBufferLength)⟩
    · rw [if_neg positive]
      exact ⟨_, rfl, answers_heard answers rfl rfl rfl held⟩
  rw [if_neg isWindow]
  by_cases isSize : message.header.messageType = RTMP_MSG_SetChunkSize
  · have changed : mux.heard message = { mux with chunkSize := message.chunkSize.toNat } := if_pos isSize
    obtain ⟨some, least, most⟩ := size isSize
    rw [if_pos isSize, bind_read (lifted_read (number_decoded message some) acknowledged), changed,
      if_neg (Int.not_lt.mpr least)]
    exact ⟨_, rfl, answers_heard answers rfl rfl rfl (follows_resized held _ least most)⟩
  have same : mux.heard message = mux := if_neg isSize
  rw [if_neg isSize, same]
  by_cases isControl : message.header.messageType = RTMP_MSG_UserControlMessage
  · obtain ⟨packet, rest, decoded⟩ := control isControl
    have understood : decodeMessage decodeUserControl message.received = .ok packet := by
      have data : message.received.data = message.payload := rfl
      rw [decodeMessage, data, decoded]
    rw [if_pos isControl, bind_read (lifted_read understood acknowledged)]
    by_cases buffered : packet.1 = SrcPCUCSetBufferLength
    · rw [if_pos buffered]
      exact ⟨_, rfl, answers_heard answers rfl rfl rfl (follows_noted held acknowledged.inAckSize _)⟩
    rw [if_neg buffered]
    by_cases ping : packet.1 = SrcPCUCPingRequest
    · obtain ⟨after, responded, further⟩ := respond_answers limit (.ping packet.2.1) acknowledged held.answers
      rw [if_pos ping]
      refine ⟨after, responded, answers.toReplies.trans further.toReplies, ?_, follows_answers held further⟩
      exact further.input.trans answers.input
    · rw [if_neg ping]
      exact ⟨_, rfl, answers_heard answers rfl rfl rfl held⟩
  · rw [if_neg isControl]
    exact ⟨_, rfl, answers_heard answers rfl rfl rfl held⟩

end IotCamera.Rtmp.Stack
