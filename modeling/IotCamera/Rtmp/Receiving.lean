import IotCamera.Rtmp.Multiplexing

/-!
# A receiver follows the chunks

Each chunk that is sent is read as a whole by `recv_interlaced_message`, however its bytes
arrive, and leaves the stream it is of with what has come of its message. The message that
a chunk ends is the one that was sent.
-/

namespace IotCamera.Rtmp.Stack

open Codecs BigEndian

/-! ### Reading from the buffer -/

/-- Nothing but the input has changed, and of it these bytes are read. -/
structure Advances (front : List Byte) (before after : Protocol) : Prop where
  rest : after = { before with input := after.input }
  stream : before.input.unread = front ++ after.input.unread
  size : after.input.buffer.nbBuffer = before.input.buffer.nbBuffer

/-- Taking some bytes and then others is taking all of them. -/
theorem Advances.trans {front back : List Byte} {before between after : Protocol}
    (first : Advances front before between) (second : Advances back between after) :
    Advances (front ++ back) before after where
  rest := by
    rw [second.rest, first.rest]
  stream := by rw [first.stream, second.stream, List.append_assoc]
  size := second.size.trans first.size

section

variable {front : List Byte} {before after : Protocol}

/-- Taking bytes leaves the chunk streams as they are. -/
theorem Advances.streams (advances : Advances front before after) : after.streams = before.streams := by
  rw [advances.rest]

/-- It leaves the chunk size as it is. -/
theorem Advances.chunkSize (advances : Advances front before after) :
    after.inChunkSize = before.inChunkSize := by
  rw [advances.rest]

/-- And what was sent. -/
theorem Advances.out (advances : Advances front before after) : after.out = before.out := by
  rw [advances.rest]

/-- What was read is gone from a stream that began with it. -/
theorem Advances.behind {rest : List Byte} (advances : Advances front before after)
    (stream : before.input.unread = front ++ rest) : after.input.unread = rest :=
  (List.append_cancel_left (stream.symm.trans advances.stream)).symm

end

/-- Bytes that the buffer can hold are fetched from the front of the stream. -/
theorem fetch_front (front rest : List Byte) (protocol : Protocol)
    (stream : protocol.input.unread = front ++ rest) (fits : front.length ≤ protocol.input.buffer.nbBuffer) :
    ∃ after, fetch front.length protocol = .ok (front, after) ∧ Advances front protocol after := by
  obtain ⟨grown, ok, same, size, enough⟩ | ⟨_, large⟩ | ⟨_, short⟩ := Input.grow_spec front.length protocol.input
  · obtain ⟨after, read, drop, kept, _⟩ := Input.read_slice_spec front.length grown enough
    rw [same, stream, List.take_left] at read
    rw [same, stream, List.drop_left] at drop
    have got : grow front.length protocol = .ok ((), { protocol with input := grown }) := by
      rw [grow, ok]
    refine ⟨{ protocol with input := after }, ?_, rfl, ?_, kept.trans size⟩
    · refine (bind_read got).trans ?_
      rw [readSlice]
      dsimp only
      rw [read]
    · rw [stream, drop]
  · omega
  · rw [stream, List.length_append] at short
    omega

/-! ### Headers -/

/-- A timestamp of 31 bits stays the same when it is masked again in 64 bits. -/
theorem timestamp_masked (timestamp : BitVec 32) :
    ((timestamp &&& timestampMask : BitVec 32).setWidth 64 &&& timestampMask : BitVec 64) =
      (timestamp &&& timestampMask : BitVec 32).setWidth 64 := by
  apply BitVec.eq_of_toNat_eq
  have mask : (timestampMask : BitVec 32).toNat = 2 ^ 31 - 1 := rfl
  have wide : (timestampMask : BitVec 64).toNat = 2 ^ 31 - 1 := rfl
  rw [BitVec.toNat_and, wide, BitVec.toNat_setWidth_of_le (by decide), BitVec.toNat_and, mask,
    Nat.and_two_pow_sub_one_eq_mod, Nat.and_two_pow_sub_one_eq_mod, Nat.mod_mod]

/-- Masking a timestamp in 32 bits or in 64 bits comes to the same. -/
theorem small_timestamp_masked (timestamp : BitVec 32) :
    (BitVec.ofNat 64 timestamp.toNat &&& timestampMask : BitVec 64) =
      (timestamp &&& timestampMask : BitVec 32).setWidth 64 := by
  apply BitVec.eq_of_toNat_eq
  have mask : (timestampMask : BitVec 32).toNat = 2 ^ 31 - 1 := rfl
  have wide : (timestampMask : BitVec 64).toNat = 2 ^ 31 - 1 := rfl
  have bound := timestamp.isLt
  rw [BitVec.toNat_and, wide, BitVec.toNat_setWidth_of_le (by decide), BitVec.toNat_and, mask,
    BitVec.toNat_ofNat, Nat.mod_eq_of_lt (by omega)]

/-- The short basic header says the type of the chunk and its stream. -/
theorem basic_header_read (fmt cid : Nat) (rest : List Byte) (protocol : Protocol) (type : fmt < 4)
    (low : 2 ≤ cid) (high : cid < 64)
    (stream : protocol.input.unread = [BitVec.ofNat 8 (fmt * 64 + cid)] ++ rest)
    (fits : 1 ≤ protocol.input.buffer.nbBuffer) :
    ∃ after, readBasicHeader protocol = .ok ((fmt, cid), after) ∧
      Advances [BitVec.ofNat 8 (fmt * 64 + cid)] protocol after := by
  obtain ⟨after, read, advances⟩ := fetch_front _ rest protocol stream fits
  refine ⟨after, ?_, advances⟩
  refine (bind_read read).trans ?_
  have number : numberOf [BitVec.ofNat 8 (fmt * 64 + cid)] = fmt * 64 + cid := by
    simp only [numberOf, BitVec.toNat_ofNat, List.length_nil, pow_zero, mul_one, add_zero]
    omega
  have single : 1 < (fmt * 64 + cid) % 64 := by omega
  rw [number, if_pos single]
  have first : (fmt * 64 + cid) / 64 = fmt := by omega
  have second : (fmt * 64 + cid) % 64 = cid := by omega
  rw [first, second]
  rfl

/-- The timestamp of a message header, which stops at its largest value. -/
def stampBytes (timestamp : BitVec 32) : List Byte :=
  if timestamp.toNat < RTMP_EXTENDED_TIMESTAMP then bytesOf 3 timestamp.toNat else [0xFF, 0xFF, 0xFF]

/-- The timestamp of a header has three bytes. -/
theorem stamp_length (timestamp : BitVec 32) : (stampBytes timestamp).length = 3 := by
  unfold stampBytes
  split
  · rfl
  · rfl

/-- They hold the timestamp, and at most the mark of an extended one. -/
theorem stamp_number (timestamp : BitVec 32) :
    numberOf (stampBytes timestamp) = min timestamp.toNat RTMP_EXTENDED_TIMESTAMP := by
  unfold stampBytes
  split
  case isTrue small =>
    rw [number_bytes_of_lt 3 _ (lt_trans small (by decide)), Nat.min_eq_left (le_of_lt small)]
  case isFalse large =>
    rw [Nat.min_eq_right (Nat.le_of_not_lt large)]
    rfl

/-- The fields of a whole message header. -/
def fieldBytes (mh : MessageHeader) : List Byte :=
  stampBytes (mh.timestamp.setWidth 32) ++ (bytesOf 3 mh.payloadLength ++
    ([mh.messageType] ++ (bytesOf 4 mh.streamId.toNat).reverse))

/-- The fields of a first header have eleven bytes. -/
theorem fields_length (mh : MessageHeader) : (fieldBytes mh).length = 11 := by
  simp [fieldBytes, stamp_length]

/-- A first header is the basic header, the fields and the extended timestamp. -/
theorem first_header_bytes (mh : MessageHeader) :
    chunkHeader mh SRS_CONSTS_RTMP_MAX_FMT0_HEADER_SIZE true =
      [BitVec.ofNat 8 (mh.perferCid % 64)] ++ (fieldBytes mh ++ extendedTimestamp (mh.timestamp.setWidth 32)) := by
  have room : ¬ SRS_CONSTS_RTMP_MAX_FMT0_HEADER_SIZE < SRS_CONSTS_RTMP_MAX_FMT0_HEADER_SIZE := by decide
  rw [chunkHeader, if_pos rfl, srsChunkHeaderC0, if_neg room]
  simp only [fieldBytes, stampBytes, List.append_assoc]

/-- A later header is the basic header and the extended timestamp. -/
theorem next_header_bytes (mh : MessageHeader) :
    chunkHeader mh SRS_CONSTS_RTMP_MAX_FMT0_HEADER_SIZE false =
      [BitVec.ofNat 8 (0xC0 + mh.perferCid % 64)] ++ extendedTimestamp (mh.timestamp.setWidth 32) := by
  have room : ¬ SRS_CONSTS_RTMP_MAX_FMT0_HEADER_SIZE < SRS_CONSTS_RTMP_MAX_FMT3_HEADER_SIZE := by decide
  rw [chunkHeader, if_neg (by decide), srsChunkHeaderC3, if_neg room]

/-- Fields of the widths of a message header are cut out of it again. -/
theorem cut_fields (stamp size sid : List Byte) (type : Byte) (three : stamp.length = 3) (same : size.length = 3)
    (four : sid.length = 4) : (stamp ++ (size ++ ([type] ++ sid))).take 3 = stamp ∧
      ((stamp ++ (size ++ ([type] ++ sid))).drop 3).take 3 = size ∧
      ((stamp ++ (size ++ ([type] ++ sid))).drop 6).headD 0 = type ∧
      ((stamp ++ (size ++ ([type] ++ sid))).drop 7).take 4 = sid := by
  obtain ⟨a, b, c, rfl⟩ := List.length_eq_three.mp three
  obtain ⟨d, e, f, rfl⟩ := List.length_eq_three.mp same
  refine ⟨rfl, rfl, rfl, ?_⟩
  exact List.take_of_length_le (le_of_eq four)

/-- The fields of a message header are those that were sent; a timestamp that does not fit is
left for later. -/
theorem fields_parsed (mh : MessageHeader) (chunk : ChunkStream) (short : mh.payloadLength < 2 ^ 24) :
    parseMessageHeader chunk true RTMP_FMT_TYPE0 (fieldBytes mh) = .ok { chunk with
      extendedTimestamp := decide (RTMP_EXTENDED_TIMESTAMP ≤ (mh.timestamp.setWidth 32).toNat)
      header :=
        { timestampDelta := min (mh.timestamp.setWidth 32).toNat RTMP_EXTENDED_TIMESTAMP
          payloadLength := mh.payloadLength
          messageType := mh.messageType
          streamId := mh.streamId
          timestamp :=
            if RTMP_EXTENDED_TIMESTAMP ≤ (mh.timestamp.setWidth 32).toNat then chunk.header.timestamp
            else BitVec.ofNat 64 (mh.timestamp.setWidth 32).toNat
          perferCid := chunk.header.perferCid } } := by
  obtain ⟨stamp, size, type, sid⟩ := cut_fields (stampBytes (mh.timestamp.setWidth 32))
    (bytesOf 3 mh.payloadLength) (bytesOf 4 mh.streamId.toNat).reverse mh.messageType
    (stamp_length _) (bytes_length 3 _) (by rw [List.length_reverse, bytes_length])
  have length : numberOf (bytesOf 3 mh.payloadLength) = mh.payloadLength :=
    number_bytes_of_lt 3 _ (lt_of_lt_of_eq short (by decide))
  have id : littleEndian (bytesOf 4 mh.streamId.toNat).reverse = mh.streamId.toNat := by
    rw [littleEndian, List.reverse_reverse, number_bytes_of_lt 4 _ mh.streamId.isLt]
  have reach : RTMP_EXTENDED_TIMESTAMP ≤ min (mh.timestamp.setWidth 32).toNat RTMP_EXTENDED_TIMESTAMP ↔
      RTMP_EXTENDED_TIMESTAMP ≤ (mh.timestamp.setWidth 32).toNat := by omega
  unfold parseMessageHeader fieldBytes
  have whole : ¬ RTMP_FMT_TYPE1 < RTMP_FMT_TYPE0 := by decide
  simp only [stamp, size, type, sid, stamp_number, length, id, BitVec.ofNat_toNat, BitVec.setWidth_eq, if_neg whole,
    Bool.true_eq_false, false_and, if_false, if_true, reach]
  by_cases large : RTMP_EXTENDED_TIMESTAMP ≤ (mh.timestamp.setWidth 32).toNat
  · simp only [large, decide_true, if_true]
  · have small : min (mh.timestamp.setWidth 32).toNat RTMP_EXTENDED_TIMESTAMP =
        (mh.timestamp.setWidth 32).toNat := by omega
    simp only [large, decide_false, if_false, small, Bool.false_eq_true, BitVec.ofNat_toNat]

/-- An extended timestamp is taken for the message it begins, and later where it is the same. -/
theorem extended_timestamp_read (timestamp : BitVec 32) (chunk : ChunkStream) (isFirst : Bool)
    (rest : List Byte) (protocol : Protocol)
    (same : isFirst = false → (chunk.header.timestamp.setWidth 32 : BitVec 32) = timestamp &&& timestampMask)
    (stream : protocol.input.unread = bytesOf 4 timestamp.toNat ++ rest)
    (fits : 4 ≤ protocol.input.buffer.nbBuffer) :
    ∃ after, readExtendedTimestamp chunk isFirst protocol =
      .ok (chunk.timed ((timestamp &&& timestampMask : BitVec 32).setWidth 64), after) ∧
      Advances (bytesOf 4 timestamp.toNat) protocol after := by
  obtain ⟨after, read, advances⟩ := fetch_front _ rest protocol stream fits
  refine ⟨after, ?_, advances⟩
  have number : BitVec.ofNat 32 (numberOf (bytesOf 4 timestamp.toNat)) = timestamp := by
    rw [number_bytes_of_lt 4 _ timestamp.isLt, BitVec.ofNat_toNat, BitVec.setWidth_eq]
  refine (bind_read read).trans ?_
  rw [number]
  have taken : ¬ (isFirst = false ∧ 0 < (chunk.header.timestamp.setWidth 32 : BitVec 32) ∧
      (chunk.header.timestamp.setWidth 32 : BitVec 32) ≠ timestamp &&& timestampMask) := by
    rintro ⟨later, _, other⟩
    exact other (same later)
  rw [if_neg taken]
  rfl

/-- Taking no bytes changes nothing. -/
theorem advances_nothing (protocol : Protocol) : Advances [] protocol protocol := ⟨rfl, rfl, rfl⟩

/-- Whether it comes extended or not, the timestamp of the message is there in the end. -/
theorem timestamp_settled (timestamp : BitVec 32) (chunk : ChunkStream) (isFirst : Bool)
    (rest : List Byte) (protocol : Protocol)
    (flag : chunk.extendedTimestamp = decide (RTMP_EXTENDED_TIMESTAMP ≤ timestamp.toNat))
    (same : isFirst = false → (chunk.header.timestamp.setWidth 32 : BitVec 32) = timestamp &&& timestampMask)
    (small : ¬ RTMP_EXTENDED_TIMESTAMP ≤ timestamp.toNat →
      chunk.header.timestamp &&& timestampMask = (timestamp &&& timestampMask : BitVec 32).setWidth 64)
    (stream : protocol.input.unread = extendedTimestamp timestamp ++ rest)
    (fits : 4 ≤ protocol.input.buffer.nbBuffer) :
    ∃ timed after, settleTimestamp chunk isFirst protocol =
        .ok (timed, after) ∧
      Advances (extendedTimestamp timestamp) protocol after ∧
      timed.timed (timed.header.timestamp &&& timestampMask) =
        chunk.timed ((timestamp &&& timestampMask : BitVec 32).setWidth 64) := by
  by_cases extended : RTMP_EXTENDED_TIMESTAMP ≤ timestamp.toNat
  · have bytes : extendedTimestamp timestamp = bytesOf 4 timestamp.toNat := if_pos extended
    rw [bytes] at stream ⊢
    obtain ⟨after, read, advances⟩ := extended_timestamp_read timestamp chunk isFirst rest protocol same stream fits
    refine ⟨chunk.timed ((timestamp &&& timestampMask : BitVec 32).setWidth 64), after, ?_, advances, ?_⟩
    · rw [settleTimestamp, flag, decide_eq_true extended]
      exact read
    · exact congrArg chunk.timed (timestamp_masked timestamp)
  · have bytes : extendedTimestamp timestamp = [] := if_neg extended
    rw [bytes]
    refine ⟨chunk, protocol, ?_, advances_nothing protocol, ?_⟩
    · rw [settleTimestamp, flag, decide_eq_false extended]
      rfl
    · rw [small extended]

/-- A stream in the middle of a message, with the bytes of it that have come. -/
def ChunkStream.amid (message : Message) (payload : Option Nat) (data : List Byte) (count : Nat) : ChunkStream where
  cid := message.header.perferCid
  header := message.header.received
  extendedTimestamp := decide (RTMP_EXTENDED_TIMESTAMP ≤ (message.header.timestamp.setWidth 32).toNat)
  msg := some ⟨message.header.received, payload, data⟩
  msgCount := count

/-- A stream that no message is on. -/
structure ChunkStream.Free (cid : Nat) (chunk : ChunkStream) : Prop where
  own : chunk.cid = cid
  prefers : chunk.header.perferCid = cid
  idle : chunk.msg = none

/-- The rest of a header behind its basic header. -/
def headerRest (message : Message) (first : Bool) : List Byte :=
  (if first then fieldBytes message.header else []) ++ extendedTimestamp (message.header.timestamp.setWidth 32)

/-- A whole header begins a message on a free stream. -/
theorem first_header_read (message : Message) (chunk : ChunkStream) (rest : List Byte) (protocol : Protocol)
    (short : message.header.payloadLength < 2 ^ 24) (free : chunk.Free message.header.perferCid)
    (stream : protocol.input.unread = headerRest message true ++ rest)
    (fits : 16 ≤ protocol.input.buffer.nbBuffer) :
    ∃ after, readMessageHeader chunk RTMP_FMT_TYPE0 protocol =
      .ok (.amid message none [] (chunk.msgCount + 1), after) ∧
      Advances (headerRest message true) protocol after := by
  have fields : protocol.input.unread = fieldBytes message.header ++
      (extendedTimestamp (message.header.timestamp.setWidth 32) ++ rest) := by
    rw [stream, headerRest, if_pos rfl, List.append_assoc]
  have eleven := fields_length message.header
  obtain ⟨between, read, advances⟩ := fetch_front _ _ protocol fields (by omega)
  rw [eleven] at read
  have accepted : ¬ refusesChunk chunk RTMP_FMT_TYPE0 := by
    simp [refusesChunk, free.idle]
  have parsed := fields_parsed message.header chunk short
  have behind : between.input.unread = extendedTimestamp (message.header.timestamp.setWidth 32) ++ rest := by
    have whole := advances.stream
    rw [fields] at whole
    exact (List.append_cancel_left whole).symm
  generalize head : (ChunkStream.mk chunk.cid _ _ chunk.msg chunk.msgCount : ChunkStream) = begun at parsed
  obtain ⟨timed, after, settled, moved, same⟩ := timestamp_settled (message.header.timestamp.setWidth 32) begun
    true rest between (by subst head; rfl) (by intro no; cases no)
    (by
      subst head
      intro small
      dsimp only
      rw [if_neg small]
      exact small_timestamp_masked _)
    behind (by rw [advances.size]; omega)
  refine ⟨after, ?_, ?_⟩
  · have header : readFields chunk true RTMP_FMT_TYPE0 protocol = .ok (begun, between) := by
      refine (bind_read read).trans ?_
      rw [if_pos (by decide), parsed]
      rfl
    rw [readMessageHeader, if_neg accepted, free.idle]
    refine (bind_read header).trans ?_
    refine (bind_read settled).trans ?_
    rw [same, ← head]
    dsimp only [ChunkStream.timed, ChunkStream.headed]
    rw [free.own, free.prefers]
    rfl
  · rw [headerRest, if_pos rfl]
    exact advances.trans moved

/-- A short header goes on with the message of its stream. -/
theorem next_header_read (message : Message) (payload : Option Nat) (data rest : List Byte) (count : Nat)
    (protocol : Protocol) (later : count ≠ 0) (stream : protocol.input.unread = headerRest message false ++ rest)
    (fits : 16 ≤ protocol.input.buffer.nbBuffer) :
    ∃ after, readMessageHeader (.amid message payload data count) 3 protocol =
      .ok (.amid message payload data (count + 1), after) ∧
      Advances (headerRest message false) protocol after := by
  have nothing : headerRest message false = extendedTimestamp (message.header.timestamp.setWidth 32) := by
    rw [headerRest, if_neg (by decide)]
    rfl
  rw [nothing] at stream ⊢
  have short : ((message.header.received.timestamp.setWidth 32) : BitVec 32) =
      message.header.timestamp.setWidth 32 &&& timestampMask := by
    apply BitVec.eq_of_toNat_eq
    rw [BitVec.toNat_setWidth, MessageHeader.received, BitVec.toNat_setWidth_of_le (by decide)]
    exact Nat.mod_eq_of_lt (BitVec.isLt _)
  obtain ⟨between, read, advances⟩ := fetch_front [] _ protocol stream (Nat.zero_le _)
  have behind : between.input.unread = extendedTimestamp (message.header.timestamp.setWidth 32) ++ rest := by
    rw [← stream]
    exact advances.stream.symm
  obtain ⟨timed, after, settled, moved, same⟩ := timestamp_settled (message.header.timestamp.setWidth 32)
    (.amid message payload data count) false rest between rfl (fun _ => short)
    (fun _ => timestamp_masked _) behind (by rw [advances.size]; omega)
  refine ⟨after, ?_, advances.trans moved⟩
  have accepted : ¬ refusesChunk (.amid message payload data count) 3 := by
    rintro (⟨fresh, _⟩ | ⟨_, whole⟩)
    · exact later fresh
    · cases whole
  have header : readFields (.amid message payload data count) false 3 protocol =
      .ok (.amid message payload data count, between) := by
    refine (bind_read read).trans ?_
    rw [if_neg (by decide), repeatMessageHeader, if_neg (by rintro ⟨first, _⟩; cases first)]
    rfl
  have begun : (ChunkStream.amid message payload data count).msg.isNone = false := rfl
  rw [readMessageHeader, if_neg accepted, begun]
  refine (bind_read header).trans ?_
  refine (bind_read settled).trans ?_
  rw [same]
  rfl

/-! ### Payloads -/

/-- In the middle of a message a chunk is copied, and the message finished when it is whole. -/
theorem payload_steps (chunk : ChunkStream) (msg : CommonMessage) (amid : chunk.msg = some msg)
    (some : ¬ chunk.header.payloadLength = 0) (room : msg.data.length ≤ chunk.header.payloadLength) :
    readMessagePayload chunk = do return finishPayload chunk (← copyPayload chunk msg) := by
  unfold readMessagePayload
  rw [amid]
  dsimp only
  rw [if_neg some, if_neg (Nat.not_lt.mpr room)]

/-- What has come of a message grows by what a chunk has of the rest, and the message leaves
its stream when nothing is missing any more. -/
theorem payload_read (message : Message) (payload : Option Nat) (data left rest : List Byte) (count : Nat)
    (protocol : Protocol) (length : message.header.payloadLength = message.payload.length)
    (parts : message.payload = data ++ left) (missing : 0 < left.length)
    (created : payload = none ∨ payload = some message.payload.length)
    (limit : protocol.inChunkSize ≤ protocol.input.buffer.nbBuffer)
    (stream : protocol.input.unread = left.take protocol.inChunkSize ++ rest) :
    ∃ after, readMessagePayload (.amid message payload data count) protocol =
      .ok (if left.length ≤ protocol.inChunkSize then
          ({ ChunkStream.amid message payload data count with msg := none }, some message.received)
        else
          (.amid message (some message.payload.length) (data ++ left.take protocol.inChunkSize) count, none),
        after) ∧
      Advances (left.take protocol.inChunkSize) protocol after := by
  have size : message.payload.length = data.length + left.length := by rw [parts, List.length_append]
  have part : (left.take protocol.inChunkSize).length = min (message.header.payloadLength - data.length)
      protocol.inChunkSize := by
    rw [List.length_take]
    omega
  have fits : (left.take protocol.inChunkSize).length ≤ protocol.input.buffer.nbBuffer := by omega
  obtain ⟨after, read, advances⟩ := fetch_front _ rest protocol stream fits
  rw [part] at read
  refine ⟨after, ?_, advances⟩
  have whole : payload.getD message.header.payloadLength = message.payload.length := by
    obtain rfl | rfl := created
    · exact length
    · rfl
  have room : data.length + (left.take protocol.inChunkSize).length ≤ message.payload.length := by omega
  have copied : copyPayload (.amid message payload data count) ⟨message.header.received, payload, data⟩ protocol =
      .ok (⟨message.header.received, some message.payload.length, data ++ left.take protocol.inChunkSize⟩, after) := by
    refine (get_read _ protocol).trans ?_
    refine (bind_read read).trans ?_
    have kept : CommonMessage.copy ⟨message.header.received, some (payload.getD message.header.payloadLength), data⟩
        (left.take protocol.inChunkSize) = .ok ⟨message.header.received, some message.payload.length,
          data ++ left.take protocol.inChunkSize⟩ := by
      rw [whole, CommonMessage.copy, Option.getD_some, if_pos room]
    exact congrArg (fun result : Except Failure CommonMessage => (liftM result : Receiving _) after) kept
  rw [payload_steps (.amid message payload data count) ⟨message.header.received, payload, data⟩ rfl
    (by change ¬ message.header.payloadLength = 0; omega)
    (by change data.length ≤ message.header.payloadLength; omega)]
  refine (bind_read copied).trans ?_
  have total : (data ++ left.take protocol.inChunkSize).length = message.payload.length ↔
      left.length ≤ protocol.inChunkSize := by
    rw [List.length_append]
    omega
  have finish : finishPayload (.amid message payload data count)
      ⟨message.header.received, some message.payload.length, data ++ left.take protocol.inChunkSize⟩ =
      if left.length ≤ protocol.inChunkSize then
        ({ ChunkStream.amid message payload data count with msg := none }, some message.received)
      else
        (.amid message (some message.payload.length) (data ++ left.take protocol.inChunkSize) count, none) := by
    unfold finishPayload
    have same : (ChunkStream.amid message payload data count).header.payloadLength =
        (data ++ left.take protocol.inChunkSize).length ↔ left.length ≤ protocol.inChunkSize := by
      rw [← total, eq_comm, ← length]
      rfl
    rw [if_congr same rfl rfl]
    split
    case isTrue last =>
      rw [List.take_of_length_le last, ← parts]
      rfl
    case isFalse => rfl
  rw [finish]
  rfl

/-! ### Chunks -/

/-- What a receiver holds of a stream: nothing, or what has come of the message it is in the
middle of. -/
inductive Holds (limit cid : Nat) : Option (Message × List Byte) → ChunkStream → Prop where
  | free (chunk : ChunkStream) (free : chunk.Free cid) : Holds limit cid none chunk
  | amid (message : Message) (data left : List Byte) (count : Nat) (own : message.header.perferCid = cid)
      (sendable : message.Sendable limit) (parts : message.payload = data ++ left) (missing : 0 < left.length)
      (later : count ≠ 0) :
      Holds limit cid (some (message, left)) (.amid message (some message.payload.length) data count)

/-- A receiver has heard all that was sent, and can take what comes next. -/
structure Follows (limit : Nat) (mux : Mux) (protocol : Protocol) : Prop where
  size : protocol.inChunkSize = mux.chunkSize
  positive : 0 < mux.chunkSize
  within : mux.chunkSize ≤ limit
  room : limit ≤ protocol.input.buffer.nbBuffer
  headers : 16 ≤ protocol.input.buffer.nbBuffer
  streams : ∀ cid, Holds limit cid (mux.current cid) (protocol.streams cid)
  answers : 0 < protocol.out.outChunkSize

/-- Reading does not touch what is sent or kept to be sent. -/
structure Untouched (before after : Protocol) : Prop where
  out : after.out = before.out
  auto : after.autoResponseWhenRecv = before.autoResponseWhenRecv
  queue : after.manualResponseQueue = before.manualResponseQueue

/-- Taking bytes touches nothing that is sent or kept to be sent. -/
theorem Advances.untouched {front : List Byte} {before after : Protocol} (advances : Advances front before after) :
    Untouched before after := by
  rw [advances.rest]
  exact ⟨rfl, rfl, rfl⟩

/-- The receiver after a chunk. -/
theorem chunk_stored {protocol based headed paid : Protocol} {fmt cid : Nat} {chunk : ChunkStream}
    {result : ChunkStream × Option CommonMessage}
    (basic : readBasicHeader protocol = .ok ((fmt, cid), based))
    (header : readMessageHeader (based.streams cid) fmt based = .ok (chunk, headed))
    (payload : readMessagePayload chunk headed = .ok (result, paid)) :
    recvInterlacedMessage protocol = .ok (result.2, paid.store cid result.1) := by
  refine (bind_read basic).trans ?_
  refine (get_read _ based).trans ?_
  refine (bind_read header).trans ?_
  exact bind_read payload

/-- A message that is begun or gone on with leaves the receiver where the sender is. -/
theorem payload_follows {limit : Nat} {mux : Mux} {protocol headed : Protocol} {front : List Byte}
    {message : Message} {payload : Option Nat} {data left rest : List Byte} {count : Nat}
    (follows : Follows limit mux protocol) (advances : Advances front protocol headed)
    (sendable : message.Sendable limit) (parts : message.payload = data ++ left) (missing : 0 < left.length)
    (created : payload = none ∨ payload = some message.payload.length) (later : count ≠ 0)
    (stream : headed.input.unread = left.take mux.chunkSize ++ rest)
    (steps : ∀ result paid, readMessagePayload (.amid message payload data count) headed = .ok (result, paid) →
      recvInterlacedMessage protocol = .ok (result.2, paid.store message.header.perferCid result.1)) :
    ∃ after, recvInterlacedMessage protocol = .ok ((mux.ended message left).map Message.received, after) ∧
      after.input.unread = rest ∧ Follows limit (mux.advance message left) after ∧ Untouched protocol after := by
  have size : headed.inChunkSize = mux.chunkSize := advances.chunkSize.trans follows.size
  have room : headed.inChunkSize ≤ headed.input.buffer.nbBuffer := by
    rw [size, advances.size]
    exact follows.within.trans follows.room
  obtain ⟨paid, read, moved⟩ := payload_read message payload data left rest count headed sendable.length parts
    missing created room (by rw [size, stream])
  have received := steps _ paid read
  have unread : paid.input.unread = rest := by
    apply moved.behind
    rw [size, stream]
  have buffer : paid.input.buffer.nbBuffer = protocol.input.buffer.nbBuffer := moved.size.trans advances.size
  have untouched : ∀ result, Untouched protocol (paid.store message.header.perferCid result) := by
    intro result
    exact ⟨moved.untouched.out.trans advances.untouched.out, moved.untouched.auto.trans advances.untouched.auto,
      moved.untouched.queue.trans advances.untouched.queue⟩
  have others : ∀ (result : ChunkStream) (next : Option (Message × List Byte)),
      Holds limit message.header.perferCid next result →
      (mux.advance message left).current = (fun cid =>
        if cid = message.header.perferCid then next else mux.current cid) →
      Follows limit (mux.advance message left) (paid.store message.header.perferCid result) := by
    intro result next holds current
    refine ⟨?_, follows.positive, follows.within, ?_, ?_, ?_, ?_⟩
    · exact moved.chunkSize.trans size
    · exact follows.room.trans_eq buffer.symm
    · exact follows.headers.trans_eq buffer.symm
    · intro cid
      rw [current, Protocol.store]
      dsimp only
      by_cases own : cid = message.header.perferCid
      · rw [if_pos own, if_pos own, own]
        exact holds
      · rw [if_neg own, if_neg own, moved.streams, advances.streams]
        exact follows.streams cid
    · change 0 < paid.out.outChunkSize
      rw [moved.out, advances.out]
      exact follows.answers
  rw [size] at received
  by_cases last : left.length ≤ mux.chunkSize
  · rw [if_pos last] at received
    have done : mux.ended message left = some message := if_pos last
    rw [done]
    refine ⟨_, received, unread, ?_, untouched _⟩
    apply others _ none (.free _ ⟨rfl, rfl, rfl⟩)
    funext cid
    rw [Mux.advance, if_pos last]
  · rw [if_neg last] at received
    have done : mux.ended message left = none := if_neg last
    rw [done]
    refine ⟨_, received, unread, ?_, untouched _⟩
    apply others _ (some (message, left.drop mux.chunkSize))
    · refine .amid message _ _ count rfl sendable ?_ ?_ later
      · rw [List.append_assoc, List.take_append_drop, parts]
      · rw [List.length_drop]
        omega
    · funext cid
      rw [Mux.advance, if_neg last]

/-- A header on the wire is its basic header and the rest. -/
theorem chunk_bytes (message : Message) (first : Bool) (part : List Byte) :
    message.chunk first part = [BitVec.ofNat 8 ((if first then 0 else 3) * 64 + message.header.perferCid % 64)] ++
      (headerRest message first ++ part) := by
  cases first with
  | false =>
      rw [Message.chunk, next_header_bytes, headerRest, if_neg (by decide), List.append_assoc]
      rfl
  | true =>
      rw [Message.chunk, first_header_bytes, headerRest, if_pos rfl, List.append_assoc, List.append_assoc]
      simp

/-- A chunk of the sender is received as the chunk it is, and the receiver follows. -/
theorem chunk_received {limit : Nat} {mux next : Mux} {bytes rest : List Byte} {ended : Option Message}
    {protocol : Protocol} (chunk : Mux.Chunk limit mux bytes ended next) (follows : Follows limit mux protocol)
    (stream : protocol.input.unread = bytes ++ rest) :
    ∃ after, recvInterlacedMessage protocol = .ok (ended.map Message.received, after) ∧
      after.input.unread = rest ∧ Follows limit next after ∧ Untouched protocol after := by
  have headers := follows.headers
  cases chunk with
  | first message sendable free =>
      have held := follows.streams message.header.perferCid
      rw [free] at held
      obtain ⟨_, idle⟩ := held
      rw [chunk_bytes, List.append_assoc, List.append_assoc, Nat.mod_eq_of_lt sendable.high] at stream
      obtain ⟨based, basic, moved⟩ := basic_header_read 0 message.header.perferCid _ protocol (by decide)
        sendable.low sendable.high stream (by omega)
      have behind := moved.behind stream
      obtain ⟨headed, header, further⟩ := first_header_read message (based.streams message.header.perferCid) _
        based (by rw [sendable.length]; exact sendable.short) (by rw [moved.streams]; exact idle)
        behind (by rw [moved.size]; exact headers)
      exact payload_follows follows (moved.trans further) sendable rfl sendable.some (.inl rfl)
        (Nat.succ_ne_zero _) (further.behind behind) (fun _ _ payload => chunk_stored basic header payload)
  | next message left current =>
      have held := follows.streams message.header.perferCid
      generalize kept : protocol.streams message.header.perferCid = stored at held
      rw [current] at held
      cases held with
      | amid _ data _ count _ sendable parts missing later =>
          rw [chunk_bytes, List.append_assoc, List.append_assoc, Nat.mod_eq_of_lt sendable.high] at stream
          obtain ⟨based, basic, moved⟩ := basic_header_read 3 message.header.perferCid _ protocol (by decide)
            sendable.low sendable.high stream (by omega)
          have behind := moved.behind stream
          obtain ⟨headed, header, further⟩ := next_header_read message (some message.payload.length) data _
            count based later behind (by rw [moved.size]; exact headers)
          have same : based.streams message.header.perferCid =
              .amid message (some message.payload.length) data count := by
            rw [moved.streams, kept]
          rw [← same] at header
          exact payload_follows follows (moved.trans further) sendable parts missing (.inr rfl)
            (Nat.succ_ne_zero _) (further.behind behind) (fun _ _ payload => chunk_stored basic header payload)

end IotCamera.Rtmp.Stack
