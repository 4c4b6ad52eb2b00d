import IotCamera.Rtmp.Answering

/-!
# Messages are delivered

What is sent on the chunk streams of a connection is received: every message once and as it
was, in the order in which the messages are ended, however their chunks are interleaved and
however the bytes arrive. The answers that the protocol gives on the way, and the changes of
the chunk size, do not get in between.
-/

namespace IotCamera.Rtmp.Stack

open Codecs BigEndian

/-- As many messages are received, one after the other. -/
def recvMessages : Nat → Receiving (List CommonMessage)
  | 0 => pure []
  | count + 1 => do
      let msg ← recvMessage
      let msgs ← recvMessages count
      return msg :: msgs

/-- Every chunk has a byte. -/
theorem chunk_some (message : Message) (first : Bool) (part : List Byte) :
    0 < (message.chunk first part).length := by
  have header := chunk_header_some message.header first
  rw [Message.chunk, List.length_append]
  omega

/-- A chunk is some bytes, and a message that it ends is one that may be sent. -/
theorem chunk_ends {limit : Nat} {mux next : Mux} {bytes : List Byte} {ended : Option Message}
    {protocol : Protocol} (chunk : Mux.Chunk limit mux bytes ended next) (follows : Follows limit mux protocol) :
    0 < bytes.length ∧ ∀ message, ended = some message → message.Sendable limit := by
  cases chunk with
  | first message sendable free =>
      refine ⟨chunk_some _ _ _, ?_⟩
      intro other same
      unfold Mux.ended at same
      split at same
      case isTrue =>
        rw [← Option.some.inj same]
        exact sendable
      case isFalse => cases same
  | next message left current =>
      refine ⟨chunk_some _ _ _, ?_⟩
      have held := follows.streams message.header.perferCid
      generalize protocol.streams message.header.perferCid = stored at held
      rw [current] at held
      intro other same
      unfold Mux.ended at same
      split at same
      case isTrue =>
        rw [← Option.some.inj same]
        cases held with
        | amid _ data _ count _ sendable parts missing later => exact sendable
      case isFalse => cases same

/-- The loop goes on until the first message of a run is whole, and stops behind it. -/
theorem first_received {limit : Nat} {before last : Mux} {bytes rest : List Byte} {message : Message}
    {messages further : List Message} {rounds : Nat} {protocol : Protocol}
    (run : Mux.Run limit before bytes further last) (begins : further = message :: messages)
    (follows : Follows limit before protocol) (stream : protocol.input.unread = bytes ++ rest)
    (enough : bytes.length < rounds) :
    ∃ after mux more, recvLoop rounds protocol = .ok (message.received, after) ∧
      Mux.Run limit mux more messages last ∧ Follows limit mux after ∧ after.input.unread = more ++ rest ∧
      Replies limit protocol after := by
  induction run generalizing protocol rounds with
  | done mux => cases begins
  | @part before between last bytes tail messages chunk run inductionHypothesis =>
      obtain ⟨some, _⟩ := chunk_ends chunk follows
      rw [List.length_append] at enough
      obtain ⟨fewer, rfl⟩ := Nat.exists_eq_succ_of_ne_zero (by omega : rounds ≠ 0)
      have less : tail.length < fewer := by omega
      rw [List.append_assoc] at stream
      obtain ⟨between, received, behind, follows', untouched⟩ := chunk_received chunk follows stream
      obtain ⟨after, mux, more, loop, further, follows'', left, replies⟩ :=
        inductionHypothesis begins follows' behind less
      have since : Replies limit protocol after :=
        (replies_nothing limit follows.answers untouched.out untouched.queue).trans replies
      refine ⟨after, mux, more, ?_, further, follows'', left, since⟩
      rw [recvLoop, bind_read received]
      exact loop
  | @whole before between last bytes tail ended others chunk run inductionHypothesis =>
      obtain ⟨rfl, rfl⟩ := List.cons.inj begins
      obtain ⟨some, sends⟩ := chunk_ends chunk follows
      have sendable := sends _ rfl
      obtain ⟨fewer, rfl⟩ := Nat.exists_eq_succ_of_ne_zero (by omega : rounds ≠ 0)
      rw [List.append_assoc] at stream
      obtain ⟨between, received, behind, follows', untouched⟩ := chunk_received chunk follows stream
      obtain ⟨after, handed, heard⟩ := message_heard ended sendable follows'
      have replies : Replies limit protocol after :=
        (replies_nothing limit follows.answers untouched.out untouched.queue).trans heard.toReplies
      refine ⟨after, _, _, ?_, run, heard.follows, by rw [heard.input, behind], replies⟩
      have present : ¬ (ended.received.data.length = 0 ∨ ended.received.header.payloadLength = 0) := by
        have some := sendable.some
        have length := sendable.length
        change ¬ (ended.payload.length = 0 ∨ ended.header.payloadLength = 0)
        omega
      rw [recvLoop, bind_read received]
      change (if ended.received.data.length = 0 ∨ ended.received.header.payloadLength = 0 then
        recvLoop fewer
      else do
        onRecvMessage ended.received
        return ended.received : Receiving CommonMessage) between = _
      rw [if_neg present, bind_read handed]
      rfl

/-- The messages of a run are received, and the receiver stops behind the last one. -/
theorem run_received {limit : Nat} {before last : Mux} {bytes rest : List Byte} {messages : List Message}
    {protocol : Protocol} (run : Mux.Run limit before bytes messages last)
    (follows : Follows limit before protocol) (stream : protocol.input.unread = bytes ++ rest) :
    ∃ after mux more, recvMessages messages.length protocol = .ok (messages.map Message.received, after) ∧
      Mux.Run limit mux more [] last ∧ Follows limit mux after ∧ after.input.unread = more ++ rest := by
  induction messages generalizing before bytes protocol with
  | nil => exact ⟨protocol, before, bytes, rfl, run, follows, stream⟩
  | cons message messages inductionHypothesis =>
      have enough : bytes.length < protocol.input.unread.length + 1 := by
        rw [stream, List.length_append]
        omega
      obtain ⟨between, mux, more, received, further, follows', behind, _⟩ :=
        first_received run rfl follows stream enough
      obtain ⟨after, mux', more', others, rest'⟩ := inductionHypothesis further follows' behind
      refine ⟨after, mux', more', ?_, rest'⟩
      have first : recvMessage protocol = .ok (message.received, between) := received
      rw [List.length_cons, recvMessages, bind_read first, bind_read others]
      rfl

/-- Two sides that have just been connected agree. -/
theorem fresh_follows {limit : Nat} (socket : Socket) (least : SRS_CONSTS_RTMP_PROTOCOL_CHUNK_SIZE ≤ limit)
    (most : limit ≤ SRS_DEFAULT_RECV_BUFFER_SIZE) (value : Bool) :
    Follows limit .initial ((Protocol.fresh socket).setAutoResponse value) where
  size := rfl
  positive := by decide
  within := least
  room := most
  headers := by
    change 16 ≤ SRS_DEFAULT_RECV_BUFFER_SIZE
    decide
  streams := fun cid => .free _ ⟨rfl, rfl, rfl⟩
  answers := by
    change 0 < (SRS_CONSTS_RTMP_PROTOCOL_CHUNK_SIZE : Int)
    decide

/-- However the chunks of the messages are interleaved and in whatever pieces they arrive, the
messages are received as they were sent, in the order in which they are ended. -/
theorem messages_delivered (limit : Nat) (least : SRS_CONSTS_RTMP_PROTOCOL_CHUNK_SIZE ≤ limit)
    (most : limit ≤ SRS_DEFAULT_RECV_BUFFER_SIZE) (bytes rest : List Byte) (messages : List Message) (last : Mux)
    (run : Mux.Run limit .initial bytes messages last) (arrivals : List (List Byte))
    (arrive : arrivals.flatten = bytes ++ rest) (value : Bool) :
    ∃ after, recvMessages messages.length ((Protocol.fresh ⟨arrivals, 0⟩).setAutoResponse value) =
      .ok (messages.map Message.received, after) := by
  obtain ⟨after, _, _, received, _⟩ := run_received run (fresh_follows ⟨arrivals, 0⟩ least most value) arrive
  exact ⟨after, received⟩

/-- An audio message comes between the chunks of a video message. -/
theorem messages_delivered_interleaved :
    ∃ after, recvMessages 2 ((Protocol.fresh
        ⟨[Message.chunk ⟨⟨0, 200, 0x09, 1, 40, 6⟩, List.replicate 200 7⟩ true ((List.replicate 200 7).take 128),
          Message.chunk ⟨⟨0, 3, 0x08, 1, 20, 4⟩, [1, 2, 3]⟩ true ([1, 2, 3].take 128),
          Message.chunk ⟨⟨0, 200, 0x09, 1, 40, 6⟩, List.replicate 200 7⟩ false
            (((List.replicate 200 7).drop 128).take 128)], 0⟩).setAutoResponse true) =
      .ok ([Message.received ⟨⟨0, 3, 0x08, 1, 20, 4⟩, [1, 2, 3]⟩,
        Message.received ⟨⟨0, 200, 0x09, 1, 40, 6⟩, List.replicate 200 7⟩], after) := by
  have size : (List.replicate 200 (7 : Byte)).length = 200 := List.length_replicate
  have left : ((List.replicate 200 (7 : Byte)).drop 128).length = 72 := by rw [List.length_drop, size]
  have video : Message.Sendable 128 ⟨⟨0, 200, 0x09, 1, 40, 6⟩, List.replicate 200 7⟩ := by
    refine ⟨by decide, by decide, ?_, size.symm, ?_, ?_⟩
    · exact lt_of_lt_of_eq (by decide) size.symm
    · exact lt_of_eq_of_lt size (by decide)
    · exact Message.plain_understood (show (0x09 : Byte) ≠ RTMP_MSG_WindowAcknowledgementSize by decide)
        (show (0x09 : Byte) ≠ RTMP_MSG_SetChunkSize by decide)
        (show (0x09 : Byte) ≠ RTMP_MSG_UserControlMessage by decide)
  have audio : Message.Sendable 128 ⟨⟨0, 3, 0x08, 1, 20, 4⟩, [1, 2, 3]⟩ :=
    ⟨by decide, by decide, by decide, by decide, by decide,
      Message.plain_understood (by decide) (by decide) (by decide)⟩
  have begun : ¬ (List.replicate 200 (7 : Byte)).length ≤ 128 := by rw [size]; decide
  have ended : ((List.replicate 200 (7 : Byte)).drop 128).length ≤ 128 := by rw [left]; decide
  generalize whole : List.replicate 200 (7 : Byte) = payload at *
  have first := Mux.Chunk.first .initial ⟨⟨0, 200, 0x09, 1, 40, 6⟩, payload⟩ video rfl
  rw [show Mux.ended .initial ⟨⟨0, 200, 0x09, 1, 40, 6⟩, payload⟩ payload = none from if_neg begun] at first
  have second := Mux.Chunk.first (Mux.initial.advance ⟨⟨0, 200, 0x09, 1, 40, 6⟩, payload⟩ payload)
    ⟨⟨0, 3, 0x08, 1, 20, 4⟩, [1, 2, 3]⟩ audio rfl
  generalize between : (Mux.initial.advance ⟨⟨0, 200, 0x09, 1, 40, 6⟩, payload⟩ payload).advance
    ⟨⟨0, 3, 0x08, 1, 20, 4⟩, [1, 2, 3]⟩ [1, 2, 3] = mux at second
  have held : mux.current 6 = some (⟨⟨0, 200, 0x09, 1, 40, 6⟩, payload⟩, payload.drop 128) := by
    rw [← between]
    exact if_neg begun
  have same : mux.chunkSize = 128 := by rw [← between]; rfl
  have third : Mux.Chunk 128 mux _ _ _ := .next mux ⟨⟨0, 200, 0x09, 1, 40, 6⟩, payload⟩ _ held
  rw [Mux.ended, same, if_pos ended] at third
  exact messages_delivered 128 (by decide) (by decide) _ [] [_, _] _
    (.part first (.whole second (.whole third (.done _)))) _ (List.append_nil _).symm true

end IotCamera.Rtmp.Stack
