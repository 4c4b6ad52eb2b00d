import IotCamera.Rtmp.Delivery

/-!
# Whatever comes, the receiver is contained

No bytes from the other side make `recv_message` copy behind the payload of a message, take
more from its buffer than is there, or go on without end. A call ends with one of the
errors of the protocol or with a message that is whole.
-/

namespace IotCamera.Rtmp.Stack

open Codecs BigEndian

/-- An error that the caller is told, and not the end of the program. -/
def Refused (failure : Failure) : Prop := failure ≠ .assertion ∧ failure ≠ .outOfBounds ∧ failure ≠ .exhausted

instance (failure : Failure) : Decidable (Refused failure) := inferInstanceAs (Decidable (_ ∧ _))

/-- Nothing but the input has changed, and so many bytes of it are taken. -/
structure Within (origin : Protocol) (taken : Nat) (protocol : Protocol) : Prop where
  rest : protocol = { origin with input := protocol.input }
  left : protocol.input.unread.length + taken ≤ origin.input.unread.length

/-- Having taken more bytes is having taken fewer. -/
theorem Within.mono {origin protocol : Protocol} {taken fewer : Nat} (within : Within origin taken protocol)
    (less : fewer ≤ taken) : Within origin fewer protocol :=
  ⟨within.rest, by have left := within.left; omega⟩

/-- Bytes are fetched, and those last fetched can be given back. -/
theorem fetch_cases (origin : Protocol) (taken size : Nat) (protocol : Protocol) (within : Within origin taken protocol) :
    (∃ failure, Refused failure ∧ fetch size protocol = .error failure) ∨
      ∃ bytes after, fetch size protocol = .ok (bytes, after) ∧ bytes.length = size ∧
        Within origin (taken + size) after ∧
        ∃ back, skipBack size after = .ok ((), back) ∧ Within origin taken back := by
  have left := within.left
  obtain ⟨grown, ok, same, _, enough⟩ | ⟨failed, _⟩ | ⟨failed, _⟩ := Input.grow_spec size protocol.input
  · obtain ⟨after, read, drop, _, back, skipped, again, _⟩ := Input.read_slice_spec size grown enough
    have got : grow size protocol = .ok ((), { protocol with input := grown }) := by
      rw [grow, ok]
    have there : size ≤ protocol.input.unread.length := by
      rw [← same, Input.unread, List.length_append]
      omega
    refine .inr ⟨grown.unread.take size, { protocol with input := after }, ?_, ?_, ⟨?_, ?_⟩,
      { protocol with input := back }, ?_, ?_, ?_⟩
    · refine (bind_read got).trans ?_
      rw [readSlice]
      dsimp only
      rw [read]
    · rw [same, List.length_take_of_le there]
    · rw [within.rest]
    · dsimp only
      rw [drop, same, List.length_drop]
      omega
    · rw [skipBack]
      dsimp only
      rw [skipped]
    · rw [within.rest]
    · dsimp only
      rw [again, same]
      exact left
  · refine .inl ⟨.ERROR_READER_BUFFER_OVERFLOW, by decide, bind_failed ?_⟩
    rw [grow, failed]
  · refine .inl ⟨.ERROR_SOCKET_READ, by decide, bind_failed ?_⟩
    rw [grow, failed]

/-- Fetching bytes gives as many as were asked for, or an error that the caller is told. -/
theorem fetch_guards (origin : Protocol) (taken size : Nat) :
    Guards Refused (Within origin taken) (fetch size) fun bytes after => bytes.length = size ∧ Within origin (taken + size) after := by
  intro protocol within
  obtain failed | ⟨bytes, after, read, length, further, _⟩ := fetch_cases origin taken size protocol within
  · exact .inl failed
  · exact .inr ⟨bytes, after, read, length, further⟩

/-- Every chunk takes a byte. -/
theorem basic_header_guards (origin : Protocol) :
    Guards Refused (Within origin 0) readBasicHeader fun _ after => Within origin 1 after := by
  refine (fetch_guards origin 0 1).bind fun bytes => ?_
  have more : ∀ size (basic : List Byte → Nat × Nat), Guards Refused (fun after => bytes.length = 1 ∧ Within origin (0 + 1) after)
      (do return basic (← fetch size)) fun _ after => Within origin 1 after := by
    intro size basic
    refine (((fetch_guards origin 1 size).mono (fun _ holds => holds.2) fun _ _ holds => holds).bind fun second => ?_)
    exact pure_guards _ fun _ holds => holds.2.mono (Nat.le_add_right 1 size)
  dsimp only
  split
  case isTrue => exact pure_guards _ fun _ holds => holds.2
  case isFalse =>
    split
    case isTrue => exact more 1 _
    case isFalse => exact more 2 _

/-- The fields leave the message of the stream alone, and its length when it is begun. -/
theorem parsed_kept (chunk : ChunkStream) (isFirst : Bool) (fmt : Nat) (bytes : List Byte) :
    (∃ failure, Refused failure ∧ parseMessageHeader chunk isFirst fmt bytes = .error failure) ∨
      ∃ parsed, parseMessageHeader chunk isFirst fmt bytes = .ok parsed ∧ parsed.msg = chunk.msg ∧
        (isFirst = false → parsed.header.payloadLength = chunk.header.payloadLength) := by
  unfold parseMessageHeader
  dsimp only
  by_cases short : RTMP_FMT_TYPE1 < fmt
  · rw [if_pos short]
    exact .inr ⟨_, rfl, rfl, fun _ => rfl⟩
  rw [if_neg short]
  split
  case isTrue => exact .inl ⟨_, by decide, rfl⟩
  case isFalse same =>
    refine .inr ⟨_, rfl, rfl, fun begun => ?_⟩
    by_contra other
    exact same ⟨begun, fun equal => other equal.symm⟩

/-- What a header leaves of a stream: its message, and its length when a message is begun. -/
def Kept (chunk parsed : ChunkStream) : Prop :=
  parsed.msg = chunk.msg ∧ (chunk.msg.isNone = false → parsed.header.payloadLength = chunk.header.payloadLength)

/-- The fields of a header are parsed, or refused, and keep what the stream has begun. -/
theorem fields_guards (origin : Protocol) (chunk : ChunkStream) (fmt : Nat) :
    Guards Refused (Within origin 1) (readFields chunk chunk.msg.isNone fmt) fun parsed after =>
      Kept chunk parsed ∧ Within origin 1 after := by
  refine (fetch_guards origin 1 (mhSizes fmt)).bind fun slice => ?_
  split
  case isTrue =>
    exact (lift_guards (parsed_kept chunk chunk.msg.isNone fmt slice)).mono
      (fun _ holds => holds.2.mono (Nat.le_add_right 1 _)) fun _ _ holds => holds
  case isFalse =>
    refine pure_guards _ fun _ holds => ⟨?_, holds.2.mono (Nat.le_add_right 1 _)⟩
    unfold repeatMessageHeader
    split
    · exact ⟨rfl, fun _ => rfl⟩
    · exact ⟨rfl, fun _ => rfl⟩

/-- So is its timestamp. -/
theorem settle_guards (origin : Protocol) (chunk parsed : ChunkStream) (isFirst : Bool) (kept : Kept chunk parsed) :
    Guards Refused (Within origin 1) (settleTimestamp parsed isFirst) fun timed after =>
      Kept chunk timed ∧ Within origin 1 after := by
  unfold settleTimestamp
  split
  case isFalse => exact pure_guards _ fun _ holds => ⟨kept, holds⟩
  case isTrue =>
    intro protocol within
    obtain ⟨failure, refused, failed⟩ | ⟨bytes, after, read, _, further, back, skipped, again⟩ :=
      fetch_cases origin 1 4 protocol within
    · exact .inl ⟨failure, refused, bind_failed failed⟩
    refine .inr ?_
    unfold readExtendedTimestamp
    rw [bind_read read]
    dsimp only
    split
    case isTrue =>
      rw [bind_read skipped]
      exact ⟨parsed, back, rfl, kept, again⟩
    case isFalse => exact ⟨_, after, rfl, ⟨kept.1, kept.2⟩, further.mono (by decide)⟩

/-- A message that a stream is in the middle of: something of it is missing, and its payload is
as long as the header says. -/
structure ChunkStream.Sound (chunk : ChunkStream) : Prop where
  missing : ∀ msg, chunk.msg = some msg →
    msg.payload = some chunk.header.payloadLength ∧ msg.data.length < chunk.header.payloadLength

/-- A stream whose header has been read has a message, new or in the middle. -/
structure ChunkStream.Headed (chunk : ChunkStream) : Prop where
  headed : ∃ msg, chunk.msg = some msg ∧ msg.header = chunk.header ∧
    (msg.payload = none ∧ msg.data = [] ∨
      msg.payload = some chunk.header.payloadLength ∧ msg.data.length < chunk.header.payloadLength)

/-- A header of any format leaves the stream with a message to fill, or is refused. -/
theorem message_header_guards (origin : Protocol) (chunk : ChunkStream) (fmt : Nat) (sound : chunk.Sound) :
    Guards Refused (Within origin 1) (readMessageHeader chunk fmt) fun headed after =>
      headed.Headed ∧ Within origin 1 after := by
  unfold readMessageHeader
  split
  case isTrue => exact throw_guards (by decide)
  case isFalse =>
    refine (fields_guards origin chunk fmt).bind fun parsed => ?_
    intro protocol holds
    refine ((settle_guards origin chunk parsed chunk.msg.isNone holds.1).bind fun timed => ?_) protocol holds.2
    refine pure_guards _ fun _ holds => ⟨⟨_, rfl, rfl, ?_⟩, holds.2⟩
    obtain ⟨_, length⟩ := holds.1
    cases begun : chunk.msg with
    | none => exact .inl ⟨rfl, rfl⟩
    | some msg =>
        obtain ⟨created, missing⟩ := sound.missing msg begun
        have same := length (by rw [begun]; rfl)
        refine .inr ⟨?_, ?_⟩
        · change msg.payload = some timed.header.payloadLength
          rw [created, same]
        · change msg.data.length < timed.header.payloadLength
          rw [same]
          exact missing

/-- A message that is handed on has all its bytes. -/
def CommonMessage.Whole (msg : CommonMessage) : Prop := msg.data.length = msg.header.payloadLength

/-- Bytes that have room in a payload are copied behind those that are there. -/
theorem copied (msg : CommonMessage) (bytes : List Byte) (size : Nat) (created : msg.payload = some size)
    (room : msg.data.length + bytes.length ≤ size) : msg.copy bytes = .ok { msg with data := msg.data ++ bytes } := by
  refine if_pos ?_
  rw [created]
  exact room

/-- No chunk is copied behind the payload. -/
theorem payload_guards (origin : Protocol) (chunk : ChunkStream) (headed : chunk.Headed) :
    Guards Refused (Within origin 1) (readMessagePayload chunk) fun result after =>
      (result.1.Sound ∧ ∀ msg, result.2 = some msg → msg.Whole) ∧ Within origin 1 after := by
  obtain ⟨msg, current, own, parts⟩ := headed.headed
  have within : msg.data.length ≤ chunk.header.payloadLength := by
    obtain ⟨_, none⟩ | ⟨_, missing⟩ := parts
    · rw [none]
      exact Nat.zero_le _
    · exact le_of_lt missing
  have created : some (msg.payload.getD chunk.header.payloadLength) = some chunk.header.payloadLength := by
    obtain ⟨none, _⟩ | ⟨same, _⟩ := parts
    · rw [none]
      rfl
    · rw [same]
      rfl
  unfold readMessagePayload
  rw [current]
  dsimp only
  by_cases empty : chunk.header.payloadLength = 0
  · rw [if_pos empty]
    refine pure_guards _ fun _ holds => ⟨⟨⟨fun _ none => by cases none⟩, ?_⟩, holds⟩
    intro other same
    rw [← Option.some.inj same, CommonMessage.Whole, own]
    omega
  rw [if_neg empty, if_neg (by omega)]
  have copying : Guards Refused (Within origin 1) (copyPayload chunk msg) fun filled after =>
      (filled.header = chunk.header ∧ filled.payload = some chunk.header.payloadLength ∧
        filled.data.length ≤ chunk.header.payloadLength) ∧ Within origin 1 after := by
    intro protocol holds
    unfold copyPayload
    rw [get_read]
    dsimp only
    refine ((fetch_guards origin 1 _).bind fun slice => ?_) protocol holds
    intro state read
    have room : msg.data.length + slice.length ≤ chunk.header.payloadLength := by
      have length := read.1
      omega
    have done := copied { msg with payload := some (msg.payload.getD chunk.header.payloadLength) } slice
      chunk.header.payloadLength created room
    refine .inr ⟨_, state, lifted_read done state, ⟨own, created, ?_⟩, read.2.mono (Nat.le_add_right 1 _)⟩
    rw [List.length_append]
    exact room
  refine copying.bind fun filled => ?_
  refine pure_guards _ fun _ holds => ⟨?_, holds.2⟩
  obtain ⟨header, payload, length⟩ := holds.1
  unfold finishPayload
  split
  case isTrue whole =>
    refine ⟨⟨fun _ none => by cases none⟩, ?_⟩
    intro other same
    rw [← Option.some.inj same, CommonMessage.Whole, header]
    exact whole.symm
  case isFalse part =>
    refine ⟨⟨?_⟩, fun _ none => by cases none⟩
    intro other same
    rw [← Option.some.inj same]
    exact ⟨payload, by change filled.data.length < chunk.header.payloadLength; omega⟩

/-- The streams of a receiver are sound, and it can answer. -/
structure Contained (protocol : Protocol) : Prop where
  streams : ∀ cid, (protocol.streams cid).Sound
  answers : 0 < protocol.out.outChunkSize

/-- One chunk is refused, or the receiver stays contained and a byte is gone. -/
theorem interlaced_guards (origin : Protocol) (contained : Contained origin) :
    Guards Refused (Within origin 0) recvInterlacedMessage fun result after =>
      (∀ msg, result = some msg → msg.Whole) ∧ Contained after ∧
        after.input.unread.length + 1 ≤ origin.input.unread.length := by
  refine (basic_header_guards origin).bind fun basic => ?_
  intro protocol based
  rw [get_read]
  dsimp only
  have sound : (protocol.streams basic.2).Sound := by
    rw [based.rest]
    exact contained.streams basic.2
  refine ((message_header_guards origin _ basic.1 sound).bind fun chunk => ?_) protocol based
  intro protocol read
  refine ((payload_guards origin chunk read.1).bind fun result => ?_) protocol read.2
  intro protocol paid
  refine .inr ⟨result.2, protocol.store basic.2 result.1, rfl, paid.1.2, ⟨?_, ?_⟩, paid.2.left⟩
  · intro cid
    rw [Protocol.store]
    dsimp only
    split
    case isTrue => exact paid.1.1
    case isFalse =>
      rw [paid.2.rest]
      exact contained.streams cid
  · change 0 < protocol.out.outChunkSize
    rw [paid.2.rest]
    exact contained.answers

/-! ### What the protocol does with the message -/

/-- A contained receiver with so many bytes to come at most. -/
def Waits (most : Nat) (protocol : Protocol) : Prop := Contained protocol ∧ protocol.input.unread.length ≤ most

/-- Answers leave a contained receiver contained. -/
theorem answers_waits {limit most : Nat} {before after : Protocol} (waits : Waits most before)
    (answers : Answers limit before after) : Waits most after := by
  obtain ⟨messages, sends, _⟩ := answers.sent
  refine ⟨⟨?_, sends.positive⟩, ?_⟩
  · intro cid
    rw [answers.streams]
    exact waits.1.streams cid
  · rw [answers.input]
    exact waits.2

/-- Decoding a number of a packet comes to an end. -/
theorem number_ends (limit width count : Nat) {failure : Failure} (refused : Refused failure) :
    Ends Refused limit 0 (decodeNumber width count failure) :=
  ((take_ends limit count refused).seq fun _ _ => pure_ends _ _ _).mono (Nat.le_refl limit) (Nat.zero_le count)

/-- Decoding a user control packet comes to an end. -/
theorem user_control_ends (limit : Nat) : Ends Refused limit 0 decodeUserControl := by
  have refused : Refused .ERROR_RTMP_MESSAGE_DECODE := by decide
  refine (number_ends limit 16 2 refused).seq fun _ eventType => ?_
  have behind : ∀ eventData : BitVec 32, Ends Refused (limit - 0) 0 (if eventType = SrcPCUCSetBufferLength then do
      return (eventType, eventData, ← decodeNumber 32 4 Failure.ERROR_RTMP_MESSAGE_ENCODE)
    else
      return (eventType, eventData, 0)) := by
    intro eventData
    split
    case isTrue => exact (number_ends _ 32 4 (by decide)).seq fun _ _ => pure_ends _ _ _
    case isFalse => exact pure_ends _ _ _
  dsimp only
  by_cases event : eventType = SrsPCUCFmsEvent0
  · rw [if_pos event]
    exact (number_ends _ 8 1 refused).seq fun _ byte => behind (byte.signExtend 32)
  · rw [if_neg event]
    exact (number_ends _ 32 4 refused).seq fun _ eventData => behind eventData

/-- A message that does not decode is refused. -/
theorem decoded_refused {α : Type} {decoder : ByteReader Failure α} (msg : CommonMessage)
    (ends : Ends Refused msg.data.length 0 decoder) :
    (∃ failure, Refused failure ∧ decodeMessage decoder msg = .error failure) ∨
      ∃ value, decodeMessage decoder msg = .ok value ∧ True := by
  unfold decodeMessage
  obtain ⟨failure, refused, failed⟩ | ⟨value, _, rest, read, _⟩ := ends msg.data (Nat.le_refl _)
  · rw [failed]
    exact .inl ⟨failure, refused, rfl⟩
  · rw [read]
    exact .inr ⟨value, rfl, trivial⟩

/-- Noting something beside the streams, the input and the output leaves them. -/
theorem waits_noted {most : Nat} (change : Protocol → Protocol)
    (same : ∀ protocol, (change protocol).streams = protocol.streams ∧ (change protocol).out = protocol.out ∧
      (change protocol).input = protocol.input) :
    Guards Refused (fun protocol => True ∧ Waits most protocol) (modify change) fun _ after => Waits most after := by
  intro protocol holds
  obtain ⟨streams, out, input⟩ := same protocol
  refine .inr ⟨(), change protocol, rfl, ⟨?_, ?_⟩, ?_⟩
  · intro cid
    rw [streams]
    exact holds.2.1.streams cid
  · rw [out]
    exact holds.2.1.answers
  · rw [input]
    exact holds.2.2

/-- Hearing any message leaves the protocol waiting for the next, or is refused. -/
theorem heard_guards (most : Nat) (msg : CommonMessage) :
    Guards Refused (Waits most) (onRecvMessage msg) fun _ after => Waits most after := by
  have answered : Guards Refused (Waits most) responseAcknowledgementMessage fun _ after => Waits most after := by
    intro protocol waits
    obtain ⟨after, done, answers⟩ := acknowledgement_answers 0 protocol waits.1.answers
    exact .inr ⟨(), after, done, answers_waits waits answers⟩
  have idle : Guards Refused (fun protocol => True ∧ Waits most protocol) (pure () : Receiving Unit) fun _ after =>
      Waits most after := pure_guards () fun _ holds => holds.2
  refine answered.bind fun _ => ?_
  have decoded : ∀ {α : Type} (decoder : ByteReader Failure α), Ends Refused msg.data.length 0 decoder →
      Guards Refused (Waits most) (liftM (decodeMessage decoder msg)) fun _ after => True ∧ Waits most after :=
    fun decoder ends => lift_guards (decoded_refused msg ends)
  split
  case isTrue =>
    refine (decoded _ (number_ends _ 32 4 (by decide))).bind fun size => ?_
    split
    case isTrue => exact waits_noted _ fun _ => ⟨rfl, rfl, rfl⟩
    case isFalse => exact idle
  split
  case isTrue =>
    refine (decoded _ (number_ends _ 32 4 (by decide))).bind fun size => ?_
    split
    case isTrue => exact throw_guards (by decide)
    case isFalse => exact waits_noted _ fun _ => ⟨rfl, rfl, rfl⟩
  split
  case isTrue =>
    refine (decoded _ (user_control_ends _)).bind fun packet => ?_
    split
    case isTrue => exact waits_noted _ fun _ => ⟨rfl, rfl, rfl⟩
    split
    case isTrue =>
      intro protocol waits
      obtain ⟨after, done, answers⟩ := respond_answers 0 (.ping packet.2.1) protocol waits.2.1.answers
      exact .inr ⟨(), after, done, answers_waits waits.2 answers⟩
    case isFalse => exact idle
  case isFalse => exact pure_guards () fun _ holds => holds

/-! ### Message after message -/

/-- The loop ends: every chunk takes a byte of those that come. -/
theorem loop_guards (rounds : Nat) :
    Guards Refused (fun protocol => Contained protocol ∧ protocol.input.unread.length < rounds) (recvLoop rounds)
      fun msg after => (msg.Whole ∧ 0 < msg.data.length) ∧ Contained after := by
  induction rounds with
  | zero => exact fun protocol holds => absurd holds.2 (Nat.not_lt_zero _)
  | succ rounds inductionHypothesis =>
      intro protocol holds
      refine ((interlaced_guards protocol holds.1).bind fun result => ?_) protocol ⟨rfl, Nat.le_refl _⟩
      have again : ∀ state : Protocol, Contained state →
          state.input.unread.length + 1 ≤ protocol.input.unread.length →
          Contained state ∧ state.input.unread.length < rounds := by
        intro state contained fewer
        exact ⟨contained, by have enough := holds.2; omega⟩
      cases result with
      | none =>
          exact inductionHypothesis.mono (fun state read => again state read.2.1 read.2.2) fun _ _ holds => holds
      | some msg =>
          dsimp only
          split
          case isTrue =>
            exact inductionHypothesis.mono (fun state read => again state read.2.1 read.2.2) fun _ _ holds => holds
          case isFalse present =>
            intro state read
            have whole := read.1 msg rfl
            have some : 0 < msg.data.length := by omega
            refine ((heard_guards protocol.input.unread.length msg).bind fun _ => ?_) state
              ⟨read.2.1, Nat.le_of_succ_le read.2.2⟩
            exact pure_guards _ fun _ holds => ⟨⟨whole, some⟩, holds.1⟩

/-- Messages that are received from a contained receiver are whole, and it stays contained. -/
theorem received_contained (count : Nat) :
    Guards Refused Contained (recvMessages count) fun msgs after =>
      (∀ msg ∈ msgs, msg.Whole ∧ 0 < msg.data.length) ∧ Contained after := by
  induction count with
  | zero =>
      refine pure_guards _ fun _ holds => ⟨?_, holds⟩
      intro msg none
      cases none
  | succ count inductionHypothesis =>
      have first : Guards Refused Contained recvMessage fun msg after =>
          (msg.Whole ∧ 0 < msg.data.length) ∧ Contained after := by
        intro protocol contained
        exact loop_guards (protocol.input.unread.length + 1) protocol ⟨contained, Nat.lt_succ_self _⟩
      refine first.bind fun msg => ?_
      intro between holds
      refine (inductionHypothesis.bind fun msgs => ?_) between holds.2
      refine pure_guards _ fun _ others => ⟨?_, others.2⟩
      intro other present
      obtain rfl | later := List.mem_cons.mp present
      · exact holds.1
      · exact others.1 other later

/-- Whatever bytes come from the other side, in whatever pieces: receiving ends, no assertion
fails, nothing is copied outside a payload, and each message that is handed on has as many
bytes as its header says. -/
theorem hostile_bytes_contained (arrivals : List (List Byte)) (autoResponse : Bool) (count : Nat) :
    (∃ failure, Refused failure ∧
      recvMessages count ((Protocol.fresh ⟨arrivals, 0⟩).setAutoResponse autoResponse) = .error failure) ∨
    ∃ msgs after, recvMessages count ((Protocol.fresh ⟨arrivals, 0⟩).setAutoResponse autoResponse) =
        .ok (msgs, after) ∧
      ∀ msg ∈ msgs, msg.data.length = msg.header.payloadLength ∧ 0 < msg.data.length := by
  have contained : Contained ((Protocol.fresh ⟨arrivals, 0⟩).setAutoResponse autoResponse) := by
    refine ⟨fun cid => ⟨fun _ none => by cases none⟩, ?_⟩
    change 0 < (SRS_CONSTS_RTMP_PROTOCOL_CHUNK_SIZE : Int)
    decide
  obtain failed | ⟨msgs, after, received, whole, _⟩ := received_contained count _ contained
  · exact .inl failed
  · exact .inr ⟨msgs, after, received, whole⟩

end IotCamera.Rtmp.Stack
