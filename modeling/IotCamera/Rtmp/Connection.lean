import IotCamera.Base.Runs
import IotCamera.Rtmp.Batches
import IotCamera.Rtmp.Delivery

/-!
# A connection

Two programs use one connection, each through a `SrsProtocol`: they send packets and batches
of messages and receive what the other one sends, in any order, while the protocol answers
of itself. What one side has written comes to the other side in pieces. A side that
receives when nothing has come waits; its call is taken up later.

Each program receives what the other one has sent, as it was and in order, with the answers
of the protocol in between.
-/

namespace IotCamera.Rtmp.Stack

open Codecs BigEndian

/-! ### The calls of a program -/

/-- `manual_response_flush`: the answers that are kept are sent. -/
def manualResponseFlush (protocol : Protocol) : Except Failure Protocol :=
  match protocol.manualResponseQueue.foldlM (fun out packet => doSendAndFreePacket packet 0 out) protocol.out with
  | .error failure => .error failure
  | .ok out => .ok { protocol with out, manualResponseQueue := [] }

/-- `send_and_free_packet`. -/
def sendAndFreePacket (packet : Packet) (streamId : BitVec 32) (protocol : Protocol) : Except Failure Protocol :=
  match doSendAndFreePacket packet streamId protocol.out with
  | .error failure => .error failure
  | .ok out => manualResponseFlush { protocol with out }

/-- A message behind `check`: on the stream, and with a short basic header. -/
def Message.checked (streamId : BitVec 32) (message : Message) : Message where
  header := { message.header with
    streamId
    perferCid :=
      if message.header.perferCid < 2 then RTMP_CID_ProtocolControl else message.header.perferCid }
  payload := message.payload

/-- The loop of `send_and_free_messages`, which stops at the first message that is on the stream already. -/
def checkMessages (streamId : BitVec 32) : List (Option Message) → List (Option Message)
  | [] => []
  | none :: rest => none :: checkMessages streamId rest
  | some message :: rest =>
      if message.header.streamId = streamId then some (message.checked streamId) :: rest
      else some (message.checked streamId) :: checkMessages streamId rest

/-- A program with its protocol, and with a record of what it has sent and received. -/
structure Side where
  protocol : Protocol
  c0c3Cache : Nat → Byte
  nbOutIovs : Nat
  asked : List Message
  received : List CommonMessage

inductive Call where
  | packet (packet : Packet) (streamId : BitVec 32)
  | messages (streamId : BitVec 32) (msgs : List (Option Message))
  | receive

/-- The messages of a batch that are sent: empty ones are not. -/
def batchMessages (streamId : BitVec 32) (msgs : List (Option Message)) : List Message :=
  (checkMessages streamId msgs).reduceOption.filter fun message => message.payload.length ≠ 0

namespace Side

/-- `send_and_free_messages`. -/
def sendAndFreeMessages (limits : Nat) (streamId : BitVec 32) (msgs : List (Option Message)) (side : Side) :
    Except Failure Side :=
  if msgs.length = 0 then
    .error .assertion
  else
    match doSendMessages limits (checkMessages streamId msgs)
        ⟨side.c0c3Cache, 0, [], side.nbOutIovs, side.protocol.out⟩ with
    | .error failure => .error failure
    | .ok batch =>
        match manualResponseFlush { side.protocol with out := batch.out } with
        | .error failure => .error failure
        | .ok protocol => .ok
            { protocol
              c0c3Cache := batch.c0c3Cache
              nbOutIovs := batch.nbOutIovs
              asked := side.asked ++ batchMessages streamId msgs
              received := side.received }

def perform (limits : Nat) (side : Side) : Call → Except Failure Side
  | .packet packet streamId =>
      match sendAndFreePacket packet streamId side.protocol with
      | .error failure => .error failure
      | .ok protocol => .ok { side with protocol, asked := side.asked ++ packet.messages streamId }
  | .messages streamId msgs => side.sendAndFreeMessages limits streamId msgs
  | .receive =>
      if side.protocol.input.unread.length = 0 then
        .ok side
      else
        match recvMessage side.protocol with
        | .error failure => .error failure
        | .ok result => .ok { side with protocol := result.2, received := side.received ++ [result.1] }

/-- Bytes arrive behind those that are still on the way. -/
def arrive (pieces : List (List Byte)) (side : Side) : Side :=
  { side with
    protocol := { side.protocol with
      input := { side.protocol.input with
        socket := { side.protocol.input.socket with
          arrivals := side.protocol.input.socket.arrivals ++ pieces } } } }

/-- A side that has just been connected. -/
def fresh (autoResponse : Bool) : Side where
  protocol := (Protocol.fresh ⟨[], 0⟩).setAutoResponse autoResponse
  c0c3Cache := fun _ => 0
  nbOutIovs := SRS_CONSTS_IOVS_MAX
  asked := []
  received := []

end Side

/-- Bytes come in pieces of these lengths, and what is left in one more. -/
def cut : List Nat → List Byte → List (List Byte)
  | [], bytes => [bytes]
  | length :: rest, bytes => bytes.take length :: cut rest (bytes.drop length)

/-- Bytes that are cut into pieces are the same bytes. -/
theorem cut_flatten (lengths : List Nat) (bytes : List Byte) : (cut lengths bytes).flatten = bytes := by
  induction lengths generalizing bytes with
  | nil => exact List.append_nil bytes
  | cons length rest inductionHypothesis =>
      rw [cut, List.flatten_cons, inductionHypothesis, List.take_append_drop]

structure Connection where
  near : Side
  far : Side

/-- A call of one of the sides, and the lengths of the pieces in which it is heard. -/
structure Event where
  isFar : Bool
  call : Call
  lengths : List Nat

/-- A side makes a call, and what it has written comes to the other one. -/
def exchange (limits : Nat) (event : Event) (speaker listener : Side) : Except Failure (Side × Side) :=
  match speaker.perform limits event.call with
  | .error failure => .error failure
  | .ok after =>
      let written := after.protocol.out.sent.drop speaker.protocol.out.sent.length
      .ok (after, listener.arrive (cut event.lengths written))

namespace Connection

def step (limits : Nat) (connection : Connection) (event : Event) : Except (Failure × Connection) Connection :=
  if event.isFar then
    match exchange limits event connection.far connection.near with
    | .error failure => .error (failure, connection)
    | .ok sides => .ok ⟨sides.2, sides.1⟩
  else
    match exchange limits event connection.near connection.far with
    | .error failure => .error (failure, connection)
    | .ok sides => .ok ⟨sides.1, sides.2⟩

def fresh (nearAuto farAuto : Bool) : Connection := ⟨.fresh nearAuto, .fresh farAuto⟩

end Connection

/-- What may be asked of the other side: messages that it takes, and no chunk size but by its packet. -/
def Call.Fits (limit : Nat) : Call → Prop
  | .packet item streamId => item.Fits limit streamId
  | .messages streamId msgs => msgs.length ≠ 0 ∧ ∀ message ∈ batchMessages streamId msgs,
      message.Sendable limit ∧ message.header.messageType ≠ RTMP_MSG_SetChunkSize
  | .receive => True

def CommonMessage.isAnswer (msg : CommonMessage) : Bool := Stack.isAnswer msg.header.messageType msg.data

/-- The messages that come from the program. -/
def fromProgram (messages : List Message) : List Message := messages.filter fun message => !message.isAnswer

/-- What the listener's program has received is what the speaker's program has sent first, and
all of it when nothing is on the way. -/
def Delivered (speaker listener : Side) : Prop :=
  (listener.received.filter fun msg => !msg.isAnswer) <+: (fromProgram speaker.asked).map Message.received ∧
  (listener.protocol.input.unread = [] →
    (listener.received.filter fun msg => !msg.isAnswer) = (fromProgram speaker.asked).map Message.received)

/-! ### What a call sends -/

/-- A side between two calls. -/
structure Side.Fit (side : Side) : Prop where
  positive : 0 < side.protocol.out.outChunkSize
  kept : ∀ packet ∈ side.protocol.manualResponseQueue, packet.Answer
  some : 2 ≤ side.nbOutIovs
  even : side.nbOutIovs % 2 = 0

/-- A side has sent what its program asked for, and some answers. -/
structure Speaks (limit : Nat) (before after : Side) : Prop where
  fit : after.Fit
  sent : ∃ messages asked, Sends limit before.protocol.out after.protocol.out messages ∧
    after.asked = before.asked ++ asked ∧ fromProgram messages = fromProgram asked

/-- A side has not listened. -/
structure Deaf (before after : Side) : Prop where
  input : after.protocol.input = before.protocol.input
  streams : after.protocol.streams = before.protocol.streams
  size : after.protocol.inChunkSize = before.protocol.inChunkSize
  received : after.received = before.received

/-- The messages of a program in two parts are those of both. -/
theorem from_program_append (front back : List Message) :
    fromProgram (front ++ back) = fromProgram front ++ fromProgram back :=
  List.filter_append _ _

/-- Answers are no messages of the program. -/
theorem from_program_answers (messages : List Message) (answers : ∀ message ∈ messages, message.isAnswer = true) :
    fromProgram messages = [] := by
  apply List.filter_eq_nil_iff.mpr
  intro message present
  rw [answers message present]
  decide

/-- The kept answers are sent. -/
theorem queue_sends (limit : Nat) (packets : List Packet) (answers : ∀ packet ∈ packets, packet.Answer)
    (out : Outgoing) (positive : 0 < out.outChunkSize) :
    ∃ after messages, packets.foldlM (fun out packet => doSendAndFreePacket packet 0 out) out = .ok after ∧
      Sends limit out after messages ∧ ∀ message ∈ messages, message.isAnswer = true := by
  induction packets generalizing out with
  | nil =>
      refine ⟨out, [], rfl, sends_nothing limit out positive, ?_⟩
      intro message none
      cases none
  | cons packet rest inductionHypothesis =>
      have answer := answers packet List.mem_cons_self
      obtain ⟨between, sent, sends⟩ := packet_sends packet 0 out positive (answer_fits limit answer)
      obtain ⟨after, messages, others, further, known⟩ := inductionHypothesis
        (fun packet present => answers packet (List.mem_cons_of_mem _ present)) between sends.positive
      refine ⟨after, _, ?_, sends.trans further, ?_⟩
      · rw [List.foldlM_cons, sent]
        exact others
      · intro message present
        exact (List.mem_append.mp present).elim (answer_messages answer 0 message) (known message)

/-- Flushing the answers that were kept sends them and keeps none. -/
theorem flush_sends (limit : Nat) (protocol : Protocol) (positive : 0 < protocol.out.outChunkSize)
    (kept : ∀ packet ∈ protocol.manualResponseQueue, packet.Answer) :
    ∃ out messages, manualResponseFlush protocol = .ok { protocol with out, manualResponseQueue := [] } ∧
      Sends limit protocol.out out messages ∧ fromProgram messages = [] := by
  obtain ⟨out, messages, sent, sends, answers⟩ := queue_sends limit protocol.manualResponseQueue kept
    protocol.out positive
  refine ⟨out, messages, ?_, sends, from_program_answers messages answers⟩
  rw [manualResponseFlush, sent]

/-- Sending a packet that fits succeeds, speaks and does not listen. -/
theorem packet_spoken {limit : Nat} (limits : Nat) (packet : Packet) (streamId : BitVec 32) (side : Side)
    (fit : side.Fit) (fits : packet.Fits limit streamId) :
    ∃ after, side.perform limits (.packet packet streamId) = .ok after ∧ Speaks limit side after ∧
      Deaf side after := by
  obtain ⟨between, sent, sends⟩ := packet_sends packet streamId side.protocol.out fit.positive fits
  obtain ⟨out, messages, flushed, further, none⟩ := flush_sends limit { side.protocol with out := between }
    sends.positive fit.kept
  refine ⟨{ side with
      protocol := { side.protocol with out, manualResponseQueue := [] }
      asked := side.asked ++ packet.messages streamId },
    ?_, ⟨⟨further.positive, ?_, fit.some, fit.even⟩, _, _, sends.trans further, rfl, ?_⟩, rfl, rfl, rfl, rfl⟩
  · rw [Side.perform, sendAndFreePacket, sent]
    dsimp only
    rw [flushed]
  · intro packet none
    cases none
  · rw [from_program_append, none, List.append_nil]

/-- A batch is sent message by message, the empty ones without a trace. -/
theorem wires_sends {limit : Nat} (messages : List Message) (out : Outgoing) (positive : 0 < out.outChunkSize)
    (fits : ∀ message ∈ messages.filter fun message => message.payload.length ≠ 0,
      message.Sendable limit ∧ message.header.messageType ≠ RTMP_MSG_SetChunkSize) :
    Sends limit out (out.writev (wires out.outChunkSize.toNat messages))
      (messages.filter fun message => message.payload.length ≠ 0) := by
  induction messages generalizing out with
  | nil =>
      rw [wires, List.flatMap_nil, Outgoing.writev, List.append_nil]
      exact sends_nothing limit out positive
  | cons message rest inductionHypothesis =>
      have wire : wires out.outChunkSize.toNat (message :: rest) =
          message.wire out.outChunkSize.toNat ++ wires out.outChunkSize.toNat rest := rfl
      rw [wire]
      by_cases empty : message.payload.length = 0
      · have nothing : message.wire out.outChunkSize.toNat = [] := by
          rw [Message.wire, empty, wireFrom]
        rw [List.filter_cons_of_neg (by simp [empty])] at fits ⊢
        rw [nothing]
        exact inductionHypothesis out positive fits
      · rw [List.filter_cons_of_pos (by simp [empty])] at fits ⊢
        obtain ⟨sendable, other⟩ := fits message List.mem_cons_self
        have same : (Mux.idle out.outChunkSize.toNat).heard message = .idle out.outChunkSize.toNat := if_neg other
        have run := wire_run message (.idle out.outChunkSize.toNat) (by change 0 < out.outChunkSize.toNat; omega)
          sendable rfl
        rw [same] at run
        have first : Sends limit out (out.writev (message.wire out.outChunkSize.toNat)) [message] :=
          ⟨positive, _, rfl, run⟩
        have second := inductionHypothesis (out.writev (message.wire out.outChunkSize.toNat)) positive
          (fun message present => fits message (List.mem_cons_of_mem _ present))
        have joined := first.trans second
        rw [writev_writev] at joined
        exact joined

/-- So does sending a batch of messages that fit. -/
theorem messages_spoken {limit : Nat} (limits : Nat) (positive : 0 < limits) (streamId : BitVec 32)
    (msgs : List (Option Message)) (side : Side) (fit : side.Fit) (fits : (Call.messages streamId msgs).Fits limit) :
    ∃ after, side.perform limits (.messages streamId msgs) = .ok after ∧ Speaks limit side after ∧
      Deaf side after := by
  obtain ⟨some, sendable⟩ := fits
  obtain ⟨batch, sent, idle, wire⟩ := batch_wires limits positive (checkMessages streamId msgs)
    ⟨side.c0c3Cache, 0, [], side.nbOutIovs, side.protocol.out⟩ ⟨fit.some, fit.even⟩ fit.positive
  have sends := wires_sends (checkMessages streamId msgs).reduceOption side.protocol.out fit.positive sendable
  rw [← wire] at sends
  obtain ⟨out, messages, flushed, further, none⟩ := flush_sends limit { side.protocol with out := batch.out }
    sends.positive fit.kept
  refine ⟨⟨{ side.protocol with out, manualResponseQueue := [] }, batch.c0c3Cache, batch.nbOutIovs,
      side.asked ++ batchMessages streamId msgs, side.received⟩,
    ?_, ⟨⟨further.positive, ?_, idle.some, idle.even⟩, _, _, sends.trans further, rfl, ?_⟩, rfl, rfl, rfl, rfl⟩
  · rw [Side.perform, Side.sendAndFreeMessages, if_neg some, sent]
    dsimp only
    rw [flushed]
  · intro packet none
    cases none
  · rw [from_program_append, none, List.append_nil]
    rfl

/-! ### What a call receives -/

/-- A chunk that ends nothing leaves a message on its stream, and frees no other. -/
theorem chunk_busy {limit : Nat} {mux next : Mux} {bytes : List Byte} {ended : Option Message}
    (chunk : Mux.Chunk limit mux bytes ended next) (nothing : ended = none) :
    (∃ cid, next.current cid ≠ none) ∧ ∀ cid, mux.current cid ≠ none → next.current cid ≠ none := by
  have advanced : ∀ (message : Message) (left : List Byte), mux.ended message left = none →
      (∃ cid, (mux.advance message left).current cid ≠ none) ∧
        ∀ cid, mux.current cid ≠ none → (mux.advance message left).current cid ≠ none := by
    intro message left amid
    have missing : ¬ left.length ≤ mux.chunkSize := by
      intro whole
      rw [Mux.ended, if_pos whole] at amid
      cases amid
    constructor
    · refine ⟨message.header.perferCid, ?_⟩
      simp [Mux.advance, missing]
    · intro cid held
      by_cases own : cid = message.header.perferCid
      · simp [Mux.advance, own, missing]
      · simpa [Mux.advance, own] using held
  cases chunk with
  | first message sendable free => exact advanced message message.payload nothing
  | next message left current => exact advanced message left nothing

/-- A message that is begun is ended before its stream is free again. -/
theorem run_busy {limit : Nat} {before last : Mux} {bytes : List Byte} {messages : List Message}
    (run : Mux.Run limit before bytes messages last) (nothing : messages = []) (cid : Nat)
    (held : before.current cid ≠ none) : last.current cid ≠ none := by
  induction run with
  | done mux => exact held
  | part chunk run inductionHypothesis => exact inductionHypothesis nothing ((chunk_busy chunk rfl).2 cid held)
  | whole chunk run inductionHypothesis => cases nothing

/-- Where all messages are through, no bytes are left without a message. -/
theorem run_silent {limit chunkSize : Nat} {before : Mux} {bytes : List Byte}
    (run : Mux.Run limit before bytes [] (.idle chunkSize)) : bytes = [] := by
  generalize final : Mux.idle chunkSize = last at run
  generalize none : ([] : List Message) = messages at run
  cases run with
  | done mux => rfl
  | part chunk run =>
      obtain ⟨cid, held⟩ := (chunk_busy chunk rfl).1
      have still := run_busy run none.symm cid held
      rw [← final] at still
      exact absurd rfl still
  | whole chunk run => cases none

/-- Where no bytes are left, no message is. -/
theorem run_ended {limit : Nat} {before last : Mux} {bytes : List Byte} {messages : List Message}
    {protocol : Protocol} (run : Mux.Run limit before bytes messages last) (follows : Follows limit before protocol)
    (silent : bytes = []) : messages = [] := by
  cases run with
  | done mux => rfl
  | part chunk run =>
      have some := (chunk_ends chunk follows).1
      rw [(List.append_eq_nil_iff.mp silent).1] at some
      exact absurd some (Nat.lt_irrefl 0)
  | whole chunk run =>
      have some := (chunk_ends chunk follows).1
      rw [(List.append_eq_nil_iff.mp silent).1] at some
      exact absurd some (Nat.lt_irrefl 0)

/-- The next message of a run that ends between two messages. -/
theorem message_received {limit chunkSize : Nat} {before : Mux} {messages : List Message} {protocol : Protocol}
    (run : Mux.Run limit before protocol.input.unread messages (.idle chunkSize))
    (follows : Follows limit before protocol) (some : protocol.input.unread.length ≠ 0) :
    ∃ message rest after mux, messages = message :: rest ∧ recvMessage protocol = .ok (message.received, after) ∧
      Mux.Run limit mux after.input.unread rest (.idle chunkSize) ∧ Follows limit mux after ∧
      Replies limit protocol after := by
  cases messages with
  | nil =>
      rw [run_silent run] at some
      exact absurd rfl some
  | cons message rest =>
      obtain ⟨after, mux, more, received, further, follows', behind, replies⟩ :=
        first_received run rfl follows (List.append_nil _).symm (Nat.lt_succ_self _)
      rw [List.append_nil] at behind
      rw [← behind] at further
      exact ⟨message, rest, after, mux, rfl, received, further, follows', replies⟩

/-! ### The two sides -/

/-- The listener stands somewhere in what the speaker has sent. -/
def Linked (limit : Nat) (speaker listener : Side) : Prop :=
  ∃ mux got pending, Follows limit mux listener.protocol ∧
    Mux.Run limit mux listener.protocol.input.unread pending (.idle speaker.protocol.out.outChunkSize.toNat) ∧
    listener.received = got.map Message.received ∧ fromProgram (got ++ pending) = fromProgram speaker.asked

/-- A side that has not listened goes on following what it followed. -/
theorem follows_deaf {limit : Nat} {mux : Mux} {before after : Side} (follows : Follows limit mux before.protocol)
    (deaf : Deaf before after) (fit : after.Fit) : Follows limit mux after.protocol where
  size := deaf.size.trans follows.size
  positive := follows.positive
  within := follows.within
  room := by
    rw [deaf.input]
    exact follows.room
  headers := by
    rw [deaf.input]
    exact follows.headers
  streams := by
    intro cid
    rw [deaf.streams]
    exact follows.streams cid
  answers := fit.positive

/-- A side that speaks hears no less. -/
theorem linked_deaf {limit : Nat} {speaker before after : Side} (linked : Linked limit speaker before)
    (deaf : Deaf before after) (fit : after.Fit) : Linked limit speaker after := by
  obtain ⟨mux, got, pending, follows, run, received, same⟩ := linked
  refine ⟨mux, got, pending, follows_deaf follows deaf fit, ?_, deaf.received.trans received, same⟩
  rw [deaf.input]
  exact run

/-- What has been said is on its way. -/
theorem linked_speaks {limit : Nat} {before after listener : Side} (linked : Linked limit before listener)
    (speaks : Speaks limit before after) (pieces : List (List Byte))
    (written : pieces.flatten = after.protocol.out.sent.drop before.protocol.out.sent.length) :
    Linked limit after (listener.arrive pieces) := by
  obtain ⟨mux, got, pending, follows, run, received, same⟩ := linked
  obtain ⟨messages, asked, sends, logged, own⟩ := speaks.sent
  obtain ⟨bytes, sent, wire⟩ := sends.wire
  rw [sent, List.drop_left] at written
  refine ⟨mux, got, pending ++ messages, ?_, ?_, received, ?_⟩
  · exact ⟨follows.size, follows.positive, follows.within, follows.room, follows.headers, follows.streams,
      follows.answers⟩
  · have unread : (listener.arrive pieces).protocol.input.unread = listener.protocol.input.unread ++ bytes := by
      change _ ++ (_ ++ pieces).flatten = (_ ++ _) ++ bytes
      rw [List.flatten_append, written, List.append_assoc]
      rfl
    rw [unread]
    exact run.append wire
  · rw [logged, ← List.append_assoc, from_program_append, same, own, from_program_append]

/-- A listener hears the next message, or waits. -/
theorem receive_spoken {limit : Nat} (limits : Nat) (speaker side : Side) (fit : side.Fit)
    (linked : Linked limit speaker side) :
    ∃ after, side.perform limits .receive = .ok after ∧ Speaks limit side after ∧ Linked limit speaker after := by
  by_cases silent : side.protocol.input.unread.length = 0
  · refine ⟨side, if_pos silent, ⟨fit, [], [], sends_nothing limit _ fit.positive, ?_, rfl⟩, linked⟩
    rw [List.append_nil]
  · obtain ⟨mux, got, pending, follows, run, received, same⟩ := linked
    obtain ⟨message, rest, after, mux', rfl, heard, further, follows', replies⟩ :=
      message_received run follows silent
    obtain ⟨messages, sends, answers⟩ := replies.sent
    obtain ⟨packets, kept, known⟩ := replies.kept
    refine ⟨{ side with protocol := after, received := side.received ++ [message.received] }, ?_,
      ⟨⟨sends.positive, ?_, fit.some, fit.even⟩, messages, [], sends, (List.append_nil _).symm, ?_⟩,
      mux', got ++ [message], rest, follows', further, ?_, ?_⟩
    · rw [Side.perform, if_neg silent, heard]
    · intro packet present
      change packet ∈ after.manualResponseQueue at present
      rw [kept] at present
      exact (List.mem_append.mp present).elim (fit.kept packet) (known packet)
    · exact from_program_answers messages answers
    · rw [received, List.map_append, List.map_singleton]
    · rw [List.append_assoc]
      exact same

/-- Both sides of a connection stand in what the other one has sent. -/
structure Sides (limit : Nat) (speaker listener : Side) : Prop where
  speaking : speaker.Fit
  listening : listener.Fit
  spoken : Linked limit speaker listener
  heard : Linked limit listener speaker

/-- A call of one side keeps what both sides are to each other. -/
theorem exchange_sides {limit : Nat} (limits : Nat) (positive : 0 < limits) (event : Event) (speaker listener : Side)
    (sides : Sides limit speaker listener) (fits : event.call.Fits limit) :
    ∃ after, exchange limits event speaker listener = .ok after ∧ Sides limit after.1 after.2 := by
  have performed : ∃ after, speaker.perform limits event.call = .ok after ∧ Speaks limit speaker after ∧
      Linked limit listener after := by
    cases called : event.call with
    | packet packet streamId =>
        rw [called] at fits
        obtain ⟨after, done, speaks, deaf⟩ := packet_spoken limits packet streamId speaker sides.speaking fits
        exact ⟨after, done, speaks, linked_deaf sides.heard deaf speaks.fit⟩
    | messages streamId msgs =>
        rw [called] at fits
        obtain ⟨after, done, speaks, deaf⟩ :=
          messages_spoken limits positive streamId msgs speaker sides.speaking fits
        exact ⟨after, done, speaks, linked_deaf sides.heard deaf speaks.fit⟩
    | receive => exact receive_spoken limits listener speaker sides.speaking sides.heard
  obtain ⟨after, done, speaks, heard⟩ := performed
  have arrived := cut_flatten event.lengths (after.protocol.out.sent.drop speaker.protocol.out.sent.length)
  refine ⟨(after, listener.arrive _), ?_, speaks.fit, ?_, linked_speaks sides.spoken speaks _ arrived, heard⟩
  · rw [exchange, done]
  · exact ⟨sides.listening.positive, sides.listening.kept, sides.listening.some, sides.listening.even⟩

/-- So does a call of either side of a connection. -/
theorem step_sides {limit : Nat} (limits : Nat) (positive : 0 < limits) (connection : Connection) (event : Event)
    (sides : Sides limit connection.near connection.far) (fits : event.call.Fits limit) :
    ∃ after, connection.step limits event = .ok after ∧ Sides limit after.near after.far := by
  unfold Connection.step
  cases event.isFar with
  | true =>
      obtain ⟨after, done, next⟩ := exchange_sides limits positive event connection.far connection.near
        ⟨sides.listening, sides.speaking, sides.heard, sides.spoken⟩ fits
      rw [done]
      exact ⟨_, rfl, next.listening, next.speaking, next.heard, next.spoken⟩
  | false =>
      obtain ⟨after, done, next⟩ := exchange_sides limits positive event connection.near connection.far sides fits
      rw [done]
      exact ⟨_, rfl, next⟩

/-- What is heard of the program's messages is a beginning of them, and all of them in the end. -/
theorem linked_delivered {limit : Nat} {speaker listener : Side} (linked : Linked limit speaker listener) :
    Delivered speaker listener := by
  obtain ⟨mux, got, pending, follows, run, received, same⟩ := linked
  have heard : (listener.received.filter fun msg => !msg.isAnswer) = (fromProgram got).map Message.received := by
    rw [received, List.filter_map]
    rfl
  rw [from_program_append] at same
  constructor
  · rw [heard, ← same, List.map_append]
    exact List.prefix_append _ _
  · intro silent
    have none := run_ended run follows silent
    rw [heard, ← same, none]
    exact congrArg (List.map Message.received) (List.append_nil (fromProgram got)).symm

/-- In every run of a connection no call fails, and each program has received what the other
one has sent: every message once, as it was and in order. Nothing is lost: when nothing is on
the way, all of it has been received. -/
theorem connection_delivers (limits : Nat) (positive : 0 < limits) (limit : Nat)
    (least : SRS_CONSTS_RTMP_PROTOCOL_CHUNK_SIZE ≤ limit) (most : limit ≤ SRS_DEFAULT_RECV_BUFFER_SIZE)
    (nearAuto farAuto : Bool) (events : List Event) (fits : ∀ event ∈ events, event.call.Fits limit) :
    ∃ after, Runs.run (Connection.step limits) (.fresh nearAuto farAuto) events = .ok after ∧
      Delivered after.near after.far ∧ Delivered after.far after.near := by
  have begun : ∀ value, (Side.fresh value).Fit := by
    intro value
    constructor
    · change 0 < (SRS_CONSTS_RTMP_PROTOCOL_CHUNK_SIZE : Int)
      decide
    · intro packet none
      cases none
    · change 2 ≤ SRS_CONSTS_IOVS_MAX
      decide
    · change SRS_CONSTS_IOVS_MAX % 2 = 0
      decide
  have linked : ∀ speaker listener, Linked limit (Side.fresh speaker) (Side.fresh listener) := fun _ listener =>
    ⟨_, [], [], fresh_follows ⟨[], 0⟩ least most listener, .done _, rfl, rfl⟩
  have sides : Sides limit (Connection.fresh nearAuto farAuto).near (Connection.fresh nearAuto farAuto).far :=
    ⟨begun nearAuto, begun farAuto, linked nearAuto farAuto, linked farAuto nearAuto⟩
  have met : Runs.Meets (Connection.step limits) (fun _ event => event.call.Fits limit)
      (.fresh nearAuto farAuto) events := by
    apply (Runs.meets_iff _ _ _).mpr
    intro earlier event within _ _
    exact fits event (within.subset (List.mem_append_right _ List.mem_cons_self))
  obtain ⟨after, reached, stand⟩ := Runs.run_returns (fun _ event => event.call.Fits limit)
    (fun connection => Sides limit connection.near connection.far)
    (fun connection event sides fits => step_sides limits positive connection event sides fits)
    (.fresh nearAuto farAuto) events sides met
  exact ⟨after, reached, linked_delivered stand.spoken, linked_delivered stand.heard⟩

/-- A message and a ping are sent and heard, and the ping is answered. -/
theorem connection_delivers_ping :
    ∃ after, Runs.run (Connection.step 1024) (.fresh true true)
        [⟨false, .messages 1 [some ⟨⟨0, 3, 0x08, 1, 20, 4⟩, [1, 2, 3]⟩, none], [1, 3]⟩,
          ⟨false, .packet (.userControl SrcPCUCPingRequest 7 0) 0, [2]⟩, ⟨true, .receive, []⟩,
          ⟨true, .receive, [4]⟩, ⟨false, .receive, []⟩] = .ok after ∧
      Delivered after.near after.far ∧ Delivered after.far after.near := by
  have audio : (Call.messages 1 [some ⟨⟨0, 3, 0x08, 1, 20, 4⟩, [1, 2, 3]⟩, none]).Fits 128 := by
    refine ⟨by decide, ?_⟩
    intro message present
    rw [List.mem_singleton.mp present]
    refine ⟨⟨by decide, by decide, by decide, by decide, by decide, ?_⟩, by decide⟩
    exact Message.plain_understood (by decide) (by decide) (by decide)
  have ping : (Packet.userControl SrcPCUCPingRequest 7 0).Fits 128 0 := by
    refine control_fits _ 0 rfl (by decide) (by decide) ⟨?_, ?_, ?_⟩
    · exact fun window => absurd window (by decide)
    · exact fun chunkSize => absurd chunkSize (by decide)
    · exact fun _ => ⟨_, _, control_decoded SrcPCUCPingRequest 7 (by decide) (by decide)⟩
  refine connection_delivers 1024 (by decide) 128 (by decide) (by decide) true true _ ?_
  simp only [List.forall_mem_cons, List.not_mem_nil, false_implies, implies_true, and_true]
  exact ⟨audio, ping, trivial, trivial, trivial⟩

end IotCamera.Rtmp.Stack
