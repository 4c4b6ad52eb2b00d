import IotCamera.Queue.Wakeups
import IotCamera.Adec.Adts

/-!
# RTMP audio as an ADTS stream

The RTMP player hands the audio messages it reads to `setAudioData`, which pushes
them on a queue; the decoder's thread calls `extractStreamPacket`, which takes them
from there with `getAudioData`. A message whose second byte is zero configures the
decoder and is dropped, and the next one is taken. Of any other message the bytes
from offset 2 become the payload of an ADTS frame.

A message is the memory at its pointer and its length, and the stream packet has the
buffer of `MAX_ACC_BUFFER_LENGTH` bytes that `adecmain` allocates for it. A read
behind the end of the message and a copy that leaves the buffer are faults. The two
bytes at offset 2 of a configuration message are copied into `flvadst`, to be printed,
whether or not the message is that long. What is printed is left out.
-/

namespace IotCamera.Adec

open Memory

def MAX_ACC_BUFFER_LENGTH : Nat := 4096

/-- The bytes in front of the payload of an audio message. -/
def AACOFFSET : Nat := 2

/-- The capacity of the queue. -/
def NUM : Nat := 180

/-- What is queued of an `MDATA`: the pointer, as the memory it leads to, and the
length. -/
structure Message where
  data : Nat → Byte
  dlen : Word

/-- `AUDIO_STREAM_S`. -/
structure AudioStream where
  pStream : Block MAX_ACC_BUFFER_LENGTH
  mLen : Word
  mId : Word
  mTimeStamp : BitVec 64

/-- The bytes handed to the decoder. -/
def AudioStream.bytes (stream : AudioStream) : List Byte := stream.pStream.bytes stream.mLen.toNat

/-- The stream packet and the variables of `extractStreamPacket` that outlive a
call. Nobody initialises `temp`, so it is among them. -/
structure Extractor where
  pStreamInfo : AudioStream
  id : Word
  pts : BitVec 64
  temp : Block ADTS_HEADER_SIZE

/-- Before the first call, with the stack and the heap all zero. -/
def Extractor.init : Extractor := ⟨⟨.uniform _ 0, 0, 0, 0⟩, 0, 0, .uniform _ 0⟩

/-- Why a call has not returned. -/
inductive Stop where
  | waits
  | faults (fault : Fault)
  deriving DecidableEq, Repr

/-- The queue's two operations. -/
def setAudioData (message : Message) : MQueue.Call Message := .pushData message

def getAudioData : MQueue.Call Message := .popData

/-- The bytes of a message that is not a configuration, as the next stream packet. -/
def putPacket (extractor : Extractor) (message : Message) : Except Fault Extractor := do
  let temp := AddADTS (message.dlen - 2 + 7) extractor.temp
  let pStream ← extractor.pStreamInfo.pStream.memcpy 0 temp 0 7
  let adata : Block message.dlen.toNat := ⟨message.data⟩
  let pStream ← pStream.memcpy 7 adata AACOFFSET (message.dlen - BitVec.ofNat 32 AACOFFSET).toNat
  .ok
    { pStreamInfo :=
        { pStream := pStream
          mLen := message.dlen - 2 + 7
          mId := extractor.id
          mTimeStamp := extractor.pts }
      id := extractor.id + 1
      pts := extractor.pts + 23
      temp := temp }

/-- Read one byte of a message. -/
def Message.read (message : Message) (position : Nat) : Except Fault Byte :=
  if position < message.dlen.toNat then .ok (message.data position) else .error .outOfBounds

/-- What a message taken at `RRRGET` leads to. -/
inductive Taken where
  | configuration (flvadst : Block 2)
  | packet (next : Extractor)

/-- The body of `extractStreamPacket` from `RRRGET` on, for one message. -/
def takeMessage (extractor : Extractor) (message : Message) : Except Fault Taken := do
  let kind ← message.read 1
  if kind = 0 then
    let adata : Block message.dlen.toNat := ⟨message.data⟩
    let flvadst ← (Block.uniform 2 0).memcpy 0 adata 2 2
    .ok (.configuration flvadst)
  else
    let next ← putPacket extractor message
    .ok (.packet next)

/-- One call, given the messages that `getAudioData` takes from the queue one after
the other. It returns a length, the new state and the messages not taken; when they
run out it waits for more. -/
def extractStreamPacket (extractor : Extractor) :
    List Message → Except Stop (Word × Extractor × List Message)
  | [] => .error .waits
  | message :: rest =>
    match takeMessage extractor message with
    | .ok (.configuration _) => extractStreamPacket extractor rest
    | .ok (.packet next) => .ok (message.dlen - BitVec.ofNat 32 AACOFFSET - 2 + 7, next, rest)
    | .error fault => .error (.faults fault)

/-- The stream packets that `count` successive calls return, up to the one that waits,
or the fault that one of them meets. -/
def extracted (extractor : Extractor) (messages : List Message) :
    Nat → Except Fault (List AudioStream)
  | 0 => .ok []
  | count + 1 =>
    match extractStreamPacket extractor messages with
    | .ok (_, next, rest) => (extracted next rest count).map (next.pStreamInfo :: ·)
    | .error .waits => .ok []
    | .error (.faults fault) => .error fault

/-- The state of the queue after any steps of the threads that push and pop. -/
def queueAfter (threads : Nat) (actions : List (MQueue.Action Message)) : MQueue.System Message :=
  Runs.last (Runs.run (MQueue.step NUM) (MQueue.System.init threads) actions)

/-- Whether a message carries audio. -/
def Message.media (message : Message) : Bool := message.data 1 ≠ 0

/-- The bytes of a message from offset 2 on. -/
def Message.payload (message : Message) : List Byte :=
  Buffers.slice message.data AACOFFSET (message.dlen.toNat - AACOFFSET)

/-- A message has its two leading bytes and fits the buffer. -/
def Message.Sized (message : Message) : Prop := 2 ≤ message.dlen.toNat ∧ message.dlen.toNat ≤ 4091

/-- A message has its two leading bytes, two more when it is a configuration, and fits
the buffer behind a header when it is not. -/
def Message.Contained (message : Message) : Prop :=
  2 ≤ message.dlen.toNat ∧ (message.data 1 = 0 → 4 ≤ message.dlen.toNat) ∧
    (message.data 1 ≠ 0 → message.dlen.toNat ≤ 4091)

/-- The packets of `count` successive calls are together an ADTS stream with the
payloads of the audio messages, in order. Each packet's header gives the length of the
packet, and the packets are numbered by one and timed by 23 apart. -/
def AdtsStream (extractor : Extractor) (messages : List Message) (pConf : SampleADecConfig)
    (count : Nat) : Prop :=
  ∃ packets, extracted extractor messages count = .ok packets ∧
    payloads (packets.flatMap AudioStream.bytes) =
      some (((messages.filter Message.media).map Message.payload).take count) ∧
    ∀ position packet, packets[position]? = some packet →
      (parseADTSHeader pConf packet.pStream.cell).mFirstPktLen = packet.mLen ∧
        (parseADTSHeader pConf packet.pStream.cell).mHeaderLen = 7 ∧
        packet.mId = extractor.id + BitVec.ofNat 32 position ∧
        packet.mTimeStamp = extractor.pts + 23 * BitVec.ofNat 64 position

section Packet
variable (extractor : Extractor) (message : Message) (sized : message.Sized)

include sized

/-- The frame of a message is five bytes longer than the message. -/
theorem payload_length : ADTS_HEADER_SIZE + message.payload.length = message.dlen.toNat + 5 := by
  obtain ⟨least, most⟩ := sized
  rw [Message.payload, Buffers.slice_length, ADTS_HEADER_SIZE, AACOFFSET]
  omega

/-- The length that is computed for the packet does not wrap. -/
theorem packet_length : (message.dlen - 2 + 7).toNat = message.dlen.toNat + 5 := by
  obtain ⟨least, most⟩ := sized
  rw [BitVec.toNat_add, BitVec.toNat_sub]
  simp
  omega

/-- The header of the message's frame is written in front of its payload. -/
theorem packet_header : AddADTS (message.dlen - 2 + 7) extractor.temp =
    extractor.temp.store 0
      (headerBytes (BitVec.ofNat 32 (ADTS_HEADER_SIZE + message.payload.length))) := by
  have length := packet_length message sized
  have most := sized.2
  have same : BitVec.ofNat 32 (ADTS_HEADER_SIZE + message.payload.length) = message.dlen - 2 + 7 := by
    rw [payload_length message sized, ← length, BitVec.ofNat_toNat, BitVec.setWidth_eq]
  rw [same]
  exact add_adts_fits _ _ (by omega)

/-- The copies of a message that fits put one frame into the packet. -/
theorem put_packet_frame : ∃ next, putPacket extractor message = .ok next ∧
    next.id = extractor.id + 1 ∧ next.pts = extractor.pts + 23 ∧
    next.pStreamInfo.mId = extractor.id ∧ next.pStreamInfo.mTimeStamp = extractor.pts ∧
    next.pStreamInfo.mLen.toNat = message.dlen.toNat + 5 ∧
    next.pStreamInfo.bytes = frame message.payload := by
  have least := sized.1
  have most := sized.2
  have count : (message.dlen - BitVec.ofNat 32 AACOFFSET).toNat = message.dlen.toNat - AACOFFSET := by
    apply BitVec.toNat_sub_of_le
    rw [BitVec.le_def]
    exact least
  obtain ⟨first, header, headerCells, -⟩ := extractor.pStreamInfo.pStream.memcpy_inside 0
    (AddADTS (message.dlen - 2 + 7) extractor.temp) 0 7 (by decide) (by decide)
  obtain ⟨second, body, bodyCells, before⟩ := first.memcpy_inside 7
    (⟨message.data⟩ : Block message.dlen.toNat) AACOFFSET (message.dlen.toNat - AACOFFSET)
    (by rw [MAX_ACC_BUFFER_LENGTH, AACOFFSET]; omega) (by rw [AACOFFSET]; omega)
  have made : putPacket extractor message = .ok
      { pStreamInfo := ⟨second, message.dlen - 2 + 7, extractor.id, extractor.pts⟩
        id := extractor.id + 1
        pts := extractor.pts + 23
        temp := AddADTS (message.dlen - 2 + 7) extractor.temp } := by
    simp only [putPacket, header, count, bind, Except.bind, body]
  refine ⟨_, made, rfl, rfl, rfl, rfl, packet_length message sized, ?_⟩
  have front : Buffers.slice second.cell 0 7 =
      headerBytes (BitVec.ofNat 32 (ADTS_HEADER_SIZE + message.payload.length)) := by
    rw [packet_header extractor message sized] at headerCells
    have written : Buffers.slice second.cell 0 7 = Buffers.slice (extractor.temp.store 0
        (headerBytes (BitVec.ofNat 32 (ADTS_HEADER_SIZE + message.payload.length)))).cell 0 7 := by
      apply Buffers.slice_congr
      intro index inside
      rw [before (0 + index) (by omega), headerCells index inside]
    rw [written]
    rfl
  have behind : Buffers.slice second.cell 7 (message.dlen.toNat - AACOFFSET) = message.payload :=
    Buffers.slice_congr _ _ 7 AACOFFSET _ bodyCells
  have whole : (message.dlen - 2 + 7).toNat = 7 + (message.dlen.toNat - AACOFFSET) := by
    rw [packet_length message sized, AACOFFSET]
    omega
  change Buffers.slice second.cell 0 (message.dlen - 2 + 7).toNat = frame message.payload
  rw [whole, ← Buffers.slice_append, front, Nat.zero_add, behind, frame]

end Packet

section Taking
variable (extractor : Extractor) (message : Message)

/-- A message without a second byte faults. -/
theorem take_short (short : message.dlen.toNat < 2) :
    takeMessage extractor message = .error .outOfBounds := by
  have refused : message.read 1 = .error .outOfBounds := by
    apply if_neg
    omega
  simp only [takeMessage, refused, bind, Except.bind]

/-- Of a configuration the two bytes at offset 2 are copied. -/
theorem take_configuration (long : 2 ≤ message.dlen.toNat) (configuration : message.data 1 = 0) :
    takeMessage extractor message =
      ((Block.uniform 2 0).memcpy 0 (⟨message.data⟩ : Block message.dlen.toNat) 2 2).map
        Taken.configuration := by
  have kind : message.read 1 = .ok 0 := (if_pos (by omega)).trans (by rw [configuration])
  simp only [takeMessage, kind, bind, Except.bind, if_true]
  cases (Block.uniform 2 0).memcpy 0 (⟨message.data⟩ : Block message.dlen.toNat) 2 2 <;> rfl

/-- Any other message is put into the packet. -/
theorem take_audio (long : 2 ≤ message.dlen.toNat) (audio : message.data 1 ≠ 0) :
    takeMessage extractor message = (putPacket extractor message).map Taken.packet := by
  have kind : message.read 1 = .ok (message.data 1) := if_pos (by omega)
  simp only [takeMessage, kind, bind, Except.bind, if_neg audio]
  cases putPacket extractor message <;> rfl

/-- A message that does not fit the buffer faults. -/
theorem put_packet_oversized (least : 2 ≤ message.dlen.toNat) (much : 4091 < message.dlen.toNat) :
    putPacket extractor message = .error .outOfBounds := by
  have count : (message.dlen - BitVec.ofNat 32 AACOFFSET).toNat = message.dlen.toNat - AACOFFSET := by
    apply BitVec.toNat_sub_of_le
    rw [BitVec.le_def]
    exact least
  obtain ⟨first, header, -, -⟩ := extractor.pStreamInfo.pStream.memcpy_inside 0
    (AddADTS (message.dlen - 2 + 7) extractor.temp) 0 7 (by decide) (by decide)
  have body := first.memcpy_outside 7 (⟨message.data⟩ : Block message.dlen.toNat) AACOFFSET
    (message.dlen.toNat - AACOFFSET) (by rw [MAX_ACC_BUFFER_LENGTH, AACOFFSET]; omega)
  simp only [putPacket, header, count, bind, Except.bind, body]

/-- A contained configuration message is passed over. -/
theorem take_contained_configuration (contained : message.Contained)
    (configuration : message.data 1 = 0) :
    ∃ flvadst, takeMessage extractor message = .ok (.configuration flvadst) := by
  obtain ⟨flvadst, copy, -, -⟩ := (Block.uniform 2 0).memcpy_inside 0
    (⟨message.data⟩ : Block message.dlen.toNat) 2 2 (by decide) (contained.2.1 configuration)
  exact ⟨flvadst, by rw [take_configuration extractor message contained.1 configuration, copy]; rfl⟩

/-- A contained audio message becomes the packet with its frame. -/
theorem take_contained_audio (contained : message.Contained) (audio : message.data 1 ≠ 0) :
    ∃ next, takeMessage extractor message = .ok (.packet next) ∧
      putPacket extractor message = .ok next := by
  obtain ⟨next, put, -⟩ := put_packet_frame extractor message ⟨contained.1, contained.2.2 audio⟩
  exact ⟨next, by rw [take_audio extractor message contained.1 audio, put]; rfl, put⟩

/-- A message is taken without a fault exactly when it is contained. -/
theorem take_contained_iff :
    (∃ taken, takeMessage extractor message = .ok taken) ↔ message.Contained := by
  by_cases long : 2 ≤ message.dlen.toNat
  · by_cases configuration : message.data 1 = 0
    · by_cases copied : 4 ≤ message.dlen.toNat
      · have contained : message.Contained :=
          ⟨long, fun _ => copied, fun audio => absurd configuration audio⟩
        obtain ⟨flvadst, taken⟩ :=
          take_contained_configuration extractor message contained configuration
        exact iff_of_true ⟨_, taken⟩ contained
      · rw [take_configuration extractor message long configuration,
          Block.memcpy_outside _ _ _ _ _ (by omega)]
        exact iff_of_false (fault_no_result _) fun contained => copied (contained.2.1 configuration)
    · by_cases fits : message.dlen.toNat ≤ 4091
      · have contained : message.Contained :=
          ⟨long, fun silent => absurd silent configuration, fun _ => fits⟩
        obtain ⟨next, taken, -⟩ := take_contained_audio extractor message contained configuration
        exact iff_of_true ⟨_, taken⟩ contained
      · rw [take_audio extractor message long configuration,
          put_packet_oversized extractor message long (by omega)]
        exact iff_of_false (fault_no_result _) fun contained => fits (contained.2.2 configuration)
  · rw [take_short extractor message (by omega)]
    exact iff_of_false (fault_no_result _) fun contained => long contained.1

end Taking

/-- Without an audio message the call waits. -/
theorem extract_waits (extractor : Extractor) (messages : List Message)
    (contained : ∀ message ∈ messages, message.Contained)
    (none : messages.filter Message.media = []) :
    extractStreamPacket extractor messages = .error .waits := by
  induction messages with
  | nil => rfl
  | cons message rest inductionHypothesis =>
    obtain ⟨here, behind⟩ := List.forall_mem_cons.mp contained
    by_cases configuration : message.data 1 = 0
    · have quiet : ¬ message.media = true := fun audio => of_decide_eq_true audio configuration
      obtain ⟨flvadst, taken⟩ := take_contained_configuration extractor message here configuration
      rw [List.filter_cons_of_neg quiet] at none
      rw [extractStreamPacket, taken]
      exact inductionHypothesis behind none
    · have audio : message.media = true := decide_eq_true configuration
      rw [List.filter_cons_of_pos audio] at none
      cases none

/-- A call skips the configuration messages, returns the first audio message as a
packet and leaves what is behind it. -/
theorem extract_first (extractor : Extractor) (messages : List Message)
    (contained : ∀ message ∈ messages, message.Contained) (first : Message) (others : List Message)
    (some : messages.filter Message.media = first :: others) :
    ∃ length next rest, extractStreamPacket extractor messages = .ok (length, next, rest) ∧
      putPacket extractor first = .ok next ∧ rest.filter Message.media = others ∧
      ∀ message ∈ rest, message.Contained := by
  induction messages with
  | nil => cases some
  | cons message rest inductionHypothesis =>
    obtain ⟨here, behind⟩ := List.forall_mem_cons.mp contained
    by_cases configuration : message.data 1 = 0
    · have quiet : ¬ message.media = true := fun audio => of_decide_eq_true audio configuration
      obtain ⟨flvadst, taken⟩ := take_contained_configuration extractor message here configuration
      rw [List.filter_cons_of_neg quiet] at some
      rw [extractStreamPacket, taken]
      exact inductionHypothesis behind some
    · have audio : message.media = true := decide_eq_true configuration
      rw [List.filter_cons_of_pos audio] at some
      obtain ⟨rfl, left⟩ := List.cons.inj some
      obtain ⟨next, taken, put⟩ := take_contained_audio extractor message here configuration
      have returns : extractStreamPacket extractor (message :: rest) =
          .ok (message.dlen - BitVec.ofNat 32 AACOFFSET - 2 + 7, next, rest) := by
        rw [extractStreamPacket, taken]
      exact ⟨_, next, rest, returns, put, left, behind⟩

/-- An audio message that is contained is of fitting length. -/
theorem contained_audio_sized (message : Message) (contained : message.Contained)
    (audio : message.media = true) : message.Sized :=
  ⟨contained.1, contained.2.2 (of_decide_eq_true audio)⟩

/-- A packet is the frame of a message, with the given number and time. -/
structure Carries (packet : AudioStream) (message : Message) (id : Word) (pts : BitVec 64) : Prop where
  bytes : packet.bytes = frame message.payload
  length : packet.mLen.toNat = ADTS_HEADER_SIZE + message.payload.length
  number : packet.mId = id
  time : packet.mTimeStamp = pts

/-- The first of several calls returns the first audio message, if there is one,
and the others go on behind it. -/
theorem extracted_first (extractor : Extractor) (messages : List Message)
    (contained : ∀ message ∈ messages, message.Contained) (first : Message) (others : List Message)
    (some : messages.filter Message.media = first :: others) :
    ∃ next rest, (∀ count, extracted extractor messages (count + 1) =
        (extracted next rest count).map (next.pStreamInfo :: ·)) ∧
      first.Sized ∧ Carries next.pStreamInfo first extractor.id extractor.pts ∧
      next.id = extractor.id + 1 ∧ next.pts = extractor.pts + 23 ∧
      rest.filter Message.media = others ∧ ∀ message ∈ rest, message.Contained := by
  have listed : first ∈ messages.filter Message.media := some ▸ List.mem_cons_self
  obtain ⟨member, audio⟩ := List.mem_filter.mp listed
  have sized := contained_audio_sized first (contained first member) audio
  obtain ⟨length, next, rest, returns, put, left, behind⟩ :=
    extract_first extractor messages contained first others some
  obtain ⟨same, made, id, pts, number, time, size, bytes⟩ := put_packet_frame extractor first sized
  obtain rfl : same = next := Except.ok.inj (made.symm.trans put)
  refine ⟨same, rest, ?_, sized, ⟨bytes, ?_, number, time⟩, id, pts, left, behind⟩
  · intro count
    rw [extracted, returns]
  · rw [size, payload_length first sized]

/-- Without an audio message no call returns a packet. -/
theorem extracted_none (extractor : Extractor) (messages : List Message)
    (contained : ∀ message ∈ messages, message.Contained)
    (none : messages.filter Message.media = []) (count : Nat) :
    extracted extractor messages count = .ok [] := by
  cases count with
  | zero => rfl
  | succ count => rw [extracted, extract_waits extractor messages contained none]

/-- Successive calls on contained messages return packets: the frames of the audio
messages, in order. Each is numbered and timed by its place in the sequence. -/
theorem extracted_frames (extractor : Extractor) (messages : List Message)
    (contained : ∀ message ∈ messages, message.Contained) (count : Nat) :
    ∃ packets, extracted extractor messages count = .ok packets ∧
      packets.map AudioStream.bytes =
        (((messages.filter Message.media).map Message.payload).take count).map frame ∧
      ∀ position packet, packets[position]? = some packet →
        ∃ message : Message, message.Sized ∧
          Carries packet message (extractor.id + BitVec.ofNat 32 position)
            (extractor.pts + 23 * BitVec.ofNat 64 position) := by
  induction count generalizing extractor messages with
  | zero => exact ⟨[], rfl, rfl, fun _ _ here => nomatch here⟩
  | succ count inductionHypothesis =>
    cases audio : messages.filter Message.media with
    | nil =>
      exact ⟨[], extracted_none extractor messages contained audio (count + 1), rfl,
        fun _ _ here => nomatch here⟩
    | cons first others =>
      obtain ⟨next, rest, calls, sized, carries, id, pts, left, behind⟩ :=
        extracted_first extractor messages contained first others audio
      obtain ⟨packets, returned, frames, carried⟩ := inductionHypothesis next rest behind
      refine ⟨next.pStreamInfo :: packets, ?_, ?_, ?_⟩
      · rw [calls count, returned]
        rfl
      · rw [List.map_cons, frames, carries.bytes, left]
        rfl
      · intro position packet here
        cases position with
        | zero =>
          obtain rfl : next.pStreamInfo = packet := Option.some.inj here
          refine ⟨first, sized, ?_⟩
          simpa using carries
        | succ position =>
          obtain ⟨message, fits, found⟩ := carried position packet here
          refine ⟨message, fits, ?_⟩
          rw [id, pts] at found
          have number : extractor.id + 1 + BitVec.ofNat 32 position =
              extractor.id + BitVec.ofNat 32 (position + 1) := by
            rw [BitVec.ofNat_add, BitVec.add_assoc, BitVec.add_comm 1]
            rfl
          have time : extractor.pts + 23 + 23 * BitVec.ofNat 64 position =
              extractor.pts + 23 * BitVec.ofNat 64 (position + 1) := by
            rw [BitVec.ofNat_add, BitVec.mul_add, BitVec.add_assoc, BitVec.add_comm 23]
            rfl
          rw [number, time] at found
          exact found

/-- The header of a packet is read back: its length is the packet's. -/
theorem carries_parsed (packet : AudioStream) (message : Message) (id : Word) (pts : BitVec 64)
    (sized : message.Sized) (carries : Carries packet message id pts) (pConf : SampleADecConfig) :
    (parseADTSHeader pConf packet.pStream.cell).mFirstPktLen = packet.mLen ∧
      (parseADTSHeader pConf packet.pStream.cell).mHeaderLen = 7 := by
  have cells : ∀ index < ADTS_HEADER_SIZE,
      packet.pStream.cell index = (frame message.payload ++ []).getD index 0 := by
    intro index inside
    have length := carries.length
    rw [List.append_nil, ← carries.bytes, AudioStream.bytes, Block.bytes, Buffers.slice,
      List.getD_eq_getElem?_getD, List.getElem?_map, List.getElem?_range' (by omega)]
    simp
  have fits : ADTS_HEADER_SIZE + message.payload.length ≤ 8191 := by
    rw [payload_length message sized]
    have most := sized.2
    omega
  constructor
  · apply BitVec.eq_of_toNat_eq
    rw [parse_frame_length, carries.length, ← frame_length_field message.payload [] fits]
    simp only [frameLength, cells 3 (by decide), cells 4 (by decide), cells 5 (by decide)]
  · have second : packet.pStream.cell 1 = 0xF1 := cells 1 (by decide)
    simp only [parseADTSHeader, second]
    decide

/-- The packets of successive calls on contained messages are together an ADTS stream
with the payloads of the audio messages. -/
theorem contained_adts (extractor : Extractor) (messages : List Message) (pConf : SampleADecConfig)
    (contained : ∀ message ∈ messages, message.Contained) (count : Nat) :
    AdtsStream extractor messages pConf count := by
  obtain ⟨packets, returned, frames, carried⟩ := extracted_frames extractor messages contained count
  refine ⟨packets, returned, ?_, ?_⟩
  · rw [List.flatMap_def, frames, ← List.flatMap_def]
    apply payloads_frames
    intro payload member
    obtain ⟨message, listed, rfl⟩ := List.mem_map.mp (List.mem_of_mem_take member)
    obtain ⟨queued, audio⟩ := List.mem_filter.mp listed
    have sized := contained_audio_sized message (contained message queued) audio
    have most := sized.2
    rw [payload_length message sized]
    omega
  · intro position packet here
    obtain ⟨message, sized, carries⟩ := carried position packet here
    obtain ⟨length, header⟩ := carries_parsed packet message _ _ sized carries pConf
    exact ⟨length, header, carries.number, carries.time⟩

/-- A message that is not contained ends one of the calls with a fault. -/
theorem uncontained_faults (extractor : Extractor) (messages : List Message)
    (uncontained : ∃ message ∈ messages, ¬ message.Contained) :
    ∃ count fault, extracted extractor messages count = .error fault := by
  induction messages generalizing extractor with
  | nil =>
    obtain ⟨message, member, -⟩ := uncontained
    cases member
  | cons message rest inductionHypothesis =>
    cases taken : takeMessage extractor message with
    | error fault => exact ⟨1, fault, by rw [extracted, extractStreamPacket, taken]⟩
    | ok result =>
      have here : message.Contained := (take_contained_iff extractor message).mp ⟨result, taken⟩
      have behind : ∃ message ∈ rest, ¬ message.Contained := by
        obtain ⟨other, member, outside⟩ := uncontained
        rcases List.mem_cons.mp member with rfl | later
        · exact absurd here outside
        · exact ⟨other, later, outside⟩
      cases result with
      | configuration flvadst =>
        have skipped : extractStreamPacket extractor (message :: rest) =
            extractStreamPacket extractor rest := by
          rw [extractStreamPacket, taken]
        obtain ⟨count, fault, faults⟩ := inductionHypothesis extractor behind
        cases count with
        | zero => cases faults
        | succ count =>
          refine ⟨count + 1, fault, ?_⟩
          rw [extracted] at faults ⊢
          rw [skipped]
          exact faults
      | packet next =>
        obtain ⟨count, fault, faults⟩ := inductionHypothesis next behind
        refine ⟨count + 1, fault, ?_⟩
        simp only [extracted, extractStreamPacket, taken, faults, Except.map]

/-- RTMP audio becomes an ADTS stream as long as no configuration message is shorter
than the bytes that are copied from it. After any steps of the threads that push audio
messages of 2 to 4091 bytes and pop them, the messages are popped in the order they were
pushed, and the packets of any number of successive calls on the popped ones are
together an ADTS stream, exactly when each popped configuration message has four
bytes. -/
theorem rtmp_audio_to_adts_iff (threads : Nat) (actions : List (MQueue.Action Message))
    (extractor : Extractor) (pConf : SampleADecConfig)
    (sized : ∀ message ∈ (queueAfter threads actions).pushed, message.Sized) :
    (queueAfter threads actions).pushed =
        (queueAfter threads actions).popped ++ (queueAfter threads actions).q ∧
      ((∀ count, AdtsStream extractor (queueAfter threads actions).popped pConf count) ↔
        ∀ message ∈ (queueAfter threads actions).popped,
          message.data 1 = 0 → 4 ≤ message.dlen.toNat) := by
  obtain ⟨system, run, invariant⟩ := Runs.run_always (MQueue.Invariant NUM)
    (fun _ action holds => MQueue.step_invariant holds action) (MQueue.System.init threads) actions
    (MQueue.init_invariant NUM threads)
  have reached : queueAfter threads actions = system := by rw [queueAfter, run, Runs.last_ok]
  rw [reached] at sized ⊢
  have popped : ∀ message ∈ system.popped, message.Sized := fun message member =>
    sized message (invariant.order ▸ List.mem_append_left system.q member)
  refine ⟨invariant.order, ?_, ?_⟩
  · intro streams message member configuration
    by_contra short
    have outside : ¬ message.Contained := fun contained => short (contained.2.1 configuration)
    obtain ⟨count, fault, faults⟩ :=
      uncontained_faults extractor system.popped ⟨message, member, outside⟩
    obtain ⟨packets, returned, -⟩ := streams count
    rw [faults] at returned
    cases returned
  · intro long count
    apply contained_adts
    intro message member
    have fits := popped message member
    exact ⟨fits.1, long message member, fun _ => fits.2⟩

/-- The message with the given bytes. -/
def Message.ofBytes (bytes : List Byte) : Message :=
  ⟨fun index => bytes.getD index 0, BitVec.ofNat 32 bytes.length⟩

/-- A configuration message and an audio message are pushed and popped. -/
def twoMessages : List (MQueue.Action Message) :=
  MQueue.callSteps 0 (setAudioData (.ofBytes [0xAF, 0x00, 0x12, 0x10])) 0 5 ++
    MQueue.callSteps 0 (setAudioData (.ofBytes [0xAF, 0x01, 0x21, 0x1B, 0x8C])) 0 5 ++
    MQueue.callSteps 1 getAudioData 0 5 ++ MQueue.callSteps 1 getAudioData 0 5

/-- The packets of two calls are together an ADTS stream. -/
theorem two_messages_to_adts :
    AdtsStream .init (queueAfter 2 twoMessages).popped loadSampleADecConfig 2 := by
  have pushed : (queueAfter 2 twoMessages).pushed =
      [.ofBytes [0xAF, 0x00, 0x12, 0x10], .ofBytes [0xAF, 0x01, 0x21, 0x1B, 0x8C]] := rfl
  have popped : (queueAfter 2 twoMessages).popped =
      [.ofBytes [0xAF, 0x00, 0x12, 0x10], .ofBytes [0xAF, 0x01, 0x21, 0x1B, 0x8C]] := rfl
  have sized : ∀ message ∈ (queueAfter 2 twoMessages).pushed, message.Sized := by
    rw [pushed]
    intro message member
    rcases List.mem_pair.mp member with rfl | rfl
    · exact ⟨by decide, by decide⟩
    · exact ⟨by decide, by decide⟩
  have long : ∀ message ∈ (queueAfter 2 twoMessages).popped,
      message.data 1 = 0 → 4 ≤ message.dlen.toNat := by
    rw [popped]
    intro message member
    rcases List.mem_pair.mp member with rfl | rfl
    · exact fun _ => by decide
    · exact fun silent => absurd silent (by decide)
  exact (rtmp_audio_to_adts_iff 2 twoMessages .init loadSampleADecConfig sized).2.mpr long 2

/-- A configuration message of two bytes is pushed and popped. -/
def shortConfiguration : List (MQueue.Action Message) :=
  MQueue.callSteps 0 (setAudioData (.ofBytes [0xAF, 0x00])) 0 5 ++
    MQueue.callSteps 1 getAudioData 0 5

/-- It is long enough for an audio message, and the call that takes it reads behind
its end. -/
theorem short_configuration_faults :
    (∀ message ∈ (queueAfter 2 shortConfiguration).pushed, message.Sized) ∧
      extracted .init (queueAfter 2 shortConfiguration).popped 1 = .error .outOfBounds ∧
      ¬ AdtsStream .init (queueAfter 2 shortConfiguration).popped loadSampleADecConfig 1 := by
  have pushed : (queueAfter 2 shortConfiguration).pushed = [.ofBytes [0xAF, 0x00]] := rfl
  have popped : (queueAfter 2 shortConfiguration).popped = [.ofBytes [0xAF, 0x00]] := rfl
  have faults : extracted .init [.ofBytes [0xAF, 0x00]] 1 = .error .outOfBounds := rfl
  rw [pushed, popped]
  refine ⟨?_, faults, ?_⟩
  · intro message member
    obtain rfl := List.mem_singleton.mp member
    exact ⟨by decide, by decide⟩
  · rintro ⟨packets, returned, -⟩
    rw [faults] at returned
    cases returned

end IotCamera.Adec
