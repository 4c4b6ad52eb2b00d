import IotCamera.Rtmp.Sending
import Mathlib.Data.List.ReduceOption

/-!
# Sending messages in batches

`do_send_messages` puts the headers of the chunks of many messages into a cache and notes in
a table where headers and payloads are, so that all of it is written at once and no payload
is copied. A full table is made larger. The cache stays where it is, since the table points
into it: when it may be too small for another header, all is written and it begins again.

The batch puts on the wire what sending the messages one by one puts there, and neither the
cache nor the table is left.
-/

namespace IotCamera.Rtmp.Stack

open Codecs BigEndian

def SRS_PERF_MW_MSGS : Nat := 128
def SRS_CONSTS_IOVS_MAX : Nat := SRS_PERF_MW_MSGS * 2
def SRS_CONSTS_C0C3_HEADERS_MAX : Nat := SRS_PERF_MW_MSGS * 32

/-- An `iovec`, which is read when it is written: a part of the header cache or of a payload. -/
inductive Iovec where
  | cache (base len : Nat)
  | payload (bytes : List Byte)

def Iovec.bytes (cache : Nat → Byte) : Iovec → List Byte
  | .cache base len => (List.range len).map fun index => cache (base + index)
  | .payload bytes => bytes

/-- What the entries of a table point to, one after the other. -/
def gather (cache : Nat → Byte) (iovs : List Iovec) : List Byte := iovs.flatMap (Iovec.bytes cache)

/-- The members that a batch uses, and the entries of the table up to `iov_index`. -/
structure Batch where
  c0c3Cache : Nat → Byte
  c0c3CacheIndex : Nat
  iovs : List Iovec
  nbOutIovs : Nat
  out : Outgoing

/-- The loop of `srs_write_large_iovs`: as many entries at a time as the system takes. -/
def writePieces (limits : Nat) (cache : Nat → Byte) : Nat → List Iovec → Outgoing → Outgoing
  | 0, _, out => out
  | rounds + 1, iovs, out =>
      if iovs.length = 0 then
        out
      else
        writePieces limits cache rounds (iovs.drop limits) (out.writev (gather cache (iovs.take limits)))

def srsWriteLargeIovs (limits : Nat) (cache : Nat → Byte) (iovs : List Iovec) (out : Outgoing) : Outgoing :=
  if iovs.length < limits then out.writev (gather cache iovs)
  else writePieces limits cache iovs.length iovs out

namespace Batch

/-- All that is in the table is written, and the cache begins again. -/
def send (limits : Nat) (batch : Batch) : Batch where
  c0c3Cache := batch.c0c3Cache
  c0c3CacheIndex := 0
  iovs := []
  nbOutIovs := batch.nbOutIovs
  out := srsWriteLargeIovs limits batch.c0c3Cache batch.iovs batch.out

/-- Bytes are put into the cache. -/
def stored (cache : Nat → Byte) (base : Nat) (bytes : List Byte) : Nat → Byte := fun index =>
  if base ≤ index ∧ index < base + bytes.length then bytes.getD (index - base) 0 else cache index

/-- A chunk is entered, with `nbh` bytes of header; the table is made larger behind it. -/
def enter (batch : Batch) (c0c3 part : List Byte) : Batch where
  c0c3Cache := stored batch.c0c3Cache batch.c0c3CacheIndex c0c3
  c0c3CacheIndex := batch.c0c3CacheIndex + c0c3.length
  iovs := batch.iovs ++ [.cache batch.c0c3CacheIndex c0c3.length, .payload part]
  nbOutIovs :=
    if batch.nbOutIovs ≤ batch.iovs.length + 2 then batch.nbOutIovs + SRS_CONSTS_IOVS_MAX else batch.nbOutIovs
  out := batch.out

/-- The loop over the chunks of a message, one chunk in a round. -/
def addChunks (limits : Nat) (mh : MessageHeader) (size : Nat) : Nat → List Byte → Batch → Except Failure Batch
  | 0, left, batch => if left.length = 0 then .ok batch else .error .exhausted
  | rounds + 1, left, batch =>
      if left.length = 0 then
        .ok batch
      else
        let nbCache := SRS_CONSTS_C0C3_HEADERS_MAX - batch.c0c3CacheIndex
        let c0c3 := chunkHeader mh nbCache (left.length = size)
        let payloadSize := min (left.length : Int) batch.out.outChunkSize
        if c0c3.length = 0 then
          .error .assertion
        else if nbCache < c0c3.length ∨ batch.nbOutIovs < batch.iovs.length + 2 ∨ payloadSize < 0 then
          .error .outOfBounds
        else
          let entered := batch.enter c0c3 (left.take payloadSize.toNat)
          let after :=
            if SRS_CONSTS_C0C3_HEADERS_MAX - entered.c0c3CacheIndex < SRS_CONSTS_RTMP_MAX_FMT0_HEADER_SIZE then
              entered.send limits
            else
              entered
          addChunks limits mh size rounds (left.drop payloadSize.toNat) after

/-- The loop over the messages. Those that are missing or empty are passed over. -/
def addMessages (limits : Nat) : List (Option Message) → Batch → Except Failure Batch
  | [], batch => .ok batch
  | none :: rest, batch => addMessages limits rest batch
  | some message :: rest, batch =>
      match addChunks limits message.header message.payload.length message.payload.length message.payload batch with
      | .error failure => .error failure
      | .ok after => addMessages limits rest after

end Batch

/-- `do_send_messages`. -/
def doSendMessages (limits : Nat) (msgs : List (Option Message)) (batch : Batch) : Except Failure Batch :=
  match Batch.addMessages limits msgs { batch with c0c3CacheIndex := 0, iovs := [] } with
  | .error failure => .error failure
  | .ok after => .ok (if after.iovs.length = 0 then after else after.send limits)

/-! ### Writing what the table points to -/

/-- The bytes of a table are those of its front and then of its back. -/
theorem gather_append (cache : Nat → Byte) (front back : List Iovec) :
    gather cache (front ++ back) = gather cache front ++ gather cache back :=
  List.flatMap_append

/-- However many entries are written at a time, all of them are. -/
theorem write_pieces_all (limits : Nat) (positive : 0 < limits) (cache : Nat → Byte) (rounds : Nat)
    (iovs : List Iovec) (out : Outgoing) (enough : iovs.length ≤ rounds) :
    writePieces limits cache rounds iovs out = out.writev (gather cache iovs) := by
  induction rounds generalizing iovs out with
  | zero =>
      have none : iovs = [] := List.eq_nil_of_length_eq_zero (Nat.le_zero.mp enough)
      rw [none, writePieces, gather, List.flatMap_nil, Outgoing.writev, List.append_nil]
  | succ rounds inductionHypothesis =>
      rw [writePieces]
      split
      case isTrue empty =>
        have none : iovs = [] := List.eq_nil_of_length_eq_zero empty
        rw [none, gather, List.flatMap_nil, Outgoing.writev, List.append_nil]
      case isFalse =>
        have shorter : (iovs.drop limits).length ≤ rounds := by
          rw [List.length_drop]
          omega
        rw [inductionHypothesis _ _ shorter, writev_writev, ← gather_append, List.take_append_drop]

/-- However many entries the system writes at a time, all of them are written in order. -/
theorem write_large_all (limits : Nat) (positive : 0 < limits) (cache : Nat → Byte) (iovs : List Iovec)
    (out : Outgoing) : srsWriteLargeIovs limits cache iovs out = out.writev (gather cache iovs) := by
  unfold srsWriteLargeIovs
  split
  case isTrue => rfl
  case isFalse => exact write_pieces_all limits positive cache _ iovs out (Nat.le_refl _)

/-! ### The cache and the table -/

/-- The table points to bytes that are in the cache below the next header or to payloads. -/
def Iovec.Below (index : Nat) : Iovec → Prop
  | .cache base len => base + len ≤ index
  | .payload _ => True

/-- A header that was stored in the cache is there. -/
theorem stored_there (cache : Nat → Byte) (base : Nat) (bytes : List Byte) :
    Iovec.bytes (Batch.stored cache base bytes) (.cache base bytes.length) = bytes := by
  apply List.ext_getElem
  · simp [Iovec.bytes]
  intro index first second
  have inside : base ≤ base + index ∧ base + index < base + bytes.length := by omega
  simp only [Iovec.bytes, List.getElem_map, List.getElem_range, Batch.stored, if_pos inside,
    Nat.add_sub_cancel_left, List.getD_eq_getElem?_getD, List.getElem?_eq_getElem second, Option.getD_some]

/-- A header does not touch what is below it. -/
theorem stored_below (cache : Nat → Byte) (base : Nat) (bytes : List Byte) (iovs : List Iovec)
    (below : ∀ iov ∈ iovs, iov.Below base) :
    gather (Batch.stored cache base bytes) iovs = gather cache iovs := by
  apply List.flatMap_congr
  intro iov present
  cases iov with
  | payload part => rfl
  | cache first len =>
      have end' : first + len ≤ base := below _ present
      apply List.map_congr_left
      intro index inside
      rw [List.mem_range] at inside
      exact if_neg (by omega)

/-- With room for the longest header, a header does not depend on the room. -/
theorem chunk_header_room (mh : MessageHeader) (nbCache : Nat) (first : Bool)
    (room : SRS_CONSTS_RTMP_MAX_FMT0_HEADER_SIZE ≤ nbCache) :
    chunkHeader mh nbCache first = chunkHeader mh SRS_CONSTS_RTMP_MAX_FMT0_HEADER_SIZE first := by
  have sixteen : SRS_CONSTS_RTMP_MAX_FMT0_HEADER_SIZE = 16 := rfl
  have five : SRS_CONSTS_RTMP_MAX_FMT3_HEADER_SIZE = 5 := rfl
  cases first with
  | false =>
      rw [chunkHeader, chunkHeader, if_neg (by decide), if_neg (by decide), srsChunkHeaderC3, srsChunkHeaderC3,
        if_neg (by omega), if_neg (by omega)]
  | true =>
      have small : ¬ nbCache < SRS_CONSTS_RTMP_MAX_FMT0_HEADER_SIZE := by omega
      rw [chunkHeader, chunkHeader, if_pos rfl, if_pos rfl, srsChunkHeaderC0, srsChunkHeaderC0, if_neg small,
        if_neg (Nat.lt_irrefl _)]

/-- An extended timestamp has four bytes at most. -/
theorem extended_length (timestamp : BitVec 32) : (extendedTimestamp timestamp).length ≤ 4 := by
  unfold extendedTimestamp
  split
  · rw [bytes_length]
  · exact Nat.zero_le 4

/-- The largest header is that of a first chunk with an extended timestamp. -/
theorem chunk_header_length (mh : MessageHeader) (first : Bool) :
    (chunkHeader mh SRS_CONSTS_RTMP_MAX_FMT0_HEADER_SIZE first).length ≤ SRS_CONSTS_RTMP_MAX_FMT0_HEADER_SIZE := by
  have extended := extended_length (mh.timestamp.setWidth 32)
  have sixteen : SRS_CONSTS_RTMP_MAX_FMT0_HEADER_SIZE = 16 := rfl
  have five : SRS_CONSTS_RTMP_MAX_FMT3_HEADER_SIZE = 5 := rfl
  cases first with
  | false =>
      rw [chunkHeader, if_neg (by decide), srsChunkHeaderC3, if_neg (by omega), List.length_append,
        List.length_singleton]
      omega
  | true =>
      rw [chunkHeader, if_pos rfl, srsChunkHeaderC0, if_neg (Nat.lt_irrefl _)]
      have stamp : (if (mh.timestamp.setWidth 32).toNat < RTMP_EXTENDED_TIMESTAMP then
          bytesOf 3 (mh.timestamp.setWidth 32).toNat else [0xFF, 0xFF, 0xFF]).length = 3 := by
        split
        · rfl
        · rfl
      simp only [List.length_append, List.length_singleton, List.length_reverse, bytes_length, stamp]
      omega

/-! ### Chunks in a batch -/

/-- What was written together with what is still to be written. -/
def Batch.total (batch : Batch) : Outgoing := batch.out.writev (gather batch.c0c3Cache batch.iovs)

/-- Between two chunks there is room for a header in the cache and for a pair in the table,
and the table points to what is there. -/
structure Batch.Ready (batch : Batch) : Prop where
  room : batch.c0c3CacheIndex + SRS_CONSTS_RTMP_MAX_FMT0_HEADER_SIZE ≤ SRS_CONSTS_C0C3_HEADERS_MAX
  table : batch.iovs.length + 2 ≤ batch.nbOutIovs
  pairs : batch.iovs.length % 2 = 0
  even : batch.nbOutIovs % 2 = 0
  below : ∀ iov ∈ batch.iovs, iov.Below batch.c0c3CacheIndex

/-- Sending the table changes nothing about what is written in the end. -/
theorem send_total (limits : Nat) (positive : 0 < limits) (batch : Batch) :
    (batch.send limits).total = batch.total := by
  have nothing : gather batch.c0c3Cache [] = [] := rfl
  rw [Batch.total, Batch.send, nothing, write_large_all limits positive, writev_writev, List.append_nil]
  rfl

/-- A table that was sent has room again. -/
theorem send_ready (limits : Nat) (batch : Batch) (table : 2 ≤ batch.nbOutIovs) (even : batch.nbOutIovs % 2 = 0) :
    (batch.send limits).Ready where
  room := by
    change 0 + SRS_CONSTS_RTMP_MAX_FMT0_HEADER_SIZE ≤ SRS_CONSTS_C0C3_HEADERS_MAX
    decide
  table := table
  pairs := rfl
  even := even
  below := by
    intro iov none
    cases none

/-- An entered chunk is behind what was there. -/
theorem enter_total (batch : Batch) (c0c3 part : List Byte) (ready : batch.Ready) :
    (batch.enter c0c3 part).total = batch.total.writev (c0c3 ++ part) := by
  have old := stored_below batch.c0c3Cache batch.c0c3CacheIndex c0c3 batch.iovs ready.below
  have fresh := stored_there batch.c0c3Cache batch.c0c3CacheIndex c0c3
  rw [Batch.total, Batch.total, writev_writev]
  refine congrArg batch.out.writev ?_
  have pair : gather (Batch.stored batch.c0c3Cache batch.c0c3CacheIndex c0c3)
      [.cache batch.c0c3CacheIndex c0c3.length, .payload part] = c0c3 ++ part := by
    rw [gather, List.flatMap_cons, fresh, List.flatMap_singleton]
    rfl
  exact (gather_append _ batch.iovs _).trans (congrArg₂ (· ++ ·) old pair)

/-- A chunk is entered, and where the cache may be too small for the next one all is written. -/
theorem chunk_entered (limits : Nat) (positive : 0 < limits) (batch : Batch) (c0c3 part : List Byte)
    (ready : batch.Ready) (short : c0c3.length ≤ SRS_CONSTS_RTMP_MAX_FMT0_HEADER_SIZE) :
    ∃ after, (if SRS_CONSTS_C0C3_HEADERS_MAX - (batch.enter c0c3 part).c0c3CacheIndex <
          SRS_CONSTS_RTMP_MAX_FMT0_HEADER_SIZE then (batch.enter c0c3 part).send limits
        else batch.enter c0c3 part) = after ∧
      after.Ready ∧ after.total = batch.total.writev (c0c3 ++ part) := by
  have total := enter_total batch c0c3 part ready
  have pairs := ready.pairs
  have even := ready.even
  have table := ready.table
  have sixteen : SRS_CONSTS_RTMP_MAX_FMT0_HEADER_SIZE = 16 := rfl
  have place : (batch.enter c0c3 part).c0c3CacheIndex = batch.c0c3CacheIndex + c0c3.length := rfl
  have size : (batch.enter c0c3 part).nbOutIovs = if batch.nbOutIovs ≤ batch.iovs.length + 2 then
      batch.nbOutIovs + SRS_CONSTS_IOVS_MAX else batch.nbOutIovs := rfl
  have more : SRS_CONSTS_IOVS_MAX = 256 := rfl
  have entries : (batch.enter c0c3 part).iovs.length = batch.iovs.length + 2 := by
    simp [Batch.enter]
  have grown : (batch.enter c0c3 part).iovs.length + 2 ≤ (batch.enter c0c3 part).nbOutIovs ∧
      (batch.enter c0c3 part).nbOutIovs % 2 = 0 := by
    rw [entries, size]
    split
    · omega
    · omega
  refine ⟨_, rfl, ?_⟩
  split
  case isTrue =>
    constructor
    · exact send_ready limits _ (by omega) grown.2
    · rw [send_total limits positive, total]
  case isFalse wide =>
    refine ⟨⟨?_, grown.1, ?_, grown.2, ?_⟩, total⟩
    · omega
    · omega
    · intro iov present
      rw [place]
      obtain old | fresh := List.mem_append.mp present
      · have below := ready.below iov old
        cases iov with
        | payload => trivial
        | cache base len =>
            have before : base + len ≤ batch.c0c3CacheIndex := below
            exact (by omega : base + len ≤ batch.c0c3CacheIndex + c0c3.length)
      · obtain rfl | last := List.mem_cons.mp fresh
        · exact Nat.le_refl _
        · rw [List.mem_singleton.mp last]
          trivial

/-- The chunks of a message are entered one behind the other. -/
theorem chunks_added (limits : Nat) (positive : 0 < limits) (message : Message) (rounds : Nat) (left : List Byte)
    (batch : Batch) (ready : batch.Ready) (chunkSize : 0 < batch.out.outChunkSize)
    (enough : left.length ≤ rounds) :
    ∃ after, Batch.addChunks limits message.header message.payload.length rounds left batch = .ok after ∧
      after.Ready ∧
      after.total = batch.total.writev (wireFrom message batch.out.outChunkSize.toNat rounds left) := by
  induction rounds generalizing left batch with
  | zero =>
      refine ⟨batch, ?_, ready, ?_⟩
      · rw [Batch.addChunks, if_pos (Nat.le_zero.mp enough)]
      · rw [wireFrom, Outgoing.writev, List.append_nil]
  | succ rounds inductionHypothesis =>
      rw [Batch.addChunks, wireFrom]
      by_cases none : left.length = 0
      · rw [if_pos none, if_pos none]
        refine ⟨batch, rfl, ready, ?_⟩
        rw [Outgoing.writev, List.append_nil]
      rw [if_neg none, if_neg none]
      dsimp only
      have room := ready.room
      have table := ready.table
      have wide : SRS_CONSTS_RTMP_MAX_FMT0_HEADER_SIZE ≤ SRS_CONSTS_C0C3_HEADERS_MAX - batch.c0c3CacheIndex := by
        omega
      have short := chunk_header_length message.header (left.length = message.payload.length)
      have step : (min (left.length : Int) batch.out.outChunkSize).toNat =
          min left.length batch.out.outChunkSize.toNat := by
        omega
      have part : left.take (min left.length batch.out.outChunkSize.toNat) =
          left.take batch.out.outChunkSize.toNat := by
        rw [Nat.min_comm, ← List.take_eq_take_min]
      have behind : left.drop (min left.length batch.out.outChunkSize.toNat) =
          left.drop batch.out.outChunkSize.toNat := by
        rw [List.drop_eq_drop_iff]
        omega
      have shorter : (left.drop batch.out.outChunkSize.toNat).length ≤ rounds := by
        rw [List.length_drop]
        omega
      rw [chunk_header_room _ _ _ wide, if_neg (chunk_header_some _ _), if_neg (by omega), step, part, behind]
      obtain ⟨after, entered, ready', total⟩ := chunk_entered limits positive batch
        (chunkHeader message.header SRS_CONSTS_RTMP_MAX_FMT0_HEADER_SIZE (left.length = message.payload.length))
        (left.take batch.out.outChunkSize.toNat) ready short
      have size : after.out.outChunkSize = batch.out.outChunkSize := by
        change after.total.outChunkSize = batch.out.outChunkSize
        rw [total]
        rfl
      rw [entered]
      obtain ⟨last, added, ready'', whole⟩ := inductionHypothesis (left.drop batch.out.outChunkSize.toNat) after
        ready' (by rw [size]; exact chunkSize) shorter
      refine ⟨last, added, ready'', ?_⟩
      rw [whole, total, size, writev_writev]
      rfl

/-- Messages on the wire, one after the other. -/
def wires (chunkSize : Nat) (messages : List Message) : List Byte :=
  messages.flatMap fun message => message.wire chunkSize

/-- The messages of a batch that are there are added to what is written, chunk by chunk. -/
theorem messages_added (limits : Nat) (positive : 0 < limits) (msgs : List (Option Message)) (batch : Batch)
    (ready : batch.Ready) (chunkSize : 0 < batch.out.outChunkSize) :
    ∃ after, Batch.addMessages limits msgs batch = .ok after ∧ after.Ready ∧
      after.total = batch.total.writev (wires batch.out.outChunkSize.toNat msgs.reduceOption) := by
  induction msgs generalizing batch with
  | nil =>
      refine ⟨batch, rfl, ready, ?_⟩
      rw [List.reduceOption_nil, wires, List.flatMap_nil, Outgoing.writev, List.append_nil]
  | cons msg rest inductionHypothesis =>
      cases msg with
      | none => exact inductionHypothesis batch ready chunkSize
      | some message =>
          obtain ⟨between, added, ready', total⟩ := chunks_added limits positive message _ message.payload batch
            ready chunkSize (Nat.le_refl _)
          have size : between.out.outChunkSize = batch.out.outChunkSize := by
            change between.total.outChunkSize = batch.out.outChunkSize
            rw [total]
            rfl
          obtain ⟨after, others, ready'', whole⟩ := inductionHypothesis between ready' (by rw [size]; exact chunkSize)
          refine ⟨after, ?_, ready'', ?_⟩
          · rw [Batch.addMessages, added]
            exact others
          · rw [whole, total, size, writev_writev, List.reduceOption_cons_of_some]
            rfl

/-- A table as it is between two batches. -/
structure Batch.Idle (batch : Batch) : Prop where
  some : 2 ≤ batch.nbOutIovs
  even : batch.nbOutIovs % 2 = 0

/-- A batch leaves nothing to be written, and the table fit for the next one. -/
theorem batch_wires (limits : Nat) (positive : 0 < limits) (msgs : List (Option Message)) (batch : Batch)
    (idle : batch.Idle) (chunkSize : 0 < batch.out.outChunkSize) :
    ∃ after, doSendMessages limits msgs batch = .ok after ∧ after.Idle ∧
      after.out = batch.out.writev (wires batch.out.outChunkSize.toNat msgs.reduceOption) := by
  have ready : Batch.Ready { batch with c0c3CacheIndex := 0, iovs := [] } := by
    refine ⟨?_, idle.some, rfl, idle.even, ?_⟩
    · change 0 + SRS_CONSTS_RTMP_MAX_FMT0_HEADER_SIZE ≤ SRS_CONSTS_C0C3_HEADERS_MAX
      decide
    · intro iov none
      cases none
  have begun : Batch.total { batch with c0c3CacheIndex := 0, iovs := [] } = batch.out := by
    change batch.out.writev [] = _
    rw [Outgoing.writev, List.append_nil]
  obtain ⟨after, added, ready', total⟩ := messages_added limits positive msgs _ ready chunkSize
  rw [begun] at total
  have table := ready'.table
  unfold doSendMessages
  rw [added]
  dsimp only
  refine ⟨_, rfl, ?_⟩
  split
  case isTrue empty =>
    have none : after.iovs = [] := List.eq_nil_of_length_eq_zero empty
    refine ⟨⟨by omega, ready'.even⟩, ?_⟩
    rw [← total, Batch.total, none]
    change _ = after.out.writev []
    rw [Outgoing.writev, List.append_nil]
  case isFalse =>
    refine ⟨⟨by change 2 ≤ after.nbOutIovs; omega, ready'.even⟩, ?_⟩
    rw [← total]
    exact write_large_all limits positive after.c0c3Cache after.iovs after.out

/-- Sending messages one by one writes their chunks in order. -/
theorem each_sent (messages : List Message) (out : Outgoing) (chunkSize : 0 < out.outChunkSize) :
    messages.foldlM (fun before message => doSimpleSend message.header message.payload before) out =
      .ok (out.writev (wires out.outChunkSize.toNat messages)) := by
  induction messages generalizing out with
  | nil =>
      rw [List.foldlM_nil, wires, List.flatMap_nil, Outgoing.writev, List.append_nil]
      rfl
  | cons message rest inductionHypothesis =>
      rw [List.foldlM_cons, simple_send_wire message out chunkSize]
      refine (inductionHypothesis _ (by exact chunkSize)).trans ?_
      rw [writev_writev]
      rfl

/-- A batch succeeds, whatever messages are missing or empty, without leaving the cache or the
table, and writes what sending the messages one by one writes. The next batch can follow. -/
theorem batch_sends_each (limits : Nat) (positive : 0 < limits) (msgs : List (Option Message)) (batch : Batch)
    (idle : batch.Idle) (chunkSize : 0 < batch.out.outChunkSize) :
    ∃ after, doSendMessages limits msgs batch = .ok after ∧ after.Idle ∧
      msgs.reduceOption.foldlM (fun out message => doSimpleSend message.header message.payload out) batch.out =
        .ok after.out := by
  obtain ⟨after, sent, ready, wire⟩ := batch_wires limits positive msgs batch idle chunkSize
  refine ⟨after, sent, ready, ?_⟩
  rw [each_sent _ _ chunkSize, wire]

/-- A batch of a message and a missing one sends the message. -/
theorem batch_sends_each_missing :
    ∃ after, doSendMessages 1024 [some ⟨⟨0, 3, 0x09, 1, 0, 6⟩, [1, 2, 3]⟩, none]
        ⟨fun _ => 0, 0, [], SRS_CONSTS_IOVS_MAX, ⟨128, 0, []⟩⟩ = .ok after ∧ after.Idle ∧
      doSimpleSend ⟨0, 3, 0x09, 1, 0, 6⟩ [1, 2, 3] ⟨128, 0, []⟩ = .ok after.out :=
  batch_sends_each 1024 (by decide) [some ⟨⟨0, 3, 0x09, 1, 0, 6⟩, [1, 2, 3]⟩, none]
    ⟨fun _ => 0, 0, [], SRS_CONSTS_IOVS_MAX, ⟨128, 0, []⟩⟩ ⟨by decide, by decide⟩ (by decide)

end IotCamera.Rtmp.Stack
