import IotCamera.Rtmp.Multiplexing

/-!
# What a sender puts on the wire

`do_simple_send` sends a message chunk by chunk, the first chunk with the whole header. What
it sends is a run of the chunk streams in which the message is the only one, so a sender
that sends message after message is one of those that a receiver follows.
-/

namespace IotCamera.Rtmp.Stack

open Codecs BigEndian

/-- What is left of a message, cut into chunks; each of them takes some of it. -/
def wireFrom (message : Message) (chunkSize : Nat) : Nat → List Byte → List Byte
  | 0, _ => []
  | rounds + 1, left =>
      if left.length = 0 then
        []
      else
        message.chunk (left.length = message.payload.length) (left.take chunkSize) ++
          wireFrom message chunkSize rounds (left.drop chunkSize)

/-- A message on the wire. -/
def Message.wire (message : Message) (chunkSize : Nat) : List Byte :=
  wireFrom message chunkSize message.payload.length message.payload

/-- Every header has a byte. -/
theorem chunk_header_some (mh : MessageHeader) (first : Bool) :
    (chunkHeader mh SRS_CONSTS_RTMP_MAX_FMT0_HEADER_SIZE first).length ≠ 0 := by
  have room : ¬ SRS_CONSTS_RTMP_MAX_FMT0_HEADER_SIZE < SRS_CONSTS_RTMP_MAX_FMT0_HEADER_SIZE := by decide
  have less : ¬ SRS_CONSTS_RTMP_MAX_FMT0_HEADER_SIZE < SRS_CONSTS_RTMP_MAX_FMT3_HEADER_SIZE := by decide
  cases first with
  | false =>
      rw [chunkHeader, if_neg (by decide), srsChunkHeaderC3, if_neg less]
      simp
  | true =>
      rw [chunkHeader, if_pos rfl, srsChunkHeaderC0, if_neg room]
      simp

/-- The loop of `do_simple_send` sends what is left of the message in chunks. -/
theorem send_chunks_wire (message : Message) (rounds : Nat) (left : List Byte) (out : Outgoing)
    (positive : 0 < out.outChunkSize) (enough : left.length ≤ rounds) :
    sendChunks message.header message.payload.length rounds left out =
      .ok (out.writev (wireFrom message out.outChunkSize.toNat rounds left)) := by
  induction rounds generalizing left out with
  | zero =>
      rw [sendChunks, if_pos (Nat.le_zero.mp enough), wireFrom, Outgoing.writev, List.append_nil]
  | succ rounds inductionHypothesis =>
      rw [sendChunks, wireFrom]
      by_cases none : left.length = 0
      · rw [if_pos none, if_pos none, Outgoing.writev, List.append_nil]
      rw [if_neg none, if_neg none]
      dsimp only
      have step : (min (left.length : Int) out.outChunkSize).toNat = min left.length out.outChunkSize.toNat := by
        omega
      have part : left.take (min left.length out.outChunkSize.toNat) = left.take out.outChunkSize.toNat := by
        rw [Nat.min_comm, ← List.take_eq_take_min]
      have behind : left.drop (min left.length out.outChunkSize.toNat) = left.drop out.outChunkSize.toNat := by
        rw [List.drop_eq_drop_iff]
        omega
      have shorter : (left.drop out.outChunkSize.toNat).length ≤ rounds := by
        rw [List.length_drop]
        omega
      rw [if_neg (chunk_header_some _ _), if_neg (by omega), step, part, behind,
        inductionHypothesis _ _ (by exact positive) shorter, writev_writev]
      rfl

/-- A whole message is sent. -/
theorem simple_send_wire (message : Message) (out : Outgoing) (positive : 0 < out.outChunkSize) :
    doSimpleSend message.header message.payload out =
      .ok (out.writev (message.wire out.outChunkSize.toNat)) :=
  send_chunks_wire message _ message.payload out positive (Nat.le_refl _)

/-- Streams of which one has come to be free. -/
def Mux.released (mux : Mux) (cid : Nat) : Mux where
  chunkSize := mux.chunkSize
  current := fun other => if other = cid then none else mux.current other

/-- Releasing a stream that is free changes nothing. -/
theorem released_free (mux : Mux) (cid : Nat) (free : mux.current cid = none) : mux.released cid = mux := by
  cases mux with
  | mk chunkSize current =>
      refine congrArg (Mux.mk chunkSize) ?_
      funext other
      split
      case isTrue own =>
        rw [own]
        exact free.symm
      case isFalse => rfl

/-- A chunk that ends a message releases its stream. -/
theorem advance_last (mux : Mux) (message : Message) (left : List Byte) (last : left.length ≤ mux.chunkSize) :
    mux.advance message left = mux.released message.header.perferCid := by
  unfold Mux.advance Mux.released
  simp only [if_pos last]

/-- Another chunk leaves the rest of the message on its stream, which is released with it. -/
theorem advance_released (mux : Mux) (message : Message) (left : List Byte) :
    (mux.advance message left).released message.header.perferCid =
      mux.released message.header.perferCid := by
  refine congrArg (Mux.mk mux.chunkSize) ?_
  funext other
  split
  case isTrue => rfl
  case isFalse away => exact if_neg away

/-- What is left of a message behind its first chunk is a run that ends with it. -/
theorem wire_from_run (limit : Nat) (message : Message) (rounds : Nat) (mux : Mux) (left : List Byte)
    (positive : 0 < mux.chunkSize) (enough : left.length ≤ rounds) (missing : 0 < left.length)
    (begun : left.length < message.payload.length)
    (current : mux.current message.header.perferCid = some (message, left)) :
    Mux.Run limit mux (wireFrom message mux.chunkSize rounds left) [message]
      ((mux.released message.header.perferCid).heard message) := by
  induction rounds generalizing mux left with
  | zero => omega
  | succ rounds inductionHypothesis =>
      have chunk : Mux.Chunk limit mux _ _ _ := .next mux message left current
      have later : decide (left.length = message.payload.length) = false := by
        rw [decide_eq_false_iff_not]
        omega
      rw [wireFrom, if_neg (by omega), later]
      by_cases last : left.length ≤ mux.chunkSize
      · have rest : wireFrom message mux.chunkSize rounds (left.drop mux.chunkSize) = [] := by
          rw [List.drop_eq_nil_of_le last]
          cases rounds with
          | zero => rfl
          | succ rounds => rfl
        have ended : mux.ended message left = some message := if_pos last
        rw [ended, advance_last mux message left last] at chunk
        rw [rest]
        exact .whole chunk (.done _)
      · have ended : mux.ended message left = none := if_neg last
        rw [ended] at chunk
        have run := inductionHypothesis (mux.advance message left) (left.drop mux.chunkSize) positive
          (by rw [List.length_drop]; omega) (by rw [List.length_drop]; omega)
          (by rw [List.length_drop]; omega) (by simp only [Mux.advance, if_true, if_neg last])
        rw [advance_released] at run
        exact .part chunk run

/-- A message that is sent alone is a run that ends with it. -/
theorem wire_run {limit : Nat} (message : Message) (mux : Mux) (positive : 0 < mux.chunkSize)
    (sendable : message.Sendable limit) (free : mux.current message.header.perferCid = none) :
    Mux.Run limit mux (message.wire mux.chunkSize) [message] (mux.heard message) := by
  have chunk : Mux.Chunk limit mux _ _ _ := .first mux message sendable free
  have some := sendable.some
  have released := released_free mux message.header.perferCid free
  have first : decide (message.payload.length = message.payload.length) = true := decide_eq_true rfl
  obtain ⟨rounds, size⟩ := Nat.exists_eq_succ_of_ne_zero (Nat.pos_iff_ne_zero.mp some)
  have wire : message.wire mux.chunkSize = message.chunk true (message.payload.take mux.chunkSize) ++
      wireFrom message mux.chunkSize rounds (message.payload.drop mux.chunkSize) := by
    rw [Message.wire, size, wireFrom, if_neg (by omega), ← first]
  rw [wire]
  by_cases last : message.payload.length ≤ mux.chunkSize
  · have ended : mux.ended message message.payload = Option.some message := if_pos last
    rw [ended, advance_last mux message message.payload last, released] at chunk
    have rest : wireFrom message mux.chunkSize rounds (message.payload.drop mux.chunkSize) = [] := by
      rw [List.drop_eq_nil_of_le last]
      cases rounds with
      | zero => rfl
      | succ rounds => rfl
    rw [rest]
    exact .whole chunk (.done _)
  · have ended : mux.ended message message.payload = none := if_neg last
    rw [ended] at chunk
    have run := wire_from_run limit message rounds (mux.advance message message.payload)
      (message.payload.drop mux.chunkSize) positive (by rw [List.length_drop]; omega)
      (by rw [List.length_drop]; omega) (by rw [List.length_drop]; omega)
      (by simp only [Mux.advance, if_true, if_neg last])
    rw [advance_released, released] at run
    exact .part chunk run

end IotCamera.Rtmp.Stack
