import IotCamera.Kcp.Arrivals

/-!
# Messages and their segments

`ikcp_send` cuts a message into parts of at most `mss` bytes. Each part says how many come
behind it, so the last one says zero. `ikcp_recv` copies the parts of the message at the
front of the queue one behind the other, up to the one that says zero. When the parts in the
queue are those of the messages that were sent, in order, a call returns the next message
whole or nothing.
-/

namespace IotCamera.Kcp.Messages

open Memory Ikcp Effects Arrivals
open Receive (IKCP_WND_RCV ikcpPeeksize messageLength mergeLoop moveAvailable)

/-- The parts of a message, when it is sent as a message and not as part of a stream. -/
def fragments (mss : Nat) (message : List Byte) : List Fragment :=
  cutMessage mss 0 (partCount mss message.length) message

/-- A message is cut into as many parts as are asked for. -/
theorem cut_message_length (mss : Nat) (stream : Word) (count : Nat) (message : List Byte) :
    (cutMessage mss stream count message).length = count := by
  induction count generalizing message with
  | zero => rfl
  | succ count inductionHypothesis => rw [cutMessage, List.length_cons, inductionHypothesis]

/-- A message has as many segments as `ikcp_send` counts. -/
theorem fragments_length (mss : Nat) (message : List Byte) :
    (fragments mss message).length = partCount mss message.length := cut_message_length mss 0 _ message

/-- There is always a part, also of an empty message. -/
theorem part_count_positive (mss len : Nat) (positive : 0 < mss) : 0 < partCount mss len := by
  unfold partCount
  split
  · exact Nat.one_pos
  case isFalse long => exact Nat.div_pos (by omega) positive

/-- The parts have room for the message. -/
theorem part_count_room (mss len : Nat) (positive : 0 < mss) : len ≤ partCount mss len * mss := by
  unfold partCount
  split
  case isTrue short => rw [Nat.one_mul]; exact short
  case isFalse long =>
    have pieces := Nat.div_add_mod (len + mss - 1) mss
    have rest := Nat.mod_lt (len + mss - 1) positive
    rw [Nat.mul_comm] at pieces
    omega

/-- Each part has at most `mss` bytes, and its number fits into a byte when there are few. -/
theorem cut_message_parts (mss count : Nat) (few : count < 256) (message : List Byte) :
    ∀ part ∈ cutMessage mss 0 count message, part.frg.toNat < 256 ∧ part.data.length ≤ mss := by
  induction count generalizing message with
  | zero => exact List.forall_mem_nil _
  | succ count inductionHypothesis =>
    rw [cutMessage]
    refine List.forall_mem_cons.mpr ⟨⟨?_, List.length_take_le _ _⟩, inductionHypothesis (by omega) _⟩
    rw [if_pos rfl, BitVec.toNat_ofNat]
    omega

/-- Copying a part places its bytes behind the earlier ones. -/
theorem memcpy_bytes {size : Nat} (buffer : Block size) (len : Nat) (data : List Byte)
    (room : len + data.length ≤ size) :
    ∃ copied : Block size, buffer.memcpy len (Block.ofBytes data) 0 data.length = .ok copied ∧
      copied.bytes (len + data.length) = buffer.bytes len ++ data := by
  obtain ⟨copied, copy, inside, outside⟩ :=
    buffer.memcpy_inside len (Block.ofBytes data) 0 data.length room (by omega)
  refine ⟨copied, copy, ?_⟩
  have front : copied.bytes len = buffer.bytes len :=
    Buffers.slice_congr _ _ _ _ _ fun index below => outside _ (.inl (by omega))
  have back : Buffers.slice copied.cell (0 + len) data.length = data := by
    calc Buffers.slice copied.cell (0 + len) data.length
        = Buffers.slice (Block.ofBytes data).cell 0 data.length :=
          Buffers.slice_congr _ _ _ _ _ fun index below => by rw [Nat.zero_add]; exact inside index below
      _ = data := by rw [← Block.bytes, Block.of_bytes_bytes data _ (Nat.le_refl _), List.take_length]
  rw [Block.bytes, ← Buffers.slice_append, back, ← Block.bytes, front]

/-- A part with others behind it does not say zero. -/
theorem more_follow (left : Nat) (few : left + 1 < 2 ^ 32) (frg : Word)
    (number : frg = BitVec.ofNat 32 (left + 1)) : ¬ frg = 0 := by
  intro zero
  have value := congrArg BitVec.toNat (number.symm.trans zero)
  rw [BitVec.toNat_ofNat, Nat.mod_eq_of_lt few] at value
  cases value

/-- The parts of a message are put together to the message, and what is behind it stays. -/
theorem merge_loop_message {size : Nat} (mss left : Nat) (few : left < 2 ^ 32) (message : List Byte)
    (short : message.length ≤ (left + 1) * mss) (parts more : List Receive.Segment)
    (cut : parts.map fragment = cutMessage mss 0 (left + 1) message) (kcp : Receive.Ikcpcb)
    (buffer : Block size) (len : Nat) (room : len + message.length ≤ size) :
    ∃ merged : Block size, mergeLoop kcp buffer len (parts ++ more) =
        .ok ({ kcp with rcv_queue := more, nrcv_que := kcp.nrcv_que - BitVec.ofNat 32 (left + 1) }, merged,
          len + message.length) ∧
      merged.bytes (len + message.length) = buffer.bytes len ++ message := by
  induction left generalizing message parts kcp buffer len with
  | zero =>
    obtain ⟨seg, rest, rfl, first, others⟩ := List.map_eq_cons_iff.mp cut
    obtain rfl := List.map_eq_nil_iff.mp others
    have data : seg.data = message := (congrArg Fragment.data first).trans (List.take_of_length_le (by omega))
    have last : seg.frg = 0 := congrArg Fragment.frg first
    obtain ⟨copied, copy, bytes⟩ := memcpy_bytes buffer len message room
    refine ⟨copied, ?_, bytes⟩
    rw [List.singleton_append, mergeLoop, data, copy]
    exact if_pos last
  | succ left inductionHypothesis =>
    obtain ⟨seg, rest, rfl, first, others⟩ := List.map_eq_cons_iff.mp cut
    have data : seg.data = message.take mss := congrArg Fragment.data first
    have more_parts := more_follow left few seg.frg (congrArg Fragment.frg first)
    have lengths : (message.take mss).length + (message.drop mss).length = message.length := by
      rw [← List.length_append, List.take_append_drop]
    obtain ⟨copied, copy, bytes⟩ := memcpy_bytes buffer len (message.take mss) (by omega)
    obtain ⟨merged, loop, all⟩ := inductionHypothesis (by omega) (message.drop mss)
      (by rw [List.length_drop, Nat.add_mul (left + 1), Nat.one_mul] at *; omega) rest others
      { kcp with rcv_queue := rest ++ more, nrcv_que := kcp.nrcv_que - 1 } copied
      (len + (message.take mss).length) (by omega)
    rw [Nat.add_assoc, lengths] at loop all
    refine ⟨merged, ?_, ?_⟩
    · rw [List.cons_append, mergeLoop, data, copy]
      dsimp only
      rw [if_neg more_parts, loop]
      have counts : kcp.nrcv_que - 1 - BitVec.ofNat 32 (left + 1) =
          kcp.nrcv_que - BitVec.ofNat 32 (left + 1 + 1) := by
        rw [BitVec.ofNat_add (left + 1) 1, sub_add_eq_sub_sub]
        exact sub_right_comm _ _ _
      rw [counts]
    · rw [all, bytes, List.append_assoc, List.take_append_drop]

/-- The length of the message at the front of the queue. -/
theorem message_length_parts (mss left : Nat) (few : left < 2 ^ 32) (message : List Byte)
    (short : message.length ≤ (left + 1) * mss) (parts more : List Receive.Segment)
    (cut : parts.map fragment = cutMessage mss 0 (left + 1) message) :
    messageLength (parts ++ more) = message.length := by
  induction left generalizing message parts with
  | zero =>
    obtain ⟨seg, rest, rfl, first, others⟩ := List.map_eq_cons_iff.mp cut
    have data : seg.data = message := (congrArg Fragment.data first).trans (List.take_of_length_le (by omega))
    have last : seg.frg = 0 := congrArg Fragment.frg first
    rw [List.cons_append, messageLength, if_pos last, data, Nat.add_zero]
  | succ left inductionHypothesis =>
    obtain ⟨seg, rest, rfl, first, others⟩ := List.map_eq_cons_iff.mp cut
    have data : seg.data = message.take mss := congrArg Fragment.data first
    have remaining := inductionHypothesis (by omega) (message.drop mss)
      (by rw [List.length_drop, Nat.add_mul (left + 1), Nat.one_mul] at *; omega) rest others
    rw [List.cons_append, messageLength, if_neg (more_follow left few seg.frg (congrArg Fragment.frg first)),
      data, remaining, ← List.length_append, List.take_append_drop]

/-- When a message is complete, as many parts are in the queue as its first part says. -/
theorem peeksize_complete (kcp : Receive.Ikcpcb) (counted : kcp.nrcv_que.toNat = kcp.rcv_queue.length)
    (left : Nat) (few : left + 1 < 2 ^ 32) (seg : Receive.Segment) (rest : List Receive.Segment)
    (queue : kcp.rcv_queue = seg :: rest) (number : seg.frg = BitVec.ofNat 32 left)
    (complete : 0 ≤ ikcpPeeksize kcp) : left + 1 ≤ kcp.rcv_queue.length := by
  simp only [ikcpPeeksize, queue] at complete
  cases left with
  | zero =>
    rw [queue, List.length_cons]
    omega
  | succ left =>
    rw [if_neg (more_follow left (by omega) seg.frg number)] at complete
    by_cases missing : kcp.nrcv_que < seg.frg + 1
    · rw [if_pos missing] at complete
      exact absurd complete (by decide)
    · have value : (seg.frg + 1).toNat = left + 1 + 1 := by
        rw [number, BitVec.toNat_add, BitVec.toNat_ofNat, Nat.mod_eq_of_lt (by omega : left + 1 < 2 ^ 32)]
        exact Nat.mod_eq_of_lt few
      rw [BitVec.lt_def, value, counted] at missing
      omega

/-- A call returns the next message that was sent, whole, or nothing. -/
theorem recv_message {size : Nat} (mss : Nat) (positive : 0 < mss) (pending : List (List Byte))
    (few : ∀ message ∈ pending, partCount mss message.length < 2 ^ 31) (kcp : Receive.Ikcpcb)
    (counted : kcp.nrcv_que.toNat = kcp.rcv_queue.length)
    (waiting : kcp.rcv_queue.map fragment <+: pending.flatMap (fragments mss)) (buffer : Block size) :
    (∃ answer < 0, Receive.ikcpRecv kcp buffer size = .ok (kcp, buffer, answer)) ∨
      ∃ message rest parts more, ∃ merged : Block size, pending = message :: rest ∧
        kcp.rcv_queue = parts ++ more ∧ parts.map fragment = fragments mss message ∧
        Receive.ikcpRecv kcp buffer size =
          .ok (moveAvailable { kcp with
            rcv_queue := more
            nrcv_que := kcp.nrcv_que - BitVec.ofNat 32 parts.length }, merged, message.length) ∧
        merged.bytes message.length = message := by
  unfold Receive.ikcpRecv
  by_cases empty : kcp.rcv_queue = []
  · exact .inl ⟨-1, by decide, if_pos empty⟩
  rw [if_neg empty]
  by_cases incomplete : ikcpPeeksize kcp < 0
  · exact .inl ⟨-2, by decide, if_pos incomplete⟩
  rw [if_neg incomplete]
  by_cases long : (size : Int) < ikcpPeeksize kcp
  · exact .inl ⟨-3, by decide, if_pos long⟩
  rw [if_neg long]
  right
  obtain ⟨message, rest, rfl⟩ : ∃ message rest, pending = message :: rest := by
    cases pending with
    | nil => exact absurd (List.map_eq_nil_iff.mp (List.prefix_nil.mp waiting)) empty
    | cons message rest => exact ⟨message, rest, rfl⟩
  obtain ⟨left, parts_left⟩ := Nat.exists_eq_succ_of_ne_zero (part_count_positive mss message.length positive).ne'
  have small := few message List.mem_cons_self
  have room := part_count_room mss message.length positive
  have cutting : fragments mss message = cutMessage mss 0 (left + 1) message := by rw [fragments, parts_left]
  rw [List.flatMap_cons] at waiting
  -- The first part in the queue says how many there are, and so many are counted.
  have enough : left + 1 ≤ kcp.rcv_queue.length := by
    obtain ⟨seg, others, queue⟩ := List.exists_cons_of_ne_nil empty
    obtain ⟨behind, all⟩ := waiting
    rw [cutting, queue, List.map_cons] at all
    have first : fragment seg = ⟨BitVec.ofNat 32 left, message.take mss⟩ := (List.cons.inj all).1
    exact peeksize_complete kcp counted left (by omega) seg others queue (congrArg Fragment.frg first) (by omega)
  have front : fragments mss message <+: kcp.rcv_queue.map fragment := by
    refine List.prefix_of_prefix_length_le (List.prefix_append _ _) waiting ?_
    rw [fragments_length, parts_left, List.length_map]
    exact enough
  obtain ⟨behind, split⟩ := front
  obtain ⟨parts, more, queue, cut, -⟩ := List.map_eq_append_iff.mp split.symm
  have length := message_length_parts mss left (by omega) message (by rw [← Nat.succ_eq_add_one, ← parts_left]; exact room)
    parts more (by rw [cut, cutting])
  have peek := Receive.peeksize_message kcp (by omega)
  rw [queue, length] at peek
  obtain ⟨merged, loop, bytes⟩ := merge_loop_message mss left (by omega) message
    (by rw [← Nat.succ_eq_add_one, ← parts_left]; exact room) parts more (by rw [cut, cutting]) kcp buffer 0 (by omega)
  have count : parts.length = left + 1 := by
    have sizes := congrArg List.length cut
    rw [List.length_map, fragments_length, parts_left] at sizes
    exact sizes
  rw [Nat.zero_add] at loop bytes
  refine ⟨message, rest, parts, more, merged, rfl, queue, cut, ?_, bytes⟩
  rw [queue, loop, count]

/-- In message mode a call puts the parts of a message into the queue, or refuses it. -/
theorem send_message (kcp : Ikcpcb) (mode : kcp.stream = 0) (positive : 0 < kcp.mss.toNat) (buffer : List Byte) :
    (∃ answer, answer ≠ 0 ∧ ikcpSend kcp buffer = (kcp, answer)) ∨
      partCount kcp.mss.toNat buffer.length < IKCP_WND_RCV.toNat ∧ ∃ after, ikcpSend kcp buffer = (after, 0) ∧
        view after = { view kcp with snd_queue := kcp.snd_queue ++ fragments kcp.mss.toNat buffer } := by
  unfold ikcpSend queueParts
  by_cases negative : 2 ^ 31 ≤ buffer.length
  · exact .inl ⟨-1, by decide, if_pos negative⟩
  rw [if_neg negative, if_neg (fun other => other mode)]
  by_cases many : IKCP_WND_RCV.toNat ≤ partCount kcp.mss.toNat buffer.length
  · exact .inl ⟨-2, by decide, if_pos many⟩
  · refine .inr ⟨by omega, _, if_neg many, ?_⟩
    simp only [view, mode, if_neg (part_count_positive kcp.mss.toNat buffer.length positive).ne', fragments]

/-- A call that returns a message changes the receiving side, and otherwise nothing that is
transferred. -/
theorem recv_view {size : Nat} (kcp : Ikcpcb) (buffer : Block size) (len : Int) (received : Receive.Ikcpcb)
    (filled : Block size) (answer : Int)
    (returned : Receive.ikcpRecv kcp.toIkcpcb buffer len = .ok (received, filled, answer)) :
    ∃ after, ikcpRecv kcp buffer len = .ok (after, filled, answer) ∧
      view after = { view kcp with receiving := received } := by
  unfold ikcpRecv
  rw [returned]
  dsimp only
  split
  · exact ⟨_, rfl, rfl⟩
  · exact ⟨_, rfl, rfl⟩

end IotCamera.Kcp.Messages
