import IotCamera.Kcp.Messages
import IotCamera.Kcp.Flushing

/-!
# The buffer of a flush

The buffer has three times as many bytes as an `mtu` and a header, counted in 32 bits. While
that count does not wrap, and every segment that waits or is kept fits into a datagram, a
flush stays within its buffer. Whatever a program calls and whatever arrives, the segments
go on to fit: `ikcp_send` cuts them to size, and no other call makes one longer.
-/

namespace IotCamera.Kcp.OutputBuffer

open Memory Ikcp Effects Flushing
open Receive (IKCP_OVERHEAD)

/-- All segments fit into a datagram, and the buffer was not cut short by the wrap of its
size. -/
structure Roomy (session : View) : Prop extends Fits session where
  whole : session.mss.toNat + IKCP_OVERHEAD = session.mtu.toNat
  buffer : (session.mtu.toNat + IKCP_OVERHEAD) * 3 < 2 ^ 32

/-- A buffer whose size does not wrap has room for a datagram. -/
theorem mtu_within (mtu : Word) (bounded : (mtu.toNat + IKCP_OVERHEAD) * 3 < 2 ^ 32) :
    mtu.toNat ≤ bufferSize mtu := by
  have header : IKCP_OVERHEAD = 24 := rfl
  have size : bufferSize mtu = (mtu.toNat + 24) * 3 := by
    rw [bufferSize, BitVec.toNat_mul, BitVec.toNat_add]
    have overhead : (BitVec.ofNat 32 IKCP_OVERHEAD).toNat = 24 := by decide
    have three : (3 : Word).toNat = 3 := rfl
    rw [overhead, three, Nat.mod_eq_of_lt (by omega), Nat.mod_eq_of_lt (by omega)]
  omega

/-- From `mtu = 1431655742` on the product wraps, and the buffer is too small for a header. -/
example : bufferSize 1431655742 = 2 := by decide

/-- A flush of a roomy session stays within its buffer. -/
theorem flush_within (kcp : Ikcpcb) (roomy : Roomy (view kcp)) :
    withinBuffer kcp (ikcpFlush kcp) = .ok (ikcpFlush kcp) := by
  obtain ⟨-, -, -, -, -, datagrams⟩ := flush_view kcp roomy.toFits
  refine if_pos fun datagram member => ?_
  exact Nat.le_trans (datagrams datagram member).short (mtu_within kcp.mtu roomy.buffer)

/-- An update of a roomy session stays within its buffer. -/
theorem update_within (kcp : Ikcpcb) (current : Word) (roomy : Roomy (view kcp)) :
    withinBuffer kcp (ikcpUpdate kcp current) = .ok (ikcpUpdate kcp current) := by
  obtain ⟨ready, same, updated⟩ := update_flushes kcp current
  have seen := frame_view same
  have mtu : ready.mtu = kcp.mtu := congrArg View.mtu seen
  rcases updated with flushes | waits
  · have within := flush_within ready (by rw [seen]; exact roomy)
    rw [withinBuffer, mtu] at within
    rw [flushes]
    exact within
  · rw [waits]
    exact if_pos (List.forall_mem_nil _)

/-! ## What each call keeps -/

/-- Segments that are given up leave room. -/
theorem release_roomy (session : View) (held : List Core) (receiving : Receive.Ikcpcb)
    (acklist : List (Word × Word)) (roomy : Roomy session) (kept : ∀ seg ∈ held, seg ∈ session.held)
    (own : receiving.conv = session.receiving.conv) :
    Roomy { session with held := held, receiving := receiving, acklist := acklist } := by
  refine ⟨⟨roomy.range, roomy.room, roomy.waiting, fun seg member => ?_⟩, roomy.whole, roomy.buffer⟩
  obtain ⟨conv, fits⟩ := roomy.kept seg (kept seg member)
  exact ⟨conv.trans own.symm, fits⟩

/-- No packet that arrives makes a segment longer. -/
theorem input_roomy (kcp : Ikcpcb) (data : List Byte) (roomy : Roomy (view kcp)) :
    Roomy (view (ikcpInput kcp data).1) := by
  refine input_any (fun kcp => Roomy (view kcp)) ?_ ?_ kcp data roomy
  · intro reading packet before
    obtain ⟨held, releases, seen⟩ := input_packet_view reading packet
    rw [seen]
    exact release_roomy _ held _ _ before releases.kept (input_segment_conv _ _ _)
  · intro kcp other same before
    rw [frame_view same]
    exact before

/-- Putting a message together keeps the number of the session. -/
theorem merge_loop_conv {size : Nat} (kcp : Receive.Ikcpcb) (buffer : Block size) (len : Nat)
    (queue : List Receive.Segment) (result : Receive.Ikcpcb × Block size × Nat)
    (merged : Receive.mergeLoop kcp buffer len queue = .ok result) : result.1.conv = kcp.conv := by
  induction queue generalizing kcp buffer len with
  | nil =>
    obtain rfl := Except.ok.inj merged
    rfl
  | cons seg rest inductionHypothesis =>
    rw [Receive.mergeLoop] at merged
    split at merged
    · cases merged
    dsimp only at merged
    split at merged
    · obtain rfl := Except.ok.inj merged
      rfl
    · exact inductionHypothesis { kcp with rcv_queue := rest, nrcv_que := kcp.nrcv_que - 1 } _ _ merged

/-- Taking a message keeps the number of the session. -/
theorem recv_conv {size : Nat} (kcp : Receive.Ikcpcb) (buffer : Block size) (len : Int)
    (result : Receive.Ikcpcb × Block size × Int) (received : Receive.ikcpRecv kcp buffer len = .ok result) :
    result.1.conv = kcp.conv := by
  unfold Receive.ikcpRecv at received
  split at received
  · obtain rfl := Except.ok.inj received
    rfl
  split at received
  · obtain rfl := Except.ok.inj received
    rfl
  split at received
  · obtain rfl := Except.ok.inj received
    rfl
  cases merged : Receive.mergeLoop kcp buffer 0 kcp.rcv_queue with
  | error fault =>
    rw [merged] at received
    cases received
  | ok outcome =>
    rw [merged] at received
    obtain rfl := Except.ok.inj received
    exact (move_loop_conv _ _).trans (merge_loop_conv kcp buffer 0 _ outcome merged)

/-- `ikcp_recv` into a buffer of the size that it is told returns, and leaves room. -/
theorem recv_roomy (kcp : Ikcpcb) (size : Nat) (roomy : Roomy (view kcp)) :
    ∃ after filled answer, ikcpRecv kcp (Block.uniform size 0) size = .ok (after, filled, answer) ∧
      Roomy (view after) := by
  obtain ⟨⟨received, filled, answer⟩, returned⟩ := (Receive.recv_returns_iff kcp.toIkcpcb
    (Block.uniform size 0) size).mpr (by omega)
  obtain ⟨after, called, seen⟩ := Messages.recv_view kcp _ _ received filled answer returned
  refine ⟨after, filled, answer, called, ?_⟩
  rw [seen]
  exact release_roomy (view kcp) _ received _ roomy (fun _ member => member) (recv_conv _ _ _ _ returned)

/-- A flush numbers segments that fit. -/
theorem flush_roomy (kcp : Ikcpcb) (roomy : Roomy (view kcp)) : Roomy (view (ikcpFlush kcp).1) := by
  obtain ⟨count, -, acklist, -, seen, -⟩ := flush_view kcp roomy.toFits
  rw [seen]
  have forgotten : Fits { view kcp with acklist := acklist } :=
    ⟨roomy.range, roomy.room, roomy.waiting, roomy.kept⟩
  exact ⟨number_fits _ forgotten count, roomy.whole, roomy.buffer⟩

/-- An update leaves room, whether it flushes or not. -/
theorem update_roomy (kcp : Ikcpcb) (current : Word) (roomy : Roomy (view kcp)) :
    Roomy (view (ikcpUpdate kcp current).1) := by
  obtain ⟨ready, same, updated⟩ := update_flushes kcp current
  have before : Roomy (view ready) := by
    rw [frame_view same]
    exact roomy
  rcases updated with flushes | waits
  · rw [flushes]
    exact flush_roomy ready before
  · rw [waits]
    exact before

/-- A queue whose parts fit. -/
theorem queue_roomy (session : View) (queue : List Fragment) (roomy : Roomy session)
    (parts : ∀ part ∈ queue, part.data.length ≤ session.mss.toNat) :
    Roomy { session with snd_queue := queue } := by
  have whole := roomy.whole
  refine ⟨⟨roomy.range, roomy.room, fun part member => ?_, roomy.kept⟩, whole, roomy.buffer⟩
  have short := parts part member
  dsimp only at short ⊢
  omega

/-- The parts of a roomy queue are not longer than `mss`. -/
theorem waiting_short (session : View) (roomy : Roomy session) (part : Fragment)
    (member : part ∈ session.snd_queue) : part.data.length ≤ session.mss.toNat := by
  have fits := roomy.waiting part member
  have whole := roomy.whole
  omega

/-- A message is cut into parts that fit. -/
theorem cut_message_short (mss : Nat) (stream : Word) (count : Nat) (message : List Byte) :
    ∀ part ∈ cutMessage mss stream count message, part.data.length ≤ mss := by
  induction count generalizing message with
  | zero => exact List.forall_mem_nil _
  | succ left inductionHypothesis =>
    exact List.forall_mem_cons.mpr ⟨List.length_take_le _ _, inductionHypothesis _⟩

/-- Putting the parts of a message into the queue leaves room. -/
theorem queue_parts_roomy (kcp : Ikcpcb) (buffer : List Byte) (roomy : Roomy (view kcp)) :
    Roomy (view (queueParts kcp buffer).1) := by
  unfold queueParts
  dsimp only
  split
  · exact roomy
  · refine queue_roomy (view kcp) _ roomy (List.forall_mem_append.mpr ⟨?_, ?_⟩)
    · exact waiting_short (view kcp) roomy
    · exact cut_message_short kcp.mss.toNat kcp.stream _ buffer

/-- In stream mode the last part is filled up to `mss`. -/
theorem fill_last_roomy (kcp : Ikcpcb) (buffer : List Byte) (roomy : Roomy (view kcp)) :
    Roomy (view (fillLast kcp buffer).1) := by
  unfold fillLast
  split
  · exact roomy
  case h_2 old last =>
    split
    case isFalse => exact roomy
    case isTrue less =>
      refine queue_roomy (view kcp) _ roomy (List.forall_mem_append.mpr ⟨?_, ?_⟩)
      · exact fun part member => waiting_short (view kcp) roomy part (List.mem_of_mem_dropLast member)
      · refine List.forall_mem_singleton.mpr ?_
        change (old.data ++ buffer.take _).length ≤ kcp.mss.toNat
        rw [List.length_append, List.length_take]
        omega

/-- `ikcp_send` leaves room in both modes. -/
theorem send_roomy (kcp : Ikcpcb) (buffer : List Byte) (roomy : Roomy (view kcp)) :
    Roomy (view (ikcpSend kcp buffer).1) := by
  unfold ikcpSend
  split
  · exact roomy
  split
  · have filled := fill_last_roomy kcp buffer roomy
    cases outcome : fillLast kcp buffer with
    | mk after rest =>
      rw [outcome] at filled
      dsimp only
      split
      · exact filled
      · exact queue_parts_roomy after rest filled
  · exact queue_parts_roomy kcp buffer roomy

end IotCamera.Kcp.OutputBuffer
