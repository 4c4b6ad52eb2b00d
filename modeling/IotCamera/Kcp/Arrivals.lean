import IotCamera.Base.SerialNumbers
import IotCamera.Kcp.Flushing

/-!
# What a KCP session has received

A sender has numbered the segments of its messages from zero on. The receiving side of
its peer has moved the first of them to its queue, in order and each once, and keeps
others of them in its buffer until those before them are there. A number has arrived when
its segment was moved or is kept. Arrivals are never undone.

Numbers are compared by the sign of their difference, which is right as long as there are
fewer than `2 ^ 31` of them.
-/

namespace IotCamera.Kcp.Arrivals

open Memory Ikcp
open Receive (itimediff moveLoop moveAvailable insertFromBack ikcpParseData inputSegment IKCP_CMD_PUSH)

/-- What a segment carries. -/
def fragment (seg : Receive.Segment) : Fragment := ⟨seg.frg, seg.data⟩

/-- The segment with a number was moved to the queue or is kept. -/
def Arrived (kcp : Receive.Ikcpcb) (sn : Word) : Prop :=
  sn.toNat < kcp.rcv_nxt.toNat ∨ ∃ seg ∈ kcp.rcv_buf, seg.sn = sn

/-- The segments that were taken and those of the queue are the first ones of the sender.
The others that are kept are its, too. -/
structure Receiving (items : List Fragment) (limit : Nat) (taken : List Fragment)
    (kcp : Receive.Ikcpcb) : Prop where
  order : taken ++ kcp.rcv_queue.map fragment = items.take kcp.rcv_nxt.toNat
  reached : kcp.rcv_nxt.toNat ≤ limit
  genuine : ∀ seg ∈ kcp.rcv_buf, seg.sn.toNat < limit ∧ items[seg.sn.toNat]? = some (fragment seg)
  counted : kcp.nrcv_que.toNat = kcp.rcv_queue.length

/-- Nothing that has arrived is forgotten. -/
structure Progress (before after : Receive.Ikcpcb) : Prop where
  next : before.rcv_nxt.toNat ≤ after.rcv_nxt.toNat
  arrived : ∀ sn, Arrived before sn → Arrived after sn

/-- Doing nothing is no step back. -/
theorem progress_refl (kcp : Receive.Ikcpcb) : Progress kcp kcp :=
  ⟨Nat.le_refl _, fun _ arrived => arrived⟩

/-- Progress and further progress is progress. -/
theorem Progress.trans {first second third : Receive.Ikcpcb} (earlier : Progress first second)
    (later : Progress second third) : Progress first third :=
  ⟨Nat.le_trans earlier.next later.next, fun sn arrived => later.arrived sn (earlier.arrived sn arrived)⟩

/-- Numbers below half of all compare like themselves. -/
theorem itimediff_small (later earlier : Word) (near : later.toNat < 2 ^ 31) (close : earlier.toNat < 2 ^ 31) :
    itimediff later earlier = later.toNat - earlier.toNat := by
  have base : ∀ number : Word, SerialNumbers.offset 0 number = number.toNat := by
    intro number
    rw [SerialNumbers.offset, sub_zero]
  have compared := SerialNumbers.distance_offset 0 later earlier (by rw [base]; omega) (by rw [base]; omega)
  rw [base, base] at compared
  exact compared

/-- Below 2^31 the next number does not wrap. -/
theorem next_number (number : Word) (below : number.toNat < 2 ^ 31) :
    (number + 1).toNat = number.toNat + 1 := by
  have one : (1 : Word).toNat = 1 := rfl
  rw [BitVec.toNat_add, one]
  exact Nat.mod_eq_of_lt (by omega)

section Receiver
variable {items : List Fragment} {limit : Nat} (bounded : limit < 2 ^ 31)

include bounded

/-- Moving segments to the queue keeps their order. -/
theorem move_loop_receiving (buf : List Receive.Segment) (taken : List Fragment) (kcp : Receive.Ikcpcb)
    (receiving : Receiving items limit taken { kcp with rcv_buf := buf }) :
    Receiving items limit taken (moveLoop kcp buf) ∧ Progress { kcp with rcv_buf := buf } (moveLoop kcp buf) := by
  induction buf generalizing kcp with
  | nil => exact ⟨receiving, progress_refl _⟩
  | cons seg rest inductionHypothesis =>
    rw [moveLoop]
    by_cases next : seg.sn = kcp.rcv_nxt ∧ kcp.nrcv_que < kcp.rcv_wnd
    · rw [if_pos next]
      obtain ⟨order, reached, genuine, counted⟩ := receiving
      obtain ⟨⟨below, found⟩, others⟩ := List.forall_mem_cons.mp genuine
      rw [next.1] at below found
      have more : (kcp.rcv_nxt + 1).toNat = kcp.rcv_nxt.toNat + 1 := next_number _ (by omega)
      have length : kcp.rcv_queue.length ≤ kcp.rcv_nxt.toNat := by
        have sizes := congrArg List.length order
        rw [List.length_append, List.length_map, List.length_take] at sizes
        dsimp only at sizes
        omega
      have counts : (kcp.nrcv_que + 1).toNat = kcp.nrcv_que.toNat + 1 := by
        refine next_number _ ?_
        dsimp only at counted
        omega
      obtain ⟨moved, progress⟩ := inductionHypothesis
        { kcp with
          nrcv_buf := kcp.nrcv_buf - 1
          rcv_queue := kcp.rcv_queue ++ [seg]
          nrcv_que := kcp.nrcv_que + 1
          rcv_nxt := kcp.rcv_nxt + 1 }
        { order := by
            simp only [List.map_append, List.map_singleton, more]
            rw [List.take_add_one, found, ← List.append_assoc]
            exact congrArg (· ++ [fragment seg]) order
          reached := by simp only [more]; omega
          genuine := others
          counted := by
            simp only [counts, List.length_append, List.length_singleton]
            exact congrArg (· + 1) counted }
      refine ⟨moved, Progress.trans ⟨by simp only [more]; omega, ?_⟩ progress⟩
      rintro sn (moved | ⟨other, member, rfl⟩)
      · exact .inl (by simp only [more] at moved ⊢; omega)
      · rcases List.mem_cons.mp member with rfl | later
        · exact .inl (by simp only [more, next.1]; omega)
        · exact .inr ⟨other, later, rfl⟩
    · rw [if_neg next]
      exact ⟨receiving, progress_refl _⟩

/-- Moving segments to the queue keeps what is received in order. -/
theorem move_available_receiving (taken : List Fragment) (kcp : Receive.Ikcpcb)
    (receiving : Receiving items limit taken kcp) :
    Receiving items limit taken (moveAvailable kcp) ∧ Progress kcp (moveAvailable kcp) :=
  move_loop_receiving bounded kcp.rcv_buf taken kcp receiving

end Receiver

/-- A segment that finds no place in the buffer is there already. -/
theorem insert_from_back_none (newseg : Receive.Segment) (buf : List Receive.Segment)
    (refused : insertFromBack newseg buf = none) : ∃ seg ∈ buf, seg.sn = newseg.sn := by
  induction buf with
  | nil => cases refused
  | cons seg earlier inductionHypothesis =>
    rw [insertFromBack] at refused
    split at refused
    case isTrue same => exact ⟨seg, List.mem_cons_self, same⟩
    case isFalse =>
      split at refused
      · cases refused
      · obtain ⟨other, member, same⟩ := inductionHypothesis (Option.map_eq_none_iff.mp refused)
        exact ⟨other, List.mem_cons_of_mem _ member, same⟩

/-- A segment that finds its place is in the buffer, with all that were there. -/
theorem insert_from_back_some (newseg : Receive.Segment) (buf inserted : List Receive.Segment)
    (found : insertFromBack newseg buf = some inserted) :
    newseg ∈ inserted ∧ ∀ seg ∈ buf, seg ∈ inserted := by
  induction buf generalizing inserted with
  | nil =>
    obtain rfl := Option.some.inj found
    exact ⟨List.mem_singleton_self _, List.forall_mem_nil _⟩
  | cons seg earlier inductionHypothesis =>
    rw [insertFromBack] at found
    split at found
    · cases found
    split at found
    · obtain rfl := Option.some.inj found
      exact ⟨List.mem_cons_self, fun other member => List.mem_cons_of_mem _ member⟩
    · obtain ⟨shorter, below, rfl⟩ := Option.map_eq_some_iff.mp found
      obtain ⟨new, old⟩ := inductionHypothesis shorter below
      refine ⟨List.mem_cons_of_mem _ new, fun other member => ?_⟩
      rcases List.mem_cons.mp member with rfl | later
      · exact List.mem_cons_self
      · exact List.mem_cons_of_mem _ (old other later)

section Receiver
variable {items : List Fragment} {limit : Nat} (bounded : limit < 2 ^ 31)

include bounded

/-- A segment of the sender is kept, once, and what is next is moved. -/
theorem parse_data_receiving (taken : List Fragment) (kcp : Receive.Ikcpcb) (newseg : Receive.Segment)
    (below : newseg.sn.toNat < limit) (genuine : items[newseg.sn.toNat]? = some (fragment newseg))
    (inside : ¬ (0 ≤ itimediff newseg.sn (kcp.rcv_nxt + kcp.rcv_wnd) ∨ itimediff newseg.sn kcp.rcv_nxt < 0))
    (receiving : Receiving items limit taken kcp) :
    Receiving items limit taken (ikcpParseData kcp newseg) ∧ Progress kcp (ikcpParseData kcp newseg) ∧
      Arrived (ikcpParseData kcp newseg) newseg.sn := by
  rw [ikcpParseData, if_neg inside]
  cases found : insertFromBack newseg kcp.rcv_buf.reverse with
  | none =>
    obtain ⟨seg, member, same⟩ := insert_from_back_none newseg _ found
    obtain ⟨moved, progress⟩ := move_available_receiving bounded taken kcp receiving
    exact ⟨moved, progress, progress.arrived _ (.inr ⟨seg, List.mem_reverse.mp member, same⟩)⟩
  | some inserted =>
    obtain ⟨new, old⟩ := insert_from_back_some newseg _ inserted found
    have members := Receive.insert_from_back_members newseg _ inserted found
    obtain ⟨moved, progress⟩ := move_available_receiving bounded taken
      { kcp with rcv_buf := inserted.reverse, nrcv_buf := kcp.nrcv_buf + 1 }
      { order := receiving.order
        reached := receiving.reached
        genuine := by
          intro seg member
          rcases members seg (List.mem_reverse.mp member) with rfl | earlier
          · exact ⟨below, genuine⟩
          · exact receiving.genuine seg (List.mem_reverse.mp earlier)
        counted := receiving.counted }
    have inserts : Progress kcp { kcp with rcv_buf := inserted.reverse, nrcv_buf := kcp.nrcv_buf + 1 } := by
      refine ⟨Nat.le_refl _, ?_⟩
      rintro sn (moved | ⟨seg, member, same⟩)
      · exact .inl moved
      · exact .inr ⟨seg, List.mem_reverse.mpr (old seg (List.mem_reverse.mpr member)), same⟩
    exact ⟨moved, inserts.trans progress,
      progress.arrived _ (.inr ⟨newseg, List.mem_reverse.mpr new, rfl⟩)⟩

/-- A packet of data from the sender is kept if it is in the window; when it is before the
end of the window, it has arrived then. -/
theorem input_segment_receiving (taken : List Fragment) (kcp : Receive.Ikcpcb) (cmd : Byte)
    (newseg : Receive.Segment)
    (genuine : cmd = IKCP_CMD_PUSH →
      newseg.sn.toNat < limit ∧ items[newseg.sn.toNat]? = some (fragment newseg))
    (receiving : Receiving items limit taken kcp) :
    Receiving items limit taken (inputSegment kcp cmd newseg) ∧ Progress kcp (inputSegment kcp cmd newseg) ∧
      (cmd = IKCP_CMD_PUSH → itimediff newseg.sn (kcp.rcv_nxt + kcp.rcv_wnd) < 0 →
        Arrived (inputSegment kcp cmd newseg) newseg.sn) := by
  unfold inputSegment
  by_cases inside : cmd = IKCP_CMD_PUSH ∧ itimediff newseg.sn (kcp.rcv_nxt + kcp.rcv_wnd) < 0 ∧
      0 ≤ itimediff newseg.sn kcp.rcv_nxt
  · rw [if_pos inside]
    obtain ⟨push, before, behind⟩ := inside
    obtain ⟨below, found⟩ := genuine push
    obtain ⟨kept, progress, arrived⟩ := parse_data_receiving bounded taken kcp newseg below found
      (by omega) receiving
    exact ⟨kept, progress, fun _ _ => arrived⟩
  · rw [if_neg inside]
    refine ⟨receiving, progress_refl kcp, fun push before => .inl ?_⟩
    have old : itimediff newseg.sn kcp.rcv_nxt < 0 := by
      by_contra new
      exact inside ⟨push, before, by omega⟩
    have below := (genuine push).1
    have reached := receiving.reached
    rw [itimediff_small _ _ (by omega) (by omega)] at old
    omega

end Receiver

end IotCamera.Kcp.Arrivals
