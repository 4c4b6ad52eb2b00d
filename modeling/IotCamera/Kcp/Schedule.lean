import IotCamera.Base.SerialNumbers
import IotCamera.Kcp.Ikcp

/-!
# When a KCP session has to be updated

`ikcp_update` is to be called every few milliseconds, or at the time that `ikcp_check`
returns. Before that time an update would only set the clock of the session, so a program
that sleeps until then sends the same datagrams as one that keeps calling.
-/

namespace IotCamera.Kcp.Schedule

open Memory Ikcp SerialNumbers
open Receive (itimediff)

/-- The updates of a session at some times, and the datagrams that they send. -/
def updates (kcp : Ikcpcb) : List Word → Ikcpcb × List (List Byte)
  | [] => (kcp, [])
  | current :: rest =>
    let (kcp, datagrams) := ikcpUpdate kcp current
    let (kcp, others) := updates kcp rest
    (kcp, datagrams ++ others)

/-- An update sets the clock first, so it does not matter what it said before. -/
theorem update_clock (kcp : Ikcpcb) (before current : Word) :
    ikcpUpdate { kcp with current := before } current = ikcpUpdate kcp current := rfl

/-- The two differences of two times that are near each other. -/
theorem itimediff_symm (first second : Word) (least : -10000 ≤ itimediff first second)
    (negative : itimediff first second < 0) : itimediff second first = -itimediff first second := by
  unfold itimediff at *
  have one := BitVec.toInt_eq_toNat_cond (first - second)
  have two := BitVec.toInt_eq_toNat_cond (second - first)
  have below := first.isLt
  have under := second.isLt
  rw [BitVec.toNat_sub] at one two
  split at one <;> split at two <;> omega

/-- The time to the first segment is positive. -/
theorem packet_time_positive (current : Word) (segments : List Segment) (tm_packet least : Int)
    (positive : 0 < tm_packet) (found : packetTime current tm_packet segments = some least) : 0 < least := by
  induction segments generalizing tm_packet with
  | nil =>
    obtain rfl := Option.some.inj found
    exact positive
  | cons seg rest inductionHypothesis =>
    rw [packetTime] at found
    split at found
    · cases found
    case isFalse later =>
      refine inductionHypothesis _ ?_ found
      split
      · omega
      · exact positive

/-- A time before the one that `ikcp_check` returns is before the next flush, and not far
from it. -/
theorem check_before_flush (kcp : Ikcpcb) (current : Word) (elapsed : Nat)
    (early : elapsed < offset current (ikcpCheck kcp current)) :
    kcp.updated ≠ 0 ∧ 0 < itimediff kcp.ts_flush current ∧ itimediff kcp.ts_flush current ≤ 10000 ∧
      elapsed < itimediff kcp.ts_flush current := by
  have now : ¬ elapsed < offset current current := by
    rw [offset_self]
    exact Nat.not_lt_zero _
  unfold ikcpCheck at early
  split at early
  · exact absurd early now
  case isFalse updated =>
  dsimp only at early
  by_cases late : 10000 ≤ itimediff current kcp.ts_flush ∨ itimediff current kcp.ts_flush < -10000
  · have same : itimediff current current = 0 := by simp [itimediff]
    rw [if_pos late, same, if_pos (Int.le_refl 0)] at early
    exact absurd early now
  rw [if_neg late] at early
  by_cases due : 0 ≤ itimediff current kcp.ts_flush
  · rw [if_pos due] at early
    exact absurd early now
  rw [if_neg due] at early
  have symm := itimediff_symm current kcp.ts_flush (by omega) (by omega)
  refine ⟨updated, by omega, by omega, ?_⟩
  split at early
  · exact absurd early now
  case h_2 tm_packet found =>
  have positive := packet_time_positive current kcp.snd_buf _ tm_packet (by decide) found
  have least : ((BitVec.ofInt 32 (if tm_packet < itimediff kcp.ts_flush current then tm_packet
      else itimediff kcp.ts_flush current)).toNat : Int) ≤ itimediff kcp.ts_flush current := by
    rw [BitVec.toNat_ofInt]
    split <;> omega
  generalize BitVec.ofInt 32 (if tm_packet < itimediff kcp.ts_flush current then tm_packet
    else itimediff kcp.ts_flush current) = minimal at early least
  rw [offset, add_sub_cancel_left] at early
  have most : (if kcp.interval ≤ minimal then kcp.interval else minimal).toNat ≤ minimal.toNat := by
    split
    case isTrue short => exact BitVec.le_def.mp short
    case isFalse => exact Nat.le_refl _
  omega

/-- Before the time that `ikcp_check` returns, an update only sets the clock. -/
theorem update_early (kcp : Ikcpcb) (current time : Word)
    (early : offset current time < offset current (ikcpCheck kcp current)) :
    ikcpUpdate kcp time = ({ kcp with current := time }, []) := by
  obtain ⟨updated, positive, near, before⟩ := check_before_flush kcp current _ early
  have flush : itimediff kcp.ts_flush current = offset current kcp.ts_flush :=
    distance_eq_offset current kcp.ts_flush (Int.le_of_lt positive)
  have apart : itimediff time kcp.ts_flush = offset current time - offset current kcp.ts_flush :=
    distance_offset current time kcp.ts_flush (by omega) (by omega)
  have punctual : ¬ (10000 ≤ itimediff time kcp.ts_flush ∨ itimediff time kcp.ts_flush < -10000) := by omega
  have waits : ¬ ((10000 ≤ itimediff time kcp.ts_flush ∨ itimediff time kcp.ts_flush < -10000) ∨
      0 ≤ itimediff time kcp.ts_flush) := by omega
  simp only [ikcpUpdate, if_neg updated, if_neg punctual, if_neg waits]

/-- Calls before the time that `ikcp_check` returns can be left out: a later update then
sends the same datagrams and leaves the same session. -/
theorem check_skips_updates (kcp : Ikcpcb) (current : Word) (times : List Word) (later : Word)
    (early : ∀ time ∈ times, offset current time < offset current (ikcpCheck kcp current)) :
    updates kcp (times ++ [later]) = updates kcp [later] := by
  have clock : ∀ before, updates { kcp with current := before } (times ++ [later]) = updates kcp [later] := by
    induction times with
    | nil => exact fun before => rfl
    | cons time rest inductionHypothesis =>
      obtain ⟨first, others⟩ := List.forall_mem_cons.mp early
      intro before
      have sets := update_early kcp current time first
      rw [List.cons_append, updates, update_clock, sets]
      dsimp only
      rw [inductionHypothesis others time]
      rfl
  exact clock kcp.current

/-- A session with a message to send, after its first update. It is flushed next at time
100. -/
def waitingSession : Ikcpcb := (ikcpUpdate (ikcpSend (ikcpCreate 1) [7, 8]).1 0).1

/-- It need not be updated before, and then sends the message in one datagram. -/
theorem check_skips_first_interval :
    ikcpCheck waitingSession 10 = 100 ∧
      updates waitingSession ([20, 50, 99] ++ [130]) = updates waitingSession [130] ∧
      (updates waitingSession [130]).2.map List.length = [26] := by
  have checked : ikcpCheck waitingSession 10 = 100 := by decide +kernel
  refine ⟨checked, check_skips_updates waitingSession 10 [20, 50, 99] 130 ?_, by decide +kernel⟩
  rw [checked]
  simp [offset]

end IotCamera.Kcp.Schedule
