import Mathlib.Data.BitVec
import IotCamera.Kcp.Effects

/-!
# What a flush sends

A flush acknowledges everything that is due, numbers segments that wait, and sends those
of the kept segments whose time has come. It never says anything else: every packet is an
acknowledgement that was due, a question or an answer about the window, or a segment that
is kept.
-/

namespace IotCamera.Kcp.Flushing

open Memory Ikcp Wire Effects
open Receive (IKCP_CMD_PUSH IKCP_CMD_ACK IKCP_CMD_WASK IKCP_CMD_WINS IKCP_OVERHEAD itimediff)

/-- Segments with consecutive numbers. -/
def numbered (conv : Word) : Word → List Fragment → List Core
  | _, [] => []
  | sn, part :: rest => ⟨conv, promote IKCP_CMD_PUSH, part.frg, sn, part.data⟩ :: numbered conv (sn + 1) rest

/-- What is transferred when the first segments that wait are numbered. -/
def number (session : View) (count : Nat) : View :=
  { session with
    held := session.held ++ numbered session.receiving.conv session.snd_nxt (session.snd_queue.take count)
    snd_nxt := session.snd_nxt + BitVec.ofNat 32 count
    snd_queue := session.snd_queue.drop count }

/-- The same with the counters. -/
def numberFrame (session : Frame) (count : Nat) : Frame :=
  { session with
    toView := number session.toView count
    nsnd_que := session.nsnd_que - BitVec.ofNat 32 count
    nsnd_buf := session.nsnd_buf + BitVec.ofNat 32 count }

/-- Numbering no segment changes nothing. -/
theorem number_zero (session : Frame) : numberFrame session 0 = session := by
  simp [numberFrame, number, numbered]

/-- The kinds of packets that a session sends. -/
inductive Says (session : View) (acklist : List (Word × Word)) (packet : Packet) : Prop where
  | ack (cmd : packet.cmd = IKCP_CMD_ACK) (empty : packet.data = [])
      (due : ∃ ack ∈ acklist, ack.1 = packet.sn)
  | window (cmd : packet.cmd = IKCP_CMD_WASK ∨ packet.cmd = IKCP_CMD_WINS) (empty : packet.data = [])
  | push (seg : Core) (kept : seg ∈ session.held) (cmd : packet.cmd = low seg.cmd)
      (frg : packet.frg = low seg.frg) (sn : packet.sn = seg.sn) (data : packet.data = seg.data)

/-- Every packet has the number of the session and the lowest number that it waits for. -/
structure Sent (session : View) (acklist : List (Word × Word)) (packet : Packet) : Prop where
  conv : packet.conv = session.receiving.conv
  una : packet.una = session.receiving.rcv_nxt
  kind : Says session acklist packet

/-- As many segments are numbered as the window allows. -/
structure Allows (session : Frame) (cwnd : Word) (count : Nat) : Prop where
  inside : count ≤ session.snd_queue.length
  before : ∀ index < count, itimediff (session.snd_nxt + BitVec.ofNat 32 index) (session.snd_una + cwnd) < 0
  full : count < session.snd_queue.length →
    ¬ itimediff (session.snd_nxt + BitVec.ofNat 32 count) (session.snd_una + cwnd) < 0

/-- Counting on from the next number counts one more from this one. -/
theorem following (number : Word) (count : Nat) :
    number + 1 + BitVec.ofNat 32 count = number + BitVec.ofNat 32 (count + 1) := by
  rw [Nat.add_comm, BitVec.ofNat_add, BitVec.add_assoc]
  rfl

/-- The loop numbers as many of the segments that wait as the window allows. -/
theorem number_loop_frame (cwnd wnd : Word) (queue : List Fragment) (kcp : Ikcpcb) :
    ∃ count, Allows { frame kcp with snd_queue := queue } cwnd count ∧
      frame (numberLoop kcp cwnd wnd queue) = numberFrame { frame kcp with snd_queue := queue } count := by
  induction queue generalizing kcp with
  | nil =>
    refine ⟨0, ⟨Nat.le_refl 0, fun index below => absurd below (Nat.not_lt_zero _), fun more => ?_⟩, ?_⟩
    · exact absurd more (Nat.lt_irrefl 0)
    · rw [number_zero]
      rfl
  | cons part rest inductionHypothesis =>
    rw [numberLoop]
    split
    case isTrue first =>
      obtain ⟨count, ⟨inside, before, full⟩, seen⟩ := inductionHypothesis
        { kcp with
          snd_buf := kcp.snd_buf ++ [⟨kcp.conv, promote IKCP_CMD_PUSH, part.frg, wnd, kcp.current, kcp.snd_nxt,
            kcp.rcv_nxt, part.data, kcp.current, kcp.rx_rto, 0, 0⟩]
          nsnd_que := kcp.nsnd_que - 1
          nsnd_buf := kcp.nsnd_buf + 1
          snd_nxt := kcp.snd_nxt + 1 }
      refine ⟨count + 1, ⟨Nat.succ_le_succ inside, ?_, ?_⟩, seen.trans ?_⟩
      · intro index below
        cases index with
        | zero =>
          rw [BitVec.add_zero]
          exact first
        | succ index =>
          rw [← following]
          exact before index (Nat.lt_of_succ_lt_succ below)
      · intro more
        rw [← following]
        exact full (Nat.lt_of_succ_lt_succ more)
      · have fewer : kcp.nsnd_que - 1 - BitVec.ofNat 32 count = kcp.nsnd_que - BitVec.ofNat 32 (count + 1) := by
          rw [BitVec.ofNat_add count 1, sub_add_eq_sub_sub]
          exact sub_right_comm _ _ _
        simp only [numberFrame, number, frame, view, numbered, List.take_succ_cons, List.drop_succ_cons,
          List.map_append, List.map_singleton, List.append_assoc, List.singleton_append, following, fewer]
        rfl
    case isFalse beyond =>
      refine ⟨0, ⟨Nat.zero_le _, fun index below => absurd below (Nat.not_lt_zero _), fun _ => ?_⟩, ?_⟩
      · rw [BitVec.add_zero]
        exact beyond
      · rw [number_zero]
        rfl

/-- A segment that is due keeps what does not change. -/
theorem due_segment_core (kcp : Ikcpcb) (resent rtomin : Word) (segment due : Segment)
    (found : dueSegment kcp resent rtomin segment = some due) : core due = core segment := by
  unfold dueSegment at found
  split at found
  · obtain rfl := Option.some.inj found
    rfl
  split at found
  · obtain rfl := Option.some.inj found
    rfl
  split at found
  · obtain rfl := Option.some.inj found
    rfl
  · cases found

/-- A pass keeps the segment. -/
theorem send_segment_frame (wnd resent rtomin : Word) (flushing : Flushing) (segment : Segment) :
    ∃ passed : Segment, core passed = core segment ∧
      (sendSegment wnd resent rtomin flushing segment).passed = flushing.passed ++ [passed] ∧
      frame (sendSegment wnd resent rtomin flushing segment).kcp = frame flushing.kcp := by
  cases found : dueSegment flushing.kcp resent rtomin segment with
  | none =>
    have stays : sendSegment wnd resent rtomin flushing segment =
        { flushing with passed := flushing.passed ++ [segment] } := by
      simp only [sendSegment, found]
    rw [stays]
    exact ⟨segment, rfl, rfl, rfl⟩
  | some due =>
    have same := due_segment_core flushing.kcp resent rtomin segment due found
    simp only [sendSegment, found]
    refine ⟨_, ?_, rfl, rfl⟩
    exact same

/-- The loop over the kept segments keeps all of them, and the frame of the session. -/
theorem send_segments_frame (wnd resent rtomin : Word) (segments : List Segment) (flushing : Flushing) :
    frame (segments.foldl (sendSegment wnd resent rtomin) flushing).kcp = frame flushing.kcp ∧
      (segments.foldl (sendSegment wnd resent rtomin) flushing).passed.map core =
        flushing.passed.map core ++ segments.map core := by
  induction segments generalizing flushing with
  | nil => exact ⟨rfl, (List.append_nil _).symm⟩
  | cons segment rest inductionHypothesis =>
    obtain ⟨passed, same, appended, seen⟩ := send_segment_frame wnd resent rtomin flushing segment
    have rest := inductionHypothesis (sendSegment wnd resent rtomin flushing segment)
    rw [seen, appended, List.map_append, List.append_assoc, List.map_singleton, same] at rest
    exact rest

/-- A pass sends the segment or nothing. -/
theorem send_segment_sound (wnd resent rtomin : Word) (Kind : Packet → Prop) (flushing : Flushing)
    (segment : Segment) (range : flushing.kcp.mtu.toNat < 2 ^ 31)
    (fits : IKCP_OVERHEAD + segment.data.length ≤ flushing.kcp.mtu.toNat)
    (kind : ∀ sent : Segment, core sent = core segment → sent.una = flushing.kcp.rcv_nxt →
      Kind (packetOf sent))
    (sound : Sound flushing.kcp.mtu.toNat Kind flushing.output) :
    Sound flushing.kcp.mtu.toNat Kind (sendSegment wnd resent rtomin flushing segment).output := by
  cases found : dueSegment flushing.kcp resent rtomin segment with
  | none =>
    simp only [sendSegment, found]
    exact sound
  | some due =>
    simp only [sendSegment, found]
    have same := due_segment_core flushing.kcp resent rtomin segment due found
    have data : due.data = segment.data := congrArg Core.data same
    exact put_sound flushing.kcp.mtu Kind flushing.output _ sound range (by rw [← data] at fits; exact fits)
      (kind _ same rfl)

/-- The loop over the kept segments sends some of them. -/
theorem send_segments_sound (wnd resent rtomin : Word) (Kind : Packet → Prop) (segments : List Segment)
    (flushing : Flushing) (range : flushing.kcp.mtu.toNat < 2 ^ 31)
    (fits : ∀ segment ∈ segments, IKCP_OVERHEAD + segment.data.length ≤ flushing.kcp.mtu.toNat)
    (kinds : ∀ segment ∈ segments, ∀ sent : Segment, core sent = core segment →
      sent.una = flushing.kcp.rcv_nxt → Kind (packetOf sent))
    (sound : Sound flushing.kcp.mtu.toNat Kind flushing.output) :
    Sound flushing.kcp.mtu.toNat Kind (segments.foldl (sendSegment wnd resent rtomin) flushing).output := by
  induction segments generalizing flushing with
  | nil => exact sound
  | cons segment rest inductionHypothesis =>
    obtain ⟨room, rooms⟩ := List.forall_mem_cons.mp fits
    obtain ⟨kind, others⟩ := List.forall_mem_cons.mp kinds
    have put := send_segment_sound wnd resent rtomin Kind flushing segment range room kind sound
    obtain ⟨-, -, -, seen⟩ := send_segment_frame wnd resent rtomin flushing segment
    have mtu : (sendSegment wnd resent rtomin flushing segment).kcp.mtu = flushing.kcp.mtu :=
      congrArg (fun session => session.mtu) seen
    have next : (sendSegment wnd resent rtomin flushing segment).kcp.rcv_nxt = flushing.kcp.rcv_nxt :=
      congrArg (fun session => session.receiving.rcv_nxt) seen
    have rest := inductionHypothesis (sendSegment wnd resent rtomin flushing segment)
      (by rw [mtu]; exact range) (by rw [mtu]; exact rooms) (by rw [next]; exact others)
      (by rw [mtu]; exact put)
    rw [mtu] at rest
    exact rest

/-! ## Acknowledgements and windows -/

/-- The local segment of a flush. -/
structure Local (kcp : Ikcpcb) (seg : Segment) : Prop where
  conv : seg.conv = kcp.conv
  una : seg.una = kcp.rcv_nxt
  data : seg.data = []

/-- The local segment of a flush speaks for the session and has no data. -/
theorem ack_segment_local (kcp : Ikcpcb) : Local kcp (ackSegment kcp) := ⟨rfl, rfl, rfl⟩

/-- A packet has the command of its segment. -/
theorem packet_command (seg : Segment) (cmd : Byte) (same : seg.cmd = promote cmd) :
    (packetOf seg).cmd = cmd := by
  have back : (packetOf seg).cmd = low (promote cmd) := congrArg low same
  rw [back, low, promote]
  simp

/-- What can be said of the local segment and the output between two commands. -/
structure Written (kcp : Ikcpcb) (Kind : Packet → Prop) (state : Segment × Output) : Prop where
  here : Local kcp state.1
  sound : Sound kcp.mtu.toNat Kind state.2

/-- A command without data can be written into any buffer. -/
theorem put_local (kcp : Ikcpcb) (Kind : Packet → Prop) (output : Output) (seg : Segment)
    (range : kcp.mtu.toNat < 2 ^ 31) (room : IKCP_OVERHEAD ≤ kcp.mtu.toNat)
    (here : Local kcp seg) (sound : Sound kcp.mtu.toNat Kind output) (kind : Kind (packetOf seg)) :
    Written kcp Kind (seg, output.put kcp.mtu seg) :=
  ⟨here, put_sound kcp.mtu Kind output seg sound range (by rw [here.data]; exact room) kind⟩

/-- Writing the acknowledgements that are due keeps the output sound. -/
theorem put_acks (kcp : Ikcpcb) (Kind : Packet → Prop) (range : kcp.mtu.toNat < 2 ^ 31)
    (room : IKCP_OVERHEAD ≤ kcp.mtu.toNat) (acks : List (Word × Word)) (state : Segment × Output)
    (kinds : ∀ seg, Local kcp seg → seg.cmd = promote IKCP_CMD_ACK → (∃ ack ∈ acks, ack.1 = seg.sn) →
      Kind (packetOf seg))
    (cmd : state.1.cmd = promote IKCP_CMD_ACK) (written : Written kcp Kind state) :
    Written kcp Kind (acks.foldl (putAck kcp.mtu) state) := by
  induction acks generalizing state with
  | nil => exact written
  | cons ack rest inductionHypothesis =>
    have here : Local kcp { state.1 with sn := ack.1, ts := ack.2 } :=
      ⟨written.here.conv, written.here.una, written.here.data⟩
    refine inductionHypothesis _ ?_ cmd (put_local kcp Kind state.2 _ range room here written.sound
      (kinds _ here cmd ⟨ack, List.mem_cons_self, rfl⟩))
    rintro seg inside same ⟨later, member, number⟩
    exact kinds seg inside same ⟨later, List.mem_cons_of_mem _ member, number⟩

/-- Writing a command about the window keeps it sound, whether it is asked for or not. -/
theorem put_command (kcp : Ikcpcb) (Kind : Packet → Prop) (range : kcp.mtu.toNat < 2 ^ 31)
    (room : IKCP_OVERHEAD ≤ kcp.mtu.toNat) (asked : Word) (cmd : Byte) (state : Segment × Output)
    (kinds : ∀ seg, Local kcp seg → seg.cmd = promote cmd → Kind (packetOf seg))
    (written : Written kcp Kind state) : Written kcp Kind (putCommand kcp.mtu asked cmd state) := by
  have here : Local kcp { state.1 with cmd := promote cmd } :=
    ⟨written.here.conv, written.here.una, written.here.data⟩
  unfold putCommand
  split
  · exact put_local kcp Kind state.2 _ range room here written.sound (kinds _ here rfl)
  · exact written

/-- The first part of a flush forgets the acknowledgements and changes nothing else. -/
theorem flush_acks_frame (kcp : Ikcpcb) : frame (flushAcks kcp).1 = { frame kcp with acklist := [] } :=
  probe_window_frame { kcp with acklist := [] }

/-- The first part of a flush tells the peer what is due, and what there is about windows. -/
theorem flush_acks_sound (kcp : Ikcpcb) (Kind : Packet → Prop) (range : kcp.mtu.toNat < 2 ^ 31)
    (room : IKCP_OVERHEAD ≤ kcp.mtu.toNat)
    (acks : ∀ seg, Local kcp seg → seg.cmd = promote IKCP_CMD_ACK → (∃ ack ∈ kcp.acklist, ack.1 = seg.sn) →
      Kind (packetOf seg))
    (windows : ∀ seg, Local kcp seg →
      seg.cmd = promote IKCP_CMD_WASK ∨ seg.cmd = promote IKCP_CMD_WINS → Kind (packetOf seg)) :
    Sound kcp.mtu.toNat Kind (flushAcks kcp).2 := by
  have mtu : (probeWindow { kcp with acklist := [] }).mtu = kcp.mtu :=
    congrArg View.mtu (frame_view (probe_window_frame _))
  have acked := put_acks kcp Kind range room kcp.acklist (ackSegment kcp, ⟨[], []⟩) acks rfl
    ⟨ack_segment_local kcp, sound_empty _ _⟩
  have asked := fun value => put_command kcp Kind range room value IKCP_CMD_WASK _
    (fun seg here same => windows seg here (.inl same)) acked
  have told := fun value other => put_command kcp Kind range room value IKCP_CMD_WINS _
    (fun seg here same => windows seg here (.inr same)) (asked other)
  simp only [flushAcks, mtu]
  exact (told _ _).sound

/-! ## A whole flush -/

/-- A numbered segment is of the session and has the data of a part that waited. -/
theorem numbered_member (conv sn : Word) (parts : List Fragment) (seg : Core)
    (member : seg ∈ numbered conv sn parts) : seg.conv = conv ∧ ∃ part ∈ parts, seg.data = part.data := by
  induction parts generalizing sn with
  | nil => cases member
  | cons part rest inductionHypothesis =>
    rcases List.mem_cons.mp member with rfl | later
    · exact ⟨rfl, part, List.mem_cons_self, rfl⟩
    · obtain ⟨own, other, inside, same⟩ := inductionHypothesis (sn + 1) later
      exact ⟨own, other, List.mem_cons_of_mem _ inside, same⟩

/-- Every segment that waits or is kept fits into a datagram, and the kept ones are of this
session. -/
structure Fits (session : View) : Prop where
  range : session.mtu.toNat < 2 ^ 31
  room : IKCP_OVERHEAD ≤ session.mtu.toNat
  waiting : ∀ part ∈ session.snd_queue, IKCP_OVERHEAD + part.data.length ≤ session.mtu.toNat
  kept : ∀ seg ∈ session.held, seg.conv = session.receiving.conv ∧
    IKCP_OVERHEAD + seg.data.length ≤ session.mtu.toNat

/-- Segments that fit go on to fit when they are numbered. -/
theorem number_fits (session : View) (fits : Fits session) (count : Nat) : Fits (number session count) := by
  refine ⟨fits.range, fits.room, fun part member => fits.waiting part (List.mem_of_mem_drop member), ?_⟩
  intro seg member
  rcases List.mem_append.mp member with old | new
  · exact fits.kept seg old
  · obtain ⟨own, part, inside, same⟩ := numbered_member _ _ _ seg new
    rw [same]
    exact ⟨own, fits.waiting part (List.mem_of_mem_take inside)⟩

/-- The session when its segments are numbered. -/
def readied (kcp : Ikcpcb) : Ikcpcb :=
  let next := (flushAcks kcp).1
  numberLoop next (sendWindow next) (ikcpWndUnused kcp) next.snd_queue

/-- The loop over its segments. -/
def flushed (kcp : Ikcpcb) : Flushing := flushSegments (ikcpWndUnused kcp) (readied kcp) (flushAcks kcp).2

/-- A flush of an updated session is put together from its parts. -/
theorem flush_parts (kcp : Ikcpcb) (updated : kcp.updated ≠ 0) :
    ikcpFlush kcp = (shrinkWindow { (flushed kcp).kcp with snd_buf := (flushed kcp).passed }
      (sendWindow (flushAcks kcp).1) (fastLimit (readied kcp)) (flushed kcp).change (flushed kcp).lost,
      (flushed kcp).output.give.datagrams) := if_neg updated

/-- No more is numbered than the window of the sender allows. -/
theorem send_window_most (kcp : Ikcpcb) : sendWindow kcp ≤ kcp.snd_wnd := by
  have least : ∀ a b : Word, imin a b ≤ a ∧ imin a b ≤ b := by
    intro a b
    unfold imin
    split
    case isTrue less => exact ⟨BitVec.le_refl a, less⟩
    case isFalse more => exact ⟨BitVec.le_of_lt (BitVec.not_le.mp more), BitVec.le_refl b⟩
  unfold sendWindow
  split
  · exact BitVec.le_trans (least _ _).2 (least _ _).1
  · exact (least _ _).1

/-- A flush forgets the acknowledgements that were due and numbers segments that wait. -/
theorem flush_frame (kcp : Ikcpcb) (updated : kcp.updated ≠ 0) :
    ∃ count, ∃ cwnd ≤ kcp.snd_wnd, Allows { frame kcp with acklist := [] } cwnd count ∧
      frame (readied kcp) = numberFrame { frame kcp with acklist := [] } count ∧
      frame (ikcpFlush kcp).1 = frame (readied kcp) := by
  have acked := flush_acks_frame kcp
  have same : (flushAcks kcp).1.snd_wnd = kcp.snd_wnd := congrArg Frame.snd_wnd acked
  have queue : (flushAcks kcp).1.snd_queue = kcp.snd_queue := congrArg (fun session => session.snd_queue) acked
  obtain ⟨count, allows, seen⟩ := number_loop_frame (sendWindow (flushAcks kcp).1) (ikcpWndUnused kcp)
    (flushAcks kcp).1.snd_queue (flushAcks kcp).1
  rw [queue, acked] at allows
  have target : frame (readied kcp) = numberFrame { frame kcp with acklist := [] } count := by
    rw [readied, seen, queue, acked]
    rfl
  obtain ⟨kept, passed⟩ := send_segments_frame (ikcpWndUnused kcp) (fastLimit (readied kcp))
    (if (readied kcp).nodelay = 0 then (readied kcp).rx_rto.sshiftRight 3 else 0) (readied kcp).snd_buf
    ⟨readied kcp, [], (flushAcks kcp).2, 0, false⟩
  rw [← flushSegments, ← flushed] at kept passed
  refine ⟨count, sendWindow (flushAcks kcp).1, ?_, allows, target, ?_⟩
  · rw [← same]
    exact send_window_most _
  · rw [flush_parts kcp updated, shrink_window_frame]
    calc frame { (flushed kcp).kcp with snd_buf := (flushed kcp).passed }
        = { frame (flushed kcp).kcp with held := (flushed kcp).passed.map core } := rfl
      _ = frame (readied kcp) := by
        rw [kept, passed]
        rfl

/-- What a flush does: it forgets the acknowledgements that were due, numbers some of the
segments that wait, and every datagram that it sends is made of packets that say what is
true of the session afterwards, or acknowledge what was due. -/
theorem flush_view (kcp : Ikcpcb) (fits : Fits (view kcp)) :
    ∃ count ≤ kcp.snd_queue.length, ∃ acklist ⊆ kcp.acklist,
      view (ikcpFlush kcp).1 = number { view kcp with acklist := acklist } count ∧
      ∀ datagram ∈ (ikcpFlush kcp).2,
        Datagram kcp.mtu.toNat (Sent (view (ikcpFlush kcp).1) kcp.acklist) datagram := by
  by_cases early : kcp.updated = 0
  · have nothing : ikcpFlush kcp = (kcp, []) := if_pos early
    rw [nothing]
    exact ⟨0, Nat.zero_le _, kcp.acklist, fun _ member => member, by simp [number, numbered, view],
      List.forall_mem_nil _⟩
  obtain ⟨count, cwnd, -, allows, target, after⟩ := flush_frame kcp early
  have seen : view (readied kcp) = number { view kcp with acklist := [] } count := congrArg Frame.toView target
  have final : view (ikcpFlush kcp).1 = view (readied kcp) := frame_view after
  have mtu : (readied kcp).mtu = kcp.mtu := congrArg View.mtu seen
  have receiving : (readied kcp).toIkcpcb = kcp.toIkcpcb := congrArg View.receiving seen
  have ready_fits : Fits (view (readied kcp)) := by
    rw [seen]
    exact number_fits { view kcp with acklist := [] } ⟨fits.range, fits.room, fits.waiting, fits.kept⟩ count
  have commands := flush_acks_sound kcp (Sent (view (readied kcp)) kcp.acklist) fits.range fits.room
    (fun seg here cmd due => ⟨here.conv.trans (congrArg _ receiving.symm),
      here.una.trans (congrArg _ receiving.symm), .ack (packet_command seg _ cmd) here.data due⟩)
    (fun seg here cmd => ⟨here.conv.trans (congrArg _ receiving.symm),
      here.una.trans (congrArg _ receiving.symm),
      .window (cmd.imp (packet_command seg _) (packet_command seg _)) here.data⟩)
  have rooms : ∀ segment ∈ (readied kcp).snd_buf,
      IKCP_OVERHEAD + segment.data.length ≤ (readied kcp).mtu.toNat :=
    fun segment member => (ready_fits.kept (core segment) (List.mem_map_of_mem member)).2
  have pushes : ∀ segment ∈ (readied kcp).snd_buf, ∀ sent : Segment, core sent = core segment →
      sent.una = (readied kcp).rcv_nxt → Sent (view (readied kcp)) kcp.acklist (packetOf sent) := by
    intro segment member sent same una
    have kept : core sent ∈ (view (readied kcp)).held := by
      rw [same]
      exact List.mem_map_of_mem member
    exact ⟨(ready_fits.kept (core sent) kept).1, una, .push (core sent) kept rfl rfl rfl rfl⟩
  have sound := send_segments_sound (ikcpWndUnused kcp) (fastLimit (readied kcp))
    (if (readied kcp).nodelay = 0 then (readied kcp).rx_rto.sshiftRight 3 else 0)
    (Sent (view (readied kcp)) kcp.acklist) (readied kcp).snd_buf ⟨readied kcp, [], (flushAcks kcp).2, 0, false⟩
    ready_fits.range rooms pushes (by rw [mtu]; exact commands)
  rw [← flushSegments, ← flushed] at sound
  refine ⟨count, allows.inside, [], List.nil_subset _, final.trans seen, ?_⟩
  rw [final, flush_parts kcp early, ← mtu]
  exact (give_sound _ _ _ sound).1.datagrams

/-- An update sets times, and may flush. -/
theorem update_flushes (kcp : Ikcpcb) (current : Word) :
    ∃ ready : Ikcpcb, frame ready = frame kcp ∧
      (ikcpUpdate kcp current = ikcpFlush ready ∨ ikcpUpdate kcp current = (ready, [])) := by
  have started : frame (if kcp.updated = 0 then
      { kcp with current := current, updated := 1, ts_flush := current }
      else { kcp with current := current }) = frame kcp := by
    rw [apply_ite frame]
    exact ite_self _
  unfold ikcpUpdate
  dsimp only
  generalize (if kcp.updated = 0 then
      ({ kcp with current := current, updated := 1, ts_flush := current } : Ikcpcb)
      else { kcp with current := current }) = first at started
  have corrected : frame (if 10000 ≤ itimediff current first.ts_flush ∨ itimediff current first.ts_flush < -10000
      then { first with ts_flush := current } else first) = frame kcp := by
    rw [apply_ite frame]
    exact (ite_self _).trans started
  generalize (if 10000 ≤ itimediff current first.ts_flush ∨ itimediff current first.ts_flush < -10000
      then { first with ts_flush := current } else first) = second at corrected
  split
  · refine ⟨_, ?_, .inl rfl⟩
    exact corrected
  · refine ⟨_, ?_, .inr rfl⟩
    exact corrected

end IotCamera.Kcp.Flushing
