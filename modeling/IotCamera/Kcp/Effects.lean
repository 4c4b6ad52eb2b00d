import IotCamera.Kcp.Wire

/-!
# What the calls of a KCP session do to what is transferred

Most of a control block is about when to send: times, windows and counters. The rest
decides what is transferred: the segments that wait, the numbered ones that are kept, the
acknowledgements that are due, and the receiving side. Here is what each call does to that.
-/

namespace IotCamera.Kcp.Effects

open Memory Ikcp Wire
open Receive (IKCP_CMD_PUSH IKCP_CMD_ACK IKCP_CMD_WASK IKCP_CMD_WINS IKCP_OVERHEAD itimediff)

/-- The members of a numbered segment that do not change. -/
structure Core where
  conv : Word
  cmd : Word
  frg : Word
  sn : Word
  data : List Byte
  deriving DecidableEq, Repr

def core (seg : Segment) : Core := ⟨seg.conv, seg.cmd, seg.frg, seg.sn, seg.data⟩

/-- What a session transfers. -/
structure View where
  receiving : Receive.Ikcpcb
  acklist : List (Word × Word)
  held : List Core
  snd_nxt : Word
  snd_queue : List Fragment
  mss : Word
  mtu : Word
  stream : Word

def view (kcp : Ikcpcb) : View :=
  { receiving := kcp.toIkcpcb
    acklist := kcp.acklist
    held := kcp.snd_buf.map core
    snd_nxt := kcp.snd_nxt
    snd_queue := kcp.snd_queue
    mss := kcp.mss
    mtu := kcp.mtu
    stream := kcp.stream }

/-- The same with the bounds and counters of the sending side. -/
structure Frame extends View where
  snd_una : Word
  snd_wnd : Word
  nsnd_buf : Word
  nsnd_que : Word

def frame (kcp : Ikcpcb) : Frame :=
  { view kcp with
    snd_una := kcp.snd_una
    snd_wnd := kcp.snd_wnd
    nsnd_buf := kcp.nsnd_buf
    nsnd_que := kcp.nsnd_que }

/-- What keeps the frame keeps what is transferred. -/
theorem frame_view {kcp other : Ikcpcb} (same : frame kcp = frame other) : view kcp = view other :=
  congrArg Frame.toView same

/-! ## Calls that change times and windows only -/

/-- Measuring the round trip changes times only. -/
theorem update_ack_frame (kcp : Ikcpcb) (rtt : Word) : frame (ikcpUpdateAck kcp rtt) = frame kcp := by
  unfold ikcpUpdateAck
  by_cases first : kcp.rx_srtt = 0
  · rw [if_pos first]
    rfl
  · rw [if_neg first]
    rfl

/-- `ikcp_shrink_buf` changes a bound and nothing that is transferred. -/
theorem shrink_buf_view (kcp : Ikcpcb) : view (ikcpShrinkBuf kcp) = view kcp := by
  unfold ikcpShrinkBuf
  split <;> rfl

/-- Counting the segments that were passed over changes nothing else in them. -/
theorem count_fastack_core (sn : Word) (segments : List Segment) :
    (countFastack sn segments).map core = segments.map core := by
  induction segments with
  | nil => rfl
  | cons seg rest inductionHypothesis =>
    rw [countFastack]
    split
    · rfl
    · rw [List.map_cons, List.map_cons, inductionHypothesis]
      split <;> rfl

/-- So it keeps the frame of the session. -/
theorem parse_fastack_frame (kcp : Ikcpcb) (sn : Word) : frame (ikcpParseFastack kcp sn) = frame kcp := by
  unfold ikcpParseFastack
  split
  · rfl
  · simp only [frame, view, count_fastack_core]

/-- Widening the congestion window keeps the frame. -/
theorem widen_window_frame (kcp : Ikcpcb) : frame (widenWindow kcp) = frame kcp := by
  rw [widenWindow, apply_ite frame]
  exact ite_self _

/-- Growing it up to the window of the peer does, too. -/
theorem grow_window_frame (kcp : Ikcpcb) (una : Word) : frame (growWindow kcp una) = frame kcp := by
  have raised : ∀ kcp : Ikcpcb, frame (if kcp.rmt_wnd < kcp.cwnd then
      { kcp with cwnd := kcp.rmt_wnd, incr := kcp.rmt_wnd * kcp.mss } else kcp) = frame kcp := by
    intro kcp
    rw [apply_ite frame]
    exact ite_self _
  rw [growWindow, apply_ite frame, raised, widen_window_frame, ite_self]

/-- Shrinking it after a flush keeps the frame, for whatever reason it shrinks. -/
theorem shrink_window_frame (kcp : Ikcpcb) (cwnd resent : Word) (change : Nat) (lost : Bool) :
    frame (shrinkWindow kcp cwnd resent change lost) = frame kcp := by
  have last : ∀ kcp : Ikcpcb,
      frame (if kcp.cwnd < 1 then { kcp with cwnd := 1, incr := kcp.mss } else kcp) = frame kcp := by
    intro kcp
    rw [apply_ite frame]
    exact ite_self _
  have slower : ∀ kcp : Ikcpcb, frame (if lost then shrinkLost kcp cwnd else kcp) = frame kcp := by
    intro kcp
    rw [apply_ite frame]
    exact ite_self _
  have fast : frame (if change ≠ 0 then shrinkFast kcp resent else kcp) = frame kcp := by
    rw [apply_ite frame]
    exact ite_self _
  rw [shrinkWindow, last, slower, fast]

/-- Asking for the window of the peer keeps the frame. -/
theorem probe_window_frame (kcp : Ikcpcb) : frame (probeWindow kcp) = frame kcp := by
  unfold probeWindow
  by_cases closed : kcp.rmt_wnd = 0
  · rw [if_pos closed]
    by_cases first : kcp.probe_wait = 0
    · simp only [if_pos first, frame, view]
    · rw [if_neg first, apply_ite frame]
      exact ite_self _
  · rw [if_neg closed]
    rfl

/-! ## Segments that are given up -/

/-- Some numbered segments are given up, each for a reason. -/
structure Releases (reason : Word → Prop) (before after : List Core) : Prop where
  kept : ∀ seg ∈ after, seg ∈ before
  released : ∀ seg ∈ before, seg ∈ after ∨ reason seg.sn

/-- Giving up nothing needs no reason. -/
theorem releases_refl (reason : Word → Prop) (segments : List Core) : Releases reason segments segments :=
  ⟨fun _ member => member, fun _ member => .inl member⟩

/-- What is given up twice is given up for one of both reasons. -/
theorem Releases.trans {first second third : List Core} {reason other : Word → Prop}
    (earlier : Releases reason first second) (later : Releases other second third) :
    Releases (fun sn => reason sn ∨ other sn) first third := by
  refine ⟨fun seg member => earlier.kept seg (later.kept seg member), fun seg member => ?_⟩
  rcases earlier.released seg member with kept | released
  · exact (later.released seg kept).imp id .inr
  · exact .inr (.inl released)

/-- A reason may be replaced by a weaker one. -/
theorem Releases.mono {before after : List Core} {reason weaker : Word → Prop}
    (releases : Releases reason before after) (weakened : ∀ sn, reason sn → weaker sn) :
    Releases weaker before after :=
  ⟨releases.kept, fun seg member => (releases.released seg member).imp id (weakened _)⟩

/-- Dropping segments from the front gives up those below the number. -/
theorem drop_below_releases (una nsnd_buf : Word) (segments : List Segment) :
    Releases (fun sn => 0 < itimediff una sn) (segments.map core)
      ((dropBelow una nsnd_buf segments).1.map core) := by
  induction segments generalizing nsnd_buf with
  | nil => exact releases_refl _ _
  | cons seg rest inductionHypothesis =>
    rw [dropBelow]
    split
    case isTrue below =>
      have rest := inductionHypothesis (nsnd_buf - 1)
      refine ⟨fun seg member => List.mem_cons_of_mem _ (rest.kept seg member), fun other member => ?_⟩
      rcases List.mem_cons.mp member with rfl | later
      · exact .inr below
      · exact rest.released other later
    case isFalse => exact releases_refl _ _

/-- Removing a number gives up that number only. -/
theorem remove_number_releases (sn : Word) (segments rest : List Segment)
    (removed : removeNumber sn segments = some rest) :
    Releases (fun other => other = sn) (segments.map core) (rest.map core) := by
  induction segments generalizing rest with
  | nil => cases removed
  | cons seg later inductionHypothesis =>
    rw [removeNumber] at removed
    split at removed
    case isTrue same =>
      obtain rfl := Option.some.inj removed
      refine ⟨fun other member => List.mem_cons_of_mem _ member, fun other member => ?_⟩
      rcases List.mem_cons.mp member with rfl | after
      · exact .inr same.symm
      · exact .inl after
    case isFalse =>
      split at removed
      · cases removed
      obtain ⟨shorter, below, rfl⟩ := Option.map_eq_some_iff.mp removed
      have inside := inductionHypothesis shorter below
      refine ⟨fun other member => ?_, fun other member => ?_⟩
      · exact (List.mem_cons.mp member).elim (fun same => same ▸ List.mem_cons_self)
          fun after => List.mem_cons_of_mem _ (inside.kept other after)
      · rcases List.mem_cons.mp member with rfl | after
        · exact .inl List.mem_cons_self
        · exact (inside.released other after).imp (List.mem_cons_of_mem _) id

/-- An acknowledgement makes the session give up the number that it names, and nothing else. -/
theorem parse_ack_view (kcp : Ikcpcb) (sn : Word) :
    ∃ held, Releases (fun other => other = sn) (view kcp).held held ∧
      view (ikcpParseAck kcp sn) = { view kcp with held := held } := by
  unfold ikcpParseAck
  split
  · exact ⟨_, releases_refl _ _, rfl⟩
  · split
    case h_1 rest removed => exact ⟨_, remove_number_releases sn kcp.snd_buf rest removed, rfl⟩
    case h_2 => exact ⟨_, releases_refl _ _, rfl⟩

/-! ## A packet that arrives -/

/-- The segment that a packet brings. -/
def broughtBy (packet : Packet) : Receive.Segment := ⟨promote packet.frg, packet.sn, packet.data⟩

/-- A packet of data before the end of the window is acknowledged, new or not. -/
def acksFor (receiving : Receive.Ikcpcb) (packet : Packet) : List (Word × Word) :=
  if packet.cmd = IKCP_CMD_PUSH ∧ itimediff packet.sn (receiving.rcv_nxt + receiving.rcv_wnd) < 0 then
    [(packet.sn, packet.ts)]
  else []

/-- Why a packet makes the session give up a segment. -/
def Acknowledges (packet : Packet) (sn : Word) : Prop :=
  0 < itimediff packet.una sn ∨ packet.cmd = IKCP_CMD_ACK ∧ sn = packet.sn

/-- Another command brings nothing and is not acknowledged. -/
theorem other_command (receiving : Receive.Ikcpcb) (packet : Packet) (other : packet.cmd ≠ IKCP_CMD_PUSH) :
    Receive.inputSegment receiving packet.cmd (broughtBy packet) = receiving ∧
      acksFor receiving packet = [] :=
  ⟨if_neg fun push => other push.1, if_neg fun push => other push.1⟩

/-- The header of a packet makes the session give up what its sender has received. -/
theorem input_header_view (kcp : Ikcpcb) (packet : Packet) :
    ∃ held, Releases (fun sn => 0 < itimediff packet.una sn) (view kcp).held held ∧
      view (inputHeader kcp packet) = { view kcp with held := held } :=
  ⟨_, drop_below_releases packet.una kcp.nsnd_buf kcp.snd_buf, shrink_buf_view _⟩

/-- A packet that acknowledges makes the session give up its number. -/
theorem input_ack_view (kcp : Ikcpcb) (packet : Packet) :
    ∃ held, Releases (fun sn => sn = packet.sn) (view kcp).held held ∧
      view (inputAck kcp packet) = { view kcp with held := held } := by
  have timed : view (if 0 ≤ itimediff kcp.current packet.ts then
      ikcpUpdateAck kcp (kcp.current - packet.ts) else kcp) = view kcp := by
    rw [apply_ite view, frame_view (update_ack_frame _ _), ite_self]
  obtain ⟨held, removes, left⟩ := parse_ack_view (if 0 ≤ itimediff kcp.current packet.ts then
      ikcpUpdateAck kcp (kcp.current - packet.ts) else kcp) packet.sn
  rw [timed] at removes left
  exact ⟨held, removes, (shrink_buf_view _).trans left⟩

/-- A packet of data goes to the receiving side, and is acknowledged when it is not too far
ahead. -/
theorem input_push_view (kcp : Ikcpcb) (packet : Packet) (push : packet.cmd = IKCP_CMD_PUSH) :
    view (inputPush kcp packet) =
      { view kcp with
        receiving := Receive.inputSegment kcp.toIkcpcb packet.cmd (broughtBy packet)
        acklist := kcp.acklist ++ acksFor kcp.toIkcpcb packet } := by
  by_cases before : itimediff packet.sn (kcp.rcv_nxt + kcp.rcv_wnd) < 0
  · have acks : acksFor kcp.toIkcpcb packet = [(packet.sn, packet.ts)] := if_pos ⟨push, before⟩
    rw [inputPush, if_pos before, acks]
    by_cases new : 0 ≤ itimediff packet.sn kcp.rcv_nxt
    · have brought : Receive.inputSegment kcp.toIkcpcb packet.cmd (broughtBy packet) =
          Receive.ikcpParseData kcp.toIkcpcb (broughtBy packet) := if_pos ⟨push, before, new⟩
      rw [brought]
      exact congrArg view (if_pos new)
    · have old : Receive.inputSegment kcp.toIkcpcb packet.cmd (broughtBy packet) = kcp.toIkcpcb :=
        if_neg fun inside => new inside.2.2
      rw [old]
      exact congrArg view (if_neg new)
  · have acks : acksFor kcp.toIkcpcb packet = [] := if_neg fun inside => before inside.2
    have beyond : Receive.inputSegment kcp.toIkcpcb packet.cmd (broughtBy packet) = kcp.toIkcpcb :=
      if_neg fun inside => before inside.2.1
    rw [inputPush, if_neg before, acks, beyond, List.append_nil]
    rfl

/-- A packet makes the session give up what it acknowledges, brings its segment to the
receiving side, and is acknowledged. -/
theorem input_packet_view (reading : Reading) (packet : Packet) :
    ∃ held, Releases (Acknowledges packet) (view reading.kcp).held held ∧
      view (inputPacket reading packet).kcp =
        { view reading.kcp with
          held := held
          receiving := Receive.inputSegment reading.kcp.toIkcpcb packet.cmd (broughtBy packet)
          acklist := reading.kcp.acklist ++ acksFor reading.kcp.toIkcpcb packet } := by
  obtain ⟨first, releases, seen⟩ := input_header_view reading.kcp packet
  unfold inputPacket
  generalize inputHeader reading.kcp packet = kcp at seen
  have receiving : kcp.toIkcpcb = reading.kcp.toIkcpcb := congrArg View.receiving seen
  have acklist : kcp.acklist = reading.kcp.acklist := congrArg View.acklist seen
  have below : Releases (Acknowledges packet) (view reading.kcp).held first :=
    releases.mono fun sn lower => .inl lower
  by_cases ack : packet.cmd = IKCP_CMD_ACK
  · obtain ⟨none, nothing⟩ := other_command reading.kcp.toIkcpcb packet (by rw [ack]; decide)
    obtain ⟨second, removes, left⟩ := input_ack_view kcp packet
    rw [seen] at removes left
    refine ⟨second, (releases.trans removes).mono ?_, ?_⟩
    · rintro sn (lower | same)
      · exact .inl lower
      · exact .inr ⟨ack, same⟩
    · rw [if_pos ack, none, nothing, List.append_nil]
      exact left
  rw [if_neg ack]
  by_cases push : packet.cmd = IKCP_CMD_PUSH
  · refine ⟨first, below, ?_⟩
    rw [if_pos push]
    exact (input_push_view kcp packet push).trans (by rw [seen, receiving, acklist])
  obtain ⟨none, nothing⟩ := other_command reading.kcp.toIkcpcb packet push
  refine ⟨first, below, ?_⟩
  rw [if_neg push, none, nothing, List.append_nil]
  by_cases ask : packet.cmd = IKCP_CMD_WASK
  · rw [if_pos ask]
    exact seen
  · rw [if_neg ask]
    exact seen

/-! ## Datagrams that arrive -/

/-- Moving segments to the queue keeps the number of the session. -/
theorem move_loop_conv (kcp : Receive.Ikcpcb) (buf : List Receive.Segment) :
    (Receive.moveLoop kcp buf).conv = kcp.conv := by
  induction buf generalizing kcp with
  | nil => rfl
  | cons seg rest inductionHypothesis =>
    rw [Receive.moveLoop]
    split
    · exact inductionHypothesis _
    · rfl

/-- A segment that arrives keeps the number of the session. -/
theorem input_segment_conv (kcp : Receive.Ikcpcb) (cmd : Byte) (newseg : Receive.Segment) :
    (Receive.inputSegment kcp cmd newseg).conv = kcp.conv := by
  unfold Receive.inputSegment Receive.ikcpParseData
  split
  · split
    · rfl
    · split
      · exact move_loop_conv _ _
      · exact move_loop_conv _ _
  · rfl

/-- A packet that arrives keeps the number of the session. -/
theorem input_packet_conv (reading : Reading) (packet : Packet) :
    (inputPacket reading packet).kcp.conv = reading.kcp.conv := by
  obtain ⟨held, -, seen⟩ := input_packet_view reading packet
  have receiving : (inputPacket reading packet).kcp.toIkcpcb = _ := congrArg View.receiving seen
  rw [receiving]
  exact input_segment_conv _ _ _

/-- What every packet keeps holds after any bytes. -/
theorem input_loop_any (Holds : Ikcpcb → Prop)
    (kept : ∀ reading packet, Holds reading.kcp → Holds (inputPacket reading packet).kcp)
    (passes : Nat) (reading : Reading) (data : List Byte) (holds : Holds reading.kcp) :
    Holds (inputLoop passes reading data).1.kcp := by
  induction passes generalizing reading data with
  | zero => exact holds
  | succ passes inductionHypothesis =>
    rw [inputLoop]
    split
    · exact holds
    split
    · exact holds
    dsimp only
    split
    · exact holds
    split
    · exact holds
    · exact inductionHypothesis _ _ (kept reading _ holds)

/-- What every packet keeps, and the calls behind the loop, holds after any datagram. -/
theorem input_any (Holds : Ikcpcb → Prop)
    (kept : ∀ reading packet, Holds reading.kcp → Holds (inputPacket reading packet).kcp)
    (framed : ∀ kcp other, frame other = frame kcp → Holds kcp → Holds other)
    (kcp : Ikcpcb) (data : List Byte) (holds : Holds kcp) : Holds (ikcpInput kcp data).1 := by
  unfold ikcpInput
  split
  · exact holds
  have read := input_loop_any Holds kept data.length ⟨kcp, false, 0⟩ data holds
  cases outcome : inputLoop data.length ⟨kcp, false, 0⟩ data with
  | mk reading answer =>
    rw [outcome] at read
    dsimp only
    split
    · exact read
    · refine framed reading.kcp _ ?_ read
      rw [grow_window_frame, apply_ite frame, parse_fastack_frame, ite_self]

/-- A packet that a session with the given number reads. -/
structure Acceptable (conv : Word) (packet : Packet) : Prop where
  session : packet.conv = conv
  command : packet.cmd = IKCP_CMD_PUSH ∨ packet.cmd = IKCP_CMD_ACK ∨ packet.cmd = IKCP_CMD_WASK ∨
    packet.cmd = IKCP_CMD_WINS
  short : packet.data.length < 2 ^ 31

/-- A packet is read when the bytes behind its header are there. -/
theorem input_loop_packet (passes : Nat) (reading : Reading) (packet : Packet)
    (acceptable : Acceptable reading.kcp.conv packet) (behind : List Byte) :
    inputLoop (passes + 1) reading (header packet ++ behind) =
      if behind.length < packet.data.length then (reading, -2)
      else inputLoop passes (inputPacket reading { packet with data := behind.take packet.data.length })
        (behind.drop packet.data.length) := by
  obtain ⟨session, command, short⟩ := acceptable
  have len : (BitVec.ofNat 32 packet.data.length).toNat = packet.data.length := by
    rw [BitVec.toNat_ofNat]
    exact Nat.mod_eq_of_lt (Nat.lt_trans short (by decide))
  have positive : ¬ (BitVec.ofNat 32 packet.data.length).toInt < 0 := by
    rw [BitVec.toInt_eq_toNat_of_lt (by omega)]
    omega
  have whole : ¬ (header packet ++ behind).length < IKCP_OVERHEAD := by
    rw [List.length_append, header_length]
    omega
  have known : ¬ (packet.cmd ≠ IKCP_CMD_PUSH ∧ packet.cmd ≠ IKCP_CMD_ACK ∧ packet.cmd ≠ IKCP_CMD_WASK ∧
      packet.cmd ≠ IKCP_CMD_WINS) := by
    tauto
  have rest : (header packet ++ behind).drop IKCP_OVERHEAD = behind := rfl
  simp only [inputLoop, if_neg whole, decode_header, decode_length, session, ne_eq, not_true_eq_false,
    if_false, rest, len, positive, or_false]
  by_cases missing : behind.length < packet.data.length
  · rw [if_pos missing, if_pos missing]
  · rw [if_neg missing, if_neg missing]
    exact if_neg known

/-- A datagram that arrives cut off is read as the packets that are whole in it. -/
theorem input_loop_packets (passes : Nat) (packets : List Packet) (count : Nat) (reading : Reading)
    (acceptable : ∀ packet ∈ packets, Acceptable reading.kcp.conv packet) :
    ∃ whole, (inputLoop passes reading ((packets.flatMap encode).take count)).1 =
      (packets.take whole).foldl inputPacket reading := by
  induction passes generalizing packets count reading with
  | zero => exact ⟨0, rfl⟩
  | succ passes inductionHypothesis =>
    by_cases ended : ((packets.flatMap encode).take count).length < IKCP_OVERHEAD
    · exact ⟨0, by rw [inputLoop, if_pos ended]; rfl⟩
    cases packets with
    | nil => exact absurd (by simp [IKCP_OVERHEAD]) ended
    | cons packet rest =>
      obtain ⟨fits, later⟩ := List.forall_mem_cons.mp acceptable
      have room : IKCP_OVERHEAD ≤ count := by
        rw [List.length_take] at ended
        omega
      obtain ⟨more, rfl⟩ := Nat.exists_eq_add_of_le room
      have parts : ((packet :: rest).flatMap encode).take (IKCP_OVERHEAD + more) =
          header packet ++ (packet.data ++ rest.flatMap encode).take more := by
        rw [List.flatMap_cons, encode, List.append_assoc, ← header_length packet, List.take_length_add_append]
      rw [parts, input_loop_packet passes reading packet fits]
      by_cases missing : ((packet.data ++ rest.flatMap encode).take more).length < packet.data.length
      · exact ⟨0, by rw [if_pos missing]; rfl⟩
      · have complete : packet.data.length ≤ more := by
          rw [List.length_take] at missing
          omega
        obtain ⟨left, rfl⟩ := Nat.exists_eq_add_of_le complete
        rw [if_neg missing, List.take_length_add_append, List.take_left, List.drop_left]
        obtain ⟨whole, folded⟩ := inductionHypothesis rest left (inputPacket reading packet)
          (fun other member => by rw [input_packet_conv]; exact later other member)
        exact ⟨whole + 1, folded⟩

/-- A whole datagram is read to its end. -/
theorem input_loop_whole (passes : Nat) (packets : List Packet) (reading : Reading)
    (enough : (packets.flatMap encode).length ≤ passes)
    (acceptable : ∀ packet ∈ packets, Acceptable reading.kcp.conv packet) :
    inputLoop passes reading (packets.flatMap encode) = (packets.foldl inputPacket reading, 0) := by
  induction packets generalizing passes reading with
  | nil =>
    cases passes with
    | zero => rfl
    | succ passes => exact if_pos (by decide)
  | cons packet rest inductionHypothesis =>
    obtain ⟨fits, later⟩ := List.forall_mem_cons.mp acceptable
    rw [List.flatMap_cons, List.length_append, encode, List.length_append, header_length] at enough
    obtain ⟨more, rfl⟩ : ∃ more, passes = more + 1 :=
      Nat.exists_eq_succ_of_ne_zero (by rw [IKCP_OVERHEAD] at enough; omega)
    have present : ¬ (packet.data ++ rest.flatMap encode).length < packet.data.length := by
      rw [List.length_append]
      omega
    rw [List.flatMap_cons, encode, List.append_assoc, input_loop_packet more reading packet fits,
      if_neg present, List.take_left, List.drop_left]
    refine inductionHypothesis more (inputPacket reading packet) ?_ fun other member => ?_
    · rw [IKCP_OVERHEAD] at enough
      omega
    · rw [input_packet_conv]
      exact later other member

/-- A whole datagram is accepted. -/
theorem input_accepts (kcp : Ikcpcb) (packets : List Packet) (filled : packets.flatMap encode ≠ [])
    (acceptable : ∀ packet ∈ packets, Acceptable kcp.conv packet) :
    (ikcpInput kcp (packets.flatMap encode)).2 = 0 := by
  have long : ¬ (packets.flatMap encode).length < IKCP_OVERHEAD := by
    cases packets with
    | nil => exact absurd rfl filled
    | cons packet rest =>
      rw [List.flatMap_cons, encode, List.length_append, List.length_append, header_length]
      omega
  have whole := input_loop_whole _ packets ⟨kcp, false, 0⟩ (Nat.le_refl _) acceptable
  rw [ikcpInput, if_neg long, whole]
  rfl

/-- What every packet of a datagram keeps, and the calls behind the loop, holds after it. -/
theorem input_keeps (Holds : View → Prop) (kcp : Ikcpcb) (packets : List Packet) (count : Nat)
    (acceptable : ∀ packet ∈ packets, Acceptable kcp.conv packet)
    (kept : ∀ reading : Reading, ∀ packet ∈ packets, Holds (view reading.kcp) →
      Holds (view (inputPacket reading packet).kcp))
    (holds : Holds (view kcp)) :
    Holds (view (ikcpInput kcp ((packets.flatMap encode).take count)).1) := by
  have folded : ∀ (some : List Packet) (reading : Reading), (∀ packet ∈ some, packet ∈ packets) →
      Holds (view reading.kcp) → Holds (view (some.foldl inputPacket reading).kcp) := by
    intro some
    induction some with
    | nil => exact fun _ _ holds => holds
    | cons packet rest inductionHypothesis =>
      intro reading inside holds
      obtain ⟨here, later⟩ := List.forall_mem_cons.mp inside
      exact inductionHypothesis _ later (kept reading packet here holds)
  unfold ikcpInput
  split
  · exact holds
  · obtain ⟨whole, read⟩ := input_loop_packets ((packets.flatMap encode).take count).length packets count
      ⟨kcp, false, 0⟩ acceptable
    have after := folded (packets.take whole) ⟨kcp, false, 0⟩ (fun _ member => List.mem_of_mem_take member)
      holds
    rw [← read] at after
    cases outcome : inputLoop ((packets.flatMap encode).take count).length ⟨kcp, false, 0⟩
        ((packets.flatMap encode).take count) with
    | mk reading answer =>
      rw [outcome] at after
      dsimp only
      by_cases refused : answer ≠ 0
      · rw [if_pos refused]
        exact after
      · rw [if_neg refused, frame_view (grow_window_frame _ _), apply_ite view,
          frame_view (parse_fastack_frame _ _), ite_self]
        exact after

/-! ## Datagrams that are sent -/

/-- A datagram of at most `mtu` bytes that consists of packets of a kind. -/
structure Carries (mtu : Nat) (Kind : Packet → Prop) (datagram : List Byte) : Prop where
  packets : ∃ packets : List Packet, datagram = packets.flatMap encode ∧ ∀ packet ∈ packets, Kind packet
  short : datagram.length ≤ mtu

/-- A datagram is sent with something in it. -/
structure Datagram (mtu : Nat) (Kind : Packet → Prop) (datagram : List Byte) : Prop
    extends Carries mtu Kind datagram where
  filled : datagram ≠ []

/-- The buffer and all datagrams consist of packets of a kind. -/
structure Sound (mtu : Nat) (Kind : Packet → Prop) (output : Output) : Prop where
  buffer : Carries mtu Kind output.buffer
  datagrams : ∀ datagram ∈ output.datagrams, Datagram mtu Kind datagram

/-- An empty output holds nothing wrong. -/
theorem sound_empty (mtu : Nat) (Kind : Packet → Prop) : Sound mtu Kind ⟨[], []⟩ :=
  ⟨⟨⟨[], rfl, List.forall_mem_nil _⟩, Nat.zero_le _⟩, List.forall_mem_nil _⟩

/-- Giving the buffer away keeps the output sound and empties the buffer. -/
theorem give_sound (mtu : Nat) (Kind : Packet → Prop) (output : Output) (sound : Sound mtu Kind output) :
    Sound mtu Kind output.give ∧ output.give.buffer = [] := by
  unfold Output.give
  split
  case isTrue empty => exact ⟨sound, empty⟩
  case isFalse filled =>
    refine ⟨⟨(sound_empty mtu Kind).buffer, fun datagram member => ?_⟩, rfl⟩
    rcases List.mem_append.mp member with earlier | last
    · exact sound.datagrams datagram earlier
    · rw [List.mem_singleton.mp last]
      exact ⟨sound.buffer, filled⟩

/-- A segment is put behind the others, or into an empty buffer when it would not fit. -/
theorem put_sound (mtu : Word) (Kind : Packet → Prop) (output : Output) (seg : Segment)
    (sound : Sound mtu.toNat Kind output) (range : mtu.toNat < 2 ^ 31)
    (fits : IKCP_OVERHEAD + seg.data.length ≤ mtu.toNat) (kind : Kind (packetOf seg)) :
    Sound mtu.toNat Kind (output.put mtu seg) := by
  have signed : mtu.toInt = mtu.toNat := BitVec.toInt_eq_toNat_of_lt (by omega)
  have size : (encode (packetOf seg)).length = IKCP_OVERHEAD + seg.data.length := by
    rw [encode, List.length_append, header_length]
    rfl
  have behind : ∀ front : Output, Sound mtu.toNat Kind front →
      front.buffer.length + (IKCP_OVERHEAD + seg.data.length) ≤ mtu.toNat →
      Sound mtu.toNat Kind { front with buffer := front.buffer ++ (ikcpEncodeSeg seg ++ seg.data) } := by
    intro front sound room
    obtain ⟨packets, written, kinds⟩ := sound.buffer.packets
    refine ⟨⟨⟨packets ++ [packetOf seg], ?_, ?_⟩, ?_⟩, sound.datagrams⟩
    · rw [written, encode_packet, List.flatMap_append, List.flatMap_singleton]
    · exact List.forall_mem_append.mpr ⟨kinds, List.forall_mem_singleton.mpr kind⟩
    · rw [encode_packet, List.length_append, size]
      exact room
  unfold Output.put
  rw [signed]
  by_cases full : (mtu.toNat : Int) < (output.buffer.length + (IKCP_OVERHEAD + seg.data.length) : Nat)
  · simp only [if_pos full]
    obtain ⟨given, empty⟩ := give_sound mtu.toNat Kind output sound
    exact behind output.give given (by rw [empty]; simpa using fits)
  · simp only [if_neg full]
    exact behind output sound (by omega)

end IotCamera.Kcp.Effects
