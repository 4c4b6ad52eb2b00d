import IotCamera.Base.Runs
import IotCamera.Kcp.Transfer

/-!
# What a KCP session keeps, whatever arrives

Anybody can send datagrams to the port of a session. Whatever is in them, and however long
the session runs, it keeps the segments that it has received and not yet put in order, and
those that it has sent and that were not yet acknowledged, in the order of their numbers and
within its windows, which are counted from the number that is next. So it never keeps more
than its windows allow, and its counters are right. Here the numbers may come round any
number of times.
-/

namespace IotCamera.Kcp.Windows

open Memory Ikcp Effects Flushing OutputBuffer SerialNumbers
open Receive (itimediff moveLoop insertFromBack ikcpParseData IKCP_WND_RCV)

/-! ## The receiving side -/

/-- The receiving side keeps its segments within its window. -/
structure Receives (kcp : Receive.Ikcpcb) : Prop where
  half : kcp.rcv_wnd.toNat < 2 ^ 31
  queued : kcp.nrcv_que = BitVec.ofNat 32 kcp.rcv_queue.length
  most : kcp.rcv_queue.length ≤ kcp.rcv_wnd.toNat
  counted : kcp.nrcv_buf = BitVec.ofNat 32 kcp.rcv_buf.length
  ordered : Ordered kcp.rcv_nxt kcp.rcv_wnd.toNat (kcp.rcv_buf.map (·.sn))

/-- Counting one more in 32 bits is adding one. -/
theorem count_more (count : Nat) : BitVec.ofNat 32 count + 1 = BitVec.ofNat 32 (count + 1) := by
  rw [BitVec.ofNat_add]
  rfl

/-- Counting one less is subtracting one. -/
theorem count_less (count : Nat) : BitVec.ofNat 32 (count + 1) - 1 = BitVec.ofNat 32 count := by
  rw [← count_more, add_sub_cancel_right]

/-- What is behind the next number is in order behind the one after it. -/
theorem behind_next (base : Word) (limit : Nat) (rest : List Word)
    (ordered : Ordered base limit (base :: rest)) : Ordered (base + 1) limit rest := by
  obtain ⟨first, increasing⟩ := List.pairwise_cons.mp ordered.increasing
  have step : offset base (base + 1) = 1 := offset_add base 1 (by decide)
  refine Ordered.mono ((ordered.sublist (List.sublist_cons_self _ _)).rebase (base + 1) ?_) (Nat.sub_le _ _)
  intro number member
  have less := first number member
  rw [offset_self] at less
  rw [step]
  exact less

/-- Moving segments to the queue keeps the rest in order behind the next number. -/
theorem move_loop_receives (buf : List Receive.Segment) (kcp : Receive.Ikcpcb)
    (receives : Receives { kcp with rcv_buf := buf }) : Receives (moveLoop kcp buf) := by
  induction buf generalizing kcp with
  | nil => exact receives
  | cons seg rest inductionHypothesis =>
    rw [moveLoop]
    obtain ⟨half, queued, most, counted, ordered⟩ := receives
    dsimp only at half queued most counted ordered
    by_cases next : seg.sn = kcp.rcv_nxt ∧ kcp.nrcv_que < kcp.rcv_wnd
    · rw [if_pos next]
      refine inductionHypothesis _ ⟨half, ?_, ?_, ?_, ?_⟩
      · dsimp only
        rw [queued, count_more, List.length_append, List.length_singleton]
      · have room := BitVec.lt_def.mp next.2
        rw [queued, BitVec.toNat_ofNat, Nat.mod_eq_of_lt (by omega)] at room
        rw [List.length_append, List.length_singleton]
        exact room
      · dsimp only
        rw [counted, List.length_cons, count_less]
      · rw [List.map_cons, next.1] at ordered
        exact behind_next _ _ _ ordered
    · rw [if_neg next]
      exact ⟨half, queued, most, counted, ordered⟩

/-- A segment of the window is put in its place. The buffer is given from back to front. -/
theorem insert_from_back_ordered (base : Word) (limit : Nat) (half : limit < 2 ^ 31) (newseg : Receive.Segment)
    (new : offset base newseg.sn < limit) (buf inserted : List Receive.Segment)
    (inside : ∀ seg ∈ buf, offset base seg.sn < limit)
    (descending : buf.Pairwise fun later earlier => offset base earlier.sn < offset base later.sn)
    (found : insertFromBack newseg buf = some inserted) :
    inserted.length = buf.length + 1 ∧
      inserted.Pairwise fun later earlier => offset base earlier.sn < offset base later.sn := by
  induction buf generalizing inserted with
  | nil =>
    obtain rfl := Option.some.inj found
    exact ⟨rfl, List.pairwise_singleton _ _⟩
  | cons seg earlier inductionHypothesis =>
    obtain ⟨here, others⟩ := List.forall_mem_cons.mp inside
    obtain ⟨lower, rest⟩ := List.pairwise_cons.mp descending
    have compared : itimediff newseg.sn seg.sn = offset base newseg.sn - offset base seg.sn :=
      distance_offset base newseg.sn seg.sn (by omega) (by omega)
    rw [insertFromBack] at found
    split at found
    · cases found
    case isFalse different =>
    split at found
    case isTrue later =>
      obtain rfl := Option.some.inj found
      have above : offset base seg.sn < offset base newseg.sn := by omega
      refine ⟨rfl, List.pairwise_cons.mpr ⟨fun other member => ?_, descending⟩⟩
      rcases List.mem_cons.mp member with rfl | member
      · exact above
      · exact Nat.lt_trans (lower other member) above
    case isFalse before =>
      obtain ⟨shorter, below, rfl⟩ := Option.map_eq_some_iff.mp found
      obtain ⟨size, ordered⟩ := inductionHypothesis shorter others rest below
      have under : offset base newseg.sn < offset base seg.sn := by
        have apart : offset base newseg.sn ≠ offset base seg.sn := by
          intro same
          exact different (offset_injective base _ _ same).symm
        omega
      refine ⟨by rw [List.length_cons, size]; rfl, List.pairwise_cons.mpr ⟨fun other member => ?_, ordered⟩⟩
      rcases Receive.insert_from_back_members newseg earlier shorter below other member with rfl | old
      · exact under
      · exact lower other old

/-- A segment that arrives, whatever its number, keeps the window. -/
theorem parse_data_receives (kcp : Receive.Ikcpcb) (newseg : Receive.Segment) (receives : Receives kcp) :
    Receives (ikcpParseData kcp newseg) := by
  unfold ikcpParseData
  split
  · exact receives
  case isFalse inside =>
  obtain ⟨half, queued, most, counted, ordered⟩ := receives
  have window : offset kcp.rcv_nxt newseg.sn < kcp.rcv_wnd.toNat := by
    refine (window_iff kcp.rcv_nxt kcp.rcv_wnd newseg.sn (by omega)).mp ⟨?_, ?_⟩
    · exact Int.not_le.mp fun beyond => inside (.inl beyond)
    · exact Int.not_lt.mp fun old => inside (.inr old)
  split
  case h_1 inserted found =>
    have members := Receive.insert_from_back_members newseg _ inserted found
    have before : ∀ seg ∈ kcp.rcv_buf, offset kcp.rcv_nxt seg.sn < kcp.rcv_wnd.toNat :=
      fun seg member => ordered.inside seg.sn (List.mem_map_of_mem member)
    have ascending : kcp.rcv_buf.Pairwise fun earlier later =>
        offset kcp.rcv_nxt earlier.sn < offset kcp.rcv_nxt later.sn := by
      have mapped := ordered.increasing
      rw [List.pairwise_map] at mapped
      exact mapped
    obtain ⟨size, descending⟩ := insert_from_back_ordered kcp.rcv_nxt _ half newseg window _ inserted
      (fun seg member => before seg (List.mem_reverse.mp member))
      (List.pairwise_reverse.mpr ascending) found
    refine move_loop_receives _ _ ⟨half, queued, most, ?_, ?_, ?_⟩
    · dsimp only
      rw [counted, count_more, List.length_reverse, size, List.length_reverse]
    · exact List.pairwise_map.mpr (List.pairwise_reverse.mpr descending)
    · intro number member
      obtain ⟨seg, kept, rfl⟩ := List.mem_map.mp member
      rcases members seg (List.mem_reverse.mp kept) with rfl | old
      · exact window
      · exact before seg (List.mem_reverse.mp old)
  case h_2 => exact move_loop_receives _ _ ⟨half, queued, most, counted, ordered⟩

/-! ## The sending side -/

/-- The numbers of the segments that a session keeps. -/
def numbers (session : Frame) : List Word := session.held.map (·.sn)

/-- The sending side keeps its segments within its window. -/
structure Flies (session : Frame) : Prop where
  half : session.snd_wnd.toNat < 2 ^ 31
  waiting : session.nsnd_que = BitVec.ofNat 32 session.snd_queue.length
  counted : session.nsnd_buf = BitVec.ofNat 32 session.held.length
  flight : offset session.snd_una session.snd_nxt ≤ session.snd_wnd.toNat
  ordered : Ordered session.snd_una (offset session.snd_una session.snd_nxt) (numbers session)

/-- The lowest number that is kept, or the next one when none is. -/
def lowest (session : Frame) : Word := ((numbers session).head?).getD session.snd_nxt

/-- ... and `snd_una` is the lowest of their numbers. -/
structure Sends (session : Frame) : Prop extends Flies session where
  una : session.snd_una = lowest session

/-- `ikcp_shrink_buf` counts from the lowest number that is kept. -/
theorem shrink_buf_frame (kcp : Ikcpcb) :
    frame (ikcpShrinkBuf kcp) = { frame kcp with snd_una := lowest (frame kcp) } := by
  unfold ikcpShrinkBuf
  cases buf : kcp.snd_buf with
  | nil => simp [frame, view, lowest, numbers, buf]
  | cons seg rest => simp [frame, view, lowest, numbers, buf, core]

/-- Counting from the lowest number that is kept puts the window right. -/
theorem shrink_buf_sends (session : Frame) (flies : Flies session) :
    Sends { session with snd_una := lowest session } := by
  obtain ⟨half, waiting, counted, flight, ordered⟩ := flies
  have same : ∀ una, numbers { session with snd_una := una } = numbers session := fun _ => rfl
  have again : ∀ una, lowest { session with snd_una := una } = lowest session := fun _ => rfl
  cases kept : numbers session with
  | nil =>
    have next : lowest session = session.snd_nxt := by rw [lowest, kept]; rfl
    refine ⟨⟨half, waiting, counted, ?_, ?_⟩, (again _).symm⟩
    · dsimp only
      rw [next, offset_self]
      exact Nat.zero_le _
    · rw [same, kept]
      exact ordered_nil _ _
  | cons first rest =>
    have least : lowest session = first := by rw [lowest, kept]; rfl
    rw [kept] at ordered
    have inside := ordered.inside first List.mem_cons_self
    have rebased := offset_rebase session.snd_una first session.snd_nxt (Nat.le_of_lt inside)
    refine ⟨⟨half, waiting, counted, ?_, ?_⟩, (again _).symm⟩
    · dsimp only
      rw [least, rebased]
      omega
    · dsimp only
      rw [same, kept, least, rebased]
      exact ordered.rebase_first

/-- Dropping segments from the front leaves the others in order, and counts them. -/
theorem drop_below_suffix (una nsnd_buf : Word) (segments : List Segment)
    (counted : nsnd_buf = BitVec.ofNat 32 segments.length) :
    (dropBelow una nsnd_buf segments).1 <:+ segments ∧
      (dropBelow una nsnd_buf segments).2 = BitVec.ofNat 32 (dropBelow una nsnd_buf segments).1.length := by
  induction segments generalizing nsnd_buf with
  | nil => exact ⟨List.suffix_refl _, counted⟩
  | cons seg rest inductionHypothesis =>
    rw [dropBelow]
    split
    · obtain ⟨suffix, count⟩ := inductionHypothesis (nsnd_buf - 1) (by rw [counted, List.length_cons, count_less])
      exact ⟨suffix.trans (List.suffix_cons _ _), count⟩
    · exact ⟨List.suffix_refl _, counted⟩

/-- Removing a number takes one segment out and keeps the order of the others. -/
theorem remove_number_sublist (sn : Word) (segments rest : List Segment)
    (removed : removeNumber sn segments = some rest) :
    rest.Sublist segments ∧ segments.length = rest.length + 1 := by
  induction segments generalizing rest with
  | nil => cases removed
  | cons seg later inductionHypothesis =>
    rw [removeNumber] at removed
    split at removed
    · obtain rfl := Option.some.inj removed
      exact ⟨List.sublist_cons_self _ _, rfl⟩
    split at removed
    · cases removed
    · obtain ⟨shorter, below, rfl⟩ := Option.map_eq_some_iff.mp removed
      obtain ⟨part, size⟩ := inductionHypothesis shorter below
      exact ⟨part.cons_cons _, by rw [List.length_cons, size, List.length_cons]⟩

/-- Fewer kept segments, rightly counted. -/
theorem flies_fewer (session : Frame) (held : List Core) (nsnd_buf : Word) (flies : Flies session)
    (part : held.Sublist session.held) (counted : nsnd_buf = BitVec.ofNat 32 held.length) :
    Flies { session with held := held, nsnd_buf := nsnd_buf } :=
  ⟨flies.half, flies.waiting, counted, flies.flight, flies.ordered.sublist (part.map _)⟩

/-- What the peer has received is dropped from the front, and the window stays filled in order.
-/
theorem parse_una_flies (kcp : Ikcpcb) (una : Word) (flies : Flies (frame kcp)) :
    Flies (frame (ikcpParseUna kcp una)) := by
  have length : (frame kcp).held.length = kcp.snd_buf.length := List.length_map _
  obtain ⟨suffix, counted⟩ := drop_below_suffix una kcp.nsnd_buf kcp.snd_buf
    (by rw [← length]; exact flies.counted)
  exact flies_fewer (frame kcp) _ _ flies (suffix.sublist.map core) (by rw [List.length_map]; exact counted)

/-- A segment that is acknowledged is taken out, and the window stays filled in order. -/
theorem parse_ack_flies (kcp : Ikcpcb) (sn : Word) (flies : Flies (frame kcp)) :
    Flies (frame (ikcpParseAck kcp sn)) := by
  unfold ikcpParseAck
  split
  · exact flies
  split
  case h_1 rest removed =>
    obtain ⟨part, size⟩ := remove_number_sublist sn kcp.snd_buf rest removed
    have counted : kcp.nsnd_buf = BitVec.ofNat 32 (rest.length + 1) := by
      have before : kcp.nsnd_buf = BitVec.ofNat 32 (kcp.snd_buf.map core).length := flies.counted
      rw [before, List.length_map, size]
    refine flies_fewer (frame kcp) _ _ flies (part.map core) ?_
    rw [counted, count_less, List.length_map]
  case h_2 => exact flies

/-- The header of a packet keeps the sending side right, whatever it says. -/
theorem input_header_sends (kcp : Ikcpcb) (packet : Packet) (sends : Sends (frame kcp)) :
    Sends (frame (inputHeader kcp packet)) := by
  rw [inputHeader, shrink_buf_frame]
  exact shrink_buf_sends _ (parse_una_flies { kcp with rmt_wnd := packet.wnd.setWidth 32 } packet.una sends.toFlies)

/-- So does an acknowledgement, whatever it acknowledges. -/
theorem input_ack_sends (kcp : Ikcpcb) (packet : Packet) (sends : Sends (frame kcp)) :
    Sends (frame (inputAck kcp packet)) := by
  have timed : frame (if 0 ≤ itimediff kcp.current packet.ts then
      ikcpUpdateAck kcp (kcp.current - packet.ts) else kcp) = frame kcp := by
    rw [apply_ite frame, update_ack_frame, ite_self]
  rw [inputAck, shrink_buf_frame]
  refine shrink_buf_sends _ (parse_ack_flies _ packet.sn ?_)
  rw [timed]
  exact sends.toFlies

/-! ## A session -/

/-- Both sides of a session keep their segments within their windows. -/
structure Contained (kcp : Ikcpcb) : Prop where
  receives : Receives kcp.toIkcpcb
  sends : Sends (frame kcp)

/-- The sending side does not depend on the receiving one. -/
theorem sends_receiving (session : Frame) (receiving : Receive.Ikcpcb) (acklist : List (Word × Word))
    (sends : Sends session) : Sends { session with receiving := receiving, acklist := acklist } :=
  ⟨⟨sends.half, sends.waiting, sends.counted, sends.flight, sends.ordered⟩, sends.una⟩

/-- A packet of data keeps the session contained, whatever its number. -/
theorem input_push_contained (kcp : Ikcpcb) (packet : Packet) (contained : Contained kcp) :
    Contained (inputPush kcp packet) := by
  obtain ⟨receives, sends⟩ := contained
  unfold inputPush
  split
  · dsimp only
    split
    · exact ⟨parse_data_receives _ _ receives, sends_receiving (frame kcp) _ _ sends⟩
    · exact ⟨receives, sends_receiving (frame kcp) kcp.toIkcpcb _ sends⟩
  · exact ⟨receives, sends⟩

/-- Whatever a packet holds, the session stays contained. -/
theorem input_packet_contained (reading : Reading) (packet : Packet) (contained : Contained reading.kcp) :
    Contained (inputPacket reading packet).kcp := by
  have header : Contained (inputHeader reading.kcp packet) := by
    refine ⟨?_, input_header_sends reading.kcp packet contained.sends⟩
    have same : (inputHeader reading.kcp packet).toIkcpcb = reading.kcp.toIkcpcb := by
      obtain ⟨held, -, seen⟩ := input_header_view reading.kcp packet
      exact congrArg View.receiving seen
    rw [same]
    exact contained.receives
  unfold inputPacket
  generalize inputHeader reading.kcp packet = kcp at header
  split
  · refine ⟨?_, input_ack_sends kcp packet header.sends⟩
    have same : (inputAck kcp packet).toIkcpcb = kcp.toIkcpcb := by
      obtain ⟨held, -, seen⟩ := input_ack_view kcp packet
      exact congrArg View.receiving seen
    dsimp only
    rw [same]
    exact header.receives
  split
  · exact input_push_contained kcp packet header
  split
  · exact ⟨header.receives, header.sends⟩
  · exact header

/-- What keeps the frame keeps the session contained. -/
theorem contained_frame (kcp other : Ikcpcb) (same : frame other = frame kcp) (contained : Contained kcp) :
    Contained other := by
  refine ⟨?_, by rw [same]; exact contained.sends⟩
  have receiving : other.toIkcpcb = kcp.toIkcpcb := congrArg (fun session => session.receiving) same
  rw [receiving]
  exact contained.receives

/-- Whatever bytes arrive, the session stays contained. -/
theorem input_contained (kcp : Ikcpcb) (data : List Byte) (contained : Contained kcp) :
    Contained (ikcpInput kcp data).1 :=
  input_any Contained input_packet_contained contained_frame kcp data contained

/-- Filling the last segment that waits changes it and no count. -/
theorem fill_last_frame (kcp : Ikcpcb) (buffer : List Byte) :
    ∃ queue : List Fragment, queue.length = kcp.snd_queue.length ∧
      frame (fillLast kcp buffer).1 = { frame kcp with snd_queue := queue } := by
  unfold fillLast
  cases last : kcp.snd_queue.getLast? with
  | none => exact ⟨kcp.snd_queue, rfl, rfl⟩
  | some old =>
    dsimp only
    split
    · refine ⟨_, ?_, rfl⟩
      have some : kcp.snd_queue ≠ [] := by
        intro empty
        rw [empty] at last
        cases last
      rw [List.length_append, List.length_dropLast, List.length_singleton]
      have positive := List.length_pos_iff.mpr some
      omega
    · exact ⟨kcp.snd_queue, rfl, rfl⟩

/-- Putting the parts of a message into the queue counts them. -/
theorem queue_parts_contained (kcp : Ikcpcb) (buffer : List Byte) (contained : Contained kcp) :
    Contained (queueParts kcp buffer).1 := by
  unfold queueParts
  dsimp only
  split
  · exact contained
  · obtain ⟨receives, ⟨half, waiting, counted, flight, ordered⟩, una⟩ := contained
    refine ⟨receives, ⟨⟨half, ?_, counted, flight, ordered⟩, una⟩⟩
    have queued : kcp.nsnd_que = BitVec.ofNat 32 kcp.snd_queue.length := waiting
    dsimp only [frame, view]
    rw [queued, ← BitVec.ofNat_add, List.length_append]

/-- `ikcp_send` keeps the session contained in both modes. -/
theorem send_contained (kcp : Ikcpcb) (buffer : List Byte) (contained : Contained kcp) :
    Contained (ikcpSend kcp buffer).1 := by
  unfold ikcpSend
  split
  · exact contained
  split
  · obtain ⟨queue, length, seen⟩ := fill_last_frame kcp buffer
    have filled : Contained (fillLast kcp buffer).1 := by
      obtain ⟨receives, ⟨half, waiting, counted, flight, ordered⟩, una⟩ := contained
      have receiving : (fillLast kcp buffer).1.toIkcpcb = kcp.toIkcpcb :=
        congrArg (fun session => session.receiving) seen
      refine ⟨by rw [receiving]; exact receives, ?_⟩
      rw [seen]
      refine ⟨⟨half, ?_, counted, flight, ordered⟩, una⟩
      dsimp only
      rw [length]
      exact waiting
    cases outcome : fillLast kcp buffer with
    | mk after rest =>
      rw [outcome] at filled
      dsimp only
      split
      · exact filled
      · exact queue_parts_contained after rest filled
  · exact queue_parts_contained kcp buffer contained

/-! ## Numbering -/

/-- As many segments as the window allows stay within it. -/
theorem allowed_flight (session : Frame) (flies : Flies session) (cwnd : Word) (least : cwnd ≤ session.snd_wnd)
    (count : Nat) (before : ∀ index < count,
      itimediff (session.snd_nxt + BitVec.ofNat 32 index) (session.snd_una + cwnd) < 0) :
    offset session.snd_una session.snd_nxt + count ≤ session.snd_wnd.toNat := by
  have half := flies.half
  have most : cwnd.toNat ≤ session.snd_wnd.toNat := BitVec.le_def.mp least
  induction count with
  | zero => exact flies.flight
  | succ count inductionHypothesis =>
    have room := inductionHypothesis fun index below => before index (Nat.lt_succ_of_lt below)
    have last := before count (Nat.lt_succ_self count)
    have reached : offset session.snd_una (session.snd_nxt + BitVec.ofNat 32 count) =
        offset session.snd_una session.snd_nxt + count := offset_advance _ _ _ (by omega)
    have end_window : offset session.snd_una (session.snd_una + cwnd) = cwnd.toNat := by
      rw [offset, add_sub_cancel_left]
    have compared : itimediff (session.snd_nxt + BitVec.ofNat 32 count) (session.snd_una + cwnd) = _ :=
      distance_offset session.snd_una _ _ (by rw [reached]; omega) (by rw [end_window]; omega)
    rw [compared, reached, end_window] at last
    omega

/-- Consecutive numbers behind the others are in order. -/
theorem numbered_ordered (base conv sn : Word) (limit : Nat) (earlier : List Word) (parts : List Fragment)
    (near : limit + parts.length < 2 ^ 32) (ordered : Ordered base limit earlier)
    (next : offset base sn = limit) :
    Ordered base (limit + parts.length) (earlier ++ (numbered conv sn parts).map (·.sn)) := by
  induction parts generalizing sn limit earlier with
  | nil =>
    rw [numbered, List.map_nil, List.append_nil]
    exact ordered
  | cons part rest inductionHypothesis =>
    rw [List.length_cons] at near
    have following : offset base (sn + 1) = limit + 1 := by
      rw [← next]
      exact offset_advance base sn 1 (by omega)
    have more := inductionHypothesis (sn + 1) (limit + 1) (earlier ++ [sn]) (by omega)
      (ordered.snoc sn next) following
    rw [List.append_assoc, List.singleton_append] at more
    rw [numbered, List.map_cons, List.length_cons, Nat.add_comm rest.length, ← Nat.add_assoc]
    exact more

/-- Each part that is numbered becomes one segment. -/
theorem numbered_length (conv sn : Word) (parts : List Fragment) :
    (numbered conv sn parts).length = parts.length := by
  induction parts generalizing sn with
  | nil => rfl
  | cons part rest inductionHypothesis => rw [numbered, List.length_cons, List.length_cons, inductionHypothesis]

/-- Numbering as many segments as the window allows keeps the sending side right. -/
theorem number_sends (session : Frame) (sends : Sends session) (cwnd : Word) (least : cwnd ≤ session.snd_wnd)
    (count : Nat) (allows : Allows session cwnd count) : Sends (numberFrame session count) := by
  obtain ⟨inside, before, -⟩ := allows
  obtain ⟨⟨half, waiting, counted, flight, ordered⟩, una⟩ := sends
  have room := allowed_flight session ⟨half, waiting, counted, flight, ordered⟩ cwnd least count before
  have reached : offset session.snd_una (session.snd_nxt + BitVec.ofNat 32 count) =
      offset session.snd_una session.snd_nxt + count := offset_advance _ _ _ (by omega)
  have taken : (session.snd_queue.take count).length = count := List.length_take_of_le inside
  have all : numbers (numberFrame session count) = numbers session ++
      (numbered session.receiving.conv session.snd_nxt (session.snd_queue.take count)).map (·.sn) :=
    List.map_append
  refine ⟨⟨half, ?_, ?_, ?_, ?_⟩, ?_⟩
  · have split : BitVec.ofNat 32 session.snd_queue.length =
        BitVec.ofNat 32 (session.snd_queue.length - count) + BitVec.ofNat 32 count := by
      rw [← BitVec.ofNat_add, Nat.sub_add_cancel inside]
    simp only [numberFrame, number, waiting, List.length_drop]
    rw [split, add_sub_cancel_right]
  · simp only [numberFrame, number, counted, List.length_append, numbered_length, taken]
    rw [BitVec.ofNat_add]
  · simp only [numberFrame, number, reached]
    exact room
  · rw [all]
    simp only [numberFrame, number, reached]
    have more := numbered_ordered session.snd_una session.receiving.conv session.snd_nxt _ _
      (session.snd_queue.take count) (by rw [taken]; omega) ordered rfl
    rw [taken] at more
    exact more
  · rw [lowest, all]
    cases kept : numbers session with
    | cons first rest => exact una.trans (by rw [lowest, kept]; rfl)
    | nil =>
      have next : session.snd_una = session.snd_nxt := una.trans (by rw [lowest, kept]; rfl)
      cases parts : session.snd_queue.take count with
      | cons part rest => exact next
      | nil =>
        have none : count = 0 := by
          rw [parts] at taken
          exact taken.symm
        subst none
        simp only [numberFrame, number]
        rw [BitVec.add_zero]
        exact next

/-- A flush keeps the session contained. -/
theorem flush_contained (kcp : Ikcpcb) (contained : Contained kcp) : Contained (ikcpFlush kcp).1 := by
  by_cases early : kcp.updated = 0
  · have nothing : ikcpFlush kcp = (kcp, []) := if_pos early
    rw [nothing]
    exact contained
  obtain ⟨count, cwnd, least, allows, target, after⟩ := flush_frame kcp early
  have final := after.trans target
  have receiving : (ikcpFlush kcp).1.toIkcpcb = kcp.toIkcpcb :=
    congrArg (fun session => session.receiving) final
  refine ⟨by rw [receiving]; exact contained.receives, ?_⟩
  rw [final]
  exact number_sends { frame kcp with acklist := [] }
    (sends_receiving (frame kcp) kcp.toIkcpcb [] contained.sends) cwnd least count allows

/-- So does an update, whether it flushes or not. -/
theorem update_contained (kcp : Ikcpcb) (current : Word) (contained : Contained kcp) :
    Contained (ikcpUpdate kcp current).1 := by
  obtain ⟨ready, same, updated⟩ := update_flushes kcp current
  have ready_contained := contained_frame kcp ready same contained
  rcases updated with flushes | waits
  · rw [flushes]
    exact flush_contained ready ready_contained
  · rw [waits]
    exact ready_contained

/-! ## Messages -/

/-- Taking a message leaves the rest of the queue, rightly counted. -/
theorem merge_loop_suffix {size : Nat} (kcp : Receive.Ikcpcb) (buffer : Block size) (len : Nat)
    (queue : List Receive.Segment) (result : Receive.Ikcpcb × Block size × Nat)
    (counted : kcp.nrcv_que = BitVec.ofNat 32 queue.length)
    (merged : Receive.mergeLoop kcp buffer len queue = .ok result) :
    ∃ rest, rest <:+ queue ∧
      result.1 = { kcp with rcv_queue := rest, nrcv_que := BitVec.ofNat 32 rest.length } := by
  induction queue generalizing kcp buffer len with
  | nil =>
    obtain rfl := Except.ok.inj merged
    refine ⟨[], List.suffix_refl _, ?_⟩
    rw [← counted]
  | cons seg rest inductionHypothesis =>
    rw [Receive.mergeLoop] at merged
    have fewer : kcp.nrcv_que - 1 = BitVec.ofNat 32 rest.length := by
      rw [counted, List.length_cons, count_less]
    split at merged
    · cases merged
    dsimp only at merged
    split at merged
    · obtain rfl := Except.ok.inj merged
      exact ⟨rest, List.suffix_cons _ _, by rw [fewer]⟩
    · obtain ⟨left, suffix, same⟩ := inductionHypothesis _ _ _ fewer merged
      exact ⟨left, suffix.trans (List.suffix_cons _ _), same⟩

/-- Taking a message keeps the receiving side within its window. -/
theorem recv_receives {size : Nat} (kcp : Receive.Ikcpcb) (buffer : Block size) (len : Int)
    (result : Receive.Ikcpcb × Block size × Int) (receives : Receives kcp)
    (received : Receive.ikcpRecv kcp buffer len = .ok result) : Receives result.1 := by
  unfold Receive.ikcpRecv at received
  split at received
  · obtain rfl := Except.ok.inj received
    exact receives
  split at received
  · obtain rfl := Except.ok.inj received
    exact receives
  split at received
  · obtain rfl := Except.ok.inj received
    exact receives
  cases merged : Receive.mergeLoop kcp buffer 0 kcp.rcv_queue with
  | error fault =>
    rw [merged] at received
    cases received
  | ok outcome =>
    rw [merged] at received
    obtain rfl := Except.ok.inj received
    obtain ⟨rest, suffix, same⟩ := merge_loop_suffix kcp buffer 0 kcp.rcv_queue outcome receives.queued merged
    dsimp only
    rw [same]
    refine move_loop_receives _ _ ⟨receives.half, rfl, ?_, receives.counted, receives.ordered⟩
    exact Nat.le_trans suffix.length_le receives.most

/-- `ikcp_recv` keeps the session contained. -/
theorem recv_contained {size : Nat} (kcp : Ikcpcb) (buffer : Block size) (len : Int)
    (result : Ikcpcb × Block size × Int) (contained : Contained kcp)
    (received : ikcpRecv kcp buffer len = .ok result) : Contained result.1 := by
  unfold ikcpRecv at received
  cases inner : Receive.ikcpRecv kcp.toIkcpcb buffer len with
  | error fault =>
    rw [inner] at received
    cases received
  | ok outcome =>
    have receives := recv_receives kcp.toIkcpcb buffer len outcome contained.receives inner
    have sends := sends_receiving (frame kcp) outcome.1 kcp.acklist contained.sends
    rw [inner] at received
    dsimp only at received
    split at received
    · obtain rfl := Except.ok.inj received
      exact ⟨receives, sends⟩
    · obtain rfl := Except.ok.inj received
      exact ⟨receives, sends⟩

/-! ## Runs -/

/-- A call of the program. Any bytes can arrive. -/
inductive Call where
  | send (buffer : List Byte)
  | update (current : Word)
  | flush
  | input (data : List Byte)
  | recv (size : Nat)
  deriving DecidableEq, Repr

/-- The session after a flush or an update that kept to its buffer. -/
def sent (kcp : Ikcpcb) (result : Ikcpcb × List (List Byte)) : Except (Fault × Ikcpcb) Ikcpcb :=
  match withinBuffer kcp result with
  | .error fault => .error (fault, kcp)
  | .ok (kcp, _) => .ok kcp

def step (kcp : Ikcpcb) : Call → Except (Fault × Ikcpcb) Ikcpcb
  | .send buffer => .ok (ikcpSend kcp buffer).1
  | .update current => sent kcp (ikcpUpdate kcp current)
  | .flush => sent kcp (ikcpFlush kcp)
  | .input data => .ok (ikcpInput kcp data).1
  | .recv size =>
    match ikcpRecv kcp (Block.uniform size 0) size with
    | .error fault => .error (fault, kcp)
    | .ok (kcp, _, _) => .ok kcp

/-- A call of a roomy session returns, and leaves the session roomy and contained. -/
theorem step_contained (kcp : Ikcpcb) (call : Call) (invariant : Roomy (view kcp) ∧ Contained kcp) :
    ∃ next, step kcp call = .ok next ∧ Roomy (view next) ∧ Contained next := by
  obtain ⟨roomy, contained⟩ := invariant
  cases call with
  | send buffer => exact ⟨_, rfl, send_roomy kcp buffer roomy, send_contained kcp buffer contained⟩
  | update current =>
    refine ⟨_, ?_, update_roomy kcp current roomy, update_contained kcp current contained⟩
    rw [step, sent, update_within kcp current roomy]
  | flush =>
    refine ⟨_, ?_, flush_roomy kcp roomy, flush_contained kcp contained⟩
    rw [step, sent, flush_within kcp roomy]
  | input data => exact ⟨_, rfl, input_roomy kcp data roomy, input_contained kcp data contained⟩
  | recv size =>
    obtain ⟨after, filled, answer, called, rest⟩ := recv_roomy kcp size roomy
    refine ⟨after, ?_, rest, recv_contained kcp _ _ _ contained called⟩
    rw [step, called]

/-- A session that keeps nothing yet. -/
structure Blank (session : Frame) : Prop where
  queue : session.receiving.rcv_queue = [] ∧ session.receiving.nrcv_que = 0
  buf : session.receiving.rcv_buf = [] ∧ session.receiving.nrcv_buf = 0
  waiting : session.snd_queue = [] ∧ session.nsnd_que = 0
  held : session.held = [] ∧ session.nsnd_buf = 0
  una : session.snd_una = session.snd_nxt
  rcv_wnd : session.receiving.rcv_wnd.toNat < 2 ^ 31
  snd_wnd : session.snd_wnd.toNat < 2 ^ 31

/-- A session that keeps nothing yet is contained. -/
theorem blank_contained (kcp : Ikcpcb) (blank : Blank (frame kcp)) : Contained kcp := by
  obtain ⟨⟨queue, que⟩, ⟨buf, nbuf⟩, ⟨waiting, nque⟩, ⟨held, count⟩, una, rcv_wnd, snd_wnd⟩ := blank
  have none : numbers (frame kcp) = [] := by rw [numbers, held, List.map_nil]
  change kcp.rcv_queue = [] at queue
  change kcp.rcv_buf = [] at buf
  refine ⟨⟨rcv_wnd, que.trans ?_, ?_, nbuf.trans ?_, ?_⟩, ⟨⟨snd_wnd, ?_, ?_, ?_, ?_⟩, ?_⟩⟩
  · rw [queue]
    rfl
  · rw [queue]
    exact Nat.zero_le _
  · rw [buf]
    rfl
  · rw [buf]
    exact ordered_nil _ _
  · rw [nque, waiting]
    rfl
  · rw [count, held]
    rfl
  · rw [una, offset_self]
    exact Nat.zero_le _
  · rw [none]
    exact ordered_nil _ _
  · rw [lowest, none]
    exact una

/-- A window that a program sets is not negative. -/
theorem window_positive (size : Word) (positive : 0 < size.toInt) :
    (BitVec.ofInt 32 size.toInt).toNat < 2 ^ 31 := by
  rw [BitVec.ofInt_toInt]
  rw [BitVec.toInt_eq_toNat_cond] at positive
  have bound := size.isLt
  split at positive
  · omega
  · omega

/-- Setting the windows leaves a session with nothing in it and windows that are no negative
numbers. -/
theorem wndsize_blank (kcp : Ikcpcb) (sndwnd rcvwnd : Word) (blank : Blank (frame kcp)) :
    Blank (frame (ikcpWndsize kcp sndwnd.toInt rcvwnd.toInt)) := by
  have sent : Blank (frame
      (if 0 < sndwnd.toInt then { kcp with snd_wnd := BitVec.ofInt 32 sndwnd.toInt } else kcp)) := by
    split
    case isTrue positive => exact { blank with snd_wnd := window_positive sndwnd positive }
    case isFalse => exact blank
  unfold ikcpWndsize Receive.ikcpWndsize
  generalize (if 0 < sndwnd.toInt then { kcp with snd_wnd := BitVec.ofInt 32 sndwnd.toInt } else kcp) = next at sent
  dsimp only
  by_cases positive : 0 < rcvwnd.toInt
  · rw [if_pos positive]
    refine { sent with rcv_wnd := ?_ }
    dsimp only [frame, view]
    unfold Receive.imax
    split
    · exact window_positive rcvwnd positive
    · decide
  · rw [if_neg positive]
    exact sent

/-- Setting the `mtu` leaves a session with nothing in it. -/
theorem setmtu_blank (kcp : Ikcpcb) (mtu : Int) (blank : Blank (frame kcp)) :
    Blank (frame (ikcpSetmtu kcp mtu).1) := by
  unfold ikcpSetmtu
  split
  · exact blank
  · exact { blank with }

/-- So does every setting. -/
theorem setting_blank (kcp : Ikcpcb) (setting : Transfer.Setting) (blank : Blank (frame kcp)) :
    Blank (frame (Transfer.Setting.apply kcp setting)) := by
  cases setting with
  | setmtu mtu => exact setmtu_blank kcp mtu.value.toInt blank
  | interval milliseconds => exact blank
  | nodelay mode milliseconds resend nc =>
    rw [Transfer.Setting.apply, Transfer.nodelay_frame]
    exact blank
  | wndsize sndwnd rcvwnd => exact wndsize_blank kcp sndwnd rcvwnd blank
  | minrto rx_minrto => exact blank
  | fastresend resend => exact blank

/-- A session with its settings, in message mode or in stream mode. -/
def start (conv stream : Word) (settings : List Transfer.Setting) : Ikcpcb :=
  { settings.foldl Transfer.Setting.apply (ikcpCreate conv) with stream := stream }

/-- A session with its settings is contained before its first call. -/
theorem start_contained (conv stream : Word) (settings : List Transfer.Setting) :
    Contained (start conv stream settings) := by
  have applied : ∀ kcp : Ikcpcb, Blank (frame kcp) →
      Blank (frame (settings.foldl Transfer.Setting.apply kcp)) := by
    induction settings with
    | nil => exact fun _ blank => blank
    | cons setting rest inductionHypothesis =>
      exact fun kcp blank => inductionHypothesis _ (setting_blank kcp setting blank)
  have created : Blank (frame (ikcpCreate conv)) :=
    ⟨⟨rfl, rfl⟩, ⟨rfl, rfl⟩, ⟨rfl, rfl⟩, ⟨rfl, rfl⟩, rfl, (by decide : IKCP_WND_RCV.toNat < 2 ^ 31),
      (by decide : IKCP_WND_SND.toNat < 2 ^ 31)⟩
  exact blank_contained _ { applied _ created with }

/-- A session with its settings has room in its buffer, in both modes. -/
theorem start_roomy (conv stream : Word) (settings : List Transfer.Setting) :
    Roomy (view (start conv stream settings)) := by
  have roomy := Transfer.unused_roomy conv _ (Transfer.start_unused conv settings)
  exact ⟨⟨roomy.range, roomy.room, roomy.waiting, roomy.kept⟩, roomy.whole, roomy.buffer⟩

end IotCamera.Kcp.Windows
