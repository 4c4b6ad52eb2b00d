import IotCamera.Base.Memory
import IotCamera.Base.Runs

/-!
# Receiving KCP messages

The receiving side of `ikcp.c` and the thread of `udpkcp.cpp` that drives it. A
datagram holds segments behind headers of 24 bytes. `ikcp_input` keeps those of the
window in order of their numbers, and moves them to a queue as soon as none is missing;
`ikcp_recv` takes a message from the queue, which is the segments up to one with the
fragment number zero, and copies it into the caller's buffer if it is not longer than the
caller says. `udp_msg_sender` has a buffer of `BUFF_LEN` bytes and says 1024.

What the segments, the headers and the control block hold for the sending side is left
out, since nothing here reads it: acknowledgements, round trip times and windows of the
peer. A queue is a list from its front to its back.
-/

namespace IotCamera.Kcp.Receive

open Memory

def IKCP_CMD_PUSH : Byte := 81
def IKCP_CMD_ACK : Byte := 82
def IKCP_CMD_WASK : Byte := 83
def IKCP_CMD_WINS : Byte := 84
def IKCP_WND_RCV : Word := 128
def IKCP_OVERHEAD : Nat := 24

/-- `IKCPSEG`. -/
structure Segment where
  frg : Word
  sn : Word
  data : List Byte
  deriving DecidableEq, Repr

/-- `IKCPCB`. -/
structure Ikcpcb where
  conv : Word
  rcv_nxt : Word
  rcv_wnd : Word
  rcv_queue : List Segment
  rcv_buf : List Segment
  nrcv_que : Word
  nrcv_buf : Word
  deriving DecidableEq, Repr

def ikcpCreate (conv : Word) : Ikcpcb := ⟨conv, 0, IKCP_WND_RCV, [], [], 0, 0⟩

def imax (a b : Word) : Word := if b ≤ a then a else b

/-- The receiving window that `ikcp_wndsize` sets. -/
def ikcpWndsize (kcp : Ikcpcb) (rcvwnd : Int) : Ikcpcb :=
  if 0 < rcvwnd then { kcp with rcv_wnd := imax (BitVec.ofInt 32 rcvwnd) IKCP_WND_RCV } else kcp

/-- The session of `udpkcp.cpp`. -/
def initKCP : Ikcpcb := ikcpWndsize (ikcpCreate 1) 2048

/-- The signed distance of two numbers. -/
def itimediff (later earlier : Word) : Int := (later - earlier).toInt

/-- A number of four bytes, the lowest first. -/
def ikcpDecode32u (data : List Byte) : Word :=
  promote (data.getD 0 0) ||| promote (data.getD 1 0) <<< 8 ||| promote (data.getD 2 0) <<< 16 |||
    promote (data.getD 3 0) <<< 24

/-- Look for the place of a segment from the back of the buffer, which is given from back
to front: behind the first one with a lower number, unless its own number is there. -/
def insertFromBack (newseg : Segment) : List Segment → Option (List Segment)
  | [] => some [newseg]
  | seg :: earlier =>
    if seg.sn = newseg.sn then none
    else if 0 < itimediff newseg.sn seg.sn then some (newseg :: seg :: earlier)
    else (insertFromBack newseg earlier).map (seg :: ·)

/-- Move segments to the queue while the next number is at the front of the buffer. -/
def moveLoop (kcp : Ikcpcb) : List Segment → Ikcpcb
  | [] => { kcp with rcv_buf := [] }
  | seg :: rest =>
    if seg.sn = kcp.rcv_nxt ∧ kcp.nrcv_que < kcp.rcv_wnd then
      moveLoop
        { kcp with
          nrcv_buf := kcp.nrcv_buf - 1
          rcv_queue := kcp.rcv_queue ++ [seg]
          nrcv_que := kcp.nrcv_que + 1
          rcv_nxt := kcp.rcv_nxt + 1 } rest
    else { kcp with rcv_buf := seg :: rest }

def moveAvailable (kcp : Ikcpcb) : Ikcpcb := moveLoop kcp kcp.rcv_buf

/-- Keep a segment of the window, once. -/
def ikcpParseData (kcp : Ikcpcb) (newseg : Segment) : Ikcpcb :=
  if 0 ≤ itimediff newseg.sn (kcp.rcv_nxt + kcp.rcv_wnd) ∨ itimediff newseg.sn kcp.rcv_nxt < 0 then kcp
  else
    match insertFromBack newseg kcp.rcv_buf.reverse with
    | some inserted =>
      moveAvailable { kcp with rcv_buf := inserted.reverse, nrcv_buf := kcp.nrcv_buf + 1 }
    | none => moveAvailable kcp

/-- What a segment with the given command does to the receiving side. -/
def inputSegment (kcp : Ikcpcb) (cmd : Byte) (newseg : Segment) : Ikcpcb :=
  if cmd = IKCP_CMD_PUSH ∧ itimediff newseg.sn (kcp.rcv_nxt + kcp.rcv_wnd) < 0 ∧
      0 ≤ itimediff newseg.sn kcp.rcv_nxt then
    ikcpParseData kcp newseg
  else kcp

/-- The loop of `ikcp_input` over the segments of a datagram. Each pass takes at least a
header, so there are fewer passes than bytes. -/
def inputLoop : Nat → Ikcpcb → List Byte → Ikcpcb × Int
  | 0, kcp, _ => (kcp, 0)
  | passes + 1, kcp, data =>
    if data.length < IKCP_OVERHEAD then (kcp, 0)
    else if ikcpDecode32u data ≠ kcp.conv then (kcp, -1)
    else
      let cmd := data.getD 4 0
      let frg := data.getD 5 0
      let sn := ikcpDecode32u (data.drop 12)
      let len := ikcpDecode32u (data.drop 20)
      let behind := data.drop IKCP_OVERHEAD
      if behind.length < len.toNat ∨ len.toInt < 0 then (kcp, -2)
      else if cmd ≠ IKCP_CMD_PUSH ∧ cmd ≠ IKCP_CMD_ACK ∧ cmd ≠ IKCP_CMD_WASK ∧
          cmd ≠ IKCP_CMD_WINS then (kcp, -3)
      else
        inputLoop passes (inputSegment kcp cmd ⟨promote frg, sn, behind.take len.toNat⟩)
          (behind.drop len.toNat)

def ikcpInput (kcp : Ikcpcb) (data : List Byte) : Ikcpcb × Int :=
  if data.length < IKCP_OVERHEAD then (kcp, -1) else inputLoop data.length kcp data

/-- The bytes of the segments up to the first with the fragment number zero. -/
def messageLength : List Segment → Nat
  | [] => 0
  | seg :: rest => seg.data.length + if seg.frg = 0 then 0 else messageLength rest

/-- The size of the message at the front of the queue, if all of it is there. -/
def ikcpPeeksize (kcp : Ikcpcb) : Int :=
  match kcp.rcv_queue with
  | [] => -1
  | seg :: _ =>
    if seg.frg = 0 then seg.data.length
    else if kcp.nrcv_que < seg.frg + 1 then -1
    else messageLength kcp.rcv_queue

/-- Copy the segments of a message into the buffer from an offset on, and take them off
the queue. -/
def mergeLoop {size : Nat} (kcp : Ikcpcb) (buffer : Block size) (len : Nat) :
    List Segment → Except Fault (Ikcpcb × Block size × Nat)
  | [] => .ok ({ kcp with rcv_queue := [] }, buffer, len)
  | seg :: rest =>
    match buffer.memcpy len (Block.ofBytes seg.data) 0 seg.data.length with
    | .error fault => .error fault
    | .ok buffer =>
      let kcp := { kcp with rcv_queue := rest, nrcv_que := kcp.nrcv_que - 1 }
      if seg.frg = 0 then .ok (kcp, buffer, len + seg.data.length)
      else mergeLoop kcp buffer (len + seg.data.length) rest

/-- Take a message of at most `len` bytes, for a `len` that is not negative. -/
def ikcpRecv {size : Nat} (kcp : Ikcpcb) (buffer : Block size) (len : Int) :
    Except Fault (Ikcpcb × Block size × Int) :=
  if kcp.rcv_queue = [] then .ok (kcp, buffer, -1)
  else if ikcpPeeksize kcp < 0 then .ok (kcp, buffer, -2)
  else if len < ikcpPeeksize kcp then .ok (kcp, buffer, -3)
  else
    match mergeLoop kcp buffer 0 kcp.rcv_queue with
    | .error fault => .error fault
    | .ok (kcp, buffer, len) => .ok (moveAvailable kcp, buffer, len)

def BUFF_LEN : Nat := 512

/-- Where `udp_msg_sender` stands: at `recvfrom`, or in its inner loop at `ikcp_recv`. -/
inductive Place where
  | recvfrom
  | ikcpRecv
  deriving DecidableEq, Repr

/-- The session and the thread that receives. -/
structure Receiver where
  kcp1 : Ikcpcb
  buffer : Block BUFF_LEN
  place : Place

def Receiver.start : Receiver := ⟨initKCP, .uniform BUFF_LEN 0, .recvfrom⟩

/-- What can come next: a datagram arrives, the inner loop makes its next call, or the
other thread replaces the session, which it can only while this one does not hold the
lock. -/
inductive Event where
  | datagram (data : List Byte)
  | recv
  | replaced
  deriving DecidableEq, Repr

/-- One event; one that cannot be next changes nothing. `recvfrom` cuts a datagram to the
size of the buffer, and a call that returns no message ends the inner loop. -/
def Receiver.step (receiver : Receiver) : Event → Except (Fault × Receiver) Receiver
  | .datagram data =>
    match receiver.place with
    | .recvfrom =>
      let received := data.take BUFF_LEN
      .ok
        { kcp1 := (ikcpInput receiver.kcp1 received).1
          buffer := (Block.uniform BUFF_LEN 0).store 0 received
          place := .ikcpRecv }
    | .ikcpRecv => .ok receiver
  | .recv =>
    match receiver.place with
    | .recvfrom => .ok receiver
    | .ikcpRecv =>
      match Receive.ikcpRecv receiver.kcp1 receiver.buffer 1024 with
      | .error fault => .error (fault, receiver)
      | .ok (kcp1, buffer, hr) => .ok ⟨kcp1, buffer, if hr ≤ 0 then .recvfrom else .ikcpRecv⟩
  | .replaced =>
    match receiver.place with
    | .recvfrom => .ok { receiver with kcp1 := initKCP }
    | .ikcpRecv => .ok receiver

/-- Copying a message takes as many bytes as it has, and goes wrong exactly when these do
not fit behind the offset. -/
theorem merge_loop_iff {size : Nat} (kcp : Ikcpcb) (buffer : Block size) (len : Nat) (start : len ≤ size)
    (queue : List Segment) :
    (∃ result, mergeLoop kcp buffer len queue = .ok result) ↔ len + messageLength queue ≤ size := by
  induction queue generalizing kcp buffer len with
  | nil => exact iff_of_true ⟨_, rfl⟩ start
  | cons seg rest inductionHypothesis =>
    by_cases fits : len + seg.data.length ≤ size
    · obtain ⟨copied, copy, -, -⟩ := buffer.memcpy_inside len (Block.ofBytes seg.data) 0 seg.data.length
        fits (by omega)
      simp only [mergeLoop, copy, messageLength]
      by_cases last : seg.frg = 0
      · simp only [if_pos last]
        exact iff_of_true ⟨_, rfl⟩ fits
      · simp only [if_neg last]
        rw [inductionHypothesis _ copied (len + seg.data.length) fits, Nat.add_assoc]
    · have failed := buffer.memcpy_outside len (Block.ofBytes seg.data) 0 seg.data.length
        (fun inside => fits inside.1)
      simp only [mergeLoop, failed, messageLength]
      exact iff_of_false (fault_no_result _) (by omega)

/-- An empty queue has no message. -/
theorem peeksize_empty (kcp : Ikcpcb) (empty : kcp.rcv_queue = []) : ikcpPeeksize kcp = -1 := by
  rw [ikcpPeeksize, empty]

/-- A message that is complete is as long as its segments together. -/
theorem peeksize_message (kcp : Ikcpcb) (complete : 0 ≤ ikcpPeeksize kcp) :
    ikcpPeeksize kcp = messageLength kcp.rcv_queue := by
  cases queue : kcp.rcv_queue with
  | nil =>
    rw [peeksize_empty kcp queue] at complete
    exact absurd complete (by decide)
  | cons seg rest =>
    simp only [ikcpPeeksize, queue] at complete ⊢
    by_cases last : seg.frg = 0
    · rw [if_pos last, messageLength, if_pos last, Nat.add_zero]
    · rw [if_neg last] at complete ⊢
      by_cases missing : kcp.nrcv_que < seg.frg + 1
      · rw [if_pos missing] at complete
        exact absurd complete (by decide)
      · rw [if_neg missing]

/-- A call goes wrong exactly for a message that fits the length given to it but not the
buffer. -/
theorem recv_returns_iff {size : Nat} (kcp : Ikcpcb) (buffer : Block size) (len : Int) :
    (∃ result, ikcpRecv kcp buffer len = .ok result) ↔
      ¬ (size < ikcpPeeksize kcp ∧ ikcpPeeksize kcp ≤ len) := by
  unfold ikcpRecv
  by_cases empty : kcp.rcv_queue = []
  · have none : ikcpPeeksize kcp = -1 := by
      rw [ikcpPeeksize, empty]
    rw [if_pos empty]
    exact iff_of_true ⟨_, rfl⟩ (by omega)
  by_cases incomplete : ikcpPeeksize kcp < 0
  · rw [if_neg empty, if_pos incomplete]
    exact iff_of_true ⟨_, rfl⟩ (by omega)
  by_cases long : len < ikcpPeeksize kcp
  · rw [if_neg empty, if_neg incomplete, if_pos long]
    exact iff_of_true ⟨_, rfl⟩ (by omega)
  have message := peeksize_message kcp (by omega)
  have merged := merge_loop_iff kcp buffer 0 (Nat.zero_le size) kcp.rcv_queue
  rw [if_neg empty, if_neg incomplete, if_neg long]
  have size_iff : ¬ (size < ikcpPeeksize kcp ∧ ikcpPeeksize kcp ≤ len) ↔
      0 + messageLength kcp.rcv_queue ≤ size := by omega
  rw [size_iff, ← merged]
  cases mergeLoop kcp buffer 0 kcp.rcv_queue with
  | ok result => exact iff_of_true ⟨_, rfl⟩ ⟨result, rfl⟩
  | error fault => exact iff_of_false (fault_no_result _) (fault_no_result _)

/-- The next call, if the event is one, finds no message that fits its length but not the
buffer. -/
def Spared (receiver : Receiver) (event : Event) : Prop :=
  event = .recv → receiver.place = .ikcpRecv →
    ¬ (BUFF_LEN < ikcpPeeksize receiver.kcp1 ∧ ikcpPeeksize receiver.kcp1 ≤ 1024)

/-- A step returns exactly when it takes no message that is too long for the buffer. -/
theorem step_returns_iff (receiver : Receiver) (event : Event) :
    (∃ next, receiver.step event = .ok next) ↔ Spared receiver event := by
  cases event with
  | datagram data =>
    refine iff_of_true ?_ (fun other => by cases other)
    cases place : receiver.place <;> simp only [Receiver.step, place] <;> exact ⟨_, rfl⟩
  | replaced =>
    refine iff_of_true ?_ (fun other => by cases other)
    cases place : receiver.place <;> simp only [Receiver.step, place] <;> exact ⟨_, rfl⟩
  | recv =>
    cases place : receiver.place with
    | recvfrom =>
      refine iff_of_true ?_ (fun _ other => absurd (place.symm.trans other) (by decide))
      simp only [Receiver.step, place]
      exact ⟨_, rfl⟩
    | ikcpRecv =>
      have called := recv_returns_iff receiver.kcp1 receiver.buffer 1024
      have spared : Spared receiver .recv ↔
          ¬ (BUFF_LEN < ikcpPeeksize receiver.kcp1 ∧ ikcpPeeksize receiver.kcp1 ≤ 1024) :=
        ⟨fun spares => spares rfl place, fun spares _ _ => spares⟩
      rw [spared, ← called]
      simp only [Receiver.step, place]
      cases ikcpRecv receiver.kcp1 receiver.buffer 1024 with
      | ok result => exact iff_of_true ⟨_, rfl⟩ ⟨result, rfl⟩
      | error fault => exact iff_of_false (fault_no_result _) (fault_no_result _)

/-- Whatever datagrams arrive, every message that the inner loop takes fits the buffer
exactly when none of the messages at the front of the queue, before a call, has more bytes
than the buffer and at most 1024. -/
theorem reception_contained_iff (events : List Event) :
    (∀ earlier, earlier <+: events → ∃ after, Runs.run Receiver.step .start earlier = .ok after) ↔
      Runs.Meets Receiver.step Spared .start events := by
  have exactly := Runs.run_returns_iff Spared (fun _ => True)
    (fun receiver event _ => by simpa using step_returns_iff receiver event) Receiver.start events trivial
  simpa using exactly

/-- A datagram with one segment of 300 bytes. -/
def fragmentDatagram (frg sn : Byte) : List Byte :=
  [1, 0, 0, 0, 81, frg, 128, 0, 0, 0, 0, 0, sn, 0, 0, 0, 0, 0, 0, 0, 0x2C, 1, 0, 0] ++
    List.replicate 300 7

/-- A message in two fragments of 300 bytes is 88 bytes longer than the buffer, and is
copied into it. -/
theorem two_fragments_overflow :
    let outcome := Runs.run Receiver.step .start
      [.datagram (fragmentDatagram 1 0), .recv, .datagram (fragmentDatagram 0 1), .recv]
    Runs.reason outcome = some .outOfBounds ∧ ikcpPeeksize (Runs.last outcome).kcp1 = 600 := by
  decide +kernel

/-- The segments behind the headers of a datagram, whatever session it arrives at. -/
def segments : Nat → List Byte → List Segment
  | 0, _ => []
  | passes + 1, data =>
    if data.length < IKCP_OVERHEAD then []
    else
      let len := (ikcpDecode32u (data.drop 20)).toNat
      ⟨promote (data.getD 5 0), ikcpDecode32u (data.drop 12), (data.drop IKCP_OVERHEAD).take len⟩ ::
        segments passes ((data.drop IKCP_OVERHEAD).drop len)

/-- A segment is a header shorter than its datagram. -/
theorem segments_length (passes : Nat) (data : List Byte) :
    ∀ seg ∈ segments passes data, seg.data.length + IKCP_OVERHEAD ≤ data.length := by
  induction passes generalizing data with
  | zero => simp [segments]
  | succ passes inductionHypothesis =>
    by_cases short : data.length < IKCP_OVERHEAD
    · simp [segments, if_pos short]
    · simp only [segments, if_neg short, List.forall_mem_cons]
      constructor
      · simp only [List.length_take, List.length_drop]
        omega
      · intro seg member
        have inside := inductionHypothesis _ seg member
        simp only [List.length_drop] at inside
        omega

/-- What a session keeps, in the order in which it will be taken. -/
def kept (kcp : Ikcpcb) : List Segment := kcp.rcv_queue ++ kcp.rcv_buf

/-- Moving segments to the queue loses none and keeps their order. -/
theorem move_loop_kept (kcp : Ikcpcb) (buf : List Segment) :
    kept (moveLoop kcp buf) = kcp.rcv_queue ++ buf := by
  induction buf generalizing kcp with
  | nil => rfl
  | cons seg rest inductionHypothesis =>
    rw [moveLoop]
    by_cases next : seg.sn = kcp.rcv_nxt ∧ kcp.nrcv_que < kcp.rcv_wnd
    · rw [if_pos next, inductionHypothesis, List.append_assoc, List.singleton_append]
    · rw [if_neg next, kept]

/-- Moving segments to the queue keeps them. -/
theorem move_available_kept (kcp : Ikcpcb) : kept (moveAvailable kcp) = kept kcp :=
  move_loop_kept kcp kcp.rcv_buf

/-- What is inserted is the new segment, beside those that were there. -/
theorem insert_from_back_members (newseg : Segment) (buf inserted : List Segment)
    (found : insertFromBack newseg buf = some inserted) :
    ∀ seg ∈ inserted, seg = newseg ∨ seg ∈ buf := by
  induction buf generalizing inserted with
  | nil =>
    cases found
    simp
  | cons last earlier inductionHypothesis =>
    rw [insertFromBack] at found
    split at found
    · cases found
    · split at found
      · cases found
        simp
      · obtain ⟨shorter, below, rfl⟩ := Option.map_eq_some_iff.mp found
        intro seg member
        rcases List.mem_cons.mp member with rfl | member
        · exact .inr List.mem_cons_self
        · exact (inductionHypothesis shorter below seg member).imp id (List.mem_cons_of_mem last)

/-- A segment adds at most itself to what a session keeps. -/
theorem parse_data_members (kcp : Ikcpcb) (newseg : Segment) :
    ∀ seg ∈ kept (ikcpParseData kcp newseg), seg = newseg ∨ seg ∈ kept kcp := by
  unfold ikcpParseData
  split
  · exact fun seg member => .inr member
  · split
    · rename_i inserted found
      intro seg member
      rw [move_available_kept, kept, List.mem_append, List.mem_reverse] at member
      rcases member with queued | buffered
      · exact .inr (List.mem_append_left _ queued)
      · refine (insert_from_back_members newseg _ inserted found seg buffered).imp id fun old => ?_
        exact List.mem_append_right _ (List.mem_reverse.mp old)
    · intro seg member
      rw [move_available_kept] at member
      exact .inr member

/-- A datagram adds at most its segments to what a session keeps. -/
theorem input_loop_members (passes : Nat) (kcp : Ikcpcb) (data : List Byte) :
    ∀ seg ∈ kept (inputLoop passes kcp data).1, seg ∈ segments passes data ∨ seg ∈ kept kcp := by
  induction passes generalizing kcp data with
  | zero => exact fun seg member => .inr member
  | succ passes inductionHypothesis =>
    intro seg member
    rw [inputLoop] at member
    by_cases short : data.length < IKCP_OVERHEAD
    · rw [if_pos short] at member
      exact .inr member
    rw [if_neg short] at member
    split at member
    · exact .inr member
    simp only at member
    split at member
    · exact .inr member
    split at member
    · exact .inr member
    simp only [segments, if_neg short, List.mem_cons]
    rcases inductionHypothesis _ _ seg member with later | before
    · exact .inl (.inr later)
    · unfold inputSegment at before
      split at before
      · rcases parse_data_members _ _ seg before with rfl | old
        · exact .inl (.inl rfl)
        · exact .inr old
      · exact .inr before

/-- A session keeps nothing but what arrived in a datagram and what it had before. -/
theorem input_members (kcp : Ikcpcb) (data : List Byte) :
    ∀ seg ∈ kept (ikcpInput kcp data).1, seg ∈ segments data.length data ∨ seg ∈ kept kcp := by
  unfold ikcpInput
  split
  · exact fun seg member => .inr member
  · exact input_loop_members data.length kcp data

/-- Taking a message leaves what is behind it. -/
theorem merge_loop_members {size : Nat} (kcp : Ikcpcb) (buffer : Block size) (len : Nat)
    (queue : List Segment) (result : Ikcpcb × Block size × Nat)
    (merged : mergeLoop kcp buffer len queue = .ok result) :
    ∀ seg ∈ kept result.1, seg ∈ queue ∨ seg ∈ kcp.rcv_buf := by
  induction queue generalizing kcp buffer len with
  | nil =>
    cases merged
    simp [kept]
  | cons first rest inductionHypothesis =>
    rw [mergeLoop] at merged
    split at merged
    · cases merged
    simp only at merged
    split at merged
    · cases merged
      intro seg member
      exact (List.mem_append.mp member).imp (List.mem_cons_of_mem first) id
    · intro seg member
      exact (inductionHypothesis _ _ _ merged seg member).imp (List.mem_cons_of_mem first) id

/-- Taking a message keeps nothing new. -/
theorem recv_members {size : Nat} (kcp : Ikcpcb) (buffer : Block size) (len : Int)
    (result : Ikcpcb × Block size × Int) (received : ikcpRecv kcp buffer len = .ok result) :
    ∀ seg ∈ kept result.1, seg ∈ kept kcp := by
  unfold ikcpRecv at received
  split at received
  · cases received
    exact fun seg member => member
  split at received
  · cases received
    exact fun seg member => member
  split at received
  · cases received
    exact fun seg member => member
  split at received
  · cases received
  · rename_i merged
    cases received
    intro seg member
    rw [move_available_kept] at member
    exact List.mem_append.mpr (merge_loop_members _ _ _ _ _ merged seg member)

/-- The sender has put each message into one segment. -/
def Unfragmented (event : Event) : Prop :=
  ∀ data, event = .datagram data →
    ∀ seg ∈ segments (data.take BUFF_LEN).length (data.take BUFF_LEN), seg.frg = 0

/-- The session keeps whole messages only, and each fits the buffer. -/
def Whole (receiver : Receiver) : Prop :=
  ∀ seg ∈ kept receiver.kcp1, seg.frg = 0 ∧ seg.data.length ≤ BUFF_LEN

/-- A new session keeps nothing. -/
theorem start_whole : Whole .start := by
  intro seg member
  cases member

/-- A session that keeps only whole messages that fit is spared at every call. -/
theorem whole_spared (receiver : Receiver) (whole : Whole receiver) (event : Event) :
    Spared receiver event := by
  intro _ _ taken
  have complete : 0 ≤ ikcpPeeksize receiver.kcp1 := Int.le_of_lt (Int.lt_of_le_of_lt (by decide) taken.1)
  cases queue : receiver.kcp1.rcv_queue with
  | nil =>
    rw [peeksize_empty _ queue] at complete
    exact absurd complete (by decide)
  | cons seg rest =>
    have member : seg ∈ kept receiver.kcp1 := by simp [kept, queue]
    obtain ⟨last, fits⟩ := whole seg member
    rw [peeksize_message _ complete, queue, messageLength, if_pos last] at taken
    omega

/-- What a step can do to the session. -/
theorem step_session (receiver : Receiver) (event : Event) (next : Receiver)
    (taken : receiver.step event = .ok next) :
    next.kcp1 = receiver.kcp1 ∨ next.kcp1 = initKCP ∨
      (∃ data, event = .datagram data ∧
        next.kcp1 = (ikcpInput receiver.kcp1 (data.take BUFF_LEN)).1) ∨
      ∃ result, ikcpRecv receiver.kcp1 receiver.buffer 1024 = .ok result ∧ next.kcp1 = result.1 := by
  cases event with
  | datagram data =>
    cases place : receiver.place <;> simp only [Receiver.step, place] at taken <;> cases taken
    · exact .inr (.inr (.inl ⟨data, rfl, rfl⟩))
    · exact .inl rfl
  | replaced =>
    cases place : receiver.place <;> simp only [Receiver.step, place] at taken <;> cases taken
    · exact .inr (.inl rfl)
    · exact .inl rfl
  | recv =>
    cases place : receiver.place with
    | recvfrom =>
      simp only [Receiver.step, place] at taken
      cases taken
      exact .inl rfl
    | ikcpRecv =>
      simp only [Receiver.step, place] at taken
      cases received : ikcpRecv receiver.kcp1 receiver.buffer 1024 with
      | error fault =>
        rw [received] at taken
        cases taken
      | ok result =>
        rw [received] at taken
        cases taken
        exact .inr (.inr (.inr ⟨result, rfl, rfl⟩))

/-- The session keeps whole messages only while whole messages arrive. -/
theorem step_whole (receiver : Receiver) (whole : Whole receiver) (event : Event)
    (unfragmented : Unfragmented event) :
    ∃ next, receiver.step event = .ok next ∧ Whole next := by
  obtain ⟨next, taken⟩ := (step_returns_iff receiver event).mpr (whole_spared receiver whole event)
  refine ⟨next, taken, ?_⟩
  intro seg member
  rcases step_session receiver event next taken with same | fresh | ⟨data, rfl, input⟩ |
    ⟨result, received, rest⟩
  · rw [same] at member
    exact whole seg member
  · rw [fresh] at member
    exact start_whole seg member
  · rw [input] at member
    rcases input_members receiver.kcp1 (data.take BUFF_LEN) seg member with arrived | old
    · refine ⟨unfragmented data rfl seg arrived, ?_⟩
      have inside := segments_length _ _ seg arrived
      rw [List.length_take] at inside
      omega
    · exact whole seg old
  · rw [rest] at member
    exact whole seg (recv_members _ _ _ result received seg member)

/-- A peer that does not fragment its messages cannot make one leave the buffer. -/
theorem unfragmented_contained (events : List Event)
    (unfragmented : ∀ event ∈ events, Unfragmented event) :
    ∃ after, Runs.run Receiver.step .start events = .ok after ∧ Whole after := by
  refine Runs.run_returns (fun _ event => Unfragmented event) Whole
    (fun receiver event whole => step_whole receiver whole event) Receiver.start events start_whole ?_
  refine (Runs.meets_iff _ _ _).mpr fun earlier event within _ _ => unfragmented event ?_
  exact within.subset (by simp)

end IotCamera.Kcp.Receive
