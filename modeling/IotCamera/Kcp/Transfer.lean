import IotCamera.Base.Runs
import IotCamera.Kcp.OutputBuffer
import IotCamera.Kcp.Sessions

/-!
# Messages from one program to another

Two programs use one KCP session each, with a network between them that may lose, repeat,
delay, reorder and cut off datagrams. They call `ikcp_send`, `ikcp_recv`, `ikcp_update` and
`ikcp_flush` in any order, and give what arrives to `ikcp_input`. What a program receives is
at every moment a beginning of what the other one has sent, message by message. Nothing is
lost, either: what has not arrived is still kept to be sent again.

Both results count the segments of all messages that a program sends. From `2 ^ 31` of them
on their numbers can no longer be compared.
-/

namespace IotCamera.Kcp.Transfer

open Memory Ikcp Effects Flushing OutputBuffer Arrivals Messages Sessions
open Receive (IKCP_WND_RCV IKCP_OVERHEAD)

inductive Side where
  | first
  | second
  deriving DecidableEq, Repr

def Side.other : Side → Side
  | .first => .second
  | .second => .first

/-- The other side of the other side is the side itself. -/
theorem other_other (side : Side) : side.other.other = side := by
  cases side <;> rfl

/-- An `mtu` for whose buffer `ikcp_setmtu` asks for as many bytes as it means. With a larger
one the product of 32 bits wraps, and a flush writes behind the block. -/
structure Mtu where
  value : Word
  counted : (value.toInt + IKCP_OVERHEAD) * 3 < 2 ^ 32
  deriving DecidableEq, Repr

/-- What a program sets before it uses a session. A word stands for an `int`. -/
inductive Setting where
  | setmtu (mtu : Mtu)
  | interval (milliseconds : Word)
  | nodelay (mode milliseconds resend nc : Word)
  | wndsize (sndwnd rcvwnd : Word)
  | minrto (rx_minrto : Word)
  | fastresend (resend : Word)
  deriving DecidableEq, Repr

def Setting.apply (kcp : Ikcpcb) : Setting → Ikcpcb
  | .setmtu mtu => (ikcpSetmtu kcp mtu.value.toInt).1
  | .interval milliseconds => ikcpInterval kcp milliseconds.toInt
  | .nodelay mode milliseconds resend nc =>
    ikcpNodelay kcp mode.toInt milliseconds.toInt resend.toInt nc.toInt
  | .wndsize sndwnd rcvwnd => ikcpWndsize kcp sndwnd.toInt rcvwnd.toInt
  | .minrto rx_minrto => { kcp with rx_minrto := rx_minrto }
  | .fastresend resend => { kcp with fastresend := resend }

/-- A session, the datagrams that it has sent, and the messages that its program has sent
and received. -/
structure Endpoint where
  kcp : Ikcpcb
  outgoing : List (List Byte)
  given : List (List Byte)
  received : List (List Byte)

def Endpoint.start (conv : Word) (settings : List Setting) : Endpoint :=
  ⟨settings.foldl Setting.apply (ikcpCreate conv), [], [], []⟩

/-- A call of a program. One of the datagrams of its peer arrives whole or cut off. -/
inductive Call where
  | send (buffer : List Byte)
  | update (current : Word)
  | flush
  | arrive (index count : Nat)
  | recv (size : Nat)
  deriving DecidableEq, Repr

/-- A message counts as sent when it is not refused. -/
def Endpoint.send (endpoint : Endpoint) (buffer : List Byte) : Endpoint :=
  let sent := ikcpSend endpoint.kcp buffer
  { endpoint with
    kcp := sent.1
    given := if sent.2 = 0 then endpoint.given ++ [buffer] else endpoint.given }

/-- The session afterwards, and the datagrams that it gave away. -/
def Endpoint.output (endpoint : Endpoint) (result : Ikcpcb × List (List Byte)) : Endpoint :=
  { endpoint with kcp := result.1, outgoing := endpoint.outgoing ++ result.2 }

def Endpoint.input (endpoint : Endpoint) (datagram : List Byte) : Endpoint :=
  { endpoint with kcp := (ikcpInput endpoint.kcp datagram).1 }

/-- `ikcp_recv` gets a buffer of the size that it is told. -/
def Endpoint.recv (endpoint : Endpoint) (size : Nat) : Except Fault Endpoint :=
  match ikcpRecv endpoint.kcp (Block.uniform size 0) size with
  | .error fault => .error fault
  | .ok (kcp, buffer, answer) =>
    .ok { endpoint with
      kcp := kcp
      received := if 0 ≤ answer then endpoint.received ++ [buffer.bytes answer.toNat] else endpoint.received }

/-- A call, when the peer has sent the given datagrams. -/
def Endpoint.perform (endpoint : Endpoint) (incoming : List (List Byte)) : Call → Except Fault Endpoint
  | .send buffer => .ok (endpoint.send buffer)
  | .update current =>
    (withinBuffer endpoint.kcp (ikcpUpdate endpoint.kcp current)).map endpoint.output
  | .flush => (withinBuffer endpoint.kcp (ikcpFlush endpoint.kcp)).map endpoint.output
  | .arrive index count =>
    .ok (incoming[index]?.elim endpoint fun datagram => endpoint.input (datagram.take count))
  | .recv size => endpoint.recv size

/-- The two programs. -/
abbrev System := Side → Endpoint

def start (conv : Word) (settings : Side → List Setting) : System :=
  fun side => Endpoint.start conv (settings side)

def step (system : System) (event : Side × Call) : Except (Fault × System) System :=
  match (system event.1).perform (system event.1.other).outgoing event.2 with
  | .error fault => .error (fault, system)
  | .ok next => .ok (Function.update system event.1 next)

/-! ## Sessions before they are used -/

/-- A session that has sent and received nothing yet. -/
structure Unused (conv : Word) (session : View) : Prop where
  own : session.receiving.conv = conv
  next : session.receiving.rcv_nxt = 0
  queue : session.receiving.rcv_queue = []
  buf : session.receiving.rcv_buf = []
  counted : session.receiving.nrcv_que = 0
  acklist : session.acklist = []
  held : session.held = []
  snd_nxt : session.snd_nxt = 0
  waiting : session.snd_queue = []
  mode : session.stream = 0
  room : session.mss.toNat + IKCP_OVERHEAD = session.mtu.toNat
  positive : 0 < session.mss.toNat
  range : session.mtu.toNat < 2 ^ 31
  buffer : (session.mtu.toNat + IKCP_OVERHEAD) * 3 < 2 ^ 32

/-- A session that was just created is unused. -/
theorem create_unused (conv : Word) : Unused conv (view (ikcpCreate conv)) := by
  refine ⟨rfl, rfl, rfl, rfl, rfl, rfl, rfl, rfl, rfl, rfl, rfl, ?_, ?_, ?_⟩
  · exact (by decide : 0 < (IKCP_MTU_DEF - BitVec.ofNat 32 IKCP_OVERHEAD).toNat)
  · exact (by decide : IKCP_MTU_DEF.toNat < 2 ^ 31)
  · exact (by decide : (IKCP_MTU_DEF.toNat + IKCP_OVERHEAD) * 3 < 2 ^ 32)

/-- Setting the `mtu` of an unused session, or being refused, leaves it unused. -/
theorem setmtu_unused (conv : Word) (kcp : Ikcpcb) (mtu : Word) (unused : Unused conv (view kcp))
    (counted : (mtu.toInt + IKCP_OVERHEAD) * 3 < 2 ^ 32) :
    Unused conv (view (ikcpSetmtu kcp mtu.toInt).1) := by
  unfold ikcpSetmtu
  by_cases small : mtu.toInt < 50 ∨ mtu.toInt < IKCP_OVERHEAD
  · rw [if_pos small]
    exact unused
  · rw [if_neg small]
    have signed := mtu.toInt_eq_toNat_cond
    have overhead : (BitVec.ofNat 32 IKCP_OVERHEAD).toNat = 24 := by decide
    have header : IKCP_OVERHEAD = 24 := rfl
    have value : mtu.toInt = mtu.toNat ∧ mtu.toNat < 2 ^ 31 := by
      split at signed
      · omega
      · have bound := mtu.isLt
        omega
    have size : (mtu - BitVec.ofNat 32 IKCP_OVERHEAD).toNat = mtu.toNat - 24 := by
      rw [BitVec.toNat_sub_of_le (by rw [BitVec.le_def, overhead]; omega), overhead]
    refine { unused with room := ?_, positive := ?_, range := ?_, buffer := ?_ }
    · simp only [view, BitVec.ofInt_toInt, size]
      omega
    · simp only [view, BitVec.ofInt_toInt, size]
      omega
    · simp only [view, BitVec.ofInt_toInt]
      exact value.2
    · simp only [view, BitVec.ofInt_toInt]
      omega

/-- `ikcp_nodelay` changes nothing that is transferred. -/
theorem nodelay_frame (kcp : Ikcpcb) (nodelay interval resend nc : Int) :
    frame (ikcpNodelay kcp nodelay interval resend nc) = frame kcp := by
  have first : ∀ kcp : Ikcpcb, frame (if 0 ≤ nodelay then
      { kcp with
        nodelay := BitVec.ofInt 32 nodelay
        rx_minrto := if nodelay ≠ 0 then IKCP_RTO_NDL else IKCP_RTO_MIN } else kcp) = frame kcp := by
    intro kcp
    rw [apply_ite frame]
    exact ite_self _
  have second : ∀ kcp : Ikcpcb, frame (if 0 ≤ interval then ikcpInterval kcp interval else kcp) = frame kcp := by
    intro kcp
    rw [apply_ite frame]
    exact ite_self _
  have third : ∀ kcp : Ikcpcb,
      frame (if 0 ≤ resend then { kcp with fastresend := BitVec.ofInt 32 resend } else kcp) = frame kcp := by
    intro kcp
    rw [apply_ite frame]
    exact ite_self _
  have fourth : ∀ kcp : Ikcpcb,
      frame (if 0 ≤ nc then { kcp with nocwnd := BitVec.ofInt 32 nc } else kcp) = frame kcp := by
    intro kcp
    rw [apply_ite frame]
    exact ite_self _
  rw [ikcpNodelay, fourth, third, second, first]

/-- Setting the windows leaves a session unused. -/
theorem wndsize_unused (conv : Word) (kcp : Ikcpcb) (sndwnd rcvwnd : Int) (unused : Unused conv (view kcp)) :
    Unused conv (view (ikcpWndsize kcp sndwnd rcvwnd)) := by
  have sending : view (if 0 < sndwnd then { kcp with snd_wnd := BitVec.ofInt 32 sndwnd } else kcp) = view kcp := by
    rw [apply_ite view]
    exact ite_self _
  rw [← sending] at unused
  unfold ikcpWndsize Receive.ikcpWndsize
  dsimp only
  by_cases positive : 0 < rcvwnd
  · rw [if_pos positive]
    exact { unused with }
  · rw [if_neg positive]
    exact unused

/-- Every setting leaves a session unused. -/
theorem setting_unused (conv : Word) (kcp : Ikcpcb) (setting : Setting) (unused : Unused conv (view kcp)) :
    Unused conv (view (Setting.apply kcp setting)) := by
  cases setting with
  | setmtu mtu => exact setmtu_unused conv kcp mtu.value unused mtu.counted
  | interval milliseconds => exact unused
  | nodelay mode milliseconds resend nc =>
    rw [Setting.apply, frame_view (nodelay_frame _ _ _ _ _)]
    exact unused
  | wndsize sndwnd rcvwnd => exact wndsize_unused conv kcp sndwnd.toInt rcvwnd.toInt unused
  | minrto rx_minrto => exact unused
  | fastresend resend => exact unused

/-- A session with its settings is unused before its first call. -/
theorem start_unused (conv : Word) (settings : List Setting) :
    Unused conv (view (Endpoint.start conv settings).kcp) := by
  have applied : ∀ kcp : Ikcpcb, Unused conv (view kcp) →
      Unused conv (view (settings.foldl Setting.apply kcp)) := by
    induction settings with
    | nil => exact fun _ unused => unused
    | cons setting rest inductionHypothesis =>
      exact fun kcp unused => inductionHypothesis _ (setting_unused conv kcp setting unused)
  exact applied _ (create_unused conv)

/-- An unused session is roomy. -/
theorem unused_roomy (conv : Word) (session : View) (unused : Unused conv session) : Roomy session := by
  obtain ⟨own, next, queue, buf, counted, acklist, held, snd_nxt, waiting, mode, room, positive, range,
    buffer⟩ := unused
  refine ⟨⟨range, ?_, ?_, ?_⟩, room, buffer⟩
  · omega
  · rw [waiting]
    exact List.forall_mem_nil _
  · rw [held]
    exact List.forall_mem_nil _

/-! ## Two programs -/

/-- The segments of messages. -/
def segments (mss : Nat) (messages : List (List Byte)) : List Fragment := messages.flatMap (fragments mss)

/-- The segments of the first messages come first. -/
theorem segments_begin (mss : Nat) {earlier messages : List (List Byte)} (given : earlier <+: messages) :
    segments mss earlier <+: segments mss messages := by
  obtain ⟨rest, rfl⟩ := given
  rw [segments, segments, List.flatMap_append]
  exact List.prefix_append _ _

/-- What a program sent was cut into parts of the given size, and all its datagrams are
true. -/
structure Correct (conv : Word) (mss : Nat) (endpoint : Endpoint) : Prop where
  size : endpoint.kcp.mss.toNat = mss
  few : ∀ message ∈ endpoint.given, partCount mss message.length < IKCP_WND_RCV.toNat
  wire : ∀ datagram ∈ endpoint.outgoing,
    Datagram endpoint.kcp.mtu.toNat (Genuine conv (segments mss endpoint.given) (view endpoint.kcp)) datagram

/-- Two programs whose sessions are linked, and that have received what the other sent. -/
structure Joined (conv : Word) (mss other : Nat) (endpoint peer : Endpoint) : Prop where
  here : Correct conv mss endpoint
  there : Correct conv other peer
  linked : Linked conv (segments mss endpoint.given) (segments other peer.given)
    (segments other endpoint.received) (segments mss peer.received) (view endpoint.kcp) (view peer.kcp)
  incoming : endpoint.received <+: peer.given
  outgoing : peer.received <+: endpoint.given

/-- Two programs are joined in both directions. -/
theorem Joined.symm {conv : Word} {mss other : Nat} {endpoint peer : Endpoint}
    (joined : Joined conv mss other endpoint peer) : Joined conv other mss peer endpoint :=
  ⟨joined.there, joined.here, joined.linked.symm, joined.outgoing, joined.incoming⟩

/-- An unused session says nothing but what its program gave it, which is nothing. -/
theorem unused_honest (conv : Word) (session : View) (unused : Unused conv session) : Honest conv [] session := by
  obtain ⟨own, next, queue, buf, counted, acklist, held, snd_nxt, waiting, mode, room, positive, range,
    buffer⟩ := unused
  refine ⟨own, mode, room, positive, range, List.forall_mem_nil _, ?_, ?_, ?_, ?_⟩
  · rw [snd_nxt]
    exact Nat.le_refl 0
  · rw [waiting, List.drop_nil]
  · rw [held]
    exact List.forall_mem_nil _
  · rw [acklist]
    exact List.forall_mem_nil _

/-- An unused session has received all that another one has sent, which is nothing. -/
theorem unused_follows (conv : Word) (session peer : View) (unused : Unused conv session)
    (other : Unused conv peer) : Follows [] [] session peer := by
  refine ⟨⟨?_, ?_, ?_, ?_⟩, ?_⟩
  · rw [other.queue, List.take_nil]
    rfl
  · rw [other.next]
    exact Nat.zero_le _
  · rw [other.buf]
    exact List.forall_mem_nil _
  · rw [other.counted, other.queue]
    rfl
  · intro sn below
    rw [unused.snd_nxt] at below
    exact absurd below (Nat.not_lt_zero _)

/-- Two sessions with their settings are joined before their first calls. -/
theorem start_joined (conv : Word) (settings others : List Setting) :
    Joined conv (Endpoint.start conv settings).kcp.mss.toNat (Endpoint.start conv others).kcp.mss.toNat
      (Endpoint.start conv settings) (Endpoint.start conv others) := by
  have first := start_unused conv settings
  have second := start_unused conv others
  exact ⟨⟨rfl, List.forall_mem_nil _, List.forall_mem_nil _⟩, ⟨rfl, List.forall_mem_nil _, List.forall_mem_nil _⟩,
    ⟨unused_honest conv _ first, unused_honest conv _ second, unused_follows conv _ _ second first,
      unused_follows conv _ _ first second⟩, List.nil_prefix, List.nil_prefix⟩

/-- Datagrams that were sent stay true, and new ones may be added. -/
theorem correct_advances (conv : Word) (mss : Nat) (endpoint next : Endpoint) (datagrams : List (List Byte))
    (correct : Correct conv mss endpoint) (advances : Advances (view endpoint.kcp) (view next.kcp))
    (given : endpoint.given <+: next.given)
    (few : ∀ message ∈ next.given, partCount mss message.length < IKCP_WND_RCV.toNat)
    (outgoing : next.outgoing = endpoint.outgoing ++ datagrams)
    (new : ∀ datagram ∈ datagrams,
      Datagram endpoint.kcp.mtu.toNat (Genuine conv (segments mss next.given) (view next.kcp)) datagram) :
    Correct conv mss next := by
  have size : next.kcp.mss = endpoint.kcp.mss := advances.mss
  have mtu : next.kcp.mtu = endpoint.kcp.mtu := advances.mtu
  have longer := segments_begin mss given
  refine ⟨by rw [size]; exact correct.size, few, ?_⟩
  rw [outgoing, mtu]
  refine List.forall_mem_append.mpr ⟨fun datagram member => ?_, new⟩
  obtain ⟨⟨⟨packets, written, kinds⟩, short⟩, filled⟩ := correct.wire datagram member
  exact ⟨⟨⟨packets, written, fun packet inside => (kinds packet inside).mono longer advances⟩, short⟩, filled⟩

/-- A call of a roomy session returns, leaves it roomy, and forgets no message that was
sent. -/
theorem perform_returns (endpoint : Endpoint) (incoming : List (List Byte)) (call : Call)
    (roomy : Roomy (view endpoint.kcp)) :
    ∃ next, endpoint.perform incoming call = .ok next ∧ Roomy (view next.kcp) ∧
      endpoint.given <+: next.given := by
  cases call with
  | send buffer =>
    refine ⟨_, rfl, send_roomy endpoint.kcp buffer roomy, ?_⟩
    unfold Endpoint.send
    by_cases taken : (ikcpSend endpoint.kcp buffer).2 = 0
    · simp only [if_pos taken]
      exact List.prefix_append _ _
    · simp only [if_neg taken]
      exact List.prefix_refl _
  | update current =>
    refine ⟨endpoint.output (ikcpUpdate endpoint.kcp current), ?_, update_roomy endpoint.kcp current roomy,
      List.prefix_refl _⟩
    rw [Endpoint.perform, update_within endpoint.kcp current roomy]
    rfl
  | flush =>
    refine ⟨endpoint.output (ikcpFlush endpoint.kcp), ?_, flush_roomy endpoint.kcp roomy, List.prefix_refl _⟩
    rw [Endpoint.perform, flush_within endpoint.kcp roomy]
    rfl
  | arrive index count =>
    refine ⟨_, rfl, ?_⟩
    cases incoming[index]? with
    | none => exact ⟨roomy, List.prefix_refl _⟩
    | some datagram => exact ⟨input_roomy endpoint.kcp _ roomy, List.prefix_refl _⟩
  | recv size =>
    obtain ⟨after, filled, answer, called, rest⟩ := recv_roomy endpoint.kcp size roomy
    rw [Endpoint.perform, Endpoint.recv, called]
    exact ⟨_, rfl, rest, List.prefix_refl _⟩

section Calls
variable {conv : Word} {mss other : Nat} {endpoint peer : Endpoint}
  (joined : Joined conv mss other endpoint peer)

include joined

/-- Sending a message, or being refused, keeps two programs joined. -/
theorem send_joined (buffer : List Byte) : Joined conv mss other (endpoint.send buffer) peer := by
  obtain ⟨here, there, linked, incoming, outgoing⟩ := joined
  have mode : endpoint.kcp.stream = 0 := linked.here.mode
  have positive : 0 < endpoint.kcp.mss.toNat := linked.here.positive
  unfold Endpoint.send
  rcases send_message endpoint.kcp mode positive buffer with ⟨answer, refused, sent⟩ | ⟨few, after, sent, seen⟩
  · simp only [sent, if_neg refused]
    exact ⟨here, there, linked, incoming, outgoing⟩
  · simp only [sent, if_true]
    have size := here.size
    rw [size] at few seen
    have parts := cut_message_parts mss (partCount mss buffer.length) (Nat.lt_trans few (by decide)) buffer
    obtain ⟨after_linked, advances⟩ := send_linked linked (fragments mss buffer) (by
      have same : (view endpoint.kcp).mss.toNat = mss := size
      rw [same]
      exact parts)
    have queue : (view endpoint.kcp).snd_queue = endpoint.kcp.snd_queue := rfl
    rw [queue, ← seen] at after_linked advances
    have items : segments mss (endpoint.given ++ [buffer]) = segments mss endpoint.given ++ fragments mss buffer := by
      rw [segments, segments, List.flatMap_append, List.flatMap_singleton]
    refine ⟨correct_advances conv mss endpoint _ [] here advances (List.prefix_append _ _) ?_
      (List.append_nil _).symm (List.forall_mem_nil _), there, ?_, incoming,
      outgoing.trans (List.prefix_append _ _)⟩
    · exact List.forall_mem_append.mpr ⟨here.few, List.forall_mem_singleton.mpr few⟩
    · dsimp only
      rw [items]
      exact after_linked

/-- A session that goes on and sends datagrams that are true. -/
theorem output_joined (kcp : Ikcpcb) (datagrams : List (List Byte))
    (linked : Linked conv (segments mss endpoint.given) (segments other peer.given)
      (segments other endpoint.received) (segments mss peer.received) (view kcp) (view peer.kcp))
    (advances : Advances (view endpoint.kcp) (view kcp))
    (sent : ∀ datagram ∈ datagrams, Datagram endpoint.kcp.mtu.toNat
      (Genuine conv (segments mss endpoint.given) (view kcp)) datagram) :
    Joined conv mss other (endpoint.output (kcp, datagrams)) peer :=
  ⟨correct_advances conv mss endpoint _ datagrams joined.here advances (List.prefix_refl _) joined.here.few rfl sent,
    joined.there, linked, joined.incoming, joined.outgoing⟩

/-- A message that is received is the next one that was sent. -/
theorem recv_joined (fewer : (segments other peer.given).length < 2 ^ 31) (size : Nat) (next : Endpoint)
    (performed : endpoint.recv size = .ok next) : Joined conv mss other next peer := by
  obtain ⟨here, there, linked, ⟨pending, given⟩, outgoing⟩ := joined
  have order := linked.incoming.receiving.order
  have positive : 0 < other := by
    rw [← there.size]
    exact linked.there.positive
  have waiting : endpoint.kcp.rcv_queue.map fragment <+: pending.flatMap (fragments other) := by
    have begins : segments other endpoint.received ++ endpoint.kcp.rcv_queue.map fragment <+:
        segments other endpoint.received ++ segments other pending := by
      have parts : segments other peer.given = segments other endpoint.received ++ segments other pending := by
        rw [← given, segments, List.flatMap_append]
        rfl
      rw [← parts]
      exact ⟨_, (congrArg (· ++ _) order).trans (List.take_append_drop _ _)⟩
    exact (List.prefix_append_right_inj _).mp begins
  have short : ∀ message ∈ pending, partCount other message.length < 2 ^ 31 := by
    intro message member
    refine Nat.lt_trans (there.few message ?_) (by decide)
    rw [← given]
    exact List.mem_append_right _ member
  rcases recv_message other positive pending short endpoint.kcp.toIkcpcb linked.incoming.receiving.counted waiting
    (Block.uniform size 0) with ⟨answer, negative, returned⟩ |
      ⟨message, rest, parts, more, merged, rfl, queue, cut, returned, bytes⟩
  · obtain ⟨after, called, seen⟩ := recv_view endpoint.kcp _ _ _ _ _ returned
    rw [Endpoint.recv, called] at performed
    obtain rfl := Except.ok.inj performed
    simp only [if_neg (Int.not_le.mpr negative)]
    have same : view after = view endpoint.kcp := seen
    have stays := output_joined ⟨here, there, linked, ⟨pending, given⟩, outgoing⟩ after [] (by rw [same]; exact linked)
      (by rw [same]; exact advances_refl _) (List.forall_mem_nil _)
    rw [Endpoint.output, List.append_nil] at stays
    exact stays
  · obtain ⟨after, called, seen⟩ := recv_view endpoint.kcp _ _ _ _ _ returned
    rw [Endpoint.recv, called] at performed
    obtain rfl := Except.ok.inj performed
    simp only [if_pos (Int.natCast_nonneg message.length), Int.toNat_natCast, bytes]
    obtain ⟨after_linked, advances⟩ := recv_linked fewer linked parts more queue
    have taken : segments other (endpoint.received ++ [message]) =
        segments other endpoint.received ++ parts.map fragment := by
      rw [cut, segments, List.flatMap_append, List.flatMap_singleton]
      rfl
    rw [← taken] at after_linked
    refine ⟨correct_advances conv mss endpoint _ [] here ?_ (List.prefix_refl _) here.few (List.append_nil _).symm
      (List.forall_mem_nil _), there, ?_, ⟨rest, ?_⟩, outgoing⟩
    · rw [seen]
      exact advances
    · rw [seen]
      exact after_linked
    · rw [List.append_assoc]
      exact given

variable (few : (segments mss endpoint.given).length < 2 ^ 31)

include few

/-- A flush keeps them joined. -/
theorem flush_joined : Joined conv mss other (endpoint.output (ikcpFlush endpoint.kcp)) peer := by
  obtain ⟨linked, advances, sent⟩ := flush_linked few endpoint.kcp joined.linked
  exact output_joined joined _ _ linked advances sent

/-- So does an update. -/
theorem update_joined (current : Word) :
    Joined conv mss other (endpoint.output (ikcpUpdate endpoint.kcp current)) peer := by
  obtain ⟨ready, same, updated⟩ := update_flushes endpoint.kcp current
  have seen := frame_view same
  have mtu : ready.mtu = endpoint.kcp.mtu := congrArg View.mtu seen
  have linked := joined.linked
  rw [← seen] at linked
  rcases updated with flushes | waits
  · obtain ⟨after, advances, sent⟩ := flush_linked few ready linked
    rw [seen] at advances
    rw [mtu] at sent
    rw [flushes]
    exact output_joined joined _ _ after advances sent
  · rw [waits]
    refine output_joined joined _ [] linked ?_ (List.forall_mem_nil _)
    rw [seen]
    exact advances_refl _

variable (fewer : (segments other peer.given).length < 2 ^ 31)

include fewer

/-- So does a datagram of the peer, or the first bytes of one. -/
theorem input_joined (datagram : List Byte) (member : datagram ∈ peer.outgoing) (count : Nat) :
    Joined conv mss other (endpoint.input (datagram.take count)) peer := by
  obtain ⟨⟨⟨packets, written, genuine⟩, -⟩, -⟩ := joined.there.wire datagram member
  obtain ⟨linked, advances⟩ := input_linked few fewer endpoint.kcp joined.linked packets genuine count
  rw [← written] at linked advances
  have after := output_joined joined _ [] linked advances (List.forall_mem_nil _)
  rw [Endpoint.output, List.append_nil] at after
  exact after

/-- Each call of a roomy session keeps two programs joined. -/
theorem perform_joined (roomy : Roomy (view endpoint.kcp)) (call : Call) (next : Endpoint)
    (performed : endpoint.perform peer.outgoing call = .ok next) : Joined conv mss other next peer := by
  cases call with
  | send buffer =>
    obtain rfl := Except.ok.inj performed
    exact send_joined joined buffer
  | update current =>
    rw [Endpoint.perform, update_within endpoint.kcp current roomy] at performed
    obtain rfl := Except.ok.inj performed
    exact update_joined joined few current
  | flush =>
    rw [Endpoint.perform, flush_within endpoint.kcp roomy] at performed
    obtain rfl := Except.ok.inj performed
    exact flush_joined joined few
  | arrive index count =>
    obtain rfl := Except.ok.inj performed
    cases found : peer.outgoing[index]? with
    | none => exact joined
    | some datagram => exact input_joined joined few fewer datagram (List.mem_of_getElem? found) count
  | recv size => exact recv_joined joined fewer size next performed

end Calls

/-! ## Runs -/

/-- The sides of a system are joined. -/
def Sound (conv : Word) (mss : Side → Nat) (system : System) : Prop :=
  ∀ side, Joined conv (mss side) (mss side.other) (system side) (system side.other)

/-- Each side of a system has room in its buffer. -/
def Spacious (system : System) : Prop := ∀ side, Roomy (view (system side).kcp)

/-- All messages that were sent have fewer than `2 ^ 31` segments. -/
def Countable (mss : Side → Nat) (system : System) : Prop :=
  ∀ side, (segments (mss side) (system side).given).length < 2 ^ 31

/-- The size of the parts into which a side cuts its messages. -/
def mss (conv : Word) (settings : Side → List Setting) (side : Side) : Nat :=
  (start conv settings side).kcp.mss.toNat

/-- A system begins with room in both buffers. -/
theorem start_spacious (conv : Word) (settings : Side → List Setting) : Spacious (start conv settings) :=
  fun side => unused_roomy conv _ (start_unused conv (settings side))

/-- A system begins with its sides joined. -/
theorem start_sound (conv : Word) (settings : Side → List Setting) :
    Sound conv (mss conv settings) (start conv settings) :=
  fun side => start_joined conv (settings side) (settings side.other)

/-- An event of a spacious system returns, and the system stays sound while its segments
can be counted. -/
theorem step_sound (conv : Word) (mss : Side → Nat) (system : System) (event : Side × Call)
    (invariant : Spacious system ∧ (Countable mss system → Sound conv mss system)) :
    ∃ next, step system event = .ok next ∧ Spacious next ∧ (Countable mss next → Sound conv mss next) := by
  obtain ⟨side, call⟩ := event
  obtain ⟨spacious, sound⟩ := invariant
  obtain ⟨next, performed, roomy, given⟩ := perform_returns (system side) (system side.other).outgoing call
    (spacious side)
  have stepped : step system (side, call) = .ok (Function.update system side next) := by
    rw [step, performed]
  have elsewhere : Function.update system side next side.other = system side.other :=
    Function.update_of_ne (by cases side <;> decide) _ _
  have here : Function.update system side next side = next := Function.update_self _ _ _
  refine ⟨_, stepped, fun other => ?_, fun countable => ?_⟩
  · by_cases same : other = side
    · subst same
      rw [here]
      exact roomy
    · rw [Function.update_of_ne same]
      exact spacious other
  have before : Countable mss system := by
    intro other
    by_cases same : other = side
    · subst same
      have bound := countable other
      rw [here] at bound
      exact Nat.lt_of_le_of_lt (List.IsPrefix.length_le (segments_begin (mss other) given)) bound
    · have bound := countable other
      rw [Function.update_of_ne same] at bound
      exact bound
  have joined := perform_joined (sound before side) (before side) (before side.other) (spacious side) call next
    performed
  intro other
  by_cases same : other = side
  · subst same
    rw [here, elsewhere]
    exact joined
  · have opposite : other = side.other := by
      cases other <;> cases side <;> first | rfl | exact absurd rfl same
    subst opposite
    rw [other_other, here, elsewhere]
    exact joined.symm

/-- Every run returns, and ends with a sound system while its segments can be counted. -/
theorem run_sound (conv : Word) (settings : Side → List Setting) (events : List (Side × Call)) :
    ∃ after, Runs.run step (start conv settings) events = .ok after ∧
      (Countable (mss conv settings) after → Sound conv (mss conv settings) after) := by
  obtain ⟨after, ran, -, sound⟩ := Runs.run_always
    (fun system => Spacious system ∧ (Countable (mss conv settings) system → Sound conv (mss conv settings) system))
    (fun system event invariant => step_sound conv _ system event invariant) (start conv settings) events
    ⟨start_spacious conv settings, fun _ => start_sound conv settings⟩
  exact ⟨after, ran, sound⟩

/-- A run that returned ends in its last state. -/
theorem ran_last {system after : System} {events : List (Side × Call)}
    (ran : Runs.run step system events = .ok after) : after = Runs.last (Runs.run step system events) := by
  rw [ran]
  rfl

/-- Where a part of a message can be. -/
inductive Located (mss : Nat) (endpoint peer : Endpoint) (index : Nat) (part : Fragment) : Prop where
  | waiting (later : endpoint.kcp.snd_nxt.toNat ≤ index)
      (found : endpoint.kcp.snd_queue[index - endpoint.kcp.snd_nxt.toNat]? = some part)
  | kept (seg : Segment) (member : seg ∈ endpoint.kcp.snd_buf) (number : seg.sn.toNat = index)
      (same : ⟨seg.frg, seg.data⟩ = part)
  | buffered (seg : Receive.Segment) (member : seg ∈ peer.kcp.rcv_buf) (number : seg.sn.toNat = index)
      (same : fragment seg = part)
  | arrived (found : (segments mss peer.received ++ peer.kcp.rcv_queue.map fragment)[index]? = some part)

/-- A segment of a message that was sent is somewhere on its way between two joined programs.
-/
theorem joined_located (conv : Word) (mss other : Nat) (endpoint peer : Endpoint)
    (few : (segments mss endpoint.given).length < 2 ^ 31) (joined : Joined conv mss other endpoint peer)
    (index : Nat) (part : Fragment) (item : (segments mss endpoint.given)[index]? = some part) :
    Located mss endpoint peer index part := by
  have here := joined.linked.here
  have follows := joined.linked.outgoing
  have inside := (List.getElem?_eq_some_iff.mp item).1
  by_cases numbered : index < endpoint.kcp.snd_nxt.toNat
  · have value : (BitVec.ofNat 32 index).toNat = index := by
      rw [BitVec.toNat_ofNat]
      exact Nat.mod_eq_of_lt (by omega)
    rcases follows.kept (BitVec.ofNat 32 index) (by rw [value]; exact numbered) with
      (moved | ⟨seg, member, number⟩) | ⟨seg, member, number⟩
    · rw [value] at moved
      refine .arrived ?_
      have order : segments mss peer.received ++ peer.kcp.rcv_queue.map fragment = _ := follows.receiving.order
      rw [order, List.getElem?_take_of_lt moved]
      exact item
    · have genuine := (follows.receiving.genuine seg member).2
      rw [number, value] at genuine
      exact .buffered seg member (by rw [number, value]) (Option.some.inj (genuine.symm.trans item))
    · obtain ⟨original, present, rfl⟩ := List.mem_map.mp member
      have genuine := (here.held _ member).item
      rw [number, value] at genuine
      exact .kept original present ((congrArg BitVec.toNat number).trans value)
        (Option.some.inj (genuine.symm.trans item))
  · refine .waiting (by omega) ?_
    have queue : endpoint.kcp.snd_queue = (segments mss endpoint.given).drop endpoint.kcp.snd_nxt.toNat := here.waiting
    rw [queue, List.getElem?_drop, Nat.add_sub_cancel' (by omega)]
    exact item

end IotCamera.Kcp.Transfer
