import IotCamera.Kcp.Messages

/-!
# Two KCP sessions that talk to each other

One session numbers segments, keeps each until the other says that it has arrived, and the
other takes them in order. What a packet says is true of the session that sent it when it
is sent, and stays true: segments keep their numbers, and what has arrived has arrived. So
a packet may come late, twice or never. Here is what every packet and every flush keeps
about two sessions.
-/

namespace IotCamera.Kcp.Sessions

open Memory Ikcp Wire Effects Flushing Arrivals Messages
open Receive (IKCP_CMD_PUSH IKCP_CMD_ACK IKCP_CMD_WASK IKCP_CMD_WINS IKCP_OVERHEAD itimediff inputSegment)

/-- A kept segment is one of those that were numbered. -/
structure Numbered (conv : Word) (items : List Fragment) (limit : Nat) (seg : Core) : Prop where
  own : seg.conv = conv
  cmd : seg.cmd = promote IKCP_CMD_PUSH
  below : seg.sn.toNat < limit
  item : items[seg.sn.toNat]? = some ⟨seg.frg, seg.data⟩

/-- A session in message mode whose segments are `items`: the numbered ones are the first,
the others wait. -/
structure Honest (conv : Word) (items : List Fragment) (session : View) : Prop where
  own : session.receiving.conv = conv
  mode : session.stream = 0
  room : session.mss.toNat + IKCP_OVERHEAD = session.mtu.toNat
  positive : 0 < session.mss.toNat
  range : session.mtu.toNat < 2 ^ 31
  parts : ∀ part ∈ items, part.frg.toNat < 256 ∧ part.data.length ≤ session.mss.toNat
  numbered : session.snd_nxt.toNat ≤ items.length
  waiting : session.snd_queue = items.drop session.snd_nxt.toNat
  held : ∀ seg ∈ session.held, Numbered conv items session.snd_nxt.toNat seg
  acks : ∀ ack ∈ session.acklist, Arrived session.receiving ack.1

/-- What has arrived of what was numbered. What has not is still kept. -/
structure Follows (items taken : List Fragment) (sender receiver : View) : Prop where
  receiving : Receiving items sender.snd_nxt.toNat taken receiver.receiving
  kept : ∀ sn : Word, sn.toNat < sender.snd_nxt.toNat →
    Arrived receiver.receiving sn ∨ ∃ seg ∈ sender.held, seg.sn = sn

/-- A packet that is true of the session that sent it. -/
structure Genuine (conv : Word) (items : List Fragment) (session : View) (packet : Packet) : Prop where
  own : packet.conv = conv
  short : packet.data.length < 2 ^ 31
  una : packet.una.toNat ≤ session.receiving.rcv_nxt.toNat
  kind : (packet.cmd = IKCP_CMD_PUSH ∧ packet.sn.toNat < session.snd_nxt.toNat ∧
      items[packet.sn.toNat]? = some ⟨promote packet.frg, packet.data⟩) ∨
    (packet.cmd = IKCP_CMD_ACK ∧ Arrived session.receiving packet.sn) ∨
    packet.cmd = IKCP_CMD_WASK ∨ packet.cmd = IKCP_CMD_WINS

/-- A session goes on: nothing that it has said becomes wrong. -/
structure Advances (before after : View) : Prop where
  receiving : Progress before.receiving after.receiving
  snd_nxt : before.snd_nxt.toNat ≤ after.snd_nxt.toNat
  mss : after.mss = before.mss
  mtu : after.mtu = before.mtu

/-- Doing nothing advances a session. -/
theorem advances_refl (session : View) : Advances session session :=
  ⟨progress_refl _, Nat.le_refl _, rfl, rfl⟩

/-- Advancing twice is advancing. -/
theorem Advances.trans {first second third : View} (earlier : Advances first second)
    (later : Advances second third) : Advances first third :=
  ⟨earlier.receiving.trans later.receiving, Nat.le_trans earlier.snd_nxt later.snd_nxt,
    later.mss.trans earlier.mss, later.mtu.trans earlier.mtu⟩

/-- What stands in a beginning stands there in the whole. -/
theorem prefix_item {items more : List Fragment} (longer : items <+: more) (index : Nat) (item : Fragment)
    (found : items[index]? = some item) : more[index]? = some item := by
  obtain ⟨rest, rfl⟩ := longer
  rw [List.getElem?_append_left (List.getElem?_eq_some_iff.mp found).1]
  exact found

/-- A genuine packet stays genuine while more is sent and the session advances. -/
theorem Genuine.mono {conv : Word} {items more : List Fragment} {before after : View} {packet : Packet}
    (genuine : Genuine conv items before packet) (longer : items <+: more) (advances : Advances before after) :
    Genuine conv more after packet := by
  refine ⟨genuine.own, genuine.short, Nat.le_trans genuine.una advances.receiving.next, ?_⟩
  rcases genuine.kind with ⟨push, below, item⟩ | ⟨ack, arrived⟩ | window
  · exact .inl ⟨push, Nat.lt_of_lt_of_le below advances.snd_nxt, prefix_item longer _ _ item⟩
  · exact .inr (.inl ⟨ack, advances.receiving.arrived _ arrived⟩)
  · exact .inr (.inr window)

/-- A genuine packet is accepted by the peer. -/
theorem genuine_acceptable (conv : Word) (items : List Fragment) (session : View) (packet : Packet)
    (genuine : Genuine conv items session packet) : Acceptable conv packet := by
  refine ⟨genuine.own, ?_, genuine.short⟩
  rcases genuine.kind with ⟨push, -⟩ | ⟨ack, -⟩ | ask | tell
  · exact .inl push
  · exact .inr (.inl ack)
  · exact .inr (.inr (.inl ask))
  · exact .inr (.inr (.inr tell))

/-- Two sessions, each of which numbers its own segments and takes those of the other. -/
structure Linked (conv : Word) (mine theirs : List Fragment) (taken given : List Fragment)
    (session peer : View) : Prop where
  here : Honest conv mine session
  there : Honest conv theirs peer
  incoming : Follows theirs taken peer session
  outgoing : Follows mine given session peer

/-- Two sessions are linked in both directions. -/
theorem Linked.symm {conv : Word} {mine theirs taken given : List Fragment} {session peer : View}
    (linked : Linked conv mine theirs taken given session peer) :
    Linked conv theirs mine given taken peer session :=
  ⟨linked.there, linked.here, linked.outgoing, linked.incoming⟩

section Packets
variable {conv : Word} {mine theirs taken given : List Fragment} {session peer : View}
  (few : mine.length < 2 ^ 31)

include few

/-- What a packet makes a session give up has arrived at the peer. -/
theorem acknowledged_arrived (linked : Linked conv mine theirs taken given session peer) (packet : Packet)
    (genuine : Genuine conv theirs peer packet) (seg : Core) (member : seg ∈ session.held)
    (acknowledged : Acknowledges packet seg.sn) : Arrived peer.receiving seg.sn := by
  have below := (linked.here.held seg member).below
  have limit := linked.here.numbered
  have reached := linked.outgoing.receiving.reached
  have una := genuine.una
  rcases acknowledged with lower | ⟨ack, same⟩
  · rw [itimediff_small _ _ (by omega) (by omega)] at lower
    exact .inl (by omega)
  · rcases genuine.kind with ⟨push, -⟩ | ⟨-, arrived⟩ | ask | tell
    · exact absurd (ack.symm.trans push) (by decide)
    · rw [same]
      exact arrived
    · exact absurd (ack.symm.trans ask) (by decide)
    · exact absurd (ack.symm.trans tell) (by decide)

variable (fewer : theirs.length < 2 ^ 31)

include fewer

/-- What a packet of the peer does to a session keeps the two linked. -/
theorem packet_linked (linked : Linked conv mine theirs taken given session peer) (packet : Packet)
    (genuine : Genuine conv theirs peer packet) (held : List Core)
    (releases : Releases (Acknowledges packet) session.held held) :
    Linked conv mine theirs taken given
        { session with
          held := held
          receiving := inputSegment session.receiving packet.cmd (broughtBy packet)
          acklist := session.acklist ++ acksFor session.receiving packet } peer ∧
      Advances session
        { session with
          held := held
          receiving := inputSegment session.receiving packet.cmd (broughtBy packet)
          acklist := session.acklist ++ acksFor session.receiving packet } := by
  obtain ⟨here, there, incoming, outgoing⟩ := linked
  have limit := there.numbered
  have brought : packet.cmd = IKCP_CMD_PUSH → (broughtBy packet).sn.toNat < peer.snd_nxt.toNat ∧
      theirs[(broughtBy packet).sn.toNat]? = some (fragment (broughtBy packet)) := by
    intro push
    rcases genuine.kind with ⟨-, below, item⟩ | ⟨ack, -⟩ | ask | tell
    · exact ⟨below, item⟩
    · exact absurd (push.symm.trans ack) (by decide)
    · exact absurd (push.symm.trans ask) (by decide)
    · exact absurd (push.symm.trans tell) (by decide)
  obtain ⟨receiving, progress, arrived⟩ := input_segment_receiving (by omega) taken session.receiving packet.cmd
    (broughtBy packet) brought incoming.receiving
  refine ⟨⟨?_, there, ⟨receiving, ?_⟩, ⟨outgoing.receiving, ?_⟩⟩, progress, Nat.le_refl _, rfl, rfl⟩
  · refine { here with own := ?_, held := fun seg member => here.held seg (releases.kept seg member), acks := ?_ }
    · exact (input_segment_conv _ _ _).trans here.own
    · intro ack member
      rcases List.mem_append.mp member with earlier | new
      · exact progress.arrived _ (here.acks ack earlier)
      · unfold acksFor at new
        split at new
        case isTrue due =>
          obtain rfl := List.mem_singleton.mp new
          exact arrived due.1 due.2
        case isFalse => cases new
  · intro sn below
    exact (incoming.kept sn below).imp (progress.arrived sn) id
  · intro sn below
    rcases outgoing.kept sn below with there | ⟨seg, member, rfl⟩
    · exact .inl there
    · rcases releases.released seg member with still | reason
      · exact .inr ⟨seg, still, rfl⟩
      · exact .inl (acknowledged_arrived few ⟨here, there, incoming, outgoing⟩ packet genuine seg member reason)

/-- A datagram of the peer, whole or cut off, keeps the two linked. -/
theorem input_linked (kcp : Ikcpcb) (linked : Linked conv mine theirs taken given (view kcp) peer)
    (packets : List Packet) (genuine : ∀ packet ∈ packets, Genuine conv theirs peer packet) (count : Nat) :
    Linked conv mine theirs taken given (view (ikcpInput kcp ((packets.flatMap encode).take count)).1) peer ∧
      Advances (view kcp) (view (ikcpInput kcp ((packets.flatMap encode).take count)).1) := by
  refine input_keeps (fun session => Linked conv mine theirs taken given session peer ∧ Advances (view kcp) session)
    kcp packets count ?_ ?_ ⟨linked, advances_refl _⟩
  · intro packet member
    have same : kcp.conv = conv := linked.here.own
    rw [same]
    exact genuine_acceptable conv theirs peer packet (genuine packet member)
  · rintro reading packet member ⟨now, advanced⟩
    obtain ⟨held, releases, seen⟩ := input_packet_view reading packet
    obtain ⟨next, further⟩ := packet_linked few fewer now packet (genuine packet member) held releases
    rw [seen]
    exact ⟨next, advanced.trans further⟩

end Packets

/-! ## Flushing -/

/-- The numbers of consecutive segments. -/
theorem numbered_index (conv sn : Word) (parts : List Fragment) (index : Nat) :
    (numbered conv sn parts)[index]? = parts[index]?.map fun part =>
      ⟨conv, promote IKCP_CMD_PUSH, part.frg, sn + BitVec.ofNat 32 index, part.data⟩ := by
  induction parts generalizing sn index with
  | nil => rfl
  | cons part rest inductionHypothesis =>
    cases index with
    | zero => simp [numbered]
    | succ index =>
      have next : sn + 1 + BitVec.ofNat 32 index = sn + BitVec.ofNat 32 (index + 1) := by
        rw [Nat.add_comm, BitVec.ofNat_add, BitVec.add_assoc]
        rfl
      rw [numbered, List.getElem?_cons_succ, List.getElem?_cons_succ, inductionHypothesis, next]

/-- Below 2^31 the numbers of segments do not wrap. -/
theorem number_value (sn : Word) (index limit : Nat) (within : sn.toNat + index ≤ limit) (bounded : limit < 2 ^ 31) :
    (sn + BitVec.ofNat 32 index).toNat = sn.toNat + index := by
  rw [BitVec.toNat_add, BitVec.toNat_ofNat, Nat.mod_eq_of_lt (by omega : index < 2 ^ 32)]
  exact Nat.mod_eq_of_lt (by omega)

/-- The segments of an honest session fit into datagrams. -/
theorem honest_fits (conv : Word) (items : List Fragment) (session : View) (honest : Honest conv items session) :
    Fits session := by
  obtain ⟨own, -, room, -, range, parts, -, waiting, held, -⟩ := honest
  refine ⟨range, by omega, fun part member => ?_, fun seg member => ⟨?_, ?_⟩⟩
  · rw [waiting] at member
    have short := (parts part (List.mem_of_mem_drop member)).2
    omega
  · rw [own]
    exact (held seg member).own
  · have short := (parts _ (List.mem_of_getElem? (held seg member).item)).2
    dsimp only at short
    omega

/-- What a flush sends is true of the session afterwards. -/
theorem sent_genuine (conv : Word) (items : List Fragment) (session : View) (honest : Honest conv items session)
    (acklist : List (Word × Word)) (acks : ∀ ack ∈ acklist, Arrived session.receiving ack.1)
    (packet : Packet) (sent : Sent session acklist packet) : Genuine conv items session packet := by
  obtain ⟨own, una, kind⟩ := sent
  have same := own.trans honest.own
  have reached : packet.una.toNat ≤ session.receiving.rcv_nxt.toNat := by rw [una]
  cases kind with
  | ack cmd empty due =>
    obtain ⟨ack, member, number⟩ := due
    refine ⟨same, by rw [empty]; decide, reached, .inr (.inl ⟨cmd, ?_⟩)⟩
    rw [← number]
    exact acks ack member
  | window cmd empty => exact ⟨same, by rw [empty]; decide, reached, .inr (.inr cmd)⟩
  | push seg kept cmd frg sn data =>
    obtain ⟨-, command, below, item⟩ := honest.held seg kept
    obtain ⟨small, short⟩ := honest.parts _ (List.mem_of_getElem? item)
    have range := honest.range
    have room := honest.room
    refine ⟨same, ?_, reached, .inl ⟨?_, by rw [sn]; exact below, ?_⟩⟩
    · rw [data]
      dsimp only at short
      omega
    · rw [cmd, command]
      rfl
    · have back : promote (low seg.frg) = seg.frg := by
        apply BitVec.eq_of_toNat_eq
        rw [promote_value, low, BitVec.toNat_setWidth]
        exact Nat.mod_eq_of_lt small
      rw [sn, frg, data, back]
      exact item

section Flushes
variable {conv : Word} {mine theirs taken given : List Fragment} {session peer : View}
  (few : mine.length < 2 ^ 31)

include few

/-- Numbering segments that wait keeps the two linked. -/
theorem number_linked (linked : Linked conv mine theirs taken given session peer) (count : Nat)
    (inside : count ≤ session.snd_queue.length) :
    Linked conv mine theirs taken given (number session count) peer ∧ Advances session (number session count) := by
  obtain ⟨here, there, incoming, outgoing⟩ := linked
  have size : session.snd_queue.length = mine.length - session.snd_nxt.toNat := by
    rw [here.waiting, List.length_drop]
  have limit := here.numbered
  have next : (session.snd_nxt + BitVec.ofNat 32 count).toNat = session.snd_nxt.toNat + count :=
    number_value _ count mine.length (by omega) few
  have advanced : session.snd_nxt.toNat ≤ (number session count).snd_nxt.toNat := by
    rw [number, next]
    omega
  have waiting : ∀ index < count, (session.snd_queue.take count)[index]? = mine[session.snd_nxt.toNat + index]? := by
    intro index below
    rw [List.getElem?_take_of_lt below, here.waiting, List.getElem?_drop]
  refine ⟨⟨{ here with numbered := ?_, waiting := ?_, held := ?_, acks := here.acks }, there,
    { incoming with }, ⟨?_, ?_⟩⟩, progress_refl _, advanced, rfl, rfl⟩
  · rw [number, next]
    omega
  · rw [number, next, here.waiting, List.drop_drop]
  · intro seg member
    rcases List.mem_append.mp member with old | new
    · have numbered := here.held seg old
      exact { numbered with below := Nat.lt_of_lt_of_le numbered.below advanced }
    · obtain ⟨index, found⟩ := List.mem_iff_getElem?.mp new
      rw [numbered_index] at found
      obtain ⟨part, item, rfl⟩ := Option.map_eq_some_iff.mp found
      have below : index < count := by
        have position := (List.getElem?_eq_some_iff.mp item).1
        rw [List.length_take] at position
        omega
      have value := number_value session.snd_nxt index mine.length (by omega) few
      rw [waiting index below] at item
      refine ⟨here.own, rfl, ?_, ?_⟩
      · rw [number, next, value]
        omega
      · rw [value]
        exact item
  · exact { outgoing.receiving with
      reached := Nat.le_trans outgoing.receiving.reached advanced
      genuine := fun seg member =>
        ⟨Nat.lt_of_lt_of_le (outgoing.receiving.genuine seg member).1 advanced,
          (outgoing.receiving.genuine seg member).2⟩ }
  · intro sn below
    rw [number, next] at below
    by_cases old : sn.toNat < session.snd_nxt.toNat
    · rcases outgoing.kept sn old with arrived | ⟨seg, member, same⟩
      · exact .inl arrived
      · exact .inr ⟨seg, List.mem_append_left _ member, same⟩
    · obtain ⟨index, position⟩ := Nat.exists_eq_add_of_le (Nat.not_lt.mp old)
      have value := number_value session.snd_nxt index mine.length (by omega) few
      obtain ⟨part, item⟩ : ∃ part, mine[session.snd_nxt.toNat + index]? = some part :=
        ⟨_, List.getElem?_eq_getElem (by omega)⟩
      rw [← waiting index (by omega)] at item
      have found := numbered_index session.receiving.conv session.snd_nxt (session.snd_queue.take count) index
      rw [item] at found
      refine .inr ⟨_, List.mem_append_right _ (List.mem_of_getElem? found), ?_⟩
      exact BitVec.eq_of_toNat_eq (value.trans position.symm)

/-- A flush keeps the two linked, and sends what is true. -/
theorem flush_linked (kcp : Ikcpcb) (linked : Linked conv mine theirs taken given (view kcp) peer) :
    Linked conv mine theirs taken given (view (ikcpFlush kcp).1) peer ∧
      Advances (view kcp) (view (ikcpFlush kcp).1) ∧
      ∀ datagram ∈ (ikcpFlush kcp).2,
        Datagram kcp.mtu.toNat (Genuine conv mine (view (ikcpFlush kcp).1)) datagram := by
  obtain ⟨count, inside, acklist, fewer, seen, sent⟩ := flush_view kcp (honest_fits conv mine _ linked.here)
  have forgets : Linked conv mine theirs taken given { view kcp with acklist := acklist } peer :=
    ⟨{ linked.here with acks := fun ack member => linked.here.acks ack (fewer member) }, linked.there,
      ⟨linked.incoming.receiving, linked.incoming.kept⟩, ⟨linked.outgoing.receiving, linked.outgoing.kept⟩⟩
  obtain ⟨after, advances⟩ := number_linked few forgets count inside
  have same : (view (ikcpFlush kcp).1).receiving = (view kcp).receiving := by
    rw [seen]
    rfl
  rw [← seen] at after advances
  refine ⟨after, ⟨advances.receiving, advances.snd_nxt, advances.mss, advances.mtu⟩, fun datagram member => ?_⟩
  obtain ⟨⟨⟨packets, written, kinds⟩, short⟩, filled⟩ := sent datagram member
  refine ⟨⟨⟨packets, written, fun packet inside => ?_⟩, short⟩, filled⟩
  refine sent_genuine conv mine _ after.here kcp.acklist ?_ packet (kinds packet inside)
  rw [same]
  exact linked.here.acks

end Flushes

/-! ## Messages -/

section Calls
variable {conv : Word} {mine theirs taken given : List Fragment} {session peer : View}

/-- More segments that wait keep the two linked. -/
theorem send_linked (linked : Linked conv mine theirs taken given session peer) (parts : List Fragment)
    (small : ∀ part ∈ parts, part.frg.toNat < 256 ∧ part.data.length ≤ session.mss.toNat) :
    Linked conv (mine ++ parts) theirs taken given
        { session with snd_queue := session.snd_queue ++ parts } peer ∧
      Advances session { session with snd_queue := session.snd_queue ++ parts } := by
  obtain ⟨here, there, incoming, outgoing⟩ := linked
  have limit := here.numbered
  have longer : mine <+: mine ++ parts := List.prefix_append mine parts
  refine ⟨⟨{ here with parts := ?_, numbered := ?_, waiting := ?_, held := ?_, acks := here.acks }, there,
    ⟨incoming.receiving, incoming.kept⟩, ⟨?_, outgoing.kept⟩⟩, progress_refl _, Nat.le_refl _, rfl, rfl⟩
  · exact List.forall_mem_append.mpr ⟨here.parts, small⟩
  · rw [List.length_append]
    dsimp only
    omega
  · rw [List.drop_append_of_le_length limit, here.waiting]
  · intro seg member
    have numbered := here.held seg member
    exact { numbered with item := prefix_item longer _ _ numbered.item }
  · have reached := outgoing.receiving.reached
    exact { outgoing.receiving with
      order := by
        rw [List.take_append_of_le_length (by omega)]
        exact outgoing.receiving.order
      genuine := fun seg member => ⟨(outgoing.receiving.genuine seg member).1,
        prefix_item longer _ _ (outgoing.receiving.genuine seg member).2⟩ }

/-- Taking segments from the queue keeps the two linked. -/
theorem recv_linked (fewer : theirs.length < 2 ^ 31) (linked : Linked conv mine theirs taken given session peer)
    (parts more : List Receive.Segment) (queue : session.receiving.rcv_queue = parts ++ more) :
    Linked conv mine theirs (taken ++ parts.map fragment) given
        { session with
          receiving := Receive.moveAvailable { session.receiving with
            rcv_queue := more
            nrcv_que := session.receiving.nrcv_que - BitVec.ofNat 32 parts.length } } peer ∧
      Advances session
        { session with
          receiving := Receive.moveAvailable { session.receiving with
            rcv_queue := more
            nrcv_que := session.receiving.nrcv_que - BitVec.ofNat 32 parts.length } } := by
  obtain ⟨here, there, incoming, outgoing⟩ := linked
  have limit := there.numbered
  obtain ⟨order, reached, genuine, counted⟩ := incoming.receiving
  have sizes : parts.length + more.length = session.receiving.nrcv_que.toNat := by
    rw [counted, queue, List.length_append]
  have value : (session.receiving.nrcv_que - BitVec.ofNat 32 parts.length).toNat = more.length := by
    have bound := session.receiving.nrcv_que.isLt
    rw [BitVec.toNat_sub_of_le, BitVec.toNat_ofNat, Nat.mod_eq_of_lt (by omega)]
    · omega
    · rw [BitVec.le_def, BitVec.toNat_ofNat, Nat.mod_eq_of_lt (by omega)]
      omega
  obtain ⟨receiving, progress⟩ := move_available_receiving (by omega) (taken ++ parts.map fragment)
    { session.receiving with
      rcv_queue := more
      nrcv_que := session.receiving.nrcv_que - BitVec.ofNat 32 parts.length }
    ⟨by rw [← order, queue, List.map_append, List.append_assoc], reached, genuine, value⟩
  have advances : Progress session.receiving (Receive.moveAvailable { session.receiving with
      rcv_queue := more
      nrcv_que := session.receiving.nrcv_que - BitVec.ofNat 32 parts.length }) :=
    ⟨progress.next, progress.arrived⟩
  refine ⟨⟨{ here with own := ?_, acks := ?_ }, there, ⟨receiving, ?_⟩, ⟨outgoing.receiving, outgoing.kept⟩⟩,
    advances, Nat.le_refl _, rfl, rfl⟩
  · exact (move_loop_conv _ _).trans here.own
  · exact fun ack member => advances.arrived _ (here.acks ack member)
  · exact fun sn below => (incoming.kept sn below).imp (advances.arrived sn) id

end Calls

end IotCamera.Kcp.Sessions
