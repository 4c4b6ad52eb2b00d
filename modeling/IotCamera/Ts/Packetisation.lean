import IotCamera.Ts.Plan

/-!
# Packetisation loses nothing

A receiver that selects one identifier, strips headers and adaptation fields
and joins the payloads gets back the PES header and the elementary data. The
argument has two halves. The slots of a frame carry its bytes in order, each
byte once: this is an induction over the loop, one case per layout. And what a
receiver reads in a packet depends on the send and not on its counter, so
reading the packets of one identifier is reading the sends of that identifier.
-/

namespace IotCamera.Packetisation

open Memory Buffers Packet Pes Mux Sends Plan

/-- The identifiers of the two elementary streams. -/
def Elementary (pid : Word) : Prop := pid = tsH264Pid ∨ pid = tsAacPid

/-- Every identifier this muxer sends under. -/
def Known (pid : Word) : Prop := pid = tsPatPid ∨ pid = tsPmtPid ∨ Elementary pid

/-- A send's payload: its body without the adaptation field. -/
def sendPayload (send : Send) : List Byte :=
  if (send.adaFieldC.setWidth 2 : BitVec 2) = 3
  then send.body.drop (1 + (Demux.byteAt send.body 0).toNat) else send.body

section Reading
variable (send : Send) (counter : ContinuityCounter)

/-- A known identifier fits in the thirteen bits of the header. -/
theorem packet_pid (known : Known send.pid) : Demux.pid (send.packet counter) = send.pid := by
  rw [Send.packet, Demux.header_pid]
  rcases known with same | same | same | same <;> simp only [packetheader, same] <;> decide

/-- A packet begins with the sync byte. -/
theorem packet_sync : Demux.byteAt (send.packet counter) 0 = tsSyncByte :=
  Demux.header_sync _ send.body

/-- It says whether a unit starts in it. -/
theorem packet_payload_unit_start :
    Demux.payloadUnitStart (send.packet counter) = send.playInit.getLsbD 0 := by
  rw [Send.packet, Demux.header_payload_unit_start]
  simp [packetheader]

/-- What a receiver finds in it is the payload that was sent. -/
theorem packet_payload : Demux.payload (send.packet counter) = sendPayload send := by
  rw [Send.packet, Demux.header_payload]
  rfl

end Reading

/-- Reading the packets of one identifier is reading its sends, for anything a
receiver reads that does not depend on the counter. -/
theorem stamp_filter_map {β : Type} (read : List Byte → β) (write : Send → β) (pid : Word)
    (sends : List Send) (counter : ContinuityCounter)
    (known : ∀ send ∈ sends, Known send.pid)
    (agree : ∀ send counter, read (send.packet counter) = write send) :
    ((stamp counter sends).filter (Demux.pid · = pid)).map read =
      (sends.filter (·.pid = pid)).map write := by
  induction sends generalizing counter with
  | nil => rfl
  | cons send rest inductionHypothesis =>
    have identified : Demux.pid (send.packet counter) = send.pid :=
      packet_pid send counter (known send List.mem_cons_self)
    have following := inductionHypothesis (counter.advance send.pid)
      fun other member => known other (List.mem_cons_of_mem send member)
    by_cases selected : send.pid = pid
    · subst selected
      simp [stamp, identified, agree, following]
    · simp [stamp, identified, selected, following]

/-- The first packet of an identifier is its first send, under some counter. -/
theorem stamp_filter_first (pid : Word) (sends : List Send) (counter : ContinuityCounter)
    (known : ∀ send ∈ sends, Known send.pid) (first : Send) (more : List Send)
    (selected : sends.filter (·.pid = pid) = first :: more) :
    ∃ counter' others, (stamp counter sends).filter (Demux.pid · = pid) =
      first.packet counter' :: others := by
  induction sends generalizing counter with
  | nil => simp at selected
  | cons send rest inductionHypothesis =>
    have identified : Demux.pid (send.packet counter) = send.pid :=
      packet_pid send counter (known send List.mem_cons_self)
    by_cases same : send.pid = pid
    · simp only [List.filter_cons, same, decide_true, ↓reduceIte, List.cons.injEq] at selected
      obtain ⟨rfl, -⟩ := selected
      exact ⟨counter, (stamp (counter.advance send.pid) rest).filter (Demux.pid · = pid), by
        simp [stamp, identified, same]⟩
    · simp only [List.filter_cons, same, decide_false, Bool.false_eq_true, ↓reduceIte] at selected
      obtain ⟨counter', others, found⟩ := inductionHypothesis (counter.advance send.pid)
        (fun other member => known other (List.mem_cons_of_mem send member)) selected
      refine ⟨counter', others, ?_⟩
      rw [stamp, List.filter_cons, identified, if_neg (by simpa using same), found]

/-- Every stamped packet is whole and starts with the sync byte. -/
theorem stamp_framed (sends : List Send) (counter : ContinuityCounter) :
    ∀ packet ∈ stamp counter sends,
      packet.length = 188 ∧ Demux.byteAt packet 0 = tsSyncByte := by
  induction sends generalizing counter with
  | nil => simp [stamp]
  | cons send rest inductionHypothesis =>
    intro packet member
    rcases List.mem_cons.mp member with rfl | later
    · exact ⟨packet_length send counter, packet_sync send counter⟩
    · exact inductionHypothesis _ packet later

section Weave
variable (pid : Word) (elementary : Elementary pid)
include elementary

/-- Tables are never sent under an elementary identifier. -/
theorem due_filter (written : Word) (checks : Nat) :
    ((List.replicate checks (due written)).flatten).filter (·.pid = pid) = [] := by
  have tables : ∀ send ∈ due written, send.pid ≠ pid := by
    intro send member
    have which : send = patSend ∨ send = pmtSend := by
      unfold due at member
      split at member <;> simp_all
    rcases which with rfl | rfl <;> rcases elementary with rfl | rfl <;> decide
  rw [List.filter_eq_nil_iff]
  intro send member
  obtain ⟨group, replicated, inside⟩ := List.mem_flatten.mp member
  have same : group = due written := (List.mem_replicate.mp replicated).2
  simpa using tables send (same ▸ inside)

/-- The elementary sends of a weave are those of its slots. -/
theorem weave_elementary (slots : List Slot) (written : Word)
    (under : ∀ slot ∈ slots, slot.send.pid = pid) :
    (weave written slots).filter (·.pid = pid) = slots.map Slot.send := by
  induction slots generalizing written with
  | nil => rfl
  | cons slot rest inductionHypothesis =>
    have first : slot.send.pid = pid := under slot List.mem_cons_self
    have following := inductionHypothesis (written + BitVec.ofNat 32 slot.counted)
      fun other member => under other (List.mem_cons_of_mem slot member)
    rw [weave, List.filter_append, due_filter pid elementary]
    simp [first, following]

/-- A weave sends under known identifiers only. -/
theorem weave_known (slots : List Slot) (written : Word)
    (under : ∀ slot ∈ slots, slot.send.pid = pid) :
    ∀ send ∈ weave written slots, Known send.pid := by
  induction slots generalizing written with
  | nil => simp [weave]
  | cons slot rest inductionHypothesis =>
    intro send member
    have following := inductionHypothesis (written + BitVec.ofNat 32 slot.counted)
      fun other inside => under other (List.mem_cons_of_mem slot inside)
    simp only [weave, List.mem_append, List.mem_cons, List.mem_flatten, List.mem_replicate] at member
    rcases member with ⟨group, ⟨_, rfl⟩, inside⟩ | rfl | later
    · unfold due at inside
      split at inside
      · have which : send = patSend ∨ send = pmtSend := by simpa using inside
        rcases which with rfl | rfl
        · exact Or.inl rfl
        · exact Or.inr (Or.inl rfl)
      · simp at inside
    · exact Or.inr (Or.inr ((under slot List.mem_cons_self) ▸ elementary))
    · exact following send later

/-- The first elementary packet of woven slots is that of the first slot. -/
theorem weave_first (slot : Slot) (rest : List Slot) (written : Word)
    (under : ∀ other ∈ slot :: rest, other.send.pid = pid) (counter : ContinuityCounter) :
    ∃ counter' others, (stamp counter (weave written (slot :: rest))).filter (Demux.pid · = pid) =
      slot.send.packet counter' :: others :=
  stamp_filter_first pid _ counter (weave_known pid elementary _ written under) slot.send
    (rest.map Slot.send) (weave_elementary pid elementary _ written under)

end Weave

section Layouts
variable (es : Nat → Byte) (pid : Word)

/-- A packet in the middle carries 184 bytes of the stream. -/
theorem middle_payload (neafBuf : Nat) :
    sendPayload (middleSend es pid neafBuf) = slice es neafBuf 184 := rfl

/-- A packet behind the shortest adaptation field with flags carries 182 bytes. -/
theorem nearly_full_payload (neafBuf : Nat) :
    sendPayload (nearlyFullSend es pid neafBuf) = slice es neafBuf 182 := rfl

/-- Stuffing of the announced length lies in front of what the packet carries. -/
theorem stuffed_payload (length : Nat) (rest : List Byte) (fits : length + 1 < 256)
    (send : Send) (adapted : send.adaFieldC = 0x03)
    (shape : send.body = [BitVec.ofNat 8 (length + 1), 0x00] ++ List.replicate length 0xFF ++ rest) :
    sendPayload send = rest := by
  have announced : (BitVec.ofNat 8 (length + 1)).toNat = length + 1 := by
    rw [BitVec.toNat_ofNat, Nat.mod_eq_of_lt fits]
  have front : 1 + (length + 1) =
      ([BitVec.ofNat 8 (length + 1), 0x00] ++ List.replicate length (0xFF : Byte)).length := by
    simp; omega
  rw [sendPayload, adapted, if_pos (by decide), shape]
  rw [show Demux.byteAt ([BitVec.ofNat 8 (length + 1), 0x00] ++ List.replicate length 0xFF ++ rest) 0
    = BitVec.ofNat 8 (length + 1) from rfl, announced, front, List.drop_left]

/-- A stuffed packet carries the rest of the stream. -/
theorem tail_payload (neafBuf beyond : Nat) (short : beyond < 182) :
    sendPayload (tailSend es pid neafBuf beyond short) = slice es neafBuf beyond := by
  apply stuffed_payload (184 - beyond - 2) _ (by omega) _ rfl
  rw [show 184 - beyond - 2 + 1 = 184 - beyond - 1 by omega]
  rfl

/-- A single packet carries the header and the whole stream. -/
theorem single_payload (tsPes : TsPes) (pts : Word) (short : tsPes.pesPacketLengthBeyond < 168) :
    sendPayload (singleSend pid tsPes pts (Nat.lt_trans short (by decide))) =
      pesHeader tsPes pts ++ slice tsPes.es.cell 0 tsPes.pesPacketLengthBeyond := by
  apply stuffed_payload (184 - tsPes.pesPacketLengthBeyond - 9 - 5 - 2) _ (by omega) _ rfl
  rw [show 184 - tsPes.pesPacketLengthBeyond - 9 - 5 - 2 + 1 =
    184 - tsPes.pesPacketLengthBeyond - 9 - 5 - 1 by omega]
  simp [singleSend]

/-- A first packet carries the header and as much of the stream as it has room for. -/
theorem first_payload (tsPes : TsPes) (pts : Word) (head : TsAdaptationField)
    (written : Written head) :
    sendPayload (firstSend pid tsPes pts head written) =
      pesHeader tsPes pts ++ slice tsPes.es.cell 0 (firstPacketLoadLength head) := by
  have front : 1 + head.adaptationFieldLength.toNat =
      ([head.adaptationFieldLength] ++ adaptationBytes head).length := by
    simp [(written_lengths head written).1]; omega
  have body : (firstSend pid tsPes pts head written).body =
      ([head.adaptationFieldLength] ++ adaptationBytes head) ++
        (pesHeader tsPes pts ++ slice tsPes.es.cell 0 (firstPacketLoadLength head)) := by
    simp [firstSend]
  rw [sendPayload, show (firstSend pid tsPes pts head written).adaFieldC = 0x03 from rfl,
    if_pos (by decide), body]
  rw [show Demux.byteAt (([head.adaptationFieldLength] ++ adaptationBytes head) ++
    (pesHeader tsPes pts ++ slice tsPes.es.cell 0 (firstPacketLoadLength head))) 0 =
      head.adaptationFieldLength from rfl, front, List.drop_left]

/-- What the loop's slots carry: under one identifier, never a unit start, and
the rest of the frame in order. Every layout takes its bytes from the position
the one before it left. -/
theorem neaf_slots_carry (fuel neafBuf beyond : Nat) (enough : beyond ≤ fuel) :
    (∀ slot ∈ neafSlots es pid fuel neafBuf beyond, slot.send.pid = pid ∧ slot.send.playInit = 0) ∧
      (neafSlots es pid fuel neafBuf beyond).flatMap (fun slot => sendPayload slot.send) =
        slice es neafBuf beyond := by
  induction fuel generalizing neafBuf beyond with
  | zero =>
    have finished : beyond = 0 := by omega
    simp [neafSlots, finished]
  | succ fuel inductionHypothesis =>
    by_cases finished : beyond = 0
    · simp [neafSlots, finished]
    by_cases full : 184 ≤ beyond
    · obtain ⟨fields, carried⟩ := inductionHypothesis (neafBuf + 184) (beyond - 184) (by omega)
      have joined := slice_append es neafBuf 184 (beyond - 184)
      rw [Nat.add_sub_cancel' full] at joined
      simp only [neafSlots, finished, full, ↓reduceIte]
      constructor
      · intro slot member
        rcases List.mem_cons.mp member with rfl | later
        · exact ⟨rfl, rfl⟩
        · exact fields slot later
      · rw [List.flatMap_cons, carried, middle_payload, joined]
    by_cases nearly : beyond = 183 ∨ beyond = 182
    · obtain ⟨fields, carried⟩ := inductionHypothesis (neafBuf + 182) (beyond - 182) (by omega)
      have joined := slice_append es neafBuf 182 (beyond - 182)
      rw [Nat.add_sub_cancel' (by omega)] at joined
      simp only [neafSlots, finished, full, nearly, ↓reduceIte]
      constructor
      · intro slot member
        rcases List.mem_cons.mp member with rfl | later
        · exact ⟨rfl, rfl⟩
        · exact fields slot later
      · rw [List.flatMap_cons, carried, nearly_full_payload, joined]
    · have short : beyond < 182 := by omega
      simp only [neafSlots, finished, full, nearly, short, ↓reduceIte, ↓reduceDIte]
      constructor
      · intro slot member
        rw [List.mem_singleton.mp member]
        exact ⟨rfl, rfl⟩
      · simpa using tail_payload es pid neafBuf beyond short

/-- What a frame's slots carry: one unit start, in front, and the PES header
followed by the elementary data. -/
theorem frame_slots_carry (tsPes : TsPes) (pts : Word) (head : TsAdaptationField)
    (written : Written head) :
    (∀ slot ∈ frameSlots tsPes pid pts head written, slot.send.pid = pid) ∧
      (∃ later, (frameSlots tsPes pid pts head written).map (fun slot => slot.send.playInit) =
        0x01 :: List.replicate later 0x00) ∧
      (frameSlots tsPes pid pts head written).flatMap (fun slot => sendPayload slot.send) =
        pesHeader tsPes pts ++ slice tsPes.es.cell 0 tsPes.pesPacketLengthBeyond := by
  have room := written_room head written
  by_cases short : tsPes.pesPacketLengthBeyond < firstPacketLoadLength head
  · simp only [frameSlots, short, ↓reduceDIte]
    refine ⟨?_, ⟨0, rfl⟩, ?_⟩
    · intro slot member
      rw [List.mem_singleton.mp member]
      rfl
    · simpa using single_payload pid tsPes pts (by omega)
  · obtain ⟨fields, carried⟩ := neaf_slots_carry tsPes.es.cell pid
      (tsPes.pesPacketLengthBeyond - firstPacketLoadLength head) (firstPacketLoadLength head)
      (tsPes.pesPacketLengthBeyond - firstPacketLoadLength head) le_rfl
    have joined := slice_append tsPes.es.cell 0 (firstPacketLoadLength head)
      (tsPes.pesPacketLengthBeyond - firstPacketLoadLength head)
    rw [Nat.zero_add, Nat.add_sub_cancel' (by omega)] at joined
    simp only [frameSlots, short, ↓reduceDIte]
    refine ⟨?_, ⟨_, congrArg (0x01 :: ·) (List.eq_replicate_iff.mpr ⟨rfl, ?_⟩)⟩, ?_⟩
    · intro slot member
      rcases List.mem_cons.mp member with rfl | later
      · rfl
      · exact (fields slot later).1
    · intro start member
      obtain ⟨slot, inside, rfl⟩ := List.mem_map.mp member
      exact (fields slot inside).2
    · rw [List.flatMap_cons, carried, first_payload, List.append_assoc, joined]

end Layouts

/-- The packetiser hands the callback whole packets from which a receiver gets
back the fourteen-byte PES header and then the frame, with nothing lost,
repeated or padded. The first and only the first of them starts a unit, and the
header's time stamp is the argument of the frame's own stream. The tables sent
in between lie under other identifiers. -/
theorem packetisation_lossless (session : TspkgSession) (tsPes : TsPes) (pid : Word)
    (head tail : TsAdaptationField) (videopts adudiopts pts : Word)
    (callback : session.writets = true) (elementary : Elementary pid) (written : Written head)
    (stream : tsPes.streamId = tsH264StreamId ∧ pts = videopts ∨
      tsPes.streamId = tsAacStreamId ∧ pts = adudiopts) :
    ∃ new, (pes2Ts session tsPes pid head tail videopts adudiopts).1.received =
        session.received ++ new ∧
      (∀ packet ∈ new.filter (Demux.pid · = pid),
        packet.length = 188 ∧ Demux.byteAt packet 0 = 0x47) ∧
      (∃ later, (new.filter (Demux.pid · = pid)).map Demux.payloadUnitStart =
        true :: List.replicate later false) ∧
      ∃ header : List Byte, header.length = 14 ∧ header.take 9 = pesHeaderBytes tsPes ∧
        Demux.decodePts (header.drop 9) = some (pts.setWidth 33) ∧
        (new.filter (Demux.pid · = pid)).flatMap Demux.payload =
          header ++ tsPes.es.bytes tsPes.pesPacketLengthBeyond := by
  have stamped : streamPts tsPes videopts adudiopts = some pts := by
    rcases stream with ⟨same, rfl⟩ | ⟨same, rfl⟩
    · simp [streamPts, same]
    · rw [streamPts, same, if_neg (by decide), if_pos rfl]
  obtain ⟨after, sent⟩ := pes2_ts_delivered session tsPes pid head tail written videopts adudiopts
    pts stamped
  set slots := frameSlots tsPes pid pts head written with slotsDef
  obtain ⟨under, ⟨later, starts⟩, carried⟩ := frame_slots_carry pid tsPes pts head written
  have known := weave_known pid elementary slots session.writePacketNum under
  have elementarySends := weave_elementary pid elementary slots session.writePacketNum under
  refine ⟨stamp session.continuityCounter (weave session.writePacketNum slots), ?_, ?_,
    ⟨later, ?_⟩, pesHeader tsPes pts, rfl, rfl, Demux.decode_pts_bytes pts, ?_⟩
  · simp [sent, delivered, callback]
  · intro packet member
    exact stamp_framed _ _ packet (List.mem_of_mem_filter member)
  · rw [stamp_filter_map _ (fun send => send.playInit.getLsbD 0) pid _ _ known
      packet_payload_unit_start, elementarySends, List.map_map]
    have bits := congrArg (List.map (fun start : Byte => start.getLsbD 0)) starts
    simpa [Function.comp_def] using bits
  · rw [List.flatMap_def, stamp_filter_map _ sendPayload pid _ _ known packet_payload,
      elementarySends, List.map_map, ← List.flatMap_def]
    exact carried

/-- A video frame of 400 equal bytes, cut into a first packet, a full one and a
stuffed tail behind the tables. -/
theorem packetisation_lossless_uniform :
    let vacant := fillPes (Block.uniform maxOneFrameSize 0) tsH264StreamId 0 0
    let session := TspkgSession.created ⟨0, 0, 0, 0⟩ vacant vacant
    let tsPes := fillPes (Block.uniform maxOneFrameSize 0xAB) tsH264StreamId 400 3600
    let head := writeAdaptiveFlagsHead uninitialised 3600
    ∃ new, (pes2Ts session tsPes tsH264Pid head head 3600 0).1.received = session.received ++ new ∧
      (∀ packet ∈ new.filter (Demux.pid · = tsH264Pid),
        packet.length = 188 ∧ Demux.byteAt packet 0 = 0x47) ∧
      (∃ later, (new.filter (Demux.pid · = tsH264Pid)).map Demux.payloadUnitStart =
        true :: List.replicate later false) ∧
      ∃ header : List Byte, header.length = 14 ∧ header.take 9 = pesHeaderBytes tsPes ∧
        Demux.decodePts (header.drop 9) = some ((3600 : Word).setWidth 33) ∧
        (new.filter (Demux.pid · = tsH264Pid)).flatMap Demux.payload = header ++ tsPes.es.bytes 400 :=
  packetisation_lossless _ _ tsH264Pid _ _ 3600 0 3600 rfl (Or.inl rfl) (Or.inl ⟨_, _, rfl⟩)
    (Or.inl ⟨rfl, rfl⟩)

end IotCamera.Packetisation
