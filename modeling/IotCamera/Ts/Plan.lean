import IotCamera.Ts.Sends

/-!
# The sends of one frame

The packetiser is described by the sends it makes and the packets it counts. A
frame is cut into slots: one elementary packet each, with the number of table
checks made in front of it and the number of packets counted for it. The slots
depend on the frame alone; weaving them with the packet counter adds the tables
that the checks find due. The laws here say that each packet writer, the loop
and the whole packetiser deliver exactly what is woven from their slots.
-/

namespace IotCamera.Plan

open Memory Buffers Packet Pes Mux Sends

/-- The tables sent by one check of the packet counter. -/
def due (written : Word) : List Send := if written % 40 = 0 then [patSend, pmtSend] else []

/-- One elementary packet of a frame, the table checks made before it and the
packets counted for it. -/
structure Slot where
  checks : Nat
  send : Send
  counted : Nat

/-- The sends of consecutive slots from a packet counter on. -/
def weave : Word → List Slot → List Send
  | _, [] => []
  | written, slot :: rest =>
    (List.replicate slot.checks (due written)).flatten ++
      slot.send :: weave (written + BitVec.ofNat 32 slot.counted) rest

/-- The packets counted for consecutive slots. -/
def counted (slots : List Slot) : Nat := (slots.map Slot.counted).sum

/-- An adaptation field as the muxer writes one, with or without a clock
reference, over whatever the structure held before. -/
def Written (field : TsAdaptationField) : Prop :=
  (∃ before videopts, field = writeAdaptiveFlagsHead before videopts) ∨
    ∃ before, field = writeAdaptiveFlagsTail before

/-- The bytes of a written adaptation field behind its length byte. -/
def adaptationBytes (field : TsAdaptationField) : List Byte :=
  if field.pcrFlag ≠ 0 then 0x10 :: pcrBytes field.pcr else [0x00]

/-- A written field is as long as it says, and the first packet takes the rest. -/
theorem written_lengths (field : TsAdaptationField) (written : Written field) :
    (adaptationBytes field).length = field.adaptationFieldLength.toNat ∧
      firstPacketLoadLength field + field.adaptationFieldLength.toNat = 169 := by
  rcases written with ⟨before, videopts, rfl⟩ | ⟨before, rfl⟩ <;>
    exact ⟨rfl, by simp [firstPacketLoadLength, writeAdaptiveFlagsHead, writeAdaptiveFlagsTail,
      unsigned]⟩

/-- A written field has at least its flags, so the first packet takes at most 168
bytes. -/
theorem written_room (field : TsAdaptationField) (written : Written field) :
    firstPacketLoadLength field ≤ 168 := by
  rcases written with ⟨before, videopts, rfl⟩ | ⟨before, rfl⟩ <;>
    simp [firstPacketLoadLength, writeAdaptiveFlagsHead, writeAdaptiveFlagsTail, unsigned]

/-- Filling a written field behind a finished part of five bytes. -/
theorem create_adaptive_written (field : TsAdaptationField) (written : Written field)
    (finished : List Byte) (here : finished.length = 5) (room left adaptiveLength : Nat)
    (fits : room = field.adaptationFieldLength.toNat + left) :
    createAdaptiveTs field (finished ++ List.replicate room 0) 5 adaptiveLength =
      finished ++ adaptationBytes field ++ List.replicate left 0 := by
  subst fits
  rcases written with ⟨before, videopts, rfl⟩ | ⟨before, rfl⟩
  · set field := writeAdaptiveFlagsHead before videopts with shape
    have clock : overwrite (finished ++ List.replicate (7 + left) 0) 6 (pcrBytes field.pcr) =
        finished ++ [0] ++ pcrBytes field.pcr ++ List.replicate left 0 := by
      have split : finished ++ List.replicate (7 + left) (0 : Byte) =
          (finished ++ [0]) ++ List.replicate (6 + left) 0 := by
        rw [show 7 + left = (6 + left) + 1 by omega, List.replicate_succ]
        simp
      rw [split, overwrite_next _ _ _ 6 (6 + left) left (by simp [here]) rfl]
    have flags : overwrite (finished ++ [0] ++ pcrBytes field.pcr ++ List.replicate left 0) 5
        [0x10] = finished ++ [0x10] ++ (pcrBytes field.pcr ++ List.replicate left 0) := by
      rw [List.append_assoc _ (pcrBytes field.pcr), overwrite_within _ [0] [0x10] _ 5 here rfl]
    have filled : createAdaptiveTs field (finished ++ List.replicate (7 + left) 0) 5 adaptiveLength =
        overwrite (overwrite (finished ++ List.replicate (7 + left) 0) 6 (pcrBytes field.pcr)) 5
          [0x10] := by
      simp [createAdaptiveTs, Adaptive.part, shape, writeAdaptiveFlagsHead]
    have bytes : adaptationBytes field = 0x10 :: pcrBytes field.pcr := by
      simp [adaptationBytes, shape, writeAdaptiveFlagsHead]
    have length : field.adaptationFieldLength.toNat = 7 := rfl
    rw [length, filled, clock, flags, bytes]
    simp
  · set field := writeAdaptiveFlagsTail before with shape
    have filled : createAdaptiveTs field (finished ++ List.replicate (1 + left) 0) 5 adaptiveLength =
        overwrite (finished ++ List.replicate (1 + left) 0) 5 [0x00] := by
      simp [createAdaptiveTs, Adaptive.part, shape, writeAdaptiveFlagsTail]
    have bytes : adaptationBytes field = [0x00] := by
      simp [adaptationBytes, shape, writeAdaptiveFlagsTail]
    have length : field.adaptationFieldLength.toNat = 1 := rfl
    rw [length, filled, bytes, overwrite_next _ _ _ 5 (1 + left) left here rfl]

/-- The fourteen bytes in front of the elementary data. -/
def pesHeader (tsPes : TsPes) (pts : Word) : List Byte := pesHeaderBytes tsPes ++ ptsBytes pts

/-- A header of the stream has fourteen bytes. -/
@[simp] theorem pes_header_length (tsPes : TsPes) (pts : Word) :
    (pesHeader tsPes pts).length = 14 := rfl

section
variable (es : Nat → Byte) (pid : Word)

/-- A full packet of elementary data. -/
def middleSend (neafBuf : Nat) : Send :=
  ⟨pid, 0x00, 0x01, slice es neafBuf 184, by simp⟩

/-- A packet of 182 bytes behind the shortest adaptation field with flags. -/
def nearlyFullSend (neafBuf : Nat) : Send :=
  ⟨pid, 0x00, 0x03, [0x01, 0x00] ++ slice es neafBuf 182, by simp⟩

/-- The stuffed last packet. -/
def tailSend (neafBuf beyond : Nat) (short : beyond < 182) : Send :=
  ⟨pid, 0x00, 0x03, [BitVec.ofNat 8 (184 - beyond - 1), 0x00] ++
    List.replicate (184 - beyond - 2) 0xFF ++ slice es neafBuf beyond, by simp; omega⟩

/-- A whole frame in one packet. -/
def singleSend (tsPes : TsPes) (pts : Word) (short : tsPes.pesPacketLengthBeyond < 169) : Send :=
  ⟨pid, 0x01, 0x03, [BitVec.ofNat 8 (184 - tsPes.pesPacketLengthBeyond - 9 - 5 - 1), 0x00] ++
    List.replicate (184 - tsPes.pesPacketLengthBeyond - 9 - 5 - 2) 0xFF ++
      pesHeader tsPes pts ++ slice tsPes.es.cell 0 tsPes.pesPacketLengthBeyond, by simp; omega⟩

/-- The first of several packets. -/
def firstSend (tsPes : TsPes) (pts : Word) (head : TsAdaptationField) (written : Written head) :
    Send :=
  ⟨pid, 0x01, 0x03, [head.adaptationFieldLength] ++ adaptationBytes head ++ pesHeader tsPes pts ++
    slice tsPes.es.cell 0 (firstPacketLoadLength head), by
      obtain ⟨length, room⟩ := written_lengths head written
      simp [length]
      omega⟩

/-- The slots of what the first packet left. The two short layouts check the
tables once more, and the stuffed tail counts twice. -/
def neafSlots : Nat → Nat → Nat → List Slot
  | 0, _, _ => []
  | fuel + 1, neafBuf, beyond =>
    if beyond = 0 then []
    else if 184 ≤ beyond then
      ⟨1, middleSend es pid neafBuf, 1⟩ :: neafSlots fuel (neafBuf + 184) (beyond - 184)
    else if beyond = 183 ∨ beyond = 182 then
      ⟨2, nearlyFullSend es pid neafBuf, 1⟩ :: neafSlots fuel (neafBuf + 182) (beyond - 182)
    else if short : beyond < 182 then [⟨2, tailSend es pid neafBuf beyond short, 2⟩]
    else []

end

/-- The tables are delivered when they are due. -/
theorem pat_pmt_delivered (session : TspkgSession) :
    patPmtEvery40 session = delivered session (due session.writePacketNum) 0 := by
  unfold patPmtEvery40 due
  split
  · rw [write_pat_delivered, write_pmt_delivered, delivered_delivered]
    rfl
  · rw [delivered_nothing]

/-- The checks of one packet agree: sending the tables does not change the
packet counter. -/
theorem pat_pmt_twice_delivered (session : TspkgSession) :
    patPmtEvery40 (patPmtEvery40 session) =
      delivered session (due session.writePacketNum ++ due session.writePacketNum) 0 := by
  rw [pat_pmt_delivered session, pat_pmt_delivered, delivered_delivered]
  simp

/-- A packet in the middle is delivered alone and not counted. -/
theorem middle_packet_delivered (session : TspkgSession) (es : Nat → Byte) (pid : Word)
    (neafBuf : Nat) :
    middlePacket session es pid neafBuf = delivered session [middleSend es pid neafBuf] 0 := by
  simp only [middlePacket, header_written]
  apply write_file_send session (middleSend es pid neafBuf) pid _ rfl
  rw [overwrite_next _ _ _ 4 184 0 rfl (by simp)]
  simp [Send.packet, middleSend]

/-- A packet of 182 bytes is delivered behind the tables that are due, and not counted. -/
theorem nearly_full_packet_delivered (session : TspkgSession) (es : Nat → Byte) (pid : Word)
    (neafBuf : Nat) :
    nearlyFullPacket session es pid neafBuf =
      delivered (patPmtEvery40 session) [nearlyFullSend es pid neafBuf] 0 := by
  simp only [nearlyFullPacket, header_written]
  apply write_file_send (patPmtEvery40 session) (nearlyFullSend es pid neafBuf) pid _ rfl
  rw [overwrite_next _ [0x01, 0x00] _ 4 184 182 rfl rfl, overwrite_next _ _ _ 6 182 0 rfl (by simp)]
  simp [Send.packet, nearlyFullSend]

/-- A stuffed packet is delivered behind the tables that are due, and counted. -/
theorem tail_packet_delivered (session : TspkgSession) (es : Nat → Byte) (pid : Word)
    (neafBuf beyond : Nat) (short : beyond < 182) :
    tailPacket session es pid neafBuf beyond =
      delivered (patPmtEvery40 session) [tailSend es pid neafBuf beyond short] 1 := by
  simp only [tailPacket, header_written]
  rw [write_file_send (patPmtEvery40 session) (tailSend es pid neafBuf beyond short) pid _ rfl,
    count_packet_delivered, delivered_delivered]
  · rfl
  · rw [overwrite_next _ [_, 0x00] _ 4 184 182 rfl rfl,
      overwrite_next _ _ _ 6 182 beyond rfl (by simp; omega),
      overwrite_next _ _ _ _ beyond 0 (by simp; omega) (by simp)]
    simp [Send.packet, tailSend]

/-- The loop delivers its slots. Each pass peels one packet off the rest; the
packet counter of the weave follows the session's. -/
theorem neaf_packets_delivered (es : Nat → Byte) (pid : Word) (fuel : Nat)
    (session : TspkgSession) (neafBuf beyond : Nat) :
    neafPackets es pid fuel session neafBuf beyond =
      delivered session (weave session.writePacketNum (neafSlots es pid fuel neafBuf beyond))
        (counted (neafSlots es pid fuel neafBuf beyond)) := by
  induction fuel generalizing session neafBuf beyond with
  | zero => simp [neafPackets, neafSlots, weave, counted]
  | succ fuel inductionHypothesis =>
    by_cases finished : beyond = 0
    · simp [neafPackets, neafSlots, finished, weave, counted]
    by_cases full : 184 ≤ beyond
    · simp only [neafPackets, neafSlots, finished, full, ↓reduceIte]
      rw [inductionHypothesis, middle_packet_delivered, pat_pmt_delivered]
      simp [weave, counted]
    by_cases nearly : beyond = 183 ∨ beyond = 182
    · simp only [neafPackets, neafSlots, finished, full, nearly, ↓reduceIte]
      rw [inductionHypothesis, nearly_full_packet_delivered, pat_pmt_twice_delivered]
      simp [weave, counted, List.replicate_succ]
    · have short : beyond < 182 := by omega
      simp only [neafPackets, neafSlots, finished, full, nearly, short, ↓reduceIte, ↓reduceDIte]
      rw [inductionHypothesis, tail_packet_delivered _ _ _ _ _ short, pat_pmt_twice_delivered]
      cases fuel <;> simp [neafSlots, weave, counted, List.replicate_succ]

/-- The slots of a frame. -/
def frameSlots (tsPes : TsPes) (pid pts : Word) (head : TsAdaptationField)
    (written : Written head) : List Slot :=
  if short : tsPes.pesPacketLengthBeyond < firstPacketLoadLength head then
    [⟨0, singleSend pid tsPes pts (by
      have room := (written_lengths head written).2
      omega), 1⟩]
  else
    let neafBuf := firstPacketLoadLength head
    let beyond := tsPes.pesPacketLengthBeyond - neafBuf
    ⟨1, firstSend pid tsPes pts head written, 1⟩ :: neafSlots tsPes.es.cell pid beyond neafBuf beyond

/-- A single packet is delivered without tables, and counted. -/
theorem single_packet_delivered (session : TspkgSession) (tsPes : TsPes) (pid : Word)
    (videopts adudiopts pts : Word) (short : tsPes.pesPacketLengthBeyond < 169)
    (stream : streamPts tsPes videopts adudiopts = some pts) :
    singlePacket session tsPes pid videopts adudiopts =
      (delivered session [singleSend pid tsPes pts short] 1,
        some (session.writePacketNum + 1)) := by
  simp only [singlePacket, header_written, stream]
  rw [write_file_send session (singleSend pid tsPes pts short) pid _ rfl, count_packet_delivered,
    delivered_delivered]
  · rfl
  · simp only [Send.packet, singleSend, pesHeader]
    generalize tsPes.pesPacketLengthBeyond = beyond at short ⊢
    rw [overwrite_next _ [_, 0x00] _ 4 184 182 rfl rfl,
      overwrite_next _ (List.replicate _ _) _ 6 182 (beyond + 14) rfl (by simp; omega),
      overwrite_next _ (pesHeaderBytes tsPes) _ _ (beyond + 14) (beyond + 5) (by simp; omega)
        (by simp [pesHeaderBytes]; omega),
      overwrite_next _ (ptsBytes pts) _ _ (beyond + 5) beyond (by simp [pesHeaderBytes]; omega)
        (by simp [ptsBytes]; omega),
      overwrite_next _ _ _ _ beyond 0 (by simp [pesHeaderBytes, ptsBytes]; omega) (by simp)]
    simp

/-- A first packet is delivered behind the tables that are due, and counted. -/
theorem first_packet_delivered (session : TspkgSession) (tsPes : TsPes) (pid : Word)
    (head : TsAdaptationField) (written : Written head) (videopts adudiopts pts : Word)
    (stream : streamPts tsPes videopts adudiopts = some pts) :
    firstPacket session tsPes pid head videopts adudiopts =
      (delivered session (due session.writePacketNum ++ [firstSend pid tsPes pts head written]) 1,
        some ()) := by
  obtain ⟨length, filled⟩ := written_lengths head written
  simp only [firstPacket, header_written, stream]
  rw [write_file_send (patPmtEvery40 session) (firstSend pid tsPes pts head written) pid _ rfl,
    pat_pmt_delivered, count_packet_delivered, delivered_delivered, delivered_delivered]
  · simp
  · simp only [Send.packet, firstSend, pesHeader]
    generalize firstPacketLoadLength head = room at filled ⊢
    rw [overwrite_next _ [_] _ 4 184 183 rfl rfl,
      create_adaptive_written head written _ (by simp) 183 (room + 14) _ (by omega),
      overwrite_next _ (pesHeaderBytes tsPes) _ _ (room + 14) (room + 5) (by simp [length]; omega)
        (by simp [pesHeaderBytes]; omega),
      overwrite_next _ (ptsBytes pts) _ _ (room + 5) room (by simp [pesHeaderBytes, length]; omega)
        (by simp [ptsBytes]; omega),
      overwrite_next _ _ _ _ room 0 (by simp [pesHeaderBytes, ptsBytes, length]; omega) (by simp)]
    simp

/-- The packetiser delivers the slots of its frame and answers with the packet
counter it reaches. -/
theorem pes2_ts_delivered (session : TspkgSession) (tsPes : TsPes) (pid : Word)
    (head tail : TsAdaptationField) (written : Written head) (videopts adudiopts pts : Word)
    (stream : streamPts tsPes videopts adudiopts = some pts) :
    ∃ after, pes2Ts session tsPes pid head tail videopts adudiopts =
      (delivered session (weave session.writePacketNum (frameSlots tsPes pid pts head written))
        (counted (frameSlots tsPes pid pts head written)), after,
        some (session.writePacketNum +
          BitVec.ofNat 32 (counted (frameSlots tsPes pid pts head written)))) := by
  by_cases short : tsPes.pesPacketLengthBeyond < firstPacketLoadLength head
  · refine ⟨tsPes, ?_⟩
    have fits : tsPes.pesPacketLengthBeyond < 169 := by
      have room := (written_lengths head written).2
      omega
    simp [pes2Ts, frameSlots, short, single_packet_delivered session tsPes pid _ _ pts fits stream,
      weave, counted]
  · refine ⟨{ tsPes with pesPacketLengthBeyond := 0 }, ?_⟩
    simp only [pes2Ts, frameSlots, short, ↓reduceIte, ↓reduceDIte,
      first_packet_delivered session tsPes pid head written _ _ pts stream,
      neaf_packets_delivered, delivered_delivered]
    simp [weave, counted, BitVec.ofNat_add]

end IotCamera.Plan
