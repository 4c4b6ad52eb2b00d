import IotCamera.Ts.Steps

/-!
# Clock references

The first packet of a slice should carry a program clock reference that agrees
with the time stamp in the same packet. Two things stand in the way. The path
for a frame in one packet writes an adaptation field without flags whatever the
head says, so only frames of at least 162 bytes carry the reference. And the
reference is three hundred times the clock, formed in 32 bits, so it agrees with
the clock only while that product fits.
-/

namespace IotCamera.ClockReference

open Memory Buffers Packet Pes Mux Sends Plan Packetisation Frames Steps

/-- Whether a send announces a clock. -/
def sendPcrFlag (send : Send) : Bool :=
  (send.adaFieldC.setWidth 2 : BitVec 2) = 3 ∧ Demux.byteAt send.body 0 ≠ 0 ∧
    (Demux.byteAt send.body 1).getLsbD 4

/-- The clock bytes a send announces. -/
def sendPcrField (send : Send) : Option (List Byte) :=
  if sendPcrFlag send then some ((send.body.drop 2).take 6) else none

/-- The time stamp a send carries behind the fixed PES header. -/
def sendPts (send : Send) : Option (BitVec 33) :=
  Demux.decodePts (((sendPayload send).drop 9).take 5)

/-- A receiver sees whether a packet carries a clock reference. -/
theorem packet_pcr_flag (send : Send) (counter : ContinuityCounter) :
    Demux.pcrFlag (send.packet counter) = sendPcrFlag send := by
  have first := Demux.body_byte_at (packetheader counter send.pid send.playInit send.adaFieldC)
    send.body 0
  have second := Demux.body_byte_at (packetheader counter send.pid send.playInit send.adaFieldC)
    send.body 1
  rw [Demux.pcrFlag, Send.packet, Demux.header_adaptation_control, first, second]
  rfl

/-- It reads the reference that was sent. -/
theorem packet_pcr_field (send : Send) (counter : ContinuityCounter) :
    Demux.pcrField (send.packet counter) = sendPcrField send := by
  have clock : ((send.packet counter).drop 6).take 6 = (send.body.drop 2).take 6 := by
    rw [Send.packet]
    exact congrArg (List.take 6) (Demux.drop_header _ send.body 2)
  rw [Demux.pcrField, packet_pcr_flag, clock, sendPcrField]

/-- It reads the time that was sent. -/
theorem packet_pts (send : Send) (counter : ContinuityCounter) :
    Demux.pts (send.packet counter) = sendPts send := by
  rw [Demux.pts, packet_payload, sendPts]

section FirstSend
variable (pid : Word) (tsPes : TsPes) (pts : Word)

/-- A frame in one packet announces no clock. -/
theorem single_pcr_flag (short : tsPes.pesPacketLengthBeyond < 169) :
    sendPcrFlag (singleSend pid tsPes pts short) = false := by
  have flags : Demux.byteAt (singleSend pid tsPes pts short).body 1 = 0x00 := rfl
  rw [sendPcrFlag, flags]
  simp

/-- A single packet carries no clock reference. -/
theorem single_pcr_field (short : tsPes.pesPacketLengthBeyond < 169) :
    sendPcrField (singleSend pid tsPes pts short) = none := by
  rw [sendPcrField, single_pcr_flag]
  rfl

/-- The first of several packets announces the clock of its head. -/
theorem first_pcr_flag (before : TsAdaptationField) (videopts : Word)
    (written : Written (writeAdaptiveFlagsHead before videopts)) :
    sendPcrFlag (firstSend pid tsPes pts (writeAdaptiveFlagsHead before videopts) written) =
      true := by
  set send := firstSend pid tsPes pts (writeAdaptiveFlagsHead before videopts) written
  have length : Demux.byteAt send.body 0 = 7 := rfl
  have flags : Demux.byteAt send.body 1 = 0x10 := rfl
  have control : send.adaFieldC = 0x03 := rfl
  rw [sendPcrFlag, length, flags, control]
  decide

/-- It announces a clock exactly when its head does. -/
theorem first_pcr_flag_head (head : TsAdaptationField) (written : Written head) :
    sendPcrFlag (firstSend pid tsPes pts head written) = decide (head.pcrFlag ≠ 0) := by
  rcases written with ⟨before, videopts, rfl⟩ | ⟨before, rfl⟩
  · exact first_pcr_flag pid tsPes pts before videopts _
  · set send := firstSend pid tsPes pts (writeAdaptiveFlagsTail before) (Or.inr ⟨before, rfl⟩)
    have flags : Demux.byteAt send.body 1 = 0x00 := rfl
    rw [sendPcrFlag, flags]
    simp [writeAdaptiveFlagsTail]

/-- It carries the clock bytes of its head. -/
theorem first_pcr_field (before : TsAdaptationField) (videopts : Word)
    (written : Written (writeAdaptiveFlagsHead before videopts)) :
    sendPcrField (firstSend pid tsPes pts (writeAdaptiveFlagsHead before videopts) written) =
      some (pcrBytes (writeAdaptiveFlagsHead before videopts).pcr) := by
  rw [sendPcrField, first_pcr_flag, if_pos rfl]
  rfl

/-- The time stamp stands behind the fixed part of the PES header. -/
theorem header_pts (data : List Byte) :
    Demux.decodePts (((pesHeader tsPes pts ++ data).drop 9).take 5) = some (pts.setWidth 33) := by
  have stamp : ((pesHeader tsPes pts ++ data).drop 9).take 5 = ptsBytes pts := rfl
  rw [stamp, Demux.decode_pts_bytes]

/-- A first packet carries its time. -/
theorem first_pts (head : TsAdaptationField) (written : Written head) :
    sendPts (firstSend pid tsPes pts head written) = some (pts.setWidth 33) := by
  rw [sendPts, first_payload, header_pts]

/-- So does a single one. -/
theorem single_pts (short : tsPes.pesPacketLengthBeyond < 168) :
    sendPts (singleSend pid tsPes pts (Nat.lt_trans short (by decide))) = some (pts.setWidth 33) := by
  rw [sendPts, single_payload pid tsPes pts short, header_pts]

end FirstSend

/-- The first elementary packet among a frame's packets: the only one, or the
first of several. -/
theorem first_elementary_packet (frame : Frame) (counter : ContinuityCounter) (number : Word) :
    ∃ send counter' others, (stamp counter (weave number frame.slots)).filter
        (Demux.pid · = frame.pid) = send.packet counter' :: others ∧
      ((∃ short, send = singleSend frame.pid frame.tspes frame.pts short ∧
          frame.tspes.pesPacketLengthBeyond < firstPacketLoadLength frame.head) ∨
        send = firstSend frame.pid frame.tspes frame.pts frame.head frame.written ∧
          firstPacketLoadLength frame.head ≤ frame.tspes.pesPacketLengthBeyond) := by
  have under := frame.under
  have room := written_room frame.head frame.written
  by_cases short : frame.tspes.pesPacketLengthBeyond < firstPacketLoadLength frame.head
  · rw [Frame.slots, frameSlots, dif_pos short] at under ⊢
    obtain ⟨counter', others, found⟩ := weave_first frame.pid frame.elementary _ _ number under
      counter
    exact ⟨_, counter', others, found, Or.inl ⟨by omega, rfl, short⟩⟩
  · rw [Frame.slots, frameSlots, dif_neg short] at under ⊢
    obtain ⟨counter', others, found⟩ := weave_first frame.pid frame.elementary _ _ number under
      counter
    exact ⟨_, counter', others, found, Or.inr ⟨rfl, Nat.le_of_not_lt short⟩⟩

/-- It is stamped with the frame's time. -/
theorem first_stamped (frame : Frame) (counter : ContinuityCounter) (number : Word) :
    ∃ packet others, (stamp counter (weave number frame.slots)).filter
        (Demux.pid · = frame.pid) = packet :: others ∧
      Demux.pts packet = some (frame.pts.setWidth 33) := by
  obtain ⟨send, counter', others, found, which⟩ := first_elementary_packet frame counter number
  refine ⟨_, others, found, ?_⟩
  rw [packet_pts]
  rcases which with ⟨_, rfl, short⟩ | ⟨rfl, _⟩
  · have room := written_room frame.head frame.written
    exact single_pts frame.pid frame.tspes frame.pts (by omega)
  · exact first_pts frame.pid frame.tspes frame.pts frame.head frame.written

/-- The first packet that a frame's cutting hands over announces a clock and
carries the six bytes that the head encodes to. -/
def FirstCarriesClock (session : TspkgSession) (tsPes : TsPes) (head tail : TsAdaptationField)
    (videopts adudiopts : Word) : Prop :=
  ∃ new, (pes2Ts session tsPes tsH264Pid head tail videopts adudiopts).1.received =
      session.received ++ new ∧
    ∃ packet rest, new.filter (Demux.pid · = tsH264Pid) = packet :: rest ∧
      Demux.pcrFlag packet = true ∧ Demux.pcrField packet = some (pcrBytes head.pcr)

/-- A slice's first packet carries its clock exactly when the frame needs several
packets. -/
theorem first_carries_clock_iff (session : TspkgSession) (tsPes : TsPes)
    (before tail : TsAdaptationField) (clock videopts adudiopts : Word)
    (callback : session.writets = true) (stream : tsPes.streamId = tsH264StreamId) :
    FirstCarriesClock session tsPes (writeAdaptiveFlagsHead before clock) tail videopts adudiopts ↔
      162 ≤ tsPes.pesPacketLengthBeyond := by
  have written : Written (writeAdaptiveFlagsHead before clock) := Or.inl ⟨before, clock, rfl⟩
  have stamped : streamPts tsPes videopts adudiopts = some videopts := by simp [streamPts, stream]
  obtain ⟨after, sent⟩ := pes2_ts_delivered session tsPes tsH264Pid
    (writeAdaptiveFlagsHead before clock) tail written videopts adudiopts videopts stamped
  let frame : Frame := ⟨tsPes, tsH264Pid, videopts, writeAdaptiveFlagsHead before clock, Or.inl rfl,
    written⟩
  have received : (pes2Ts session tsPes tsH264Pid (writeAdaptiveFlagsHead before clock) tail videopts
      adudiopts).1.received = session.received ++
        stamp session.continuityCounter (weave session.writePacketNum frame.slots) := by
    simp [sent, delivered, callback, frame, Frame.slots]
  obtain ⟨send, counter, others, found, which⟩ := first_elementary_packet frame
    session.continuityCounter session.writePacketNum
  rw [FirstCarriesClock, received]
  rcases which with ⟨fits, rfl, short⟩ | ⟨rfl, several⟩
  · refine iff_of_false ?_ (Nat.not_le_of_lt short)
    rintro ⟨new, same, packet, rest, selected, _, field⟩
    rw [← List.append_cancel_left same] at selected
    obtain ⟨rfl, -⟩ := List.cons.inj (found.symm.trans selected)
    rw [packet_pcr_field, single_pcr_field] at field
    cases field
  · refine iff_of_true ⟨_, rfl, _, others, found, ?_, ?_⟩ several
    · rw [packet_pcr_flag]
      exact first_pcr_flag tsH264Pid tsPes videopts before clock written
    · rw [packet_pcr_field]
      exact first_pcr_field tsH264Pid tsPes videopts before clock written

/-- A new session whose video clock stands at a value. -/
def clockedSession (clock : Word) : TspkgSession :=
  let vacant := fillPes (Block.uniform maxOneFrameSize 0) tsH264StreamId 0 0
  { TspkgSession.created ⟨0, 0, 0, 0⟩ vacant vacant with timestampVideo := clock }

/-- A slice of 162 bytes, the shortest that takes several packets. -/
theorem first_carries_clock_shortest :
    FirstCarriesClock (clockedSession 3600)
      (fillPes (Block.uniform maxOneFrameSize 0x55) tsH264StreamId 162 3600)
      (writeAdaptiveFlagsHead uninitialised 3600) (writeAdaptiveFlagsTail uninitialised) 3600 0 :=
  (first_carries_clock_iff (clockedSession 3600)
    (fillPes (Block.uniform maxOneFrameSize 0x55) tsH264StreamId 162 3600) uninitialised
    (writeAdaptiveFlagsTail uninitialised) 3600 3600 0 rfl rfl).mpr (by decide)

/-- A slice one byte shorter is sent without its clock. -/
theorem small_slice_without_clock :
    ¬ FirstCarriesClock (clockedSession 3600)
      (fillPes (Block.uniform maxOneFrameSize 0x55) tsH264StreamId 161 3600)
      (writeAdaptiveFlagsHead uninitialised 3600) (writeAdaptiveFlagsTail uninitialised) 3600 0 := by
  rintro ⟨new, same, packet, rest, selected, flag, _⟩
  have flags : ((pes2Ts (clockedSession 3600)
      (fillPes (Block.uniform maxOneFrameSize 0x55) tsH264StreamId 161 3600) tsH264Pid
      (writeAdaptiveFlagsHead uninitialised 3600) (writeAdaptiveFlagsTail uninitialised) 3600
      0).1.received.filter (Demux.pid · = tsH264Pid)).map Demux.pcrFlag = [false] := by
    decide +kernel
  have received : (clockedSession 3600).received = [] := rfl
  rw [same, received, List.nil_append, selected, List.map_cons, flag] at flags
  cases flags

/-- The clock reference and the time stamp of a packet: the base is the clock,
the extension is zero, and the reference is three hundred times the stamp. -/
def Agrees (packet : List Byte) (clock : Word) : Prop :=
  ∃ base extension stamp, Demux.pcr packet = some (base, extension) ∧
    Demux.pts packet = some stamp ∧ base.toNat = clock.toNat ∧ extension.toNat = 0 ∧
    base.toNat * 300 + extension.toNat = 300 * stamp.toNat

/-- The first video packet a call hands over agrees with the clock as it stood
before the call. -/
def ReferenceAgrees (session : TspkgSession) (call : Call) : Prop :=
  ∃ new, (Runs.last (writeBuf2TsFile session call)).received = session.received ++ new ∧
    ∃ packet rest, new.filter (Demux.pid · = tsH264Pid) = packet :: rest ∧
      Agrees packet session.timestampVideo

/-- What a receiver reads in the first packet of a frame in several packets
whose head carries a clock. -/
theorem first_of_several (frame : Frame) (counter : ContinuityCounter) (number : Word)
    (before : TsAdaptationField) (clock : Word)
    (head : frame.head = writeAdaptiveFlagsHead before clock)
    (several : firstPacketLoadLength frame.head ≤ frame.tspes.pesPacketLengthBeyond) :
    ∃ packet others, (stamp counter (weave number frame.slots)).filter
        (Demux.pid · = frame.pid) = packet :: others ∧
      Demux.pcr packet = some ((((clock * 300).setWidth 64 : BitVec 64) / 300).setWidth 33,
        (((clock * 300).setWidth 64 : BitVec 64) % 300).setWidth 9) ∧
      Demux.pts packet = some (frame.pts.setWidth 33) := by
  obtain ⟨send, counter', others, found, which⟩ := first_elementary_packet frame counter number
  rcases which with ⟨_, _, short⟩ | ⟨rfl, _⟩
  · omega
  refine ⟨_, others, found, ?_, ?_⟩
  · obtain ⟨tspes, pid, pts, _, elementary, known⟩ := frame
    subst head
    rw [Demux.pcr, packet_pcr_field, first_pcr_field]
    exact Demux.decode_pcr_bytes _
  · rw [packet_pts, first_pts]

/-- The reference formed in 32 bits is divided back into the clock exactly when
the product did not wrap: a wrapped product is smaller than the whole one, and
so is its quotient. -/
theorem product_divides_iff (clock : Word) :
    ((((clock * 300).setWidth 64 : BitVec 64) / 300).setWidth 33 : BitVec 33).toNat = clock.toNat ∧
      ((((clock * 300).setWidth 64 : BitVec 64) % 300).setWidth 9 : BitVec 9).toNat = 0 ↔
    clock.toNat * 300 < 2 ^ 32 := by
  have product : ((clock * 300).setWidth 64 : BitVec 64).toNat = clock.toNat * 300 % 2 ^ 32 := by
    rw [BitVec.toNat_setWidth_of_le (by decide), BitVec.toNat_mul]
    rfl
  have wide : (300 : BitVec 64).toNat = 300 := rfl
  rw [BitVec.toNat_setWidth, BitVec.toNat_setWidth, BitVec.toNat_udiv, BitVec.toNat_umod, product,
    wide]
  generalize wrapped : clock.toNat * 300 % 2 ^ 32 = value
  have bound : value < 2 ^ 32 := by omega
  rw [Nat.mod_eq_of_lt (show value / 300 < 2 ^ 33 by omega),
    Nat.mod_eq_of_lt (show value % 300 < 2 ^ 9 by omega)]
  constructor
  · rintro ⟨whole, none⟩
    omega
  · intro fits
    rw [Nat.mod_eq_of_lt fits] at wrapped
    omega

/-- The first packet of a slice in several packets agrees with the clock exactly
when three hundred times the clock fits in 32 bits. -/
theorem clock_reference_agrees_iff (session : TspkgSession) (call : Call)
    (callback : session.writets = true) (bounds : InBounds call) (slice : IsSlice call)
    (several : 162 ≤ call.pData.length) :
    ReferenceAgrees session call ↔ session.timestampVideo.toNat * 300 < 2 ^ 32 := by
  obtain ⟨frame, belongs, received⟩ := carrying_received session call bounds
    (slice_carries call bounds slice) callback
  have video : frame.pid = tsH264Pid := by simp [belongs.pid, slice.1]
  have stamp : frame.pts = session.timestampVideo := by simp [belongs.pts, slice.1]
  have head : frame.head = writeAdaptiveFlagsHead uninitialised session.timestampVideo :=
    belongs.head.trans (if_pos slice)
  obtain ⟨first, others, found, pcr, pts⟩ := first_of_several frame session.continuityCounter
    session.writePacketNum uninitialised session.timestampVideo head (by
      rw [belongs.length, head]
      exact several)
  rw [video] at found
  rw [ReferenceAgrees, received, ← product_divides_iff]
  constructor
  · rintro ⟨new, same, packet, rest, selected, base, extension, time, reference, _, whole, none, _⟩
    rw [← List.append_cancel_left same, found] at selected
    rw [← (List.cons.inj selected).1, pcr] at reference
    obtain ⟨rfl, rfl⟩ := Prod.mk.inj (Option.some.inj reference)
    exact ⟨whole, none⟩
  · rintro ⟨whole, none⟩
    refine ⟨_, rfl, _, others, found, _, _, _, pcr, pts, whole, none, ?_⟩
    rw [whole, none, stamp, BitVec.toNat_setWidth_of_le (by decide)]
    omega

/-- A slice of 200 bytes. -/
def slice200 : Call :=
  ⟨25, 40, 1, [0x00, 0x00, 0x00, 0x01, 0x65, 0x88, 0x80] ++ List.replicate 193 0x55, 200⟩

/-- At the last clock value whose product fits, reference and clock agree. -/
theorem clock_reference_agrees_last : ReferenceAgrees (clockedSession 14316557) slice200 :=
  (clock_reference_agrees_iff (clockedSession 14316557) slice200 rfl (by decide +kernel)
    (by decide +kernel) (by decide +kernel)).mpr (by decide)

/-- One tick later the product wraps, and the reference starts again from zero. -/
theorem clock_reference_wraps :
    InBounds slice200 ∧ IsSlice slice200 ∧ 162 ≤ slice200.pData.length ∧
      ¬ ReferenceAgrees (clockedSession 14316558) slice200 := by
  refine ⟨by decide +kernel, by decide +kernel, by decide +kernel, ?_⟩
  rintro ⟨new, same, packet, rest, selected, base, extension, stamp, reference, _, whole, _, _⟩
  have wrapped : ((Runs.last (writeBuf2TsFile (clockedSession 14316558) slice200)).received.filter
      (Demux.pid · = tsH264Pid)).map Demux.pcr = [some (0, 104), none] := by decide +kernel
  have received : (clockedSession 14316558).received = [] := rfl
  rw [same, received, List.nil_append, selected, List.map_cons, reference] at wrapped
  obtain ⟨rfl, rfl⟩ := Prod.mk.inj (Option.some.inj (List.cons.inj wrapped).1)
  exact absurd whole (by decide)

end IotCamera.ClockReference
