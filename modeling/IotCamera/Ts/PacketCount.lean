import IotCamera.Ts.Steps

/-!
# The packet counter

The counter is meant to be the number of elementary packets written. The loop
counts one packet for each of its passes, and the stuffed tail counts itself as
well. So a frame that ends in a stuffed tail adds one more to the counter than
it sends, whatever stands before it, and the counter agrees with the packets
delivered exactly when the tails sent so far make up whole wraps of it.
-/

namespace IotCamera.PacketCount

open Memory Packet Pes Mux Sends Plan Packetisation Steps

instance (pid : Word) : Decidable (Elementary pid) := inferInstanceAs (Decidable (_ ∨ _))

/-- The elementary packets that the callback has been handed. -/
def elementaryPackets (session : TspkgSession) : Nat :=
  session.received.countP fun packet => Elementary (Demux.pid packet)

/-- The arguments of one call of the packetiser. The frame's time stamp is the
argument of its own stream. -/
structure Cut where
  frame : Frame
  tail : TsAdaptationField
  videopts : Word
  adudiopts : Word
  stream : streamPts frame.tspes videopts adudiopts = some frame.pts

/-- The session after the call, and what it returns. -/
def Cut.made (cut : Cut) (session : TspkgSession) : TspkgSession × Option Word :=
  let (session, _, answer) := pes2Ts session cut.frame.tspes cut.frame.pid cut.frame.head cut.tail
    cut.videopts cut.adudiopts
  (session, answer)

/-- The session after consecutive calls. -/
def packetised (session : TspkgSession) (cuts : List Cut) : TspkgSession :=
  cuts.foldl (fun session cut => (cut.made session).1) session

/-- The length of a frame and what its first packet takes of it, if it needs
several. -/
def Cut.length (cut : Cut) : Nat := cut.frame.tspes.pesPacketLengthBeyond

def Cut.room (cut : Cut) : Nat := firstPacketLoadLength cut.frame.head

/-- The packets of the rest behind a first packet. A rest of 183 bytes behind the
full packets takes two. -/
def restPackets (beyond : Nat) : Nat := (beyond + 183) / 184 + beyond % 184 / 183

/-- Whether the rest ends in a stuffed tail. -/
def StuffedRest (beyond : Nat) : Prop := beyond % 184 ≠ 0 ∧ beyond % 184 ≠ 182

instance (beyond : Nat) : Decidable (StuffedRest beyond) := inferInstanceAs (Decidable (_ ∧ _))

/-- The packets of a frame. -/
def Cut.packets (cut : Cut) : Nat :=
  if cut.length < cut.room then 1 else 1 + restPackets (cut.length - cut.room)

/-- A frame of several packets whose last one is stuffed. -/
def Cut.Stuffed (cut : Cut) : Prop := cut.room ≤ cut.length ∧ StuffedRest (cut.length - cut.room)

instance (cut : Cut) : Decidable cut.Stuffed := inferInstanceAs (Decidable (_ ∧ _))

/-- The loop sends the packets of the rest and counts a stuffed tail once more. -/
theorem neaf_slots_counted (es : Nat → Byte) (pid : Word) (fuel neafBuf beyond : Nat)
    (enough : beyond ≤ fuel) :
    (neafSlots es pid fuel neafBuf beyond).length = restPackets beyond ∧
      counted (neafSlots es pid fuel neafBuf beyond) =
        restPackets beyond + if StuffedRest beyond then 1 else 0 := by
  induction fuel generalizing neafBuf beyond with
  | zero =>
    obtain rfl : beyond = 0 := by omega
    exact ⟨rfl, rfl⟩
  | succ fuel inductionHypothesis =>
    by_cases finished : beyond = 0
    · subst finished
      exact ⟨rfl, rfl⟩
    by_cases full : 184 ≤ beyond
    · obtain ⟨length, count⟩ := inductionHypothesis (neafBuf + 184) (beyond - 184) (by omega)
      have rest : restPackets beyond = restPackets (beyond - 184) + 1 := by
        unfold restPackets
        omega
      have ending : StuffedRest beyond ↔ StuffedRest (beyond - 184) := by
        unfold StuffedRest
        omega
      simp only [neafSlots, finished, full, ↓reduceIte, ending, rest]
      simp only [counted, List.map_cons, List.sum_cons, List.length_cons] at count ⊢
      omega
    by_cases nearly : beyond = 183 ∨ beyond = 182
    · obtain ⟨length, count⟩ := inductionHypothesis (neafBuf + 182) (beyond - 182) (by omega)
      have rest : restPackets beyond = restPackets (beyond - 182) + 1 := by
        unfold restPackets
        omega
      have ending : StuffedRest beyond ↔ StuffedRest (beyond - 182) := by
        unfold StuffedRest
        omega
      simp only [neafSlots, finished, full, nearly, ↓reduceIte, ending, rest]
      simp only [counted, List.map_cons, List.sum_cons, List.length_cons] at count ⊢
      omega
    · have short : beyond < 182 := by omega
      have rest : restPackets beyond = 1 := by
        unfold restPackets
        omega
      have ending : StuffedRest beyond := by
        unfold StuffedRest
        omega
      simp [neafSlots, finished, full, nearly, short, rest, ending, counted]

/-- What a frame sends and what it counts. -/
theorem frame_slots_counted (cut : Cut) :
    cut.frame.slots.length = cut.packets ∧
      counted cut.frame.slots = cut.packets + if cut.Stuffed then 1 else 0 := by
  by_cases short : cut.length < cut.room
  · have single : ¬ cut.Stuffed := fun stuffed => by
      have long := stuffed.1
      omega
    rw [if_neg single, Cut.packets, if_pos short]
    rw [Cut.length, Cut.room] at short
    rw [Frame.slots, frameSlots, dif_pos short]
    exact ⟨rfl, rfl⟩
  · obtain ⟨length, count⟩ := neaf_slots_counted cut.frame.tspes.es.cell cut.frame.pid
      (cut.length - cut.room) cut.room (cut.length - cut.room) (Nat.le_refl _)
    have ending : cut.Stuffed ↔ StuffedRest (cut.length - cut.room) :=
      ⟨fun stuffed => stuffed.2, fun rest => ⟨by omega, rest⟩⟩
    have shape : cut.frame.slots =
        ⟨1, firstSend cut.frame.pid cut.frame.tspes cut.frame.pts cut.frame.head cut.frame.written, 1⟩
          :: neafSlots cut.frame.tspes.es.cell cut.frame.pid (cut.length - cut.room) cut.room
            (cut.length - cut.room) := by
      rw [Cut.length, Cut.room] at short
      rw [Frame.slots, frameSlots, dif_neg short]
      rfl
    simp only [Cut.packets, short, ↓reduceIte, ending, shape]
    simp only [counted, List.map_cons, List.sum_cons, List.length_cons] at count ⊢
    omega

/-- A receiver sees an elementary packet for each elementary send. -/
theorem stamp_elementary (sends : List Send) (counter : ContinuityCounter)
    (known : ∀ send ∈ sends, Known send.pid) :
    (stamp counter sends).countP (fun packet => Elementary (Demux.pid packet)) =
      sends.countP (fun send => Elementary send.pid) := by
  induction sends generalizing counter with
  | nil => rfl
  | cons send rest inductionHypothesis =>
    have following := inductionHypothesis (counter.advance send.pid)
      fun other member => known other (List.mem_cons_of_mem send member)
    rw [stamp, List.countP_cons, List.countP_cons, following,
      packet_pid send counter (known send List.mem_cons_self)]

/-- The tables between the packets of a frame are not elementary. -/
theorem weave_elementary_count (pid : Word) (elementary : Elementary pid) (slots : List Slot)
    (written : Word) (under : ∀ slot ∈ slots, slot.send.pid = pid) :
    (weave written slots).countP (fun send => Elementary send.pid) = slots.length := by
  induction slots generalizing written with
  | nil => rfl
  | cons slot rest inductionHypothesis =>
    have tables : ((List.replicate slot.checks (due written)).flatten).countP
        (fun send => Elementary send.pid) = 0 := by
      rw [List.countP_eq_zero]
      intro send member
      simp only [decide_eq_true_eq]
      intro claimed
      have selected : send ∈ ((List.replicate slot.checks (due written)).flatten).filter
          (·.pid = send.pid) := List.mem_filter.mpr ⟨member, by simp⟩
      rw [due_filter send.pid claimed written slot.checks] at selected
      exact absurd selected List.not_mem_nil
    have following := inductionHypothesis (written + BitVec.ofNat 32 slot.counted)
      fun other member => under other (List.mem_cons_of_mem slot member)
    have first : Elementary slot.send.pid := (under slot List.mem_cons_self) ▸ elementary
    rw [weave, List.countP_append, tables, List.countP_cons, following]
    simp [first]

/-- One call: its packets are delivered if there is a callback, the counter
grows by what the frame counts, and the counter is returned. -/
theorem made_counts (cut : Cut) (session : TspkgSession) :
    (cut.made session).1.writets = session.writets ∧
      elementaryPackets (cut.made session).1 =
        elementaryPackets session + (if session.writets then cut.packets else 0) ∧
      (cut.made session).1.writePacketNum = session.writePacketNum +
        BitVec.ofNat 32 (cut.packets + if cut.Stuffed then 1 else 0) ∧
      (cut.made session).2 = some (cut.made session).1.writePacketNum := by
  obtain ⟨length, count⟩ := frame_slots_counted cut
  obtain ⟨after, sent⟩ := pes2_ts_delivered session cut.frame.tspes cut.frame.pid cut.frame.head
    cut.tail cut.frame.written cut.videopts cut.adudiopts cut.frame.pts cut.stream
  have made : cut.made session =
      (delivered session (weave session.writePacketNum cut.frame.slots) (counted cut.frame.slots),
        some (session.writePacketNum + BitVec.ofNat 32 (counted cut.frame.slots))) := by
    rw [Cut.made, sent]
    rfl
  rw [made]
  refine ⟨rfl, ?_, ?_, rfl⟩
  · have packets := stamp_elementary (weave session.writePacketNum cut.frame.slots)
      session.continuityCounter (cut.frame.known session.writePacketNum)
    rw [weave_elementary_count cut.frame.pid cut.frame.elementary cut.frame.slots _
      cut.frame.under, length] at packets
    cases callback : session.writets <;> simp [elementaryPackets, delivered, callback, packets]
  · rw [delivered_write_packet_num, count]

/-- Consecutive calls, with a callback or without. -/
theorem packetised_counts (session : TspkgSession) (cuts : List Cut) :
    elementaryPackets (packetised session cuts) = elementaryPackets session +
        (if session.writets then (cuts.map Cut.packets).sum else 0) ∧
      (packetised session cuts).writePacketNum = session.writePacketNum +
        BitVec.ofNat 32 ((cuts.map Cut.packets).sum + cuts.countP (fun cut => cut.Stuffed)) := by
  induction cuts generalizing session with
  | nil => simp [packetised]
  | cons cut rest inductionHypothesis =>
    obtain ⟨kept, packets, counter, _⟩ := made_counts cut session
    obtain ⟨morePackets, moreCounter⟩ := inductionHypothesis (cut.made session).1
    rw [kept, packets] at morePackets
    rw [counter] at moreCounter
    refine ⟨?_, ?_⟩
    · rw [show packetised session (cut :: rest) = packetised (cut.made session).1 rest from rfl,
        morePackets]
      cases session.writets <;> simp [Nat.add_assoc]
    · rw [show packetised session (cut :: rest) = packetised (cut.made session).1 rest from rfl,
        moreCounter, BitVec.add_assoc, ← BitVec.ofNat_add, List.map_cons, List.sum_cons,
        List.countP_cons]
      congr 2
      simp only [decide_eq_true_eq]
      omega

/-- The counter of consecutive calls agrees with the elementary packets they
delivered. -/
def CountsPackets (session : TspkgSession) (cuts : List Cut) : Prop :=
  (packetised session cuts).writePacketNum - session.writePacketNum =
    BitVec.ofNat 32 (elementaryPackets (packetised session cuts) - elementaryPackets session)

/-- Every call returns the counter it reaches. With a callback the counter agrees
with the packets delivered exactly when the frames that end in a stuffed tail are
a multiple of its wrap; without one, nothing is delivered, and everything counted
must be such a multiple. -/
theorem counts_packets_iff (session : TspkgSession) (cuts : List Cut) :
    (∀ earlier cut, (cut.made (packetised session earlier)).2 =
      some (packetised session (earlier ++ [cut])).writePacketNum) ∧
      (CountsPackets session cuts ↔
        if session.writets then 2 ^ 32 ∣ cuts.countP (fun cut => cut.Stuffed)
        else 2 ^ 32 ∣ (cuts.map Cut.packets).sum + cuts.countP (fun cut => cut.Stuffed)) := by
  constructor
  · intro earlier cut
    have next : packetised session (earlier ++ [cut]) = (cut.made (packetised session earlier)).1 := by
      simp only [packetised, List.foldl_append, List.foldl_cons, List.foldl_nil]
    rw [next]
    exact (made_counts cut (packetised session earlier)).2.2.2
  · obtain ⟨packets, counter⟩ := packetised_counts session cuts
    rw [CountsPackets, packets, counter, BitVec.add_comm, BitVec.add_sub_cancel,
      Nat.add_sub_cancel_left, ← BitVec.toNat_inj, BitVec.toNat_ofNat, BitVec.toNat_ofNat]
    cases session.writets
    · simp only [Bool.false_eq_true, ↓reduceIte]
      omega
    · simp only [↓reduceIte]
      omega

/-- A video frame of some length, cut from an array of equal bytes. -/
def uniformCut (length : Nat) : Cut where
  frame := ⟨fillPes (Block.uniform maxOneFrameSize 0xAB) tsH264StreamId length 3600, tsH264Pid, 3600,
    writeAdaptiveFlagsHead uninitialised 3600, Or.inl rfl, Or.inl ⟨_, _, rfl⟩⟩
  tail := writeAdaptiveFlagsTail uninitialised
  videopts := 3600
  adudiopts := 0
  stream := rfl

/-- A frame of 163 bytes in a new session: two packets, and the counter at three. -/
theorem stuffed_tail_counted_twice :
    let vacant := fillPes (Block.uniform maxOneFrameSize 0) tsH264StreamId 0 0
    let session := TspkgSession.created ⟨0, 0, 0, 0⟩ vacant vacant
    elementaryPackets (packetised session [uniformCut 163]) = 2 ∧
      (packetised session [uniformCut 163]).writePacketNum = 3 ∧
      ¬ CountsPackets session [uniformCut 163] := by
  intro vacant session
  obtain ⟨packets, counter⟩ := packetised_counts session [uniformCut 163]
  have delivered : elementaryPackets (packetised session [uniformCut 163]) = 2 := packets
  have counted : (packetised session [uniformCut 163]).writePacketNum = 3 := counter
  refine ⟨delivered, counted, ?_⟩
  rw [CountsPackets, delivered, counted]
  decide

end IotCamera.PacketCount
