import IotCamera.Ts.Steps

/-!
# Continuity of the four counters

Every packet takes its counter from the stored byte of its identifier and
advances that byte, whichever path of the muxer writes it. So a session is
related to any later one by the sends made in between: the counters have been
advanced by them, and the callback has received them stamped. Every call keeps
this relation, hence every run does, and the packets of one identifier count up
from its initial counter modulo sixteen.
-/

namespace IotCamera.Continuity

open Memory Packet Pes Mux Sends Plan Packetisation Frames Steps

/-- A call with one frame: audio or video, one byte to the array's size, video
behind a four-byte start code. -/
def Admissible (call : Call) : Prop :=
  (call.iStreamType = 0 ∨ call.iStreamType = 1 ∧ call.pData.take 4 = startCode4) ∧
    call.iDataSize = call.pData.length ∧ 1 ≤ call.pData.length ∧
    call.pData.length ≤ maxOneFrameSize

instance (call : Call) : Decidable (Admissible call) := inferInstanceAs (Decidable (_ ∧ _))

/-- A call that is admissible reads within its data. -/
theorem admissible_in_bounds (call : Call) (admissible : Admissible call) : InBounds call := by
  obtain ⟨kind, size, _, fits⟩ := admissible
  refine ⟨size, fits, fun video => ?_⟩
  rcases kind with audio | ⟨_, four⟩
  · rw [audio] at video
    cases video
  · have length := congrArg List.length four
    simp [startCode4] at length
    omega

/-- Advancing one counter leaves the others alone. -/
theorem advance_value (counter : ContinuityCounter) (sent pid : Word) (sender : Known sent)
    (known : Known pid) : (counter.advance sent).value pid =
      if sent = pid then counter.value pid + 1 else counter.value pid := by
  rcases sender with rfl | rfl | rfl | rfl <;> rcases known with rfl | rfl | rfl | rfl <;> rfl

/-- A packet shows its counter's low four bits. -/
theorem packet_continuity_counter (send : Send) (counter : ContinuityCounter) :
    (Demux.continuityCounter (send.packet counter)).toNat =
      (counter.value send.pid).toNat % 16 := by
  rw [Send.packet, Demux.header_continuity_counter]
  simp only [packetheader, BitVec.toNat_setWidth, BitVec.toNat_umod]
  exact Nat.mod_mod _ _

/-- The packets of one identifier count up from its counter. The stored byte
wraps at 256, a multiple of sixteen, so the wrap is not seen. -/
theorem stamp_counts (pid : Word) (known : Known pid) (sends : List Send)
    (senders : ∀ send ∈ sends, Known send.pid) (counter : ContinuityCounter) (index : Nat)
    (packet : List Byte)
    (placed : ((stamp counter sends).filter (Demux.pid · = pid))[index]? = some packet) :
    (Demux.continuityCounter packet).toNat = ((counter.value pid).toNat + index) % 16 := by
  induction sends generalizing counter index with
  | nil => simp [stamp] at placed
  | cons send rest inductionHypothesis =>
    have sender : Known send.pid := senders send List.mem_cons_self
    have following := inductionHypothesis fun other member =>
      senders other (List.mem_cons_of_mem send member)
    have next := advance_value counter send.pid pid sender known
    by_cases selected : send.pid = pid
    · simp only [stamp, List.filter_cons, packet_pid send counter sender, selected, decide_true,
        ↓reduceIte] at placed
      cases index with
      | zero =>
        obtain rfl : send.packet counter = packet := by simpa using placed
        rw [packet_continuity_counter, selected]
        rfl
      | succ index =>
        have counted := following (counter.advance send.pid) index (by simpa [selected] using placed)
        rw [next, if_pos selected, BitVec.toNat_add, show (1 : Byte).toNat = 1 from rfl] at counted
        rw [counted]
        omega
    · simp only [stamp, List.filter_cons, packet_pid send counter sender, selected, decide_false,
        Bool.false_eq_true, ↓reduceIte] at placed
      rw [following _ index placed, next, if_neg selected]

/-- A later session: counters advanced by the sends made in between, and those
sends received when a callback is installed. -/
def Continues (before after : TspkgSession) : Prop :=
  after.writets = before.writets ∧ ∃ sends, (∀ send ∈ sends, Known send.pid) ∧
    after.continuityCounter = advanceAll before.continuityCounter sends ∧
    (before.writets = true →
      after.received = before.received ++ stamp before.continuityCounter sends)

/-- No packets continue a session. -/
theorem continues_refl (session : TspkgSession) : Continues session session :=
  ⟨rfl, [], by simp, rfl, by simp [stamp]⟩

/-- Packets that continue a session twice continue it. -/
theorem continues_trans (first second third : TspkgSession) (earlier : Continues first second)
    (later : Continues second third) : Continues first third := by
  obtain ⟨callback, sends, senders, counters, received⟩ := earlier
  obtain ⟨callback', more, senders', counters', received'⟩ := later
  refine ⟨callback'.trans callback, sends ++ more, ?_, ?_, ?_⟩
  · intro send member
    rcases List.mem_append.mp member with inside | inside
    · exact senders send inside
    · exact senders' send inside
  · rw [counters', counters, advanceAll, advanceAll, advanceAll, List.foldl_append]
  · intro installed
    rw [received' (callback.trans installed), received installed, counters, stamp_append,
      List.append_assoc]

/-- The packets of a frame continue the session. -/
theorem sent_by_continues (session : TspkgSession) (frame : Frame) (video audio : TsPes) :
    Continues session (sentBy session frame video audio) := by
  refine ⟨rfl, weave session.writePacketNum frame.slots, frame.known session.writePacketNum, rfl,
    ?_⟩
  intro installed
  simp [sentBy, delivered, installed]

/-- Every call continues the session, also one that stops at a clock. -/
theorem call_continues (session : TspkgSession) (call : Call) (bounds : InBounds call) :
    Continues session (Runs.last (writeBuf2TsFile session call)) := by
  by_cases carries : Carries call
  · obtain ⟨frame, video, audio, _, sent⟩ := carrying_call session call bounds carries
    obtain ⟨_, _, _, kept⟩ := advance_clock_kept (sentBy session frame video audio) call
    rw [sent, kept]
    exact sent_by_continues session frame video audio
  · obtain ⟨audio, quiet⟩ := quiet_call session call bounds carries
    rw [quiet]
    exact ⟨rfl, [], by simp, rfl, by simp [stamp]⟩

/-- Over any run of admissible calls that no clock stops, the packets delivered
on each of the four identifiers carry consecutive counters from the initial one
on: across frames, across tables sent in between, and across the wrap of the
stored byte. -/
theorem continuity_over_runs (session : TspkgSession) (calls : List Call)
    (callback : session.writets = true) (admissible : ∀ call ∈ calls, Admissible call)
    (noFault : ∀ stopped,
      Runs.run writeBuf2TsFile session calls ≠ .error (.divisionByZero, stopped)) :
    ∃ after new, Runs.run writeBuf2TsFile session calls = .ok after ∧
      after.received = session.received ++ new ∧
      ∀ pid ∈ [tsPatPid, tsPmtPid, tsH264Pid, tsAacPid], ∀ index packet,
        (new.filter (Demux.pid · = pid))[index]? = some packet →
        (Demux.continuityCounter packet).toNat =
          ((session.continuityCounter.value pid).toNat + index) % 16 := by
  obtain ⟨_, sends, senders, _, received⟩ := Runs.run_relation Continues continues_refl
    continues_trans session calls fun before call member =>
      call_continues before call (admissible_in_bounds call (admissible call member))
  obtain ⟨after, finished⟩ : ∃ after, Runs.run writeBuf2TsFile session calls = .ok after := by
    rcases run_outcome session calls fun call member =>
      admissible_in_bounds call (admissible call member) with returned | ⟨stopped, halted⟩
    · exact returned
    · exact absurd halted (noFault stopped)
  rw [finished] at received
  refine ⟨after, _, finished, received callback, ?_⟩
  intro pid member index packet placed
  exact stamp_counts pid (by simpa [Known, Elementary] using member) sends senders _ index packet
    placed

/-- An audio frame, a parameter set and an audio frame again, from counters just
below their wrap. -/
theorem continuity_over_runs_mixed :
    let vacant := fillPes (Block.uniform maxOneFrameSize 0) tsH264StreamId 0 0
    let session := TspkgSession.created ⟨255, 255, 255, 255⟩ vacant vacant
    let audio : Call := ⟨8000, 0, 0, List.replicate 500 0x55, 500⟩
    let sps : Call := ⟨25, 0, 1, [0x00, 0x00, 0x00, 0x01, 0x67, 0x42], 6⟩
    ∃ after new, Runs.run writeBuf2TsFile session [audio, sps, audio] = .ok after ∧
      after.received = session.received ++ new ∧
      ∀ pid ∈ [tsPatPid, tsPmtPid, tsH264Pid, tsAacPid], ∀ index packet,
        (new.filter (Demux.pid · = pid))[index]? = some packet →
        (Demux.continuityCounter packet).toNat =
          ((session.continuityCounter.value pid).toNat + index) % 16 := by
  intro vacant session audio sps
  have length : audio.pData.length = 500 := List.length_replicate
  have sound : Admissible audio ∧ audio.framerate ≠ 0 ∧ ¬ IsSlice audio :=
    ⟨⟨Or.inl rfl, by rw [length]; rfl, by rw [length]; decide, by rw [length]; decide⟩, by decide,
      fun slice => absurd slice.1 (by decide)⟩
  have unit : Admissible sps ∧ sps.framerate ≠ 0 ∧ ¬ IsSlice sps :=
    ⟨by decide, by decide, by decide +kernel⟩
  have each : ∀ call ∈ [audio, sps, audio],
      Admissible call ∧ call.framerate ≠ 0 ∧ ¬ IsSlice call := by
    intro call member
    simp only [List.mem_cons, List.not_mem_nil, or_false] at member
    rcases member with rfl | rfl | rfl
    · exact sound
    · exact unit
    · exact sound
  refine continuity_over_runs session [audio, sps, audio] rfl
    (fun call member => (each call member).1) fun stopped halted => ?_
  obtain ⟨before, call, member, cause⟩ := Runs.run_stop _ _ _ halted
  obtain ⟨admissible, rate, other⟩ := each call member
  obtain ⟨after, returned⟩ := steady_call before call (admissible_in_bounds call admissible) rate
    other
  rw [returned] at cause
  cases cause

end IotCamera.Continuity
