import IotCamera.Ts.Frames
import IotCamera.Ts.Packetisation

/-!
# One call of the entry point

A call whose length fits the arrays never faults on a copy. It either sends
nothing, or sends the slots of one frame and then advances the clock of its
stream: the audio clock, the video clock after a slice, no clock after any other
unit. `quiet_call` and `carrying_call` say this once, and every fact about runs
starts from them.
-/

namespace IotCamera.Steps

open Memory Buffers Packet Pes Mux Sends Plan Packetisation Frames

/-- The type the video path finds in a call's buffer. -/
def frametypeOf (call : Call) : Byte :=
  match readOneH264Frame (Block.uniform maxOneFrameSize 0) 0 call.pData call.iDataSize with
  | .ok (_, frametype, _) => frametype
  | .error _ => 0

/-- A video call whose unit is classified as an I, P or B slice. -/
def IsSlice (call : Call) : Prop :=
  call.iStreamType = 1 ∧
    (frametypeOf call = frameI ∨ frametypeOf call = frameP ∨ frametypeOf call = frameB)

instance (call : Call) : Decidable (IsSlice call) := inferInstanceAs (Decidable (_ ∧ _))

/-- The buffer is as long as the call says and fits the arrays; a video buffer
has room for the four bytes the muxer cuts off. -/
def InBounds (call : Call) : Prop :=
  call.iDataSize = call.pData.length ∧ call.pData.length ≤ maxOneFrameSize ∧
    (call.iStreamType = 1 → 4 ≤ call.pData.length)

instance (call : Call) : Decidable (InBounds call) := inferInstanceAs (Decidable (_ ∧ _))

/-- Whether a call has a frame to send. -/
def Carries (call : Call) : Prop :=
  (call.iStreamType = 0 ∨ call.iStreamType = 1) ∧ call.pData ≠ []

instance (call : Call) : Decidable (Carries call) := inferInstanceAs (Decidable (_ ∧ _))

/-- A frame ready to be cut: the PES packet, the identifier, the time stamp of
its stream and the adaptation field of its first packet. -/
structure Frame where
  tspes : TsPes
  pid : Word
  pts : Word
  head : TsAdaptationField
  elementary : Elementary pid
  written : Written head

def Frame.slots (frame : Frame) : List Slot :=
  frameSlots frame.tspes frame.pid frame.pts frame.head frame.written

/-- A frame's packets are sent under its identifier. -/
theorem Frame.under (frame : Frame) : ∀ slot ∈ frame.slots, slot.send.pid = frame.pid :=
  (frame_slots_carry frame.pid frame.tspes frame.pts frame.head frame.written).1

/-- A frame has packets of the known streams only. -/
theorem Frame.known (frame : Frame) (written : Word) :
    ∀ send ∈ weave written frame.slots, Known send.pid :=
  weave_known frame.pid frame.elementary frame.slots written frame.under

/-- The session after the packets of a frame, before any clock is advanced. The
PES storage of the two streams is whatever the call left there. -/
def sentBy (session : TspkgSession) (frame : Frame) (video audio : TsPes) : TspkgSession :=
  { delivered session (weave session.writePacketNum frame.slots) (counted frame.slots) with
    mVideoTspes := video, mAudioTspes := audio }

/-- The adaptation field of a frame's first packet: slices carry a clock. -/
def headOf (session : TspkgSession) (call : Call) : TsAdaptationField :=
  if IsSlice call then writeAdaptiveFlagsHead uninitialised session.timestampVideo
  else writeAdaptiveFlagsTail uninitialised

/-- The adaptation field of a call is one of those that are written. -/
theorem head_of_written (session : TspkgSession) (call : Call) : Written (headOf session call) := by
  unfold headOf
  split
  · exact Or.inl ⟨_, _, rfl⟩
  · exact Or.inr ⟨_, rfl⟩

/-- The frame that belongs to a call of a session. -/
structure Belongs (session : TspkgSession) (call : Call) (frame : Frame) : Prop where
  length : frame.tspes.pesPacketLengthBeyond = call.pData.length
  pid : frame.pid = if call.iStreamType = 0 then tsAacPid else tsH264Pid
  pts : frame.pts = if call.iStreamType = 0 then session.timestampAudio else session.timestampVideo
  head : frame.head = headOf session call

/-- The clock update that follows a call's packets. -/
def advanceClock (session : TspkgSession) (call : Call) :
    Except (Fault × TspkgSession) TspkgSession :=
  if call.iStreamType = 0 then advanceAudioClock session call.framerate
  else if IsSlice call then advanceVideoClock session call.framerate call.pts
  else .ok session

/-- Sending a frame from a session whose PES storage was refilled. Both streams
use this: they differ in the packet, the identifier and the time stamp. -/
theorem pes2_ts_sends (session : TspkgSession) (frame : Frame) (video audio : TsPes)
    (tail : TsAdaptationField)
    (stream : streamPts frame.tspes session.timestampVideo session.timestampAudio =
      some frame.pts) :
    ∃ after answer, pes2Ts { session with mVideoTspes := video, mAudioTspes := audio } frame.tspes
        frame.pid frame.head tail session.timestampVideo session.timestampAudio =
      (sentBy session frame video audio, after, answer) := by
  obtain ⟨after, sent⟩ := pes2_ts_delivered
    { session with mVideoTspes := video, mAudioTspes := audio } frame.tspes frame.pid frame.head tail
    frame.written session.timestampVideo session.timestampAudio frame.pts stream
  exact ⟨after, _, sent⟩

/-- Audio frames are cut with the audio time stamp. -/
theorem write_audio_sends (session : TspkgSession) (call : Call) (audio : call.iStreamType = 0)
    (bounds : InBounds call) (some : call.pData ≠ []) :
    ∃ frame video after, Belongs session call frame ∧
      writeAudio session call = advanceClock (sentBy session frame video after) call := by
  obtain ⟨size, fits, _⟩ := bounds
  obtain ⟨es, packed, _⟩ := aac2_pes_inside session.mAudioTspes call.pData call.pData.length fits
    (Nat.le_refl _) session.timestampAudio
  have notSlice : ¬ IsSlice call := by simp [IsSlice, audio]
  let frame : Frame := ⟨fillPes es tsAacStreamId call.pData.length session.timestampAudio, tsAacPid,
    session.timestampAudio, headOf session call, Or.inr rfl, head_of_written session call⟩
  have taken : takeOutPes session.mAudioTspes session.timestampAudio 0x01 0 call.pData
      call.iDataSize = .ok (frame.tspes, 0, pesPos call.pData.length) := by
    simp only [takeOutPes, size, packed, bind, Except.bind, pure, Except.pure]
    rfl
  have length : frame.tspes.pesPacketLengthBeyond ≠ 0 := by
    simpa [frame, fillPes] using some
  obtain ⟨after, answer, sent⟩ := pes2_ts_sends session frame session.mVideoTspes frame.tspes
    (writeAdaptiveFlagsTail uninitialised) rfl
  refine ⟨frame, session.mVideoTspes, after, ⟨rfl, by simp [frame, audio], by simp [frame, audio],
    rfl⟩, ?_⟩
  have cut : pes2Ts { session with mAudioTspes := frame.tspes } frame.tspes tsAacPid
      (headOf session call) (writeAdaptiveFlagsTail uninitialised) session.timestampVideo
      session.timestampAudio =
        (sentBy session frame session.mVideoTspes frame.tspes, after, answer) := sent
  rw [headOf, if_neg notSlice] at cut
  simp only [writeAudio, taken, length, ne_eq, not_false_eq_true, ↓reduceIte, cut, advanceClock,
    audio]
  rfl

/-- Video frames are cut with the video time stamp; slices carry a clock
reference made from it, and only they advance the clock. -/
theorem write_video_sends (session : TspkgSession) (call : Call) (video : call.iStreamType = 1)
    (bounds : InBounds call) :
    ∃ frame after audio, Belongs session call frame ∧
      writeVideo session call = advanceClock (sentBy session frame after audio) call := by
  obtain ⟨size, fits, start⟩ := bounds
  obtain ⟨es, frametype, read, packed, _⟩ := h2642_pes_inside call.pData call.pData.length
    (start video) fits (Nat.le_refl _) session.timestampVideo 0
  have type : frametypeOf call = frametype := by
    simp only [frametypeOf, size, read]
  let frame : Frame := ⟨fillPes es tsH264StreamId call.pData.length session.timestampVideo,
    tsH264Pid, session.timestampVideo, headOf session call, Or.inl rfl,
    head_of_written session call⟩
  have taken : takeOutPes session.mVideoTspes session.timestampVideo 0x00 0 call.pData
      call.iDataSize = .ok (frame.tspes, frametype, pesPos call.pData.length) := by
    simp only [takeOutPes, size, packed, ↓reduceIte]
    rfl
  have length : frame.tspes.pesPacketLengthBeyond ≠ 0 := by
    have long := start video
    simp only [frame, fillPes]
    omega
  have belongs : Belongs session call frame :=
    ⟨rfl, by simp [frame, video], by simp [frame, video], rfl⟩
  obtain ⟨after, answer, sent⟩ := pes2_ts_sends session frame frame.tspes session.mAudioTspes
    (writeAdaptiveFlagsTail uninitialised) rfl
  have cut : pes2Ts { session with mVideoTspes := frame.tspes } frame.tspes tsH264Pid
      (headOf session call) (writeAdaptiveFlagsTail uninitialised) session.timestampVideo
      session.timestampAudio =
        (sentBy session frame frame.tspes session.mAudioTspes, after, answer) := sent
  refine ⟨frame, after, session.mAudioTspes, belongs, ?_⟩
  by_cases slice : IsSlice call
  · have kind : frametype = frameI ∨ frametype = frameP ∨ frametype = frameB := type ▸ slice.2
    rw [headOf, if_pos slice] at cut
    simp only [writeVideo, taken, length, kind, ne_eq, not_false_eq_true, ↓reduceIte, cut,
      advanceClock, video, slice]
    rfl
  · have kind : ¬ (frametype = frameI ∨ frametype = frameP ∨ frametype = frameB) := by
      rw [← type]
      exact fun found => slice ⟨video, found⟩
    rw [headOf, if_neg slice] at cut
    simp only [writeVideo, taken, length, kind, ne_eq, not_false_eq_true, ↓reduceIte, cut,
      advanceClock, video, slice]
    rfl

/-- A call without a frame sends nothing and advances no clock. -/
theorem quiet_call (session : TspkgSession) (call : Call) (bounds : InBounds call)
    (quiet : ¬ Carries call) :
    ∃ audio, writeBuf2TsFile session call = .ok { session with mAudioTspes := audio } := by
  by_cases audio : call.iStreamType = 0
  · have empty : call.pData = [] := by
      simpa [Carries, audio] using quiet
    obtain ⟨size, fits, _⟩ := bounds
    obtain ⟨es, packed, _⟩ := aac2_pes_inside session.mAudioTspes call.pData call.pData.length fits
      (Nat.le_refl _) session.timestampAudio
    refine ⟨fillPes es tsAacStreamId call.pData.length session.timestampAudio, ?_⟩
    have one : (0x01 : Word) ≠ 0x00 := by decide
    simp only [writeBuf2TsFile, audio, ↓reduceIte, writeAudio, takeOutPes, one, size, packed, bind,
      Except.bind, pure, Except.pure]
    rw [if_neg (by simp [fillPes, empty])]
  · have video : call.iStreamType ≠ 1 := by
      intro video
      have start := bounds.2.2 video
      have empty : call.pData = [] := by simpa [Carries, video] using quiet
      simp [empty] at start
    exact ⟨session.mAudioTspes, by simp [writeBuf2TsFile, audio, video]⟩

/-- A call with a frame sends that frame and then advances the clock. -/
theorem carrying_call (session : TspkgSession) (call : Call) (bounds : InBounds call)
    (carries : Carries call) :
    ∃ frame video audio, Belongs session call frame ∧
      writeBuf2TsFile session call = advanceClock (sentBy session frame video audio) call := by
  rcases carries with ⟨audio | video, some⟩
  · simpa [writeBuf2TsFile, audio] using write_audio_sends session call audio bounds some
  · simpa [writeBuf2TsFile, video] using write_video_sends session call video bounds

/-- Advancing a clock changes the clocks and the last caller time alone. -/
theorem advance_clock_kept (session : TspkgSession) (call : Call) :
    ∃ video audio pts, Runs.last (advanceClock session call) =
      { session with timestampVideo := video, timestampAudio := audio, pts := pts } := by
  unfold advanceClock advanceAudioClock advanceVideoClock
  split
  · split <;> exact ⟨_, _, _, rfl⟩
  split
  · split
    · exact ⟨_, _, _, rfl⟩
    · dsimp only
      split
      · exact ⟨_, _, _, rfl⟩
      · split <;> exact ⟨_, _, _, rfl⟩
  · exact ⟨_, _, _, rfl⟩

/-- What a call with a frame hands to the callback, whether or not a clock stops
it afterwards. -/
theorem carrying_received (session : TspkgSession) (call : Call) (bounds : InBounds call)
    (carries : Carries call) (callback : session.writets = true) :
    ∃ frame, Belongs session call frame ∧
      (Runs.last (writeBuf2TsFile session call)).received =
        session.received ++ stamp session.continuityCounter
          (weave session.writePacketNum frame.slots) := by
  obtain ⟨frame, video, audio, belongs, sent⟩ := carrying_call session call bounds carries
  obtain ⟨_, _, _, kept⟩ := advance_clock_kept (sentBy session frame video audio) call
  refine ⟨frame, belongs, ?_⟩
  rw [sent, kept]
  simp [sentBy, delivered, callback]

/-- A slice has a frame to send. -/
theorem slice_carries (call : Call) (bounds : InBounds call) (slice : IsSlice call) :
    Carries call := by
  refine ⟨Or.inr slice.1, ?_⟩
  intro empty
  have start := bounds.2.2 slice.1
  simp [empty] at start

/-- A call that is no slice returns when its rate is not zero. -/
theorem steady_call (session : TspkgSession) (call : Call) (bounds : InBounds call)
    (rate : call.framerate ≠ 0) (other : ¬ IsSlice call) :
    ∃ after, writeBuf2TsFile session call = .ok after := by
  by_cases carries : Carries call
  · obtain ⟨frame, video, audio, _, sent⟩ := carrying_call session call bounds carries
    rw [sent]
    by_cases sound : call.iStreamType = 0
    · simp only [advanceClock, sound, ↓reduceIte, advanceAudioClock, divide, rate]
      exact ⟨_, rfl⟩
    · simp only [advanceClock, sound, other, ↓reduceIte]
      exact ⟨_, rfl⟩
  · obtain ⟨audio, quiet⟩ := quiet_call session call bounds carries
    exact ⟨_, quiet⟩

/-- A clock that stopped at a division. -/
theorem divide_stops (dividend divisor : Word) (fault : Fault) (session : TspkgSession)
    (stop : Fault × TspkgSession) (cause : divide dividend divisor = .error fault)
    (stopped : (.error (fault, session) : Except (Fault × TspkgSession) TspkgSession) =
      .error stop) : stop.1 = .divisionByZero := by
  rw [← Except.error.inj stopped]
  unfold divide at cause
  split at cause
  · exact (Except.error.inj cause).symm
  · cases cause

/-- A clock stops at a division only. -/
theorem advance_clock_stops (session : TspkgSession) (call : Call) (stop : Fault × TspkgSession)
    (stopped : advanceClock session call = .error stop) : stop.1 = .divisionByZero := by
  unfold advanceClock advanceAudioClock advanceVideoClock at stopped
  split at stopped
  · split at stopped
    · rename_i cause
      exact divide_stops _ _ _ _ stop cause stopped
    · cases stopped
  split at stopped
  · split at stopped
    · rename_i cause
      exact divide_stops _ _ _ _ stop cause stopped
    · dsimp only at stopped
      split at stopped
      · rename_i cause
        exact divide_stops _ _ _ _ stop cause stopped
      · split at stopped
        · rename_i cause
          exact divide_stops _ _ _ _ stop cause stopped
        · cases stopped
  · cases stopped

/-- Only a division stops a call whose buffer fits. -/
theorem call_stops (session : TspkgSession) (call : Call) (bounds : InBounds call)
    (stop : Fault × TspkgSession) (stopped : writeBuf2TsFile session call = .error stop) :
    stop.1 = .divisionByZero := by
  by_cases carries : Carries call
  · obtain ⟨frame, video, audio, _, sent⟩ := carrying_call session call bounds carries
    rw [sent] at stopped
    exact advance_clock_stops _ call stop stopped
  · obtain ⟨audio, quiet⟩ := quiet_call session call bounds carries
    rw [quiet] at stopped
    cases stopped

/-- A run of such calls returns or stops at a division. -/
theorem run_outcome (session : TspkgSession) (calls : List Call)
    (bounds : ∀ call ∈ calls, InBounds call) :
    (∃ after, Runs.run writeBuf2TsFile session calls = .ok after) ∨
      ∃ stopped, Runs.run writeBuf2TsFile session calls = .error (.divisionByZero, stopped) := by
  cases outcome : Runs.run writeBuf2TsFile session calls with
  | ok after => exact Or.inl ⟨after, rfl⟩
  | error stop =>
    obtain ⟨fault, stopped⟩ := stop
    obtain ⟨before, call, member, cause⟩ := Runs.run_stop session calls _ outcome
    obtain rfl : fault = .divisionByZero := call_stops before call (bounds call member) _ cause
    exact Or.inr ⟨stopped, rfl⟩

end IotCamera.Steps
