import Mathlib.Data.Rat.Cast.Order
import Mathlib.Tactic.FieldSimp
import Mathlib.Tactic.Positivity
import Mathlib.Tactic.LinearCombination
import IotCamera.Ts.VideoClock

/-!
# The audio clock

After each audio frame the clock is advanced by the whole ticks of 1024 samples
at the caller's sample rate. The fraction of a tick that the quotient drops is
dropped again for every frame, so the clock falls behind the media time by that
fraction times the number of frames. It stays within a tick of the media time
exactly as long as the dropped fractions do not add up to one.
-/

namespace IotCamera.AudioClock

open Memory Packet Pes Mux Steps VideoClock ClockReference

/-- A call that writes an audio frame. -/
def IsAudio (call : Call) : Prop := call.iStreamType = 0 ∧ call.pData ≠ []

instance (call : Call) : Decidable (IsAudio call) := inferInstanceAs (Decidable (_ ∧ _))

/-- The audio frames among some calls. -/
def audioFrames (calls : List Call) : Nat := (calls.filter IsAudio).length

/-- The exact time that frames of 1024 samples take, in ticks of 90 kHz. -/
def mediaTime (rate frames : Nat) : ℚ := frames * 1024 * 90000 / rate

/-- A call that returns has advanced the audio clock by the step of its own rate
if it wrote an audio frame, and has left the clock alone otherwise. -/
theorem call_audio_clock (session next : TspkgSession) (call : Call) (bounds : InBounds call)
    (returned : writeBuf2TsFile session call = .ok next) :
    next.timestampAudio = session.timestampAudio +
      if IsAudio call then 1024 * 1000 * 90 / call.framerate else 0#32 := by
  by_cases carries : Carries call
  · obtain ⟨frame, video, audio, _, sent⟩ := carrying_call session call bounds carries
    rw [sent, advanceClock] at returned
    by_cases sound : call.iStreamType = 0
    · have frame : IsAudio call := ⟨sound, carries.2⟩
      rw [if_pos sound, advanceAudioClock] at returned
      split at returned
      · cases returned
      · rename_i step divided
        unfold divide at divided
        split at divided
        · cases divided
        · rw [← Except.ok.inj returned, ← Except.ok.inj divided, if_pos frame]
          rfl
    · have other : ¬ IsAudio call := fun frame => sound frame.1
      rw [if_neg sound] at returned
      rw [if_neg other, BitVec.add_zero]
      by_cases slice : IsSlice call
      · rw [if_pos slice] at returned
        obtain ⟨rate, apart⟩ := advance_video_clock_returns _ _ _ _ returned
        rw [advance_video_clock_apart _ _ _ rate apart] at returned
        rw [← Except.ok.inj returned]
        rfl
      · rw [if_neg slice] at returned
        rw [← Except.ok.inj returned]
        rfl
  · have other : ¬ IsAudio call := fun frame => carries ⟨Or.inl frame.1, frame.2⟩
    obtain ⟨audio, quiet⟩ := quiet_call session call bounds carries
    rw [quiet] at returned
    rw [← Except.ok.inj returned, if_neg other, BitVec.add_zero]

/-- The audio clock after a run at one sample rate: one truncated step for each
audio frame. -/
theorem run_audio_clock (session after : TspkgSession) (calls : List Call) (rate : Word)
    (bounds : ∀ call ∈ calls, InBounds call)
    (sampled : ∀ call ∈ calls, IsAudio call → call.framerate = rate)
    (returned : Runs.run writeBuf2TsFile session calls = .ok after) :
    after.timestampAudio =
      session.timestampAudio + BitVec.ofNat 32 (audioFrames calls * (92160000 / rate.toNat)) := by
  induction calls generalizing session with
  | nil =>
    obtain rfl : session = after := Except.ok.inj returned
    simp [audioFrames]
  | cons call rest inductionHypothesis =>
    cases outcome : writeBuf2TsFile session call with
    | error stop =>
      rw [Runs.run_error session call rest stop outcome] at returned
      cases returned
    | ok next =>
      rw [Runs.run_ok session next call rest outcome] at returned
      have later := inductionHypothesis next
        (fun other member => bounds other (List.mem_cons_of_mem call member))
        (fun other member => sampled other (List.mem_cons_of_mem call member)) returned
      have clock := call_audio_clock session next call (bounds call List.mem_cons_self) outcome
      rw [later, clock]
      by_cases frame : IsAudio call
      · have step : (1024 * 1000 * 90 / rate : Word) = BitVec.ofNat 32 (92160000 / rate.toNat) := by
          apply BitVec.eq_of_toNat_eq
          rw [BitVec.toNat_udiv, BitVec.toNat_ofNat,
            show (1024 * 1000 * 90 : Word).toNat = 92160000 from rfl, Nat.mod_eq_of_lt]
          exact Nat.lt_of_le_of_lt (Nat.div_le_self _ _) (by decide)
        have count : audioFrames (call :: rest) = audioFrames rest + 1 := by
          simp [audioFrames, frame]
        rw [if_pos frame, sampled call List.mem_cons_self frame, step, count, Nat.succ_mul,
          BitVec.ofNat_add, BitVec.add_assoc, BitVec.add_comm (BitVec.ofNat 32 _)]
      · have count : audioFrames (call :: rest) = audioFrames rest := by
          simp [audioFrames, frame]
        rw [if_neg frame, BitVec.add_zero, count]

/-- Truncated steps fall behind the media time by what the quotient drops. -/
theorem truncation_within_tick (rate frames : Nat) (positive : 0 < rate) :
    |((frames * (92160000 / rate) : Nat) : ℚ) - mediaTime rate frames| < 1 ↔
      frames * (92160000 % rate) < rate := by
  have parts : (92160000 : ℚ) = rate * (92160000 / rate : Nat) + (92160000 % rate : Nat) := by
    exact_mod_cast (Nat.div_add_mod 92160000 rate).symm
  have above : (0 : ℚ) < rate := by exact_mod_cast positive
  have behind : ((frames * (92160000 / rate) : Nat) : ℚ) - mediaTime rate frames =
      -((frames * (92160000 % rate) : Nat) / rate : ℚ) := by
    unfold mediaTime
    push_cast
    field_simp
    linear_combination (-(frames : ℚ)) * parts
  rw [behind, abs_neg, abs_of_nonneg (by positivity), div_lt_one above]
  exact_mod_cast Iff.rfl

/-- A run of audio frames at one sample rate, with any video calls the clock can
follow in between, leaves the audio clock within a tick of the media time exactly
when the fractions dropped by its frames add up to less than a tick. -/
theorem audio_clock_within_tick_iff (session : TspkgSession) (rate : Word) (calls : List Call)
    (fresh : session.timestampAudio = 0) (bounds : ∀ call ∈ calls, InBounds call)
    (rates : ∀ call ∈ calls, call.framerate ≠ 0) (spaced : Spaced session.pts calls)
    (positive : rate ≠ 0) (sampled : ∀ call ∈ calls, IsAudio call → call.framerate = rate)
    (unwrapped : audioFrames calls * (92160000 / rate.toNat) < 2 ^ 32) :
    ∃ after, Runs.run writeBuf2TsFile session calls = .ok after ∧
      (|(after.timestampAudio.toNat : ℚ) - mediaTime rate.toNat (audioFrames calls)| < 1 ↔
        audioFrames calls * (92160000 % rate.toNat) < rate.toNat) := by
  obtain ⟨after, returned⟩ := (run_returns_iff_spaced session calls bounds rates).mpr spaced
  have above : 0 < rate.toNat := by
    apply Nat.pos_of_ne_zero
    intro zero
    exact positive (BitVec.eq_of_toNat_eq zero)
  have clock : after.timestampAudio.toNat = audioFrames calls * (92160000 / rate.toNat) := by
    rw [run_audio_clock session after calls rate bounds sampled returned, fresh,
      show (0 : Word) = 0#32 from rfl, BitVec.zero_add, BitVec.toNat_ofNat,
      Nat.mod_eq_of_lt unwrapped]
  refine ⟨after, returned, ?_⟩
  rw [clock]
  exact truncation_within_tick rate.toNat (audioFrames calls) above

/-- An audio frame of one byte at a sample rate. -/
def audioAt (rate : Word) : Call := ⟨rate, 0, 0, [0x21], 1⟩

/-- At 48000 samples per second nothing is dropped. -/
theorem audio_clock_exact_rate :
    ∃ after, Runs.run writeBuf2TsFile (clockedSession 0) [audioAt 48000, sliceAt 40, audioAt 48000] =
        .ok after ∧
      (|(after.timestampAudio.toNat : ℚ) - mediaTime (48000 : Word).toNat
          (audioFrames [audioAt 48000, sliceAt 40, audioAt 48000])| < 1 ↔
        audioFrames [audioAt 48000, sliceAt 40, audioAt 48000] * (92160000 % (48000 : Word).toNat) <
          (48000 : Word).toNat) :=
  audio_clock_within_tick_iff (clockedSession 0) 48000 [audioAt 48000, sliceAt 40, audioAt 48000] rfl
    (by decide) (by decide) (by decide +kernel) (by decide) (by decide) (by decide)

/-- At 44100 samples per second two frames already lie more than a tick behind. -/
theorem audio_clock_drifts :
    ∃ after, Runs.run writeBuf2TsFile (clockedSession 0) [audioAt 44100, audioAt 44100] =
        .ok after ∧
      after.timestampAudio = 4178 ∧
      ¬ |(after.timestampAudio.toNat : ℚ) - mediaTime 44100 2| < 1 := by
  obtain ⟨after, returned⟩ := (run_returns_iff_spaced (clockedSession 0)
    [audioAt 44100, audioAt 44100] (by decide) (by decide)).mpr (by decide +kernel)
  have clock : after.timestampAudio = 4178 :=
    run_audio_clock _ after _ 44100 (by decide) (by decide) returned
  refine ⟨after, returned, clock, ?_⟩
  rw [clock, show (4178 : Word).toNat = 2 * (92160000 / 44100) from rfl,
    truncation_within_tick 44100 2 (by decide)]
  decide

end IotCamera.AudioClock
